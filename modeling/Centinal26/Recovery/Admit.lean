/-
What a restore checks before it changes anything, said of the files themselves: a
snapshot that verifies, a destination without sidecars, and for a destination that is
there the hash the caller expects and a free place to keep its bytes.
-/
import Centinal26.Recovery.Restore

namespace Centinal26.Recovery

open Py Steps

variable {E : Sqlite} {H : Host} {c : Call}

-- == single looks

variable {op : Op} {u : Unit} {path : Path} {v : Verification}

theorem attempt_ok_iff : attempt H op = .ok u ↔ H.failure op = none := by
  unfold attempt
  cases H.failure op with
  | none => exact ⟨fun _ => rfl, fun _ => rfl⟩
  | some f => exact ⟨nofun, nofun⟩

variable {d : Disk} {snap : Bytes}

theorem regularFile_ok_iff {label : String} {bytes : Bytes} :
    regularFile d path label = .ok bytes ↔ d.node path = some (.file bytes) := by
  unfold regularFile
  split
  · next b h =>
    rw [h]
    exact ⟨fun h => by rw [Except.ok.inj h], fun h => by cases h; rfl⟩
  · next h => exact ⟨nofun, fun hnode => absurd hnode (h bytes)⟩

theorem verify_ok_iff : verifySqliteDatabase E H op d path = .ok v
      ↔ ∃ bytes, d.node path = some (.file bytes) ∧ H.failure op = none
          ∧ E.verify bytes = some v.passes ∧ v.sha256 = E.sha256 bytes := by
  unfold verifySqliteDatabase
  rw [bind_ok_iff]
  constructor
  · rintro ⟨bytes, hfile, h⟩
    obtain ⟨passes, hpasses, h⟩ := of_bind_ok h
    obtain ⟨u, hop, hpasses⟩ := of_bind_ok (of_mapError_ok hpasses)
    cases h
    refine ⟨bytes, regularFile_ok_iff.mp hfile, attempt_ok_iff.mp hop, ?_, rfl⟩
    cases hverify : E.verify bytes with
    | none => rw [hverify] at hpasses; cases hpasses
    | some p =>
      rw [hverify] at hpasses
      exact congrArg some (Except.ok.inj hpasses)
  · rintro ⟨bytes, hfile, hop, hverify, hsha⟩
    refine ⟨bytes, regularFile_ok_iff.mpr hfile, ?_⟩
    rw [(attempt_ok_iff (u := ())).mpr hop, bind_ok_eq, hverify, ← hsha]
    rfl

theorem pathExists_eq_false {p : Path} :
    d.pathExists p = false ∧ d.isSymlink p = false ↔ d.node p = none := by
  unfold Disk.pathExists Disk.isSymlink
  cases d.node p with
  | none => exact ⟨fun _ => rfl, fun _ => ⟨rfl, rfl⟩⟩
  | some n => cases n <;> simp

-- == the checks

variable (E H c)

/-- What must hold of the destination, by the bytes it has. -/
def Unoccupied (d : Disk) : Option Bytes → Prop
  | none => d.node c.destination = none
  | some current => d.node c.destination = some (.file current)
      ∧ c.expected = some (E.sha256 current)
      ∧ d.node (preservedPath c.destination (E.sha256 current)) = none
      ∧ H.failure .hashCurrent = none ∧ H.failure .statPreserved = none

/-- A restore may go on from this disk, with these bytes in the snapshot and, if there
is a destination, those in it. -/
structure Admits (d : Disk) (snap : Bytes) (previous : Option Bytes) : Prop where
  looked : ∀ op ∈ [Op.statSnapshot, .verifySnapshot, .statDestination, .mkdir, .statSidecars,
    .statCurrent], H.failure op = none
  snapshot : d.node c.snapshot = some (.file snap)
  passes : E.verify snap = some true
  free : ∀ p ∈ sidecars c.destination, d.pathExists p = false
  current : Unoccupied E H c d previous

def admittedOf (snap : Bytes) (previous : Option Bytes) : Admitted where
  snapshot := ⟨true, E.sha256 snap⟩
  previous := previous.map fun current =>
    (preservedPath c.destination (E.sha256 current), current)

variable {E H c}

theorem preflightSnapshot_ok_iff : preflightSnapshot E H c d = .ok v
      ↔ H.failure .statSnapshot = none ∧ H.failure .verifySnapshot = none
        ∧ ∃ snap, d.node c.snapshot = some (.file snap) ∧ E.verify snap = some true
          ∧ v = ⟨true, E.sha256 snap⟩ := by
  unfold preflightSnapshot
  constructor
  · intro h
    obtain ⟨_, hstat, h⟩ := of_bind_ok h
    obtain ⟨_, _, h⟩ := of_bind_ok h
    obtain ⟨⟨passes, sha⟩, hv, h⟩ := of_bind_ok h
    obtain ⟨snap, hfile, hop, hverify, hsha⟩ := verify_ok_iff.mp hv
    cases passes with
    | false => cases h
    | true =>
      cases h
      cases hsha
      exact ⟨attempt_ok_iff.mp hstat, hop, snap, hfile, hverify, rfl⟩
  · rintro ⟨hstat, hop, snap, hfile, hverify, rfl⟩
    rw [(attempt_ok_iff (u := ())).mpr hstat, bind_ok_eq, regularFile_ok_iff.mpr hfile,
      bind_ok_eq, (verify_ok_iff (v := ⟨true, E.sha256 snap⟩)).mpr ⟨snap, hfile, hop, hverify, rfl⟩]
    rfl

theorem preflightDestination_ok_iff : preflightDestination H c d = .ok u
      ↔ H.failure .statDestination = none ∧ H.failure .mkdir = none
        ∧ H.failure .statSidecars = none ∧ d.isSymlink c.destination = false
        ∧ ∀ p ∈ sidecars c.destination, d.pathExists p = false := by
  have hany : (sidecars c.destination).any d.pathExists = false
      ↔ ∀ p ∈ sidecars c.destination, d.pathExists p = false := by
    simp [List.any_eq_false]
  rw [← hany]
  unfold preflightDestination attempt
  cases H.failure .statDestination with
  | some f => exact ⟨nofun, fun h => (by cases h.1)⟩
  | none =>
  cases d.isSymlink c.destination with
  | true => exact ⟨nofun, fun h => (by cases h.2.2.2.1)⟩
  | false =>
  cases H.failure .mkdir with
  | some f => exact ⟨nofun, fun h => (by cases h.2.1)⟩
  | none =>
  cases H.failure .statSidecars with
  | some f => exact ⟨nofun, fun h => (by cases h.2.2.1)⟩
  | none =>
  cases (sidecars c.destination).any d.pathExists with
  | true => exact ⟨nofun, fun h => (by cases h.2.2.2.2)⟩
  | false => exact ⟨fun _ => ⟨rfl, rfl, rfl, rfl, rfl⟩, fun _ => rfl⟩

theorem preflightCurrent_ok_iff (hlink : d.isSymlink c.destination = false)
    {p : Option (Path × Bytes)} : preflightCurrent E H c d = .ok p ↔ H.failure .statCurrent = none
        ∧ ∃ previous, Unoccupied E H c d previous ∧ p = (admittedOf E c [] previous).previous := by
  unfold preflightCurrent
  rw [bind_ok_iff]
  simp only [attempt_ok_iff]
  constructor
  · rintro ⟨_, hstat, h⟩
    refine ⟨hstat, ?_⟩
    cases hexists : d.pathExists c.destination with
    | false =>
      rw [hexists] at h
      cases h
      exact ⟨none, pathExists_eq_false.mp ⟨hexists, hlink⟩, rfl⟩
    | true =>
      rw [hexists, if_pos rfl] at h
      obtain ⟨current, hfile, h⟩ := of_bind_ok h
      cases hexpected : c.expected with
      | none => rw [hexpected] at h; cases h
      | some expected =>
        rw [hexpected] at h
        obtain ⟨_, hhash, h⟩ := of_bind_ok h
        by_cases hsha : E.sha256 current = expected
        · simp only [hsha, ne_eq, not_true_eq_false, if_false] at h
          obtain ⟨_, hplace, h⟩ := of_bind_ok h
          split at h
          · cases h
          · next hfree =>
            rw [Bool.not_eq_true, Bool.or_eq_false_iff, pathExists_eq_false] at hfree
            cases h
            cases hsha
            exact ⟨some current, ⟨regularFile_ok_iff.mp hfile, hexpected, hfree,
              attempt_ok_iff.mp hhash, attempt_ok_iff.mp hplace⟩, rfl⟩
        · simp only [ne_eq, hsha, not_false_eq_true, if_true] at h
          cases h
  · rintro ⟨hstat, previous, hcurrent, rfl⟩
    refine ⟨(), hstat, ?_⟩
    cases previous with
    | none =>
      rw [(pathExists_eq_false.mpr hcurrent).1]
      rfl
    | some current =>
      obtain ⟨hfile, hexpected, hfree, hhash, hplace⟩ := hcurrent
      have hexists : d.pathExists c.destination = true := by
        unfold Disk.pathExists
        rw [hfile]
      rw [hexists, if_pos rfl, regularFile_ok_iff.mpr hfile, bind_ok_eq, hexpected]
      simp only [(attempt_ok_iff (u := ())).mpr hhash, bind_ok_eq, ne_eq, not_true_eq_false,
        if_false, (attempt_ok_iff (u := ())).mpr hplace, (pathExists_eq_false.mpr hfree).1,
        (pathExists_eq_false.mpr hfree).2, Bool.or_self, Bool.false_eq_true]
      rfl

theorem Unoccupied.not_symlink {previous : Option Bytes}
    (h : Unoccupied E H c d previous) : d.isSymlink c.destination = false := by
  unfold Disk.isSymlink
  cases previous with
  | none => rw [show d.node c.destination = none from h]
  | some current => rw [h.1]

theorem preflight_ok_iff {a : Admitted} : preflight E H c d = .ok a
      ↔ ∃ snap previous, Admits E H c d snap previous ∧ a = admittedOf E c snap previous := by
  unfold preflight
  constructor
  · intro h
    obtain ⟨v, hsnapshot, h⟩ := of_bind_ok h
    obtain ⟨_, hdestination, h⟩ := of_bind_ok h
    obtain ⟨p, hcurrent, h⟩ := of_bind_ok h
    obtain ⟨hstat, hverify, snap, hsnap, hpasses, rfl⟩ := preflightSnapshot_ok_iff.mp hsnapshot
    obtain ⟨hdest, hmkdir, hside, hlink, hfree⟩ := preflightDestination_ok_iff.mp hdestination
    obtain ⟨hthere, previous, hprevious, rfl⟩ := (preflightCurrent_ok_iff hlink).mp hcurrent
    cases h
    refine ⟨snap, previous, ⟨?_, hsnap, hpasses, hfree, hprevious⟩, rfl⟩
    simp [hstat, hverify, hdest, hmkdir, hside, hthere]
  · rintro ⟨snap, previous, h, rfl⟩
    have hlink := h.current.not_symlink
    have hlooked := h.looked
    simp only [List.mem_cons, List.not_mem_nil, or_false, forall_eq_or_imp, forall_eq] at hlooked
    obtain ⟨hstat, hverify, hdest, hmkdir, hside, hthere⟩ := hlooked
    rw [preflightSnapshot_ok_iff.mpr ⟨hstat, hverify, snap, h.snapshot, h.passes, rfl⟩, bind_ok_eq,
      (preflightDestination_ok_iff (u := ())).mpr ⟨hdest, hmkdir, hside, hlink, h.free⟩, bind_ok_eq,
      (preflightCurrent_ok_iff hlink).mpr ⟨hthere, previous, h.current, rfl⟩]
    rfl

-- == from disk to disk

theorem Admits.fair {previous : Option Bytes}
    (h : Admits E H c d snap previous) {H' : Host} (hfair : H'.Fair) :
    Admits E H' c d snap previous := by
  refine ⟨fun op _ => hfair op, h.snapshot, h.passes, h.free, ?_⟩
  cases previous with
  | none => exact h.current
  | some current =>
    obtain ⟨hfile, hexpected, hfree, -, -⟩ := h.current
    exact ⟨hfile, hexpected, hfree, hfair _, hfair _⟩

theorem Admits.unique {snap' : Bytes} {previous previous' : Option Bytes}
    (h : Admits E H c d snap previous) (h' : Admits E H c d snap' previous') :
    snap = snap' ∧ previous = previous' := by
  have hsnap : snap = snap' := by
    cases h.snapshot.symm.trans h'.snapshot
    rfl
  refine ⟨hsnap, ?_⟩
  have hcurrent := h.current
  have hcurrent' := h'.current
  cases previous with
  | none =>
    cases previous' with
    | none => rfl
    | some other => cases hcurrent.symm.trans hcurrent'.1
  | some current =>
    cases previous' with
    | none => cases hcurrent.1.symm.trans hcurrent'
    | some other =>
      cases hcurrent.1.symm.trans hcurrent'.1
      rfl

theorem Admits.same {d' : Disk} {previous : Option Bytes}
    (h : Admits E H c d snap previous) (hsame : SameBut [temporaryPath c.destination] d d')
    (hsnap : d'.node c.snapshot = d.node c.snapshot) : Admits E H c d' snap previous := by
  have hother : ∀ {p : Path}, p ≠ temporaryPath c.destination → d'.node p = d.node p :=
    fun hp => hsame _ fun hmem => hp (List.mem_singleton.mp hmem)
  have hdest := hother (temporary_ne_destination c.destination).symm
  refine ⟨h.looked, hsnap.trans h.snapshot, h.passes, fun p hp => ?_, ?_⟩
  · have hfree := h.free p hp
    unfold Disk.pathExists at hfree ⊢
    rw [hother (sidecar_ne_temporary c.destination hp)]
    exact hfree
  · cases previous with
    | none => exact hdest.trans h.current
    | some current =>
      obtain ⟨hfile, hexpected, hfree, hhash, hplace⟩ := h.current
      exact ⟨hdest.trans hfile, hexpected,
        (hother (preserved_ne_temporary c.destination _)).trans hfree, hhash, hplace⟩

theorem Admits.taken {current : Bytes} {previous : Option Bytes}
    (h : Admits E H c d snap previous) (hfile : d.node c.destination = some (.file current))
    (htaken : d.node (preservedPath c.destination (E.sha256 current)) ≠ none) : False := by
  have hcurrent := h.current
  cases previous with
  | none => rw [show d.node c.destination = none from hcurrent] at hfile; cases hfile
  | some other =>
    obtain ⟨hother, -, hfree, -, -⟩ := hcurrent
    cases hother.symm.trans hfile
    exact htaken hfree

end Centinal26.Recovery
