/-
When a restore is all or nothing.
-/
import Centinal26.Recovery.Build

namespace Centinal26.Recovery

open Py Steps

variable (E : Sqlite) (H : Host) (c : Call)

-- == promises

/-- If the checks passed before, they pass after, where nothing fails. -/
def Unrefused (d d' : Disk) : Prop :=
  ∀ H' : Host, H'.Fair → (∃ a, preflight E H' c d = .ok a) → ∃ a, preflight E H' c d' = .ok a

/-- What a restore that returns has done. -/
structure Restores (d : Disk) (r : Restored) (d' : Disk) : Prop where
  verifies : ∃ bytes snap, d'.node c.destination = some (.file bytes)
    ∧ E.verify bytes = some true ∧ d.node c.snapshot = some (.file snap)
    ∧ E.sha256 bytes = E.sha256 snap ∧ r.restoredSha256 = E.sha256 snap
  /-- a destination that was there is kept -/
  preserved : ∀ node, d.node c.destination = some node → ∃ current path,
    node = .file current ∧ r.preservedPreviousPath = some path ∧ d'.node path = some (.file current)
  /-- no earlier copy is touched -/
  kept : ∀ mark, d.node (preservedAs c.destination mark) ≠ none →
    d'.node (preservedAs c.destination mark) = d.node (preservedAs c.destination mark)

/-- What is asked of a restore from a disk. -/
def AllOrNothing (d : Disk) : Prop :=
  match restoreSqliteSnapshot E H c d with
  | (.ok r, d') => Restores E c d r d'
  | (.error _, d') => d'.node c.destination = d.node c.destination ∧ Unrefused E c d d'

/-- The new database takes the destination's place and is found to be the snapshot. -/
structure Finishes (d : Disk) (snap : Bytes) : Prop extends Replaces E H c d where
  cleaned : H.failure .unlinkTemporary = none
  looked : H.failure .verifyDestination = none
  equal : E.sha256 H.copied = E.sha256 snap

/-- When a restore that is let through is all or nothing: with a destination to preserve,
where the copy is not begun or all goes well; without one, also where the destination is not
replaced, unless the snapshot was lost as a stale temporary file. -/
def Completes (d : Disk) (snap : Bytes) : Option Bytes → Prop
  | some _ => H.failure .openCopy ≠ none
      ∨ H.failure .writeCopy = none ∧ H.failure .chmodCopy = none ∧ Finishes E H c d snap
  | none => Finishes E H c d snap ∨ ¬ Replaces E H c d
        ∧ (c.snapshot ≠ temporaryPath c.destination ∨ H.failure .unlinkStale ≠ none)

variable {E H c} {d : Disk} {snap : Bytes} {previous : Option Bytes}

-- == refusals

/-- The host of a call on which nothing fails. -/
def Host.calm (H : Host) : Host := { H with failure := fun _ => none }

theorem Host.calm_fair (H : Host) : H.calm.Fair := fun _ => rfl

variable {d' : Disk} {current : Bytes}

theorem unrefused_of_same (hsame : SameBut [temporaryPath c.destination] d d')
    (hsnap : d'.node c.snapshot = d.node c.snapshot) : Unrefused E c d d' := by
  rintro H' - ⟨a, ha⟩
  obtain ⟨snap, previous, h, -⟩ := preflight_ok_iff.mp ha
  exact ⟨_, preflight_ok_iff.mpr ⟨snap, previous, h.same hsame hsnap, rfl⟩⟩

theorem unrefused_admits (h : Unrefused E c d d') (ha : Admits E H c d snap previous) :
    ∃ snap' previous', Admits E H.calm c d' snap' previous' := by
  obtain ⟨a, ha'⟩ := h H.calm H.calm_fair
    ⟨_, preflight_ok_iff.mpr ⟨snap, previous, ha.fair H.calm_fair, rfl⟩⟩
  obtain ⟨snap', previous', h', -⟩ := preflight_ok_iff.mp ha'
  exact ⟨snap', previous', h'⟩

theorem refused_of_copy (ha : Admits E H c d snap (some current))
    (hcopy : d'.node (preservedPath c.destination (E.sha256 current)) ≠ none) :
    ¬ (d'.node c.destination = d.node c.destination ∧ Unrefused E c d d') := by
  rintro ⟨hsame, hlater⟩
  obtain ⟨snap', previous', h'⟩ := unrefused_admits hlater ha
  exact h'.taken (hsame.trans ha.current.1) hcopy

-- == the parts

theorem restore_eq_error {e : RecoveryError} (h : preflight E H c d = .error e) :
    restoreSqliteSnapshot E H c d = (.error e, d) := by
  unfold restoreSqliteSnapshot
  rw [look_bind, h]

theorem restore_eq (h : Admits E H c d snap previous) : restoreSqliteSnapshot E H c d
      = (preserve H (admittedOf E c snap previous).previous >>= fun _ => build E H c >>= fun _ =>
          conclude E H c (admittedOf E c snap previous)) d := by
  unfold restoreSqliteSnapshot
  rw [look_bind, preflight_ok_iff.mpr ⟨snap, previous, h, rfl⟩]

theorem conclude_iff (hfile : d.node c.destination = some (.file H.copied))
    (hpasses : E.verify H.copied = some true) (snap : Bytes) (previous : Option Bytes) :
    (H.failure .verifyDestination = none ∧ E.sha256 H.copied = E.sha256 snap
        ∧ conclude E H c (admittedOf E c snap previous) d = (.ok ⟨c.destination, E.sha256 H.copied,
              (admittedOf E c snap previous).previous.map Prod.fst⟩, d))
      ∨ ¬ (H.failure .verifyDestination = none ∧ E.sha256 H.copied = E.sha256 snap)
        ∧ ∃ e, conclude E H c (admittedOf E c snap previous) d = (.error e, d) := by
  unfold conclude
  rw [look_bind]
  cases hverified : verifySqliteDatabase E H .verifyDestination d c.destination with
  | error e =>
    refine Or.inr ⟨fun h => ?_, e, rfl⟩
    have hok : verifySqliteDatabase E H .verifyDestination d c.destination
        = .ok ⟨true, E.sha256 H.copied⟩ :=
      verify_ok_iff.mpr ⟨H.copied, hfile, h.1, hpasses, rfl⟩
    rw [hverified] at hok
    cases hok
  | ok v =>
    obtain ⟨passes, sha⟩ := v
    obtain ⟨bytes, hbytes, hop, -, hsha⟩ := verify_ok_iff.mp hverified
    cases hfile.symm.trans hbytes
    cases hsha
    by_cases hequal : E.sha256 H.copied = E.sha256 snap
    · refine Or.inl ⟨hop, hequal, ?_⟩
      show (if E.sha256 H.copied ≠ E.sha256 snap then throw _ else pure _ :
        Block RecoveryError Disk Restored) d = _
      rw [if_neg (not_not.mpr hequal)]
      rfl
    · refine Or.inr ⟨fun h => hequal h.2, ?_⟩
      show ∃ e, (if E.sha256 H.copied ≠ E.sha256 snap then throw _ else pure _ :
        Block RecoveryError Disk Restored) d = _
      rw [if_pos hequal]
      exact ⟨_, rfl⟩

/-- The rest of a restore, once the destination is preserved: it returns just if it
finishes, and touches the temporary file and the destination only. -/
theorem finish_cases (hsnap : d.node c.snapshot = some (.file snap)) (previous : Option Bytes) :
    let rest := (build E H c >>= fun _ => conclude E H c (admittedOf E c snap previous)) d
    (Finishes E H c d snap ∧ rest.1 = .ok ⟨c.destination, E.sha256 H.copied,
            (admittedOf E c snap previous).previous.map Prod.fst⟩
        ∧ rest.2.node c.destination = some (.file H.copied)
      ∨ ¬ Finishes E H c d snap ∧ (∃ e, rest.1 = .error e)
        ∧ (Replaces E H c d → rest.2.node c.destination = some (.file H.copied))
        ∧ (¬ Replaces E H c d → rest.2 = (build E H c d).2))
      ∧ SameBut [temporaryPath c.destination, c.destination] d rest.2 := by
  intro rest
  by_cases hreplaces : Replaces E H c d
  · by_cases hclean : H.failure .unlinkTemporary = none
    · obtain ⟨d', hbuild, hfile, hsame⟩ := build_ok hreplaces hsnap hclean
      have hrest : rest = conclude E H c (admittedOf E c snap previous) d' :=
        Block.bind_ok hbuild
      rcases conclude_iff hfile hreplaces.passes snap previous with
        ⟨hop, hequal, hout⟩ | ⟨hnot, e, hout⟩
      · rw [hrest, hout]
        exact ⟨Or.inl ⟨⟨hreplaces, hclean, hop, hequal⟩, rfl, hfile⟩, hsame⟩
      · rw [hrest, hout]
        exact ⟨Or.inr ⟨fun h => hnot ⟨h.looked, h.equal⟩, ⟨e, rfl⟩, fun _ => hfile,
          fun h => absurd hreplaces h⟩, hsame⟩
    · obtain ⟨e, d', hbuild, hfile, hsame⟩ := build_moved hreplaces hsnap hclean
      have hrest : rest = (.error e, d') := Block.bind_error hbuild
      rw [hrest]
      exact ⟨Or.inr ⟨fun h => hclean h.cleaned, ⟨e, rfl⟩, fun _ => hfile,
        fun h => absurd hreplaces h⟩, hsame⟩
  · obtain ⟨e, d', hbuild, hsame⟩ := build_error hreplaces
    have hrest : rest = (.error e, d') := Block.bind_error hbuild
    rw [hrest, hbuild]
    exact ⟨Or.inr ⟨fun h => hreplaces h.toReplaces, ⟨e, rfl⟩, fun h => absurd h hreplaces,
      fun _ => rfl⟩, hsame.mono (by simp)⟩

-- == no destination

theorem allOrNothing_new (h : Admits E H c d snap none) :
    AllOrNothing E H c d ↔ Completes E H c d snap none := by
  unfold AllOrNothing
  rw [restore_eq h]
  show (match (build E H c >>= fun _ => conclude E H c (admittedOf E c snap none)) d with
    | (.ok r, d') => Restores E c d r d' | (.error _, d') => _ ∧ _) ↔ _
  have hcases := finish_cases (E := E) (H := H) h.snapshot none
  simp only at hcases
  generalize (build E H c >>= fun _ => conclude E H c (admittedOf E c snap none)) d = rest
    at hcases ⊢
  obtain ⟨out, d'⟩ := rest
  have hnone : d.node c.destination = none := h.current
  obtain ⟨⟨hfin, hout, hfile⟩ | ⟨hfin, ⟨e, hout⟩, hmoved, hkept⟩, hsame⟩ := hcases
  · cases hout
    refine iff_of_true ⟨⟨H.copied, snap, hfile, hfin.passes, h.snapshot, hfin.equal, hfin.equal⟩,
      fun node hnode => ?_, fun mark _ => ?_⟩ (Or.inl hfin)
    · rw [hnone] at hnode
      cases hnode
    · apply hsame
      simp [preserved_ne_temporary, preserved_ne_destination]
  · cases hout
    by_cases hreplaces : Replaces E H c d
    · refine iff_of_false (fun hp => ?_) fun hc => ?_
      · have hfile : d'.node c.destination = some (.file H.copied) := hmoved hreplaces
        have hsame : d'.node c.destination = d.node c.destination := hp.1
        rw [hfile, hnone] at hsame
        cases hsame
      · rcases hc with hc | ⟨hc, -⟩
        · exact hfin hc
        · exact hc hreplaces
    · have hd : d' = (build E H c d).2 := hkept hreplaces
      obtain ⟨e', d'', hbuild, honly⟩ := build_error hreplaces
      by_cases hsaved : c.snapshot ≠ temporaryPath c.destination ∨ H.failure .unlinkStale ≠ none
      · refine iff_of_true ⟨?_, ?_⟩ (Or.inr ⟨hreplaces, hsaved⟩)
        · rw [hd, hbuild]
          apply honly
          simp [(temporary_ne_destination c.destination).symm]
        · apply unrefused_of_same
          · rw [hd, hbuild]
            exact honly
          · rw [hd]
            exact build_snapshot hreplaces hsaved
      · refine iff_of_false (fun hp => ?_) fun hc => ?_
        · have hlost := not_or.mp hsaved
          have hgone := build_lost (E := E) (not_not.mp hlost.1) h.snapshot (not_not.mp hlost.2)
          obtain ⟨snap', previous', h'⟩ := unrefused_admits hp.2 h
          rw [← hd] at hgone
          cases hgone.symm.trans h'.snapshot
        · rcases hc with hc | ⟨-, hc⟩
          · exact hfin hc
          · exact hsaved hc

-- == an old destination

theorem preserve_cases (H : Host) (path : Path) (current : Bytes) (d : Disk) :
    (H.failure .openCopy ≠ none ∧ ∃ e, preserve H (some (path, current)) d = (.error e, d))
      ∨ H.failure .openCopy = none ∧ (H.failure .writeCopy = none ∧ H.failure .chmodCopy = none
              ∧ preserve H (some (path, current)) d = (.ok (), d.put path current)
            ∨ ¬ (H.failure .writeCopy = none ∧ H.failure .chmodCopy = none)
              ∧ ∃ e part, preserve H (some (path, current)) d = (.error e, d.put path part)) := by
  show (_ ∧ ∃ e, (copy2 H path current >>= fun _ => _) d = _) ∨ _ ∧ (_ ∧ _ ∧
    (copy2 H path current >>= fun _ => _) d = _ ∨ _ ∧ ∃ e part,
      (copy2 H path current >>= fun _ => _) d = _)
  simp only [Block.bind_apply, copy2]
  cases H.failure .openCopy with
  | some f => exact Or.inl ⟨nofun, _, rfl⟩
  | none =>
    refine Or.inr ⟨rfl, ?_⟩
    cases H.failure .writeCopy with
    | some f => exact Or.inr ⟨fun h => (by cases h.1), .failed f, _, rfl⟩
    | none =>
      simp only [look, attempt]
      cases H.failure .chmodCopy with
      | some f => exact Or.inr ⟨fun h => (by cases h.2), .failed f, current, rfl⟩
      | none => exact Or.inl ⟨trivial, rfl, rfl⟩

theorem replaces_congr
    (h : d'.node (temporaryPath c.destination) = d.node (temporaryPath c.destination)) :
    Replaces E H c d' ↔ Replaces E H c d :=
  ⟨fun hr => ⟨hr.toRebuilds, hr.unlinked, h ▸ hr.removable, hr.apart⟩,
    fun hr => ⟨hr.toRebuilds, hr.unlinked, h.symm ▸ hr.removable, hr.apart⟩⟩

theorem finishes_congr
    (h : d'.node (temporaryPath c.destination) = d.node (temporaryPath c.destination)) :
    Finishes E H c d' snap ↔ Finishes E H c d snap :=
  ⟨fun hf => ⟨(replaces_congr h).mp hf.toReplaces, hf.cleaned, hf.looked, hf.equal⟩,
    fun hf => ⟨(replaces_congr h).mpr hf.toReplaces, hf.cleaned, hf.looked, hf.equal⟩⟩

theorem allOrNothing_old (h : Admits E H c d snap (some current)) :
    AllOrNothing E H c d ↔ Completes E H c d snap (some current) := by
  let path := preservedPath c.destination (E.sha256 current)
  obtain ⟨hfile, -, hfree, -, -⟩ := h.current
  have htemporary : path ≠ temporaryPath c.destination := preserved_ne_temporary c.destination _
  have hdestination : path ≠ c.destination := preserved_ne_destination c.destination _
  -- the copy stays where the rest puts it or not
  have hcopy : ∀ {bytes : Bytes} {d' : Disk},
      SameBut [temporaryPath c.destination, c.destination] (d.put path bytes) d' →
        d'.node path = some (.file bytes) := by
    intro bytes d' hsame
    rw [hsame path (by simp [htemporary, hdestination])]
    exact Disk.put_self ..
  unfold AllOrNothing
  rw [restore_eq h]
  show (match (preserve H (some (path, current)) >>= fun _ => build E H c >>= fun _ =>
      conclude E H c (admittedOf E c snap (some current))) d with
    | (.ok r, d') => Restores E c d r d' | (.error _, d') => _ ∧ _) ↔ _
  rcases preserve_cases H path current d with
    ⟨hopen, e, hout⟩ | ⟨hopen, ⟨hwrite, hchmod, hout⟩ | ⟨hbad, e, part, hout⟩⟩
  · rw [Block.bind_error hout]
    exact iff_of_true ⟨rfl, unrefused_of_same (.refl _ d) rfl⟩ (Or.inl hopen)
  · rw [Block.bind_ok hout]
    have hsnap : (d.put path current).node c.snapshot = some (.file snap) := by
      rw [Disk.put_other, h.snapshot]
      intro heq
      have hnone : d.node c.snapshot = none := by
        rw [heq]
        exact hfree
      cases h.snapshot.symm.trans hnone
    have hcongr : Finishes E H c (d.put path current) snap ↔ Finishes E H c d snap :=
      finishes_congr (Disk.put_other _ _ htemporary.symm)
    have hcases := finish_cases (E := E) (H := H) hsnap (some current)
    simp only at hcases
    generalize (build E H c >>= fun _ =>
      conclude E H c (admittedOf E c snap (some current))) (d.put path current) = rest
      at hcases ⊢
    obtain ⟨out, d'⟩ := rest
    obtain ⟨⟨hfin, hout, hnew⟩ | ⟨hfin, ⟨e, hout⟩, -, -⟩, hsame⟩ := hcases
    · cases hout
      refine iff_of_true ⟨⟨H.copied, snap, hnew, hfin.passes, h.snapshot, hfin.equal,
        hfin.equal⟩, fun node hnode => ?_, fun mark hmark => ?_⟩
        (Or.inr ⟨hwrite, hchmod, hcongr.mp hfin⟩)
      · cases hfile.symm.trans hnode
        exact ⟨current, path, rfl, rfl, hcopy hsame⟩
      · have hother : preservedAs c.destination mark ≠ path := by
          intro heq
          apply hmark
          rw [heq]
          exact hfree
        rw [hsame _ (by simp [preserved_ne_temporary, preserved_ne_destination])]
        exact Disk.put_other _ _ hother
    · cases hout
      refine iff_of_false (refused_of_copy h ?_) fun hc => ?_
      · rw [hcopy hsame]
        exact nofun
      · rcases hc with hc | ⟨-, -, hc⟩
        · exact hc hopen
        · exact hfin (hcongr.mpr hc)
  · rw [Block.bind_error hout]
    refine iff_of_false (refused_of_copy h ?_) fun hc => ?_
    · show (d.put path part).node path ≠ none
      rw [Disk.put_self]
      exact nofun
    · rcases hc with hc | ⟨hwrite, hchmod, -⟩
      · exact hc hopen
      · exact hbad ⟨hwrite, hchmod⟩

-- == all calls

/-- A restore is all or nothing just if it is not let through or completes. -/
theorem restore_iff (E : Sqlite) (H : Host) (c : Call) (d : Disk) : AllOrNothing E H c d
      ↔ ∀ snap previous, Admits E H c d snap previous → Completes E H c d snap previous := by
  cases hpreflight : preflight E H c d with
  | error e =>
    refine iff_of_true ?_ fun snap previous h => ?_
    · unfold AllOrNothing
      rw [restore_eq_error hpreflight]
      exact ⟨rfl, unrefused_of_same (.refl _ d) rfl⟩
    · rw [preflight_ok_iff.mpr ⟨snap, previous, h, rfl⟩] at hpreflight
      cases hpreflight
  | ok a =>
    obtain ⟨snap, previous, h, -⟩ := preflight_ok_iff.mp hpreflight
    have hone : AllOrNothing E H c d ↔ Completes E H c d snap previous := by
      cases previous with
      | none => exact allOrNothing_new h
      | some current => exact allOrNothing_old h
    rw [hone]
    constructor
    · intro hc snap' previous' h'
      obtain ⟨rfl, rfl⟩ := h.unique h'
      exact hc
    · intro hc
      exact hc snap previous h

-- == a database of one's own

/-- Databases that verify, hashed to a text of their bytes. -/
def plainSqlite : Sqlite := ⟨fun _ => some true, fun bytes => bytes.map UInt8.toNat⟩

/-- The snapshot has other bytes than the backup makes of it. -/
def rewritten : Host := ⟨fun _ => none, [3], 0, none⟩

def overCurrent : Call := ⟨⟨[], py "s"⟩, ⟨[], py "d"⟩, some [2]⟩

def twoFiles : Disk := ⟨fun p =>
  if p = ⟨[], py "s"⟩ then some (.file [1]) else if p = ⟨[], py "d"⟩ then some (.file [2])
  else none⟩

/-- Nothing fails and the call raises; the destination is the new database, and the same
call is refused from then on. -/
theorem rewritten_replaces :
    let out := restoreSqliteSnapshot plainSqlite rewritten overCurrent twoFiles
    out.1 = .error (.recovery "restored database hash does not match verified snapshot")
      ∧ twoFiles.node overCurrent.destination = some (.file [2])
      ∧ out.2.node overCurrent.destination = some (.file [3])
      ∧ (preflight plainSqlite rewritten overCurrent twoFiles).isOk = true
      ∧ (preflight plainSqlite rewritten overCurrent out.2).isOk = false
      ∧ ¬ AllOrNothing plainSqlite rewritten overCurrent twoFiles := by
  intro out
  have hraised : out.1
      = .error (.recovery "restored database hash does not match verified snapshot") := by
    decide +kernel
  have hbefore : twoFiles.node overCurrent.destination = some (.file [2]) := by decide +kernel
  have hafter : out.2.node overCurrent.destination = some (.file [3]) := by decide +kernel
  refine ⟨hraised, hbefore, hafter, by decide +kernel, by decide +kernel, ?_⟩
  intro hall
  have hsame : out.2.node overCurrent.destination = twoFiles.node overCurrent.destination := by
    rw [AllOrNothing, show restoreSqliteSnapshot plainSqlite rewritten overCurrent twoFiles
      = (_, out.2) from Prod.ext hraised rfl] at hall
    exact hall.1
  rw [hafter, hbefore] at hsame
  cases hsame

end Centinal26.Recovery
