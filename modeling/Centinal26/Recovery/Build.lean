/-
What becomes of the temporary file and of the destination while a restore builds the new
database.
-/
import Centinal26.Recovery.Admit

namespace Centinal26.Recovery

open Py Steps

variable (E : Sqlite) (H : Host) (c : Call)

/-- The new database is written to the temporary file, passes its checks, and nothing
fails up to its move. -/
structure Rebuilds : Prop where
  quiet : ∀ op ∈ [Op.backup, .verifyTemporary, .chmodTemporary, .replace], H.failure op = none
  passes : E.verify H.copied = some true

/-- The destination comes to be replaced. -/
structure Replaces (d : Disk) : Prop extends Rebuilds E H where
  unlinked : H.failure .unlinkStale = none
  removable : d.node (temporaryPath c.destination) ≠ some .directory
  apart : c.snapshot ≠ temporaryPath c.destination

variable {E H c}

-- == steps

variable {α : Type} {p : Path} {d' : Disk} {e : RecoveryError} {m : Block RecoveryError Disk α}

variable {β : Type} {op : Op} {cleanup : Block RecoveryError Disk Unit} {d'' : Disk}
  {r : Except RecoveryError α}

theorem look_bind (f : Disk → Except RecoveryError α)
    (k : α → Block RecoveryError Disk β) (d : Disk) :
    (look f >>= k) d = match f d with
      | .ok a => k a d
      | .error e => (.error e, d) := by
  rw [Block.bind_apply, look]
  cases f d <;> rfl

theorem attempt_bind (op : Op) (k : Unit → Block RecoveryError Disk β) (d : Disk) :
    ((look fun _ => attempt H op) >>= k) d = match H.failure op with
      | none => k () d
      | some f => (.error (.failed f), d) := by
  rw [look_bind, attempt]
  cases H.failure op <;> rfl

theorem unlink_ok {d : Disk} (hop : H.failure op = none)
    (hnode : d.node p ≠ some .directory) : unlink H op p d = (.ok (), d.drop p) := by
  unfold unlink
  rw [attempt_bind, hop]
  show remove p d = _
  unfold remove
  cases hp : d.node p with
  | none => rfl
  | some n =>
    cases n with
    | directory => exact absurd hp hnode
    | file bytes => rfl
    | symlink resolves => rfl

theorem unlink_error {d : Disk} (h : H.failure op ≠ none ∨ d.node p = some .directory) :
    ∃ e, unlink H op p d = (.error e, d) := by
  unfold unlink
  rw [attempt_bind]
  cases hop : H.failure op with
  | some f => exact ⟨_, rfl⟩
  | none =>
    rcases h with h | h
    · exact absurd hop h
    · unfold remove
      simp only [h]
      exact ⟨_, rfl⟩

theorem unlink_cases (op : Op) (p : Path) (d : Disk) :
    unlink H op p d = (.ok (), d.drop p) ∨ ∃ e, unlink H op p d = (.error e, d) := by
  by_cases hop : H.failure op = none
  · by_cases hnode : d.node p = some .directory
    · exact Or.inr (unlink_error (Or.inr hnode))
    · exact Or.inl (unlink_ok hop hnode)
  · exact Or.inr (unlink_error (Or.inl hop))

theorem finallyDo_done {d : Disk} (h : m d = (r, d')) (hcleanup : cleanup d' = (.ok (), d'')) :
    finallyDo m cleanup d = (r, d'') := by
  simp only [finallyDo, h, hcleanup]

theorem finallyDo_raised {d : Disk} (h : m d = (r, d')) (hcleanup : cleanup d' = (.error e, d'')) :
    finallyDo m cleanup d = (.error e, d'') := by
  simp only [finallyDo, h, hcleanup]

theorem finallyDo_error {d : Disk} (h : m d = (.error e, d')) (op : Op) (p : Path) :
    ∃ e' d'', finallyDo m (unlink H op p) d = (.error e', d'') ∧ (d'' = d' ∨ d'' = d'.drop p) := by
  rcases unlink_cases op p d' with hout | ⟨e', hout⟩
  · exact ⟨e, d'.drop p, finallyDo_done h hout, Or.inr rfl⟩
  · exact ⟨e', d', finallyDo_raised h hout, Or.inl rfl⟩

-- == rebuild

/-- What the body of the `try` leaves when it goes through. -/
def rebuilt (H : Host) (c : Call) (d : Disk) : Disk :=
  ((d.put (temporaryPath c.destination) H.copied).drop (temporaryPath c.destination)).put
    c.destination H.copied

theorem rebuild_ok (h : Rebuilds E H) {d : Disk} {snap : Bytes}
    (hsnap : d.node c.snapshot = some (.file snap)) :
    rebuild E H c (temporaryPath c.destination) d = (.ok (), rebuilt H c d) := by
  have hquiet := h.quiet
  simp only [List.mem_cons, List.not_mem_nil, or_false, forall_eq_or_imp, forall_eq] at hquiet
  obtain ⟨hbackup, hverify, hchmod, hreplace⟩ := hquiet
  have hbacked : backup H c (temporaryPath c.destination) d
      = (.ok (), d.put (temporaryPath c.destination) H.copied) := by
    unfold backup
    rw [hsnap, hbackup]
  have hlooked : verifySqliteDatabase E H .verifyTemporary
      (d.put (temporaryPath c.destination) H.copied) (temporaryPath c.destination)
        = .ok ⟨true, E.sha256 H.copied⟩ :=
    verify_ok_iff.mpr ⟨H.copied, Disk.put_self .., hverify, h.passes, rfl⟩
  unfold rebuild
  rw [Block.bind_ok hbacked, look_bind, hlooked]
  simp only [if_true, attempt_bind, hchmod, hreplace]
  unfold move
  rw [Disk.put_self]
  rfl

theorem backup_cases (p : Path) (d : Disk) : SameBut [p] d (backup H c p d).2
      ∧ ((∃ snap, d.node c.snapshot = some (.file snap)) ∨ ∃ e, backup H c p d = (.error e, d))
      ∧ ((backup H c p d).1 = .ok () → H.failure .backup = none
        ∧ (backup H c p d).2 = d.put p H.copied) := by
  unfold backup
  split
  · next hsnap hop =>
    exact ⟨.put d p _, Or.inl ⟨_, hsnap⟩, fun _ => ⟨hop, rfl⟩⟩
  · next hsnap _ _ =>
    exact ⟨.put d p _, Or.inl ⟨_, hsnap⟩, nofun⟩
  · next hsnap _ _ =>
    exact ⟨.refl _ d, Or.inl ⟨_, hsnap⟩, nofun⟩
  · exact ⟨.refl _ d, Or.inr ⟨_, rfl⟩, nofun⟩

theorem rebuild_error (h : ¬ Rebuilds E H) (p : Path) (d : Disk) :
    ∃ e d', rebuild E H c p d = (.error e, d') ∧ SameBut [p] d d' := by
  obtain ⟨hsame, -, hok⟩ := backup_cases (H := H) (c := c) p d
  unfold rebuild
  rw [Block.bind_apply]
  generalize backup H c p d = out at hsame hok
  obtain ⟨r, d'⟩ := out
  cases r with
  | error e => exact ⟨e, d', rfl, hsame⟩
  | ok u =>
    obtain ⟨hbackup, hput⟩ := hok rfl
    simp only at hput
    simp only [look_bind]
    cases hverified : verifySqliteDatabase E H .verifyTemporary d' p with
    | error e => exact ⟨e, d', rfl, hsame⟩
    | ok v =>
      obtain ⟨passes, sha⟩ := v
      obtain ⟨bytes, hfile, hverify, hpasses, -⟩ := verify_ok_iff.mp hverified
      rw [hput, Disk.put_self] at hfile
      cases hfile
      cases passes with
      | false => exact ⟨_, d', rfl, hsame⟩
      | true =>
        simp only [if_true, attempt_bind]
        cases hchmod : H.failure .chmodTemporary with
        | some f => exact ⟨_, d', rfl, hsame⟩
        | none =>
          cases hreplace : H.failure .replace with
          | some f => exact ⟨_, d', rfl, hsame⟩
          | none =>
            refine absurd ⟨?_, hpasses⟩ h
            simp [hbackup, hverify, hchmod, hreplace]

theorem rebuild_missing {d : Disk} (h : d.node c.snapshot = none) :
    ∃ e, rebuild E H c p d = (.error e, d) := by
  obtain ⟨-, hsnap, -⟩ := backup_cases (H := H) (c := c) p d
  rcases hsnap with ⟨snap, hsnap⟩ | ⟨e, hbackup⟩
  · rw [h] at hsnap
    cases hsnap
  · exact ⟨e, Block.bind_error hbackup⟩

-- == build

theorem caught_ok {m : Block RecoveryError Disk Unit} {d : Disk} (h : m d = (.ok (), d'))
    (f : RecoveryError → RecoveryError) :
    (tryCatch m fun e => throw (f e) : Block RecoveryError Disk Unit) d = (.ok (), d') := by
  show Block.tryCatch m _ d = _
  rw [Block.tryCatch, h]

theorem caught_error {m : Block RecoveryError Disk Unit} {d : Disk}
    (h : m d = (.error e, d')) (f : RecoveryError → RecoveryError) :
    (tryCatch m fun e => throw (f e) : Block RecoveryError Disk Unit) d = (.error (f e), d') := by
  show Block.tryCatch m _ d = _
  rw [Block.tryCatch, h]
  rfl

variable {d : Disk} {snap : Bytes}

theorem rebuilt_destination (H : Host) (c : Call) (d : Disk) :
    (rebuilt H c d).node c.destination = some (.file H.copied) := Disk.put_self ..

theorem rebuilt_temporary (H : Host) (c : Call) (d : Disk) :
    (rebuilt H c d).node (temporaryPath c.destination) = none :=
  (Disk.put_other _ _ (temporary_ne_destination c.destination)).trans (Disk.drop_self ..)

theorem sameBut_rebuilt (H : Host) (c : Call) (d : Disk) :
    SameBut [temporaryPath c.destination, c.destination] d (rebuilt H c d) := by
  intro p hp
  have htemporary : p ≠ temporaryPath c.destination := fun h => hp (by simp [h])
  have hdestination : p ≠ c.destination := fun h => hp (by simp [h])
  calc (rebuilt H c d).node p = ((d.put (temporaryPath c.destination) H.copied).drop
          (temporaryPath c.destination)).node p := Disk.put_other _ _ hdestination
    _ = (d.put (temporaryPath c.destination) H.copied).node p := Disk.drop_other _ htemporary
    _ = d.node p := Disk.put_other _ _ htemporary

theorem build_eq (hop : H.failure .unlinkStale = none)
    (hnode : d.node (temporaryPath c.destination) ≠ some .directory) :
    build E H c d = finallyDo (tryCatch (rebuild E H c (temporaryPath c.destination))
        fun e => throw (databaseError "SQLite restore failed" e))
      (unlink H .unlinkTemporary (temporaryPath c.destination))
      (d.drop (temporaryPath c.destination)) := by
  unfold build
  exact Block.bind_ok (unlink_ok hop hnode)

theorem Replaces.rebuild (h : Replaces E H c d) (hsnap : d.node c.snapshot = some (.file snap)) :
    Recovery.rebuild E H c (temporaryPath c.destination) (d.drop (temporaryPath c.destination))
      = (.ok (), rebuilt H c (d.drop (temporaryPath c.destination))) :=
  rebuild_ok h.toRebuilds ((Disk.drop_other _ h.apart).trans hsnap)

theorem build_ok (h : Replaces E H c d) (hsnap : d.node c.snapshot = some (.file snap))
    (hclean : H.failure .unlinkTemporary = none) :
    ∃ d', build E H c d = (.ok (), d') ∧ d'.node c.destination = some (.file H.copied)
      ∧ SameBut [temporaryPath c.destination, c.destination] d d' := by
  let built := rebuilt H c (d.drop (temporaryPath c.destination))
  have hunlink : unlink H .unlinkTemporary (temporaryPath c.destination) built
      = (.ok (), built.drop (temporaryPath c.destination)) := by
    apply unlink_ok hclean
    rw [rebuilt_temporary]
    exact nofun
  refine ⟨built.drop (temporaryPath c.destination), ?_, ?_, ?_⟩
  · rw [build_eq h.unlinked h.removable]
    exact finallyDo_done (caught_ok (h.rebuild hsnap) _) hunlink
  · rw [Disk.drop_other _ (temporary_ne_destination c.destination).symm, rebuilt_destination]
  · have hfirst : SameBut [temporaryPath c.destination, c.destination] d
        (d.drop (temporaryPath c.destination)) := (SameBut.drop d _).mono (by simp)
    have hlast : SameBut [temporaryPath c.destination, c.destination] built
        (built.drop (temporaryPath c.destination)) := (SameBut.drop built _).mono (by simp)
    exact (hfirst.trans (sameBut_rebuilt H c _)).trans hlast

theorem build_moved (h : Replaces E H c d) (hsnap : d.node c.snapshot = some (.file snap))
    (hclean : H.failure .unlinkTemporary ≠ none) :
    ∃ e d', build E H c d = (.error e, d') ∧ d'.node c.destination = some (.file H.copied)
      ∧ SameBut [temporaryPath c.destination, c.destination] d d' := by
  let built := rebuilt H c (d.drop (temporaryPath c.destination))
  have hunlink : ∃ e, unlink H .unlinkTemporary (temporaryPath c.destination) built
      = (.error e, built) := unlink_error (Or.inl hclean)
  obtain ⟨e, hunlink⟩ := hunlink
  refine ⟨e, built, ?_, rebuilt_destination H c _, ?_⟩
  · rw [build_eq h.unlinked h.removable]
    exact finallyDo_raised (caught_ok (h.rebuild hsnap) _) hunlink
  · exact ((SameBut.drop d _).mono (by simp)).trans (sameBut_rebuilt H c _)

/-- A build that does not replace the destination fails, and leaves all but the
temporary file. -/
theorem build_error (h : ¬ Replaces E H c d) :
    ∃ e d', build E H c d = (.error e, d') ∧ SameBut [temporaryPath c.destination] d d' := by
  by_cases hstale : H.failure .unlinkStale = none ∧
      d.node (temporaryPath c.destination) ≠ some .directory
  · rw [build_eq hstale.1 hstale.2]
    have hfirst := SameBut.drop d (temporaryPath c.destination)
    have hfails : ∃ e d', rebuild E H c (temporaryPath c.destination)
        (d.drop (temporaryPath c.destination)) = (.error e, d')
          ∧ SameBut [temporaryPath c.destination] d d' := by
      by_cases hapart : c.snapshot = temporaryPath c.destination
      · obtain ⟨e, hout⟩ := rebuild_missing (E := E) (H := H) (c := c)
          (p := temporaryPath c.destination) (d := d.drop (temporaryPath c.destination))
          (by rw [hapart, Disk.drop_self])
        exact ⟨e, _, hout, hfirst⟩
      · obtain ⟨e, d', hout, hsame⟩ := rebuild_error (E := E) (H := H) (c := c)
          (fun hr => h ⟨hr, hstale.1, hstale.2, hapart⟩) (temporaryPath c.destination)
          (d.drop (temporaryPath c.destination))
        exact ⟨e, d', hout, hfirst.trans hsame⟩
    obtain ⟨e, d', hout, hsame⟩ := hfails
    obtain ⟨e', d'', hfinal, hd⟩ := finallyDo_error (H := H)
      (caught_error hout (databaseError "SQLite restore failed")) .unlinkTemporary
      (temporaryPath c.destination)
    refine ⟨e', d'', hfinal, ?_⟩
    rcases hd with rfl | rfl
    · exact hsame
    · exact hsame.trans (SameBut.drop _ _)
  · have hunlink : ∃ e, unlink H .unlinkStale (temporaryPath c.destination) d = (.error e, d) := by
      apply unlink_error
      by_cases hop : H.failure .unlinkStale = none
      · exact Or.inr (by_contra fun hnode => hstale ⟨hop, hnode⟩)
      · exact Or.inl hop
    obtain ⟨e, hunlink⟩ := hunlink
    exact ⟨e, d, Block.bind_error hunlink, .refl _ d⟩

theorem build_lost (hlost : c.snapshot = temporaryPath c.destination)
    (hsnap : d.node c.snapshot = some (.file snap)) (hop : H.failure .unlinkStale = none) :
    ((build E H c d).2).node c.snapshot = none := by
  have hnode : d.node (temporaryPath c.destination) ≠ some .directory := by
    rw [← hlost, hsnap]
    exact nofun
  obtain ⟨e, hout⟩ := rebuild_missing (E := E) (H := H) (c := c)
    (p := temporaryPath c.destination) (d := d.drop (temporaryPath c.destination))
    (by rw [hlost, Disk.drop_self])
  obtain ⟨e', d'', hfinal, hd⟩ := finallyDo_error (H := H)
    (caught_error hout (databaseError "SQLite restore failed")) .unlinkTemporary
    (temporaryPath c.destination)
  rw [build_eq hop hnode, hfinal, hlost]
  rcases hd with rfl | rfl
  · exact Disk.drop_self ..
  · exact Disk.drop_self ..

theorem build_snapshot (h : ¬ Replaces E H c d)
    (hkept : c.snapshot ≠ temporaryPath c.destination ∨ H.failure .unlinkStale ≠ none) :
    ((build E H c d).2).node c.snapshot = d.node c.snapshot := by
  by_cases hop : H.failure .unlinkStale = none
  · obtain ⟨e, d', hout, hsame⟩ := build_error h
    have hapart := hkept.resolve_right fun hne => hne hop
    rw [hout]
    exact hsame _ fun hmem => hapart (List.mem_singleton.mp hmem)
  · have hunlink : ∃ e, unlink H .unlinkStale (temporaryPath c.destination) d
        = (.error e, d) := unlink_error (Or.inl hop)
    obtain ⟨e, hunlink⟩ := hunlink
    have hout : build E H c d = (.error e, d) := Block.bind_error hunlink
    rw [hout]

end Centinal26.Recovery
