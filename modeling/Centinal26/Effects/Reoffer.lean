/-
No effect that may already have run is silently offered again.
-/
import Centinal26.Lib.Since
import Centinal26.Effects.Runs

namespace Centinal26.Effects

open Py Steps

variable {H : Host}

/-- A report that the execution in progress never reached its provider, with
an error `json` does not write. -/
def Slips (w : World) : Call → Prop
  | .markExecutionFailure c error true =>
    (∃ e, dumps error = .error e)
    ∧ ∃ row, (w.view 0).effect? row.effectId = some row
      ∧ c.effectId = row.effectId.str ∧ claimIdentity row c = true
      ∧ row.state = .executing
  | _ => False

/-- An intent was persisted, and nobody has declared it not executed since. -/
def Held (j : Text) (past : List Step) : Prop :=
  List.Since (Begins j) (Releases j) past

/-- The states of an effect whose intent is persisted. -/
def Barred (s : EffectState) : Prop :=
  s.isOpen ∨ 2 ≤ s.stage

instance (s : EffectState) : Decidable (Barred s) :=
  inferInstanceAs (Decidable (_ ∨ _))

theorem Barred.not_claimable {s : EffectState} (h : Barred s) : claimable s = false := by
  rcases h with (rfl | rfl) | h
  · rfl
  · rfl
  · cases hc : claimable s with
    | false => rfl
    | true =>
      rw [stage_of_claimable hc] at h
      omega

variable {row row' : EffectRow}

theorem Transition.barred {mv : Move} (h : Transition H mv row row') (hb : Barred row.state)
    (hf : mv ≠ .failed true) (hn : ∀ token, mv ≠ .notExecuted token) : Barred row'.state := by
  have hclaim := hb.not_claimable
  have hle := h.stage_le
  rcases hb with hopen | hstage
  · cases h with
    | record _ _ _ => exact Or.inr (Nat.le_refl 2)
    | @fail _ n _ _ =>
      cases n with
      | true => exact absurd rfl hf
      | false => exact Or.inl (Or.inr rfl)
    | unknown _ _ => exact Or.inl (Or.inr rfl)
    | notExecuted _ _ => exact absurd rfl (hn _)
    | lapseExecution _ => exact Or.inl (Or.inr rfl)
    | cancel hs _ => rw [hs] at hclaim; cases hclaim
    | exhaust hs _ => rw [hs] at hclaim; cases hclaim
    | claim hs _ _ => rw [hs] at hclaim; cases hclaim
    | approve hs _ _ => rw [hs] at hopen; exact absurd hopen (by decide)
    | deny hs _ _ => rw [hs] at hopen; exact absurd hopen (by decide)
    | begin hs _ _ _ => rw [hs] at hopen; exact absurd hopen (by decide)
    | pass hs _ _ _ _ => rw [hs] at hopen; exact absurd hopen (by decide)
    | reject hs _ => rw [hs] at hopen; exact absurd hopen (by decide)
    | publish hs => rw [hs] at hopen; exact absurd hopen (by decide)
    | acknowledge hs => rw [hs] at hopen; exact absurd hopen (by decide)
    | lapseClaim hs => rw [hs] at hopen; exact absurd hopen (by decide)
  · exact Or.inr (Nat.le_trans hstage hle)

theorem Lapse.barred (h : Lapse H row row') (hb : Barred row.state) : Barred row'.state := by
  cases h with
  | none => exact hb
  | claim ht => exact ht.barred hb nofun nofun
  | execution ht => exact ht.barred hb nofun nofun

theorem RowWork.held {past : List Step} {e : Step} {db : Db} {j : Text}
    (hslip : ¬ Slips e.before e.input)
    (hI : ∀ row, db.effect? j = some row → Held j past → Barred row.state)
    (h : RowWork H e.before past db j row' e.input e.output)
    (hheld : Held j (past ++ [e])) : Barred row'.state := by
  have hcase := List.since_concat.mp hheld
  obtain ⟨call, w, r, w'⟩ := e
  simp only [Begins, Releases] at h hslip hcase
  cases h with
  | same hrow hq =>
    rcases hcase with hb | ⟨_, hheld⟩
    · exact absurd (Or.inr (Or.inl hb)) hq
    · exact hI _ hrow hheld
  | fresh hf hid hnew =>
    rcases hcase with hb | ⟨_, hheld⟩
    · cases hb
    · obtain ⟨e, he, hb⟩ := hheld.exists
      exact absurd (Or.inr (Or.inl hb)) (hnew e he)
  | moved _ hrow hid hd ht =>
    rcases hcase with hb | ⟨hr, hheld⟩
    · cases hd with
      | began _ _ =>
        cases ht with
        | begin _ _ _ _ => exact Or.inl (Or.inl rfl)
      | _ => cases hb
    · refine ht.barred (hI _ hrow hheld) ?_ ?_
      · rintro rfl
        cases hd with
        | failed hcid _ _ =>
          exact hr (decide_eq_true (hcid.trans (by rw [hid])))
      · rintro token rfl
        cases hd with
        | notExecuted hcid =>
          exact hr (decide_eq_true (hcid.trans (by rw [hid])))
  | reported hrow _ hr ht =>
    rcases hcase with hb | ⟨_, hheld⟩
    · exact absurd (Or.inr (Or.inl hb)) hr.not_marks
    · exact ht.barred (hI _ hrow hheld) nofun nofun
  | @aborted _ row _ _ hview hrow hid ha ht =>
    rcases hcase with hb | ⟨_, hheld⟩
    · exact absurd (Or.inr (Or.inl hb)) not_marks_error
    · have hbarred := hI _ hrow hheld
      refine ht.barred hbarred ?_ (by cases ha <;> nofun)
      rintro rfl
      cases ha with
      | fail hcid hc he =>
        have hs : row.state = .executing := by
          cases ht with
          | fail hs =>
            refine hs.resolve_left fun hs => ?_
            rw [hs] at hbarred
            exact absurd hbarred (by decide)
        rw [hview, hid] at hrow
        exact hslip ⟨he, row, hrow, hcid, hc, hs⟩
  | lapsed hrow hl hq =>
    rcases hcase with hb | ⟨_, hheld⟩
    · exact absurd (Or.inr (Or.inl hb)) hq
    · exact hl.barred (hI _ hrow hheld)
  | declined hrow hl hmv ht =>
    rcases hcase with hb | ⟨_, hheld⟩
    · cases hb
    · refine ht.barred (hl.barred (hI _ hrow hheld)) ?_ ?_
      · rintro rfl
        rcases hmv with h | h <;> cases h
      · rintro token rfl
        rcases hmv with h | h <;> cases h
  | granted _ hrow hl _ _ ht =>
    rcases hcase with hb | ⟨_, hheld⟩
    · cases hb
    · exact ht.barred (hl.barred (hI _ hrow hheld)) nofun nofun

theorem run_held (calls : List Call) (hslip : ∀ e ∈ trace H calls, ¬ Slips e.before e.input) :
    (run H calls).disk.Every fun db => ∀ j row, db.effect? j = some row →
      Held j (trace H calls) → Barred row.state :=
  run_rows (C := fun e => ¬ Slips e.before e.input)
    (R := fun past j row => Held j past → Barred row.state)
    (fun _ _ hs _ _ _ hI h hheld => h.held hs hI hheld) calls hslip

-- == the claim

/-- Between an execution begun and a release nothing makes the effect
claimable, and no claim returns it. -/
def NeverReoffers (j : Text) (past : List Step) : Prop :=
  ∀ pre a mid b post, past = pre ++ a :: (mid ++ b :: post) → Begins j a →
    (∀ k ∈ mid, ¬ Releases j k) →
    ¬ Grants j b ∧ b.before.disk.Every fun db =>
      ∀ row, db.effect? j = some row → claimable row.state = false

/-- The ledger never silently offers an effect again, in every run without a
slip. -/
theorem never_reoffers (H : Host) (calls : List Call)
    (hslip : ∀ e ∈ trace H calls, ¬ Slips e.before e.input) (j : Text) :
    NeverReoffers j (trace H calls) := by
  intro pre a mid b post heq ha hmid
  have hcut : trace H calls = (pre ++ a :: mid) ++ b :: post := by
    rw [heq, List.append_assoc, List.cons_append]
  obtain ⟨before, hpre, hbefore, hran⟩ := trace_cut hcut
  have hheld : Held j (trace H before) := ⟨pre, a, mid, hpre.symm, ha, hmid⟩
  have hevery := run_held before fun e he =>
    hslip e (by rw [hcut, hpre]; exact List.mem_append_left _ he)
  rw [← hbefore] at hevery
  constructor
  · intro hg
    obtain ⟨row, row₁, hrow, hl, hclaim⟩ := hran.claimable_of_grants hg
    have hbarred := hl.barred (hevery.view 0 j row hrow hheld)
    rw [hbarred.not_claimable] at hclaim
    cases hclaim
  · exact hevery.imp fun db h row hrow => (h j row hrow hheld).not_claimable

theorem never_reoffers_finished : NeverReoffers (Sample.host.uuid4 0)
      (trace Sample.host Sample.finished) := by
  refine never_reoffers Sample.host Sample.finished (fun e he => ?_) _
  have hinput := Machine.input_mem_of_mem_trace _ he
  simp only [Sample.finished, Sample.started, List.cons_append,
    List.nil_append, List.mem_cons, List.not_mem_nil, or_false] at hinput
  rcases hinput with h | h | h | h | h | h | h | h <;> rw [h] <;> exact id

/-- The sample effect, begun, then reported as never begun with an error that
cannot be written. -/
def Sample.slipped : List Call :=
  Sample.started ++ [ .markExecutionFailure (Sample.ticket 1 1) .object true,
    .claim Sample.worker 60]

/-- The slip: the report raises, and the next claim returns the effect whose
execution has begun. -/
theorem reoffers_slipped : ¬ NeverReoffers (Sample.host.uuid4 0)
      (trace Sample.host Sample.slipped) := by
  let begun := Machine.entry (step Sample.host)
    (Sample.beginning (Sample.ticket 1 1))
    (run Sample.host (Sample.started.take 3))
  let marked := Machine.entry (step Sample.host)
    (.markExecutionFailure (Sample.ticket 1 1) .object true)
    (run Sample.host Sample.started)
  let claimed := Machine.entry (step Sample.host) (.claim Sample.worker 60)
    (run Sample.host (Sample.slipped.take 5))
  have hrun : Begins (Sample.host.uuid4 0) begun ∧ ¬ Releases (Sample.host.uuid4 0) marked
      ∧ Grants (Sample.host.uuid4 0) claimed := by decide +kernel
  intro h
  have hnever := h (trace Sample.host (Sample.started.take 3)) begun [marked]
    claimed [] rfl hrun.1 (List.forall_mem_singleton.mpr hrun.2.1)
  exact hnever.1 hrun.2.2

end Centinal26.Effects
