/-
The attempt budget: `attempts` counts the claims an effect has had, and no
run claims it more often than `max_attempts`.
-/
import Centinal26.Effects.Runs

namespace Centinal26.Effects

open Py Steps

/-- A row within its budget, with another attempt left if its state promises
one. -/
structure Within (row : EffectRow) : Prop where
  le : row.attempts ≤ row.maxAttempts
  pos : 1 ≤ row.maxAttempts
  unclaimed : row.state = .pendingAuthorization ∨ row.state = .authorized → row.attempts = 0
  retryable : row.state = .failedRetryable → row.attempts < row.maxAttempts

/-- The claims of an effect among the calls of a run. -/
def claimsOf (j : Text) (past : List Step) : Nat :=
  past.countP fun e => grants j e.input e.output

variable {H : Host}

variable {row row' : EffectRow} {mv : Move} {db db' : Db} {id : Text}

theorem Fresh.within (h : Fresh row) : Within row := by
  obtain ⟨id, key, sha, request, n, hn, stamp, rfl, hpos⟩ := h
  exact ⟨Nat.zero_le _, hpos, fun _ => rfl, fun h => by cases h⟩

theorem Within.retry (h : Within row) (clearIntent : Bool) (stamp : Instant) :
    Within (transitionColumns (retryState row) true clearIntent stamp row) := by
  have hstate : (transitionColumns (retryState row) true clearIntent stamp
      row).state = retryState row := rfl
  refine ⟨h.le, h.pos, fun hs => ?_, fun hs => ?_⟩
  · rw [hstate] at hs
    unfold retryState at hs
    split at hs <;> rcases hs with hs | hs <;> cases hs
  · rw [hstate] at hs
    unfold retryState at hs
    split at hs
    · assumption
    · cases hs

theorem Within.other (h : Within row)
    (ha : row'.attempts = row.attempts) (hm : row'.maxAttempts = row.maxAttempts)
    (hp : row'.state ≠ .pendingAuthorization) (hn : row'.state ≠ .authorized)
    (hr : row'.state ≠ .failedRetryable) : Within row' := by
  refine ⟨?_, ?_, fun hs => ?_, fun hs => absurd hs hr⟩
  · rw [ha, hm]; exact h.le
  · rw [hm]; exact h.pos
  · rcases hs with hs | hs
    · exact absurd hs hp
    · exact absurd hs hn

theorem Within.claimable (h : Within row)
    (hs : Effects.claimable row.state = true) : row.attempts + 1 ≤ row.maxAttempts := by
  unfold Effects.claimable at hs
  simp only [Bool.or_eq_true, decide_eq_true_eq] at hs
  rcases hs with hs | hs
  · rw [h.unclaimed (Or.inr hs)]
    exact h.pos
  · exact h.retryable hs

theorem Transition.within (h : Transition H mv row row') (hw : Within row) : Within row' := by
  cases h with
  | approve hs _ _ =>
    have hzero := hw.unclaimed (Or.inl hs)
    exact ⟨hw.le, hw.pos, fun _ => hzero, fun h => by cases h⟩
  | claim _ _ hb => exact ⟨hb, hw.pos, fun h => by simp at h, fun h => by cases h⟩
  | @fail _ n _ _ =>
    cases n with
    | true => exact hw.retry _ _
    | false => exact hw.other rfl rfl nofun nofun nofun
  | notExecuted _ _ => exact hw.retry _ _
  | lapseClaim _ => exact hw.retry _ _
  | deny _ _ _ => exact hw.other rfl rfl nofun nofun nofun
  | cancel _ _ => exact hw.other rfl rfl nofun nofun nofun
  | exhaust _ _ => exact hw.other rfl rfl nofun nofun nofun
  | begin _ _ _ _ => exact hw.other rfl rfl nofun nofun nofun
  | record _ _ _ => exact hw.other rfl rfl nofun nofun nofun
  | pass _ _ _ _ _ => exact hw.other rfl rfl nofun nofun nofun
  | reject _ _ => exact hw.other rfl rfl nofun nofun nofun
  | publish _ => exact hw.other rfl rfl nofun nofun nofun
  | acknowledge _ => exact hw.other rfl rfl nofun nofun nofun
  | unknown _ _ => exact hw.other rfl rfl nofun nofun nofun
  | lapseExecution _ => exact hw.other rfl rfl nofun nofun nofun

-- == counting

theorem claimsOf_append (j : Text) (past : List Step) (e : Step) : claimsOf j (past ++ [e])
      = claimsOf j past + if grants j e.input e.output then 1 else 0 := by
  unfold claimsOf
  rw [List.countP_append, List.countP_singleton]

theorem Transition.attempts
    (h : Transition H mv row row') (hmv : ∀ c, mv ≠ .claimed c) : row'.attempts = row.attempts := by
  cases h with
  | claim _ _ _ => exact absurd rfl (hmv _)
  | _ => rfl

theorem Lapse.attempts (h : Lapse H row row') : row'.attempts = row.attempts := by
  cases h with
  | none => rfl
  | claim ht => exact ht.attempts nofun
  | execution ht => exact ht.attempts nofun

theorem Lapse.within (h : Lapse H row row') (hw : Within row) : Within row' := by
  cases h with
  | none => exact hw
  | claim ht => exact ht.within hw
  | execution ht => exact ht.within hw

theorem RowWork.counted {past : List Step} {e : Step} {j : Text}
    (hI : ∀ row, db.effect? j = some row → row.attempts = claimsOf j past ∧ Within row)
    (h : RowWork H e.before past db j row' e.input e.output) :
    row'.attempts = claimsOf j (past ++ [e]) ∧ Within row' := by
  have hkept : ¬ Marks j e.input e.output → claimsOf j (past ++ [e]) = claimsOf j past := by
    intro hq
    rw [claimsOf_append, if_neg fun hg => hq (Or.inl hg), Nat.add_zero]
  obtain ⟨call, w, r, w'⟩ := e
  simp only at h hkept
  cases h with
  | same hrow hq =>
    rw [hkept hq]
    exact hI _ hrow
  | fresh hf hid hnew =>
    have hzero : claimsOf j past = 0 :=
      List.countP_eq_zero.mpr fun e he hg => hnew e he (Or.inl hg)
    rw [hkept (by rintro (h | h | h) <;> cases h), hzero]
    obtain ⟨_, _, _, _, _, _, _, rfl, _⟩ := id hf
    exact ⟨rfl, hf.within⟩
  | moved _ hrow hid hd ht =>
    obtain ⟨hcount, hw⟩ := hI _ hrow
    refine ⟨?_, ht.within hw⟩
    rw [claimsOf_append, hd.not_grants, ht.attempts hd.ne_claimed, hcount]
    rfl
  | reported hrow hid hr ht =>
    obtain ⟨hcount, hw⟩ := hI _ hrow
    rw [hkept hr.not_marks, ht.attempts nofun]
    exact ⟨hcount, ht.within hw⟩
  | aborted _ hrow hid ha ht =>
    obtain ⟨hcount, hw⟩ := hI _ hrow
    rw [hkept not_marks_error, ht.attempts (by cases ha <;> nofun)]
    exact ⟨hcount, ht.within hw⟩
  | lapsed hrow hl hq =>
    obtain ⟨hcount, hw⟩ := hI _ hrow
    rw [hkept hq, hl.attempts]
    exact ⟨hcount, hl.within hw⟩
  | declined hrow hl hmv ht =>
    obtain ⟨hcount, hw⟩ := hI _ hrow
    have hsame := ht.attempts fun c heq => by
      rw [heq] at hmv
      rcases hmv with h | h <;> cases h
    rw [hkept (by rintro (h | h | h) <;> cases h), hsame, hl.attempts]
    exact ⟨hcount, ht.within (hl.within hw)⟩
  | granted _ hrow hl hid htoken ht =>
    obtain ⟨hcount, hw⟩ := hI _ hrow
    refine ⟨?_, ht.within (hl.within hw)⟩
    rw [claimsOf_append, grants_claimed, decide_eq_true hid, if_pos rfl, ← hcount, ← hl.attempts]
    cases ht with
    | claim _ _ _ => rfl

-- == the branch never reached

def Budgeted (db : Db) : Prop :=
  ∀ j row, db.effect? j = some row → Within row

/-- No claim has found a budget exhausted. -/
def NeverExhausted (db : Db) : Prop :=
  ∀ h ∈ db.history, h.event ≠ .attemptBudgetExhausted

theorem RowMoved.budgeted (h : RowMoved H id mv db db') (hb : Budgeted db) : Budgeted db' := by
  intro j row' hj
  rcases h.cases hj with ⟨_, row, hrow, ht⟩ | ⟨_, hsame⟩
  · exact ht.within (hb j row hrow)
  · exact hb j row' hsame

theorem RowMoved.ne_exhausted (h : RowMoved H id .exhausted db db') (hb : Budgeted db) : False := by
  obtain ⟨row, row', hrow, ht, _⟩ := h
  have hw := hb id row hrow
  cases ht with
  | exhaust hs hlt =>
    exact Nat.not_lt.mpr (hw.claimable hs) hlt

theorem Moved.neverExhausted
    (h : Moved H id mv db db') (hb : Budgeted db) (hn : NeverExhausted db) :
    NeverExhausted db' := by
  have hmv : mv.event ≠ .attemptBudgetExhausted := by
    intro hevent
    have heq : mv = .exhausted := by
      cases mv <;> first | rfl | cases hevent
    subst heq
    exact h.rowMoved.ne_exhausted hb
  cases h with
  | mk _ _ =>
    intro h hh
    rcases List.mem_append.mp hh with hold | hnew
    · exact hn h hold
    · rw [List.mem_singleton.mp hnew]
      exact hmv

theorem Submitted.budgeted (hf : Fresh row)
    (h : Submitted H row db db') (hb : Budgeted db) : Budgeted db' := by
  cases h with
  | mk hi =>
    obtain ⟨_, _, hall⟩ := Db.insertEffect?_spec hi
    intro j row' hj
    rw [Db.effect?_insertHistory, hall j] at hj
    split at hj
    · cases hj
      exact hf.within
    · exact hb j row' hj

theorem Submitted.neverExhausted
    (h : Submitted H row db db') (hn : NeverExhausted db) : NeverExhausted db' := by
  cases h with
  | mk hi =>
    obtain ⟨_, hhist, _⟩ := Db.insertEffect?_spec hi
    intro h hh
    rw [Db.history_insertHistory, hhist] at hh
    rcases List.mem_append.mp hh with hold | hnew
    · exact hn h hold
    · rw [List.mem_singleton.mp hnew]
      nofun

theorem run_neverExhausted (calls : List Call) :
    (run H calls).disk.Every fun db => Budgeted db ∧ NeverExhausted db := by
  refine run_every (C := fun _ => True) (I := fun _ db => Budgeted db ∧ NeverExhausted db)
    ⟨fun _ _ h => (by cases h), fun _ h => (by cases h)⟩ ?_ calls
    (fun _ _ => trivial)
  intro past e _ db db' hwork hI
  refine hwork.keeps (I := fun db => Budgeted db ∧ NeverExhausted db) ?_ ?_ ?_ hI
  · exact fun row db db' hf hs h => ⟨hs.budgeted hf h.1, hs.neverExhausted h.2⟩
  · exact fun id mv db db' hm h =>
      ⟨hm.rowMoved.budgeted h.1, hm.neverExhausted h.1 h.2⟩
  · intro row mv db db' _ ht h
    refine ⟨ht.rowMoved.budgeted h.1, ?_⟩
    cases ht with
    | mk _ _ => exact h.2

/-- The attempt budget, in every image after every run: `attempts` counts the
claims, within `max_attempts`, leaving one more for a retryable effect and all
of them for an authorized one; so a claim never finds the budget exhausted,
neither in the past nor in the next effect it would pick. -/
theorem attempt_budget (H : Host) (calls : List Call) : (run H calls).disk.Every fun db =>
      (∀ j row, db.effect? j = some row → row.attempts = claimsOf j (trace H calls)
        ∧ row.attempts ≤ row.maxAttempts
        ∧ (row.state = .failedRetryable → row.attempts < row.maxAttempts)
        ∧ (row.state = .authorized → row.attempts = 0)
        ∧ claimsOf j (trace H calls) ≤ row.maxAttempts)
      ∧ (∀ row, nextClaimable db = some row → ¬ row.maxAttempts < row.attempts + 1)
      ∧ ∀ h ∈ db.history, h.event ≠ .attemptBudgetExhausted := by
  have hrows := run_rows (H := H) (C := fun _ => True)
    (R := fun past j row => row.attempts = claimsOf j past ∧ Within row)
    (fun past e _ db j row' hI h => h.counted hI) calls (fun _ _ => trivial)
  have hnever := run_neverExhausted (H := H) calls
  refine (hrows.and hnever).imp fun db ⟨hrow, hb, hn⟩ =>
    ⟨fun j row hj => ?_, fun row hnext => ?_, hn⟩
  · obtain ⟨hcount, hw⟩ := hrow j row hj
    exact ⟨hcount, hw.le, hw.retryable, fun hs => hw.unclaimed (Or.inr hs), hcount ▸ hw.le⟩
  · obtain ⟨hfind, hs⟩ := nextClaimable_spec hnext
    exact Nat.not_lt.mpr ((hb _ _ hfind).claimable hs)

end Centinal26.Effects
