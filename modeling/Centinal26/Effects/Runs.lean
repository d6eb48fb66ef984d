/-
Runs seen from one effect: what a call did to one row (`RowWork`), and the
rule by which a property of a row, given the calls so far, is carried through
every run (`run_rows`).
-/
import Centinal26.Effects.Outcome

namespace Centinal26.Effects

open Py Steps

-- == attempts

/-- The call returned a claim of the effect. -/
def grants (j : Text) : Call → Except LedgerError Reply → Bool
  | _, .ok (.claimed (some c)) => decide (c.effectId = j.str)
  | _, _ => false

/-- The call persisted an execution intent for the effect. -/
def begins (j : Text) : Call → Except LedgerError Reply → Bool
  | .beginExecution c _ _ _, .ok _ => decide (c.effectId = j.str)
  | _, _ => false

/-- The call was accepted as the declaration that nothing was executed. -/
def releases (j : Text) : Call → Except LedgerError Reply → Bool
  | .markExecutionFailure c _ true, .ok _ => decide (c.effectId = j.str)
  | .reconcileExecution id _ .notExecuted _ _, .ok _ => decide (id = j.str)
  | _, _ => false

abbrev Grants (j : Text) (e : Step) : Prop :=
  grants j e.input e.output = true

abbrev Begins (j : Text) (e : Step) : Prop :=
  begins j e.input e.output = true

abbrev Releases (j : Text) (e : Step) : Prop :=
  releases j e.input e.output = true

/-- The call started, entered or ended an attempt of the effect. -/
def Marks (j : Text) (call : Call) (r : Except LedgerError Reply) : Prop :=
  grants j call r = true ∨ begins j call r = true ∨ releases j call r = true

variable {H : Host} {w : World} {j : Text} {call : Call}
  {r : Except LedgerError Reply}

theorem grants_claimed (c : EffectClaim) :
    grants j call (.ok (.claimed (some c))) = decide (c.effectId = j.str) :=
  rfl

theorem not_marks_error {e : LedgerError} : ¬ Marks j call (.error e) := by
  rintro (h | h | h)
  · cases h
  · cases call <;> cases h
  · unfold releases at h
    split at h
    · next heq => cases heq
    · next heq => cases heq
    · cases h

theorem Idle.not_marks (h : Idle call r) : ¬ Marks j call r := by
  cases h with
  | error => exact not_marks_error
  | replay hr => cases hr <;> rintro (h | h | h) <;> cases h
  | repeated => rintro (h | h | h) <;> cases h

variable {reply : Reply} {mv : Move} {db db' : Db} {row' : EffectRow}

theorem Does.of_marks {row : EffectRow}
    (hd : Does H w row call reply mv) (hm : Marks j call (.ok reply)) : j = row.effectId := by
  have hstr : ∀ {s : PyStr}, s = row.effectId.str → s = j.str →
      j = row.effectId := fun h₁ h₂ => Text.ext (h₂.symm.trans h₁)
  cases hd with
  | began hid _ =>
    rcases hm with h | h | h
    · cases h
    · exact hstr hid (of_decide_eq_true h)
    · cases h
  | @failed _ _ providerNotInvoked hid _ _ =>
    rcases hm with h | h | h
    · cases h
    · cases h
    · cases providerNotInvoked with
      | true => exact hstr hid (of_decide_eq_true h)
      | false => cases h
  | notExecuted hid =>
    rcases hm with h | h | h
    · cases h
    · cases h
    · exact hstr hid (of_decide_eq_true h)
  | authorized _ => rcases hm with h | h | h <;> cases h
  | denied _ => rcases hm with h | h | h <;> cases h
  | recorded _ => rcases hm with h | h | h <;> cases h
  | passed _ => rcases hm with h | h | h <;> cases h
  | rejected _ _ => rcases hm with h | h | h <;> cases h
  | published _ => rcases hm with h | h | h <;> cases h
  | acknowledged _ => rcases hm with h | h | h <;> cases h
  | unknown _ => rcases hm with h | h | h <;> cases h

theorem Does.not_grants {row : EffectRow}
    (hd : Does H w row call reply mv) : grants j call (.ok reply) = false := by
  cases hd <;> rfl

theorem Does.ne_claimed {row : EffectRow}
    (hd : Does H w row call reply mv) (c : EffectClaim) : mv ≠ .claimed c := by
  cases hd <;> nofun

theorem Reports.not_marks {row : EffectRow} {token : PyStr}
    (h : Reports row call token) : ¬ Marks j call (.ok (.state .executed)) := by
  cases h with
  | mk _ => rintro (h | h | h) <;> cases h

theorem claim_marks {worker : PyStr} {lease : Int} (hm : Marks j (.claim worker lease) r) :
    ∃ c, r = .ok (.claimed (some c)) ∧ c.effectId = j.str := by
  rcases hm with h | h | h
  · unfold grants at h
    split at h
    · next c => exact ⟨c, rfl, of_decide_eq_true h⟩
    · cases h
  · cases h
  · cases h

-- == rows

/-- Nothing, or the lapse of a lease. -/
inductive Lapse (H : Host) (row : EffectRow) : EffectRow → Prop
  | none : Lapse H row row
  | claim {row' : EffectRow} (ht : Transition H .lapsedClaim row row') : Lapse H row row'
  | execution {row' : EffectRow} (ht : Transition H .lapsedExecution row row') : Lapse H row row'

theorem Lapse.tail {row row₁ row₂ : EffectRow}
    (h : Lapse H row row₁) (hmv : mv = .lapsedClaim ∨ mv = .lapsedExecution)
    (ht : Transition H mv row₁ row₂) : Lapse H row row₂ := by
  cases h with
  | none =>
    rcases hmv with rfl | rfl
    · exact .claim ht
    · exact .execution ht
  | claim h₁ =>
    exfalso
    cases h₁ with
    | lapseClaim hs =>
      have hstate : retryState row = .claimed ∨ retryState row = .executing := by
        rcases hmv with rfl | rfl
        · cases ht with
          | lapseClaim hs₁ => exact Or.inl hs₁
        · cases ht with
          | lapseExecution hs₁ => exact Or.inr hs₁
      unfold retryState at hstate
      split at hstate <;> simp at hstate
  | execution h₁ =>
    exfalso
    cases h₁ with
    | lapseExecution hs =>
      rcases hmv with rfl | rfl
      · cases ht with
        | lapseClaim hs₁ => cases hs₁
      · cases ht with
        | lapseExecution hs₁ => cases hs₁

theorem Swept.row (h : Swept H db db')
    (hj : db'.effect? j = some row') : ∃ row, db.effect? j = some row ∧ Lapse H row row' := by
  induction h generalizing row' with
  | refl => exact ⟨row', hj, .none⟩
  | tail _ hmv hm ih =>
    rcases hm.rowMoved.cases hj with ⟨_, row₁, hrow₁, ht⟩ | ⟨_, hsame⟩
    · obtain ⟨row, hrow, hlapse⟩ := ih hrow₁
      exact ⟨row, hrow, hlapse.tail hmv ht⟩
    · exact ih hsame

inductive RowWork (H : Host) (w : World) (past : List Step) (db : Db)
    (j : Text) (row' : EffectRow) : Call → Except LedgerError Reply → Prop
  | same {call : Call} {r : Except LedgerError Reply}
      (hrow : db.effect? j = some row') (hq : ¬ Marks j call r) :
      RowWork H w past db j row' call r
  | fresh {request : EffectRequest} {n : Int} (hf : Fresh row') (hid : j = row'.effectId)
      (hnew : ∀ e ∈ past, ¬ Marks j e.input e.output) :
      RowWork H w past db j row' (.submit request n) (.ok (.submitted row'.effectId true))
  | moved {call : Call} {row : EffectRow} {reply : Reply} {mv : Move}
      (hview : db = w.view 0) (hrow : db.effect? j = some row) (hid : j = row.effectId)
      (hd : Does H w row call reply mv) (ht : Transition H mv row row') :
      RowWork H w past db j row' call (.ok reply)
  | reported {call : Call} {row : EffectRow} {token : PyStr}
      (hrow : db.effect? j = some row) (hid : j = row.effectId)
      (hr : Reports row call token)
      (ht : Transition H (.recorded token) row row') :
      RowWork H w past db j row' call (.ok (.state .executed))
  | aborted {call : Call} {row : EffectRow} {mv : Move} {e : LedgerError}
      (hview : db = w.view 0) (hrow : db.effect? j = some row) (hid : j = row.effectId)
      (ha : Aborts H row call mv) (ht : Transition H mv row row') :
      RowWork H w past db j row' call (.error e)
  | lapsed {call : Call} {r : Except LedgerError Reply} {row : EffectRow}
      (hrow : db.effect? j = some row) (hl : Lapse H row row')
      (hq : ¬ Marks j call r) : RowWork H w past db j row' call r
  | declined {worker : PyStr} {lease : Int} {row row₁ : EffectRow} {mv : Move}
      (hrow : db.effect? j = some row) (hl : Lapse H row row₁)
      (hmv : mv = .cancelled ∨ mv = .exhausted)
      (ht : Transition H mv row₁ row') :
      RowWork H w past db j row' (.claim worker lease) (.ok (.claimed none))
  | granted {worker : PyStr} {lease : Int} {row row₁ : EffectRow}
      {c : EffectClaim} (hview : db = w.view 0) (hrow : db.effect? j = some row)
      (hl : Lapse H row row₁) (hid : c.effectId = j.str)
      (htoken : c.claimToken = (H.uuid4 w.draws).str)
      (ht : Transition H (.claimed c) row₁ row') :
      RowWork H w past db j row' (.claim worker lease) (.ok (.claimed (some c)))

theorem Work.row {past : List Step} (h : Work H w call r db db')
    (hnew : ∀ j, db.effect? j = none → ∀ e ∈ past, ¬ Marks j e.input e.output)
    (hj : db'.effect? j = some row') : RowWork H w past db j row' call r := by
  cases h with
  | kept hi => exact .same hj hi.not_marks
  | submitted hf hs =>
    cases hs with
    | mk hi =>
      obtain ⟨hnone, _, hall⟩ := Db.insertEffect?_spec hi
      rw [Db.effect?_insertHistory, hall j] at hj
      split at hj
      · next heq =>
        injection hj with hj
        subst hj heq
        exact .fresh hf rfl (hnew _ hnone)
      · refine .same hj ?_
        rintro (h | h | h) <;> cases h
  | moved hview hrow hd hm =>
    rcases hm.rowMoved.cases hj with ⟨heq, row₁, hrow₁, ht⟩ | ⟨hne, hsame⟩
    · subst heq
      cases hrow.symm.trans hrow₁
      exact .moved hview hrow rfl hd ht
    · exact .same hsame fun hmarks => hne (hd.of_marks hmarks)
  | reported hrow hr hm =>
    rcases hm.rowMoved.cases hj with ⟨heq, row₁, hrow₁, ht⟩ | ⟨_, hsame⟩
    · subst heq
      cases hrow.symm.trans hrow₁
      exact .reported hrow rfl hr ht
    · exact .same hsame hr.not_marks
  | aborted hview hrow ha ht =>
    rcases ht.rowMoved.cases hj with ⟨heq, row₁, hrow₁, ht⟩ | ⟨_, hsame⟩
    · subst heq
      cases hrow.symm.trans hrow₁
      exact .aborted hview hrow rfl ha ht
    · exact .same hsame not_marks_error
  | swept hs =>
    obtain ⟨row, hrow, hl⟩ := hs.row hj
    refine .lapsed hrow hl ?_
    rintro (h | h | h) <;> cases h
  | unclaimed hr hs =>
    obtain ⟨row, hrow, hl⟩ := hs.row hj
    refine .lapsed hrow hl fun hmarks => ?_
    obtain ⟨c, hc, _⟩ := claim_marks hmarks
    exact hr c hc
  | claimed hview hs hrow hc hm =>
    rcases hm.rowMoved.cases hj with ⟨heq, row₁, hrow₁, ht⟩ | ⟨hne, hsame⟩
    · subst heq
      cases hrow.symm.trans hrow₁
      obtain ⟨row, hrow', hl⟩ := hs.row hrow
      cases hc with
      | cancelled => exact .declined hrow' hl (Or.inl rfl) ht
      | exhausted => exact .declined hrow' hl (Or.inr rfl) ht
      | granted hid _ htoken => exact .granted hview hrow' hl hid htoken ht
    · obtain ⟨row, hrow', hl⟩ := hs.row hsame
      refine .lapsed hrow' hl fun hmarks => ?_
      obtain ⟨c, hc', hcid⟩ := claim_marks hmarks
      injection hc' with hc'
      injection hc' with hc'
      subst hc'
      cases hc with
      | granted hid _ _ => exact hne (Text.ext (hcid.symm.trans hid))

/-- A call that returns a claim of the effect found it claimable, at the latest
once it had recovered the lapsed leases. -/
theorem Ran.claimable_of_grants {w' : World} (h : Ran H w call r w') (hg : grants j call r = true) :
    ∃ row row₁, (w.view 0).effect? j = some row ∧ Lapse H row row₁
      ∧ claimable row₁.state = true := by
  have hm : Marks j call r := Or.inl hg
  cases h with
  | raised _ _ => exact absurd hm not_marks_error
  | replayed _ hr _ => exact absurd hm (Idle.replay hr).not_marks
  | dropped _ _ => exact absurd hm not_marks_error
  | repeated _ => exact absurd hm Idle.repeated.not_marks
  | rereplayed _ hr _ => exact absurd hm (Idle.replay hr).not_marks
  | submitted _ _ _ => cases hg
  | moved _ hd _ _ => rw [hd.not_grants] at hg; cases hg
  | reported _ hr _ _ => exact absurd hm hr.not_marks
  | aborted _ _ _ _ => exact absurd hm not_marks_error
  | swept _ _ => cases hg
  | unclaimed _ _ => cases hg
  | claimed hs hrow hc hmoved _ =>
    cases hc with
    | cancelled => cases hg
    | exhausted => cases hg
    | granted hid _ _ =>
      have hj : j = _ := Text.ext ((of_decide_eq_true hg).symm.trans hid)
      subst hj
      obtain ⟨row, hbefore, hl⟩ := hs.row hrow
      obtain ⟨row₁, _, hrow₁, ht, _⟩ := hmoved.rowMoved
      cases hrow.symm.trans hrow₁
      cases ht with
      | claim hclaim _ _ => exact ⟨row, _, hbefore, hl, hclaim⟩
  | stalled _ _ _ _ _ => exact absurd hm not_marks_error

/-- An effect that is not there after a call was not there before it, and the
call did not mark it. -/
theorem Work.absent (h : Work H w call r db db') (hj : db'.effect? j = none) :
    db.effect? j = none ∧ ¬ Marks j call r := by
  cases h with
  | kept hi => exact ⟨hj, hi.not_marks⟩
  | submitted hf hs =>
    cases hs with
    | mk hi =>
      obtain ⟨_, _, hall⟩ := Db.insertEffect?_spec hi
      rw [Db.effect?_insertHistory, hall j] at hj
      refine ⟨?_, by rintro (h | h | h) <;> cases h⟩
      split at hj
      · cases hj
      · exact hj
  | moved hview hrow hd hm =>
    have hbefore := hm.rowMoved.absent hj
    refine ⟨hbefore, fun hmarks => ?_⟩
    rw [hd.of_marks hmarks, hrow] at hbefore
    cases hbefore
  | reported hrow hr hm => exact ⟨hm.rowMoved.absent hj, hr.not_marks⟩
  | aborted hview hrow ha ht => exact ⟨ht.rowMoved.absent hj, not_marks_error⟩
  | swept hs =>
    exact ⟨hs.absent hj, by rintro (h | h | h) <;> cases h⟩
  | unclaimed hr hs =>
    refine ⟨hs.absent hj, fun hmarks => ?_⟩
    obtain ⟨c, hc, _⟩ := claim_marks hmarks
    exact hr c hc
  | claimed hview hs hrow hc hm =>
    have hmid := hm.rowMoved.absent hj
    refine ⟨hs.absent hmid, fun hmarks => ?_⟩
    obtain ⟨c, hc', hcid⟩ := claim_marks hmarks
    injection hc' with hc'
    injection hc' with hc'
    subst hc'
    cases hc with
    | granted hid _ _ =>
      rw [Text.ext (hcid.symm.trans hid), hrow] at hmid
      cases hmid

/-- The rule for the rows of an effect: a property of a row, given what has
been recorded so far, holds of the effect's row in every image after every
run if what each call does to a row keeps it. -/
theorem run_rows {C : Step → Prop} {R : List Step → Text → EffectRow → Prop}
    (hstep : ∀ past e, C e → ∀ db j row', (∀ row, db.effect? j = some row → R past j row) →
      RowWork H e.before past db j row' e.input e.output →
      R (past ++ [e]) j row') (calls : List Call) (hC : ∀ e ∈ trace H calls, C e) :
    (run H calls).disk.Every fun db =>
      ∀ j row, db.effect? j = some row → R (trace H calls) j row := by
  have hrun := run_every (H := H) (C := C)
    (I := fun past db => (∀ j row, db.effect? j = some row → R past j row)
      ∧ ∀ j, db.effect? j = none → ∀ e ∈ past, ¬ Marks j e.input e.output)
    ⟨fun _ _ h => (by cases h), fun _ _ _ h => (by cases h)⟩
    (fun past e hc db db' hwork hI => by
      obtain ⟨hrows, habsent⟩ := hI
      refine ⟨fun j row' hj => ?_, fun j hj e' he' => ?_⟩
      · exact hstep past e hc db j row' (hrows j) (hwork.row habsent hj)
      · obtain ⟨hbefore, hq⟩ := hwork.absent hj
        rcases List.mem_append.mp he' with hpast | hlast
        · exact habsent j hbefore e' hpast
        · rw [List.mem_singleton.mp hlast]
          exact hq)
    calls hC
  exact ⟨hrun.file.1, fun c db htx => (hrun.tx c db htx).1⟩

end Centinal26.Effects
