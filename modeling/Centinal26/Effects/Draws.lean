/-
No identifier is drawn twice in a run: every operation only ever counts the
draws up, and `begin_execution` counts its own token.
-/
import Centinal26.Effects.Runs

namespace Centinal26.Effects

open Py Steps

variable {H : Host} {me : Nat}

/-- The block never counts the draws back. -/
abbrev Draws {α : Type} (m : LBlock α) : Prop := m.Counts World.draws

-- == statements

variable {α : Type} {k p o : PyStr} {a b : Step} {w w' : World} {token : Text} {calls : List Call}
  {pre mid post : List Step}

theorem draws_liftPy (r : Except PyErr α) : Draws (liftPy r) :=
  .of_eq fun _ => rfl

theorem draws_readClock : Draws (readClock H) := .of_eq fun _ => rfl

theorem draws_drawUuid : Draws (drawUuid H) := fun w => Nat.le_succ w.draws

theorem draws_select (query : Db → α) : Draws (select me query) :=
  .of_eq fun _ => rfl

theorem draws_execute (f : Db → Db) : Draws (execute me f) :=
  .of_eq fun w => by
    unfold execute
    split <;> rfl

theorem draws_commit : Draws (commit me) := .of_eq fun _ => rfl

theorem draws_rollback : Draws (rollback me) := .of_eq fun _ => rfl

theorem draws_beginImmediate : Draws (beginImmediate me) := .of_eq fun w => by
  unfold beginImmediate
  split <;> rfl

theorem draws_rowLocked (effectId : PyStr) : Draws (rowLocked me effectId) :=
  .of_eq fun w => by rw [rowLocked_apply]

theorem draws_appendHistory (effectId : Text) (event : EffectEvent)
    (fromState : Option EffectState) (toState : EffectState) (payload : PyVal) :
    Draws (appendHistory H me effectId event fromState toState payload) :=
  (draws_select _).bind fun _ => (draws_liftPy _).bind fun _ =>
    draws_readClock.bind fun _ => (draws_liftPy _).bind fun _ =>
      draws_execute _

theorem draws_rewrite (effectId : Text) (f : Instant → EffectRow → EffectRow)
    (hf : ∀ t r, (f t r).effectId = r.effectId) (event : EffectEvent)
    (fromState toState : EffectState) (payload : Except PyErr PyVal) :
    Draws (rewrite H me effectId f hf event fromState toState payload) :=
  draws_readClock.bind fun _ => (draws_execute _).bind fun _ =>
    (draws_liftPy _).bind fun _ => draws_appendHistory _ _ _ _ _

theorem draws_rewrite_commit (effectId : Text) (f : Instant → EffectRow → EffectRow)
    (hf : ∀ t r, (f t r).effectId = r.effectId) (event : EffectEvent)
    (fromState toState : EffectState) (payload : Except PyErr PyVal) (a : α) :
    Draws (rewrite H me effectId f hf event fromState toState payload
      >>= fun _ => commit me >>= fun _ => pure a) :=
  (draws_rewrite _ _ _ _ _ _ _).bind fun _ => draws_commit.bind fun _ =>
    .pure a

-- == blocks

theorem draws_submitRow (request : EffectRequest) (n : Nat) : Draws (submitRow H me request n) := by
  refine draws_drawUuid.bind fun _ => draws_readClock.bind fun _ =>
    (draws_liftPy _).bind fun _ => (draws_liftPy _).bind fun _ =>
    (draws_liftPy _).bind fun _ => ?_
  split
  · refine (draws_select _).bind fun inserted => ?_
    cases inserted with
    | none =>
      exact (draws_execute _).bind fun _ => draws_rollback.bind fun _ =>
        .pure _
    | some db =>
      exact (draws_execute _).bind fun _ =>
        (draws_appendHistory _ _ _ _ _).bind fun _ =>
        draws_commit.bind fun _ => .pure _
  · exact .throw _

theorem draws_submittedBefore (request : EffectRequest) : Draws (submittedBefore H me request) := by
  refine (draws_select _).bind fun rows => ?_
  cases rows with
  | none => exact .throw _
  | some row =>
    refine (draws_liftPy _).bind fun sha => ?_
    split
    · exact .throw _
    · exact .pure _

theorem draws_recoverRows (now : DateTime) (rows : List EffectRow) :
    Draws (recoverRows H me now rows) := by
  induction rows with
  | nil => exact .pure _
  | cons row rest ih =>
    unfold recoverRows
    split
    · exact ih
    · refine (draws_liftPy _).bind fun within => ?_
      split
      · exact ih
      · refine Block.Counts.bind ?_ fun _ => ih.bind fun _ => .pure _
        unfold recoverRow
        split <;> exact draws_rewrite _ _ _ _ _ _ _

theorem draws_claimCandidate (row : EffectRow) (worker : PyStr) (lease : Int) :
    Draws (claimCandidate H me row worker lease) := by
  refine draws_readClock.bind fun _ => (draws_liftPy _).bind fun expired => ?_
  split
  · exact draws_rewrite_commit _ _ _ _ _ _ _ _
  · split
    · exact draws_rewrite_commit _ _ _ _ _ _ _ _
    · exact draws_drawUuid.bind fun _ => draws_readClock.bind fun _ =>
        (draws_liftPy _).bind fun _ => (draws_liftPy _).bind fun _ =>
        draws_rewrite_commit _ _ _ _ _ _ _ _

theorem draws_claimRow (worker : PyStr) (lease : Int) : Draws (claimRow H me worker lease) := by
  refine draws_beginImmediate.bind fun _ => (draws_select _).bind fun row => ?_
  cases row with
  | none => exact draws_commit.bind fun _ => .pure _
  | some row => exact draws_claimCandidate row worker lease

theorem draws_claimedRowLocked (c : EffectClaim) : Draws (claimedRowLocked H me c) := by
  refine (draws_rowLocked _).bind fun row => ?_
  split
  · exact .throw _
  · split
    · exact .throw _
    · split
      · exact .throw _
      · refine draws_readClock.bind fun _ => ?_
        split
        · exact .throw _
        · exact .pure _

theorem draws_recordExecution (id token : PyStr) (result receipt : PyVal) :
    (recordExecution H me id token result receipt).Counts World.draws := by
  refine (Prog.Counts.block (draws_rowLocked _)).bind fun row => ?_
  split
  · split
    · exact .pure _
    · exact .raise _
  · split
    · exact .raise _
    · split
      · exact .raise _
      · exact .block ((draws_liftPy _).bind fun _ => draws_readClock.bind fun _ =>
          (draws_liftPy _).bind fun _ => (draws_liftPy _).bind fun _ =>
          draws_rewrite_commit _ _ _ _ _ _ _ _)

-- == operations

theorem draws_recoverExpiredClaims (now : Option DateTime) :
    (recoverExpiredClaims H me now).Counts World.draws := by
  refine (Prog.Counts.block ?_).bind fun _ => .block ?_
  · exact draws_readClock.bind fun _ => (draws_select _).bind fun _ => .pure _
  · exact (draws_recoverRows _ _).bind fun _ => draws_commit.bind fun _ =>
      .pure _

theorem draws_read {id : PyStr} {k : EffectRow → LProg α} (h : ∀ row, (k row).Counts World.draws) :
    (Prog.block .read (rowLocked me id) >>= k : LProg α).Counts World.draws :=
  (Prog.Counts.block (draws_rowLocked id)).bind h

theorem draws_prog (call : Call) : (call.prog H me).Counts World.draws := by
  cases call with
  | submit r n =>
    refine .map _ ?_
    unfold submit
    split
    · exact .raise _
    · split
      · exact .raise _
      · split
        · exact .raise _
        · split
          · exact .raise _
          · refine (Prog.Counts.block (draws_submitRow _ _)).bind fun inserted => ?_
            cases inserted with
            | none => exact .block (draws_submittedBefore _)
            | some id => exact .pure _
  | authorize id a =>
    refine .map _ (draws_read fun row => ?_)
    split
    · split
      · exact .raise _
      · split
        · exact .pure _
        · exact .raise _
    · split
      · exact .raise _
      · exact .block (draws_readClock.bind fun _ =>
          (draws_liftPy _).bind fun _ => (draws_liftPy _).bind fun _ =>
          draws_rewrite_commit _ _ _ _ _ _ _ _)
  | claim worker lease =>
    refine .map _ ?_
    unfold claim
    split
    · exact .raise _
    · split
      · exact .raise _
      · exact (draws_recoverExpiredClaims none).bind fun _ =>
          .block (draws_claimRow worker lease)
  | beginExecution c p k o =>
    refine .map _ ?_
    unfold beginExecution
    split
    · exact .raise _
    · exact (Prog.Counts.block (draws_claimedRowLocked c)).bind fun row =>
        .block (draws_drawUuid.bind fun _ => draws_readClock.bind fun _ =>
          draws_rewrite_commit _ _ _ _ _ _ _ _)
  | recordExecution id t r p => exact .map _ (draws_recordExecution id t r p)
  | markExecutionFailure c e n =>
    refine .map _ (draws_read fun row => ?_)
    split
    · exact .raise _
    · split
      · exact .raise _
      · exact .block (draws_rewrite_commit _ _ _ _ _ _ _ _)
  | verify id v p e i =>
    refine .map _ ?_
    unfold verify
    split
    · exact .raise _
    · refine draws_read fun row => ?_
      split
      · split
        · exact .raise _
        · split
          · exact .pure _
          · exact .raise _
      · split
        · exact .raise _
        · split
          · exact .raise _
          · exact .block ((draws_liftPy _).bind fun _ =>
              draws_readClock.bind fun _ => (draws_liftPy _).bind fun _ =>
              draws_rewrite_commit _ _ _ _ _ _ _ _)
  | publish id p =>
    refine .map _ (draws_read fun row => ?_)
    split
    · split
      · exact .raise _
      · split
        · exact .pure _
        · exact .raise _
    · split
      · exact .raise _
      · exact .block ((draws_liftPy _).bind fun _ =>
          draws_rewrite_commit _ _ _ _ _ _ _ _)
  | acknowledge id a =>
    refine .map _ (draws_read fun row => ?_)
    split
    · split
      · exact .raise _
      · split
        · exact .pure _
        · exact .raise _
    · split
      · exact .raise _
      · exact .block ((draws_liftPy _).bind fun _ =>
          draws_rewrite_commit _ _ _ _ _ _ _ _)
  | reconcileExecution id t s r p =>
    refine .map _ ?_
    unfold reconcileExecution
    split
    · exact .raise _
    · refine draws_read fun row => ?_
      split
      · exact .raise _
      · split
        · exact .raise _
        · split
          · exact .block (draws_rewrite_commit _ _ _ _ _ _ _ _)
          · split
            · split
              · exact .raise _
              · exact (Prog.Counts.block draws_rollback).bind fun _ =>
                  draws_recordExecution id t r p
            · exact .block (draws_rewrite_commit _ _ _ _ _ _ _ _)
  | recoverExpiredClaims now => exact .map _ (draws_recoverExpiredClaims now)

theorem rewrite_commit_ok {effectId : Text} {f : Instant → EffectRow → EffectRow}
    {hf : ∀ t r, (f t r).effectId = r.effectId} {event : EffectEvent}
    {fromState toState : EffectState} {payload : Except PyErr PyVal} {a b : α}
    (h : (rewrite H me effectId f hf event fromState toState payload
      >>= fun _ => commit me >>= fun _ => pure a) w = (.ok b, w')) :
    b = a ∧ w.draws ≤ w'.draws := by
  have hcounts : Draws (rewrite H me effectId f hf event fromState toState
      payload >>= fun _ => commit me >>= fun _ => pure a) :=
    draws_rewrite_commit _ _ _ _ _ _ _ _
  replace hcounts := hcounts w
  rw [h] at hcounts
  rw [Block.bind_apply] at h
  split at h
  · cases h
    exact ⟨rfl, hcounts⟩
  · cases h

theorem draws_beginRow {row : EffectRow} (h : beginRow H me row p k o w = (.ok token, w')) :
    token = H.uuid4 w.draws ∧ w.draws < w'.draws := by
  unfold beginRow at h
  rw [drawUuid_bind, readClock_bind] at h
  exact rewrite_commit_ok h

/-- `begin_execution` draws the token it returns, so the next draw comes
after it. -/
theorem draws_begun {c : EffectClaim}
    (h : (step H (.beginExecution c p k o) w).1 = .ok (.token token)) : token = H.uuid4 w.draws
      ∧ w.draws < (step H (.beginExecution c p k o) w).2.draws := by
  unfold step at h ⊢
  simp only [Call.prog, Prog.run_map] at h ⊢
  unfold beginExecution at h ⊢
  split at h
  · cases h
  · next hblank =>
    rw [if_neg hblank]
    cases hres : claimedRowLocked H 0 c w with
    | mk r w₁ =>
      obtain ⟨_, hdraws, _⟩ := claimedRowLocked_spec c hres
      cases r with
      | error e =>
        rw [Prog.run_bind_error (by rw [Prog.run_block, hres])] at h
        cases h
      | ok row =>
        rw [Prog.run_bind_ok (by rw [Prog.run_block, hres]), Prog.run_block] at h ⊢
        cases hbegin : beginRow H 0 row p k o w₁ with
        | mk r w₂ =>
          rw [hbegin] at h
          cases r with
          | error e => cases h
          | ok found =>
            cases h
            rw [← hdraws]
            exact draws_beginRow hbegin

-- == runs

/-- The call began an execution under the token. -/
def Begun (token : Text) (call : Call) (r : Except LedgerError Reply) : Prop :=
  (∃ c p k o, call = .beginExecution c p k o) ∧ r = .ok (.token token)

theorem trace_draws
    (h : trace H calls = pre ++ a :: (mid ++ b :: post)) : a.after.draws ≤ b.before.draws := by
  obtain ⟨_, _, _, _, _, _, hrest⟩ := Machine.trace_split _ h
  obtain ⟨between, _, _, _, _, rfl, _⟩ := Machine.trace_split _ hrest.symm
  exact Machine.invariant (step H) (C := fun _ => True)
    (I := fun w => a.after.draws ≤ w.draws) a.after (Nat.le_refl _)
    (fun e hv _ hle => by
      have hcounts : (e.input.prog H 0).Counts World.draws := draws_prog _
      replace hcounts := hcounts e.before
      rw [show (e.input.prog H 0).run e.before = (e.output, e.after) from hv] at hcounts
      exact Nat.le_trans hle hcounts)
    between fun _ _ => trivial

theorem begun_ne {s t : Text} (h : trace H calls = pre ++ a :: (mid ++ b :: post))
    (ha : Begun s a.input a.output) (hb : Begun t b.input b.output) : s ≠ t := by
  have hle := trace_draws h
  have hcut := h
  rw [← List.cons_append, ← List.append_assoc] at hcut
  obtain ⟨_, calla, _, _, _, rfl, _⟩ := Machine.trace_split _ h
  obtain ⟨_, callb, _, _, _, rfl, _⟩ := Machine.trace_split _ hcut
  obtain ⟨⟨c, p, k, o, rfl⟩, hs⟩ := ha
  obtain ⟨⟨c', p', k', o', rfl⟩, ht⟩ := hb
  obtain ⟨rfl, hlt⟩ := draws_begun hs
  obtain ⟨rfl, _⟩ := draws_begun ht
  intro heq
  have hdraws := H.uuid4_injective heq
  simp only [Machine.entry] at hle hdraws
  omega

end Centinal26.Effects
