/-
The life of one effect, as moves between row contents: what each move
requires of the row and what it writes. This is the ledger seen without
calls, connections or exceptions; `Outcome.lean` shows that every call is
made of these moves.
-/
import Centinal26.Effects.Statements

namespace Centinal26.Effects

open Py

/-- What can happen to an effect after its submission. -/
inductive Move : Type
  /-- approved by an authorization found valid at a clock reading -/
  | approved (authorization : EffectAuthorization) (now : Instant)
  | denied
  /-- the request expired before it was claimed -/
  | cancelled
  /-- the attempt budget was found exhausted -/
  | exhausted
  | claimed (claim : EffectClaim)
  /-- an intent persisted under a lease running at a clock reading -/
  | began (token : Text) (now : Instant)
  | recorded (token : PyStr)
  | failed (providerNotInvoked : Bool)
  | passed
  | rejected
  | published
  | acknowledged
  | unknown (token : PyStr)
  | notExecuted (token : PyStr)
  /-- the lease lapsed before an intent was persisted -/
  | lapsedClaim
  /-- the lease lapsed afterwards -/
  | lapsedExecution

def Move.event : Move → EffectEvent
  | .approved _ _ => .authorizationApproved
  | .denied => .authorizationDenied
  | .cancelled => .requestExpiredBeforeClaim
  | .exhausted => .attemptBudgetExhausted
  | .claimed _ => .effectClaimed
  | .began _ _ => .executionIntentPersisted
  | .recorded _ => .executionRecorded
  | .failed _ => .executionFailureRecorded
  | .passed => .verificationPassed
  | .rejected => .verificationFailed
  | .published => .resultPublished
  | .acknowledged => .deliveryAcknowledged
  | .unknown _ => .providerExecutionUnknown
  | .notExecuted _ => .providerConfirmedNotExecuted
  | .lapsedClaim => .claimExpiredBeforeExecution
  | .lapsedExecution => .claimExpiredDuringExecution

/-- An intent has been persisted and its outcome is open. -/
def EffectState.isOpen (s : EffectState) : Prop :=
  s = .executing ∨ s = .recoveryRequired

instance (s : EffectState) : Decidable s.isOpen :=
  inferInstanceAs (Decidable (_ ∨ _))

theorem retryState_cases (row : EffectRow) :
    retryState row = .failedRetryable ∨ retryState row = .failedTerminal := by
  unfold retryState
  split
  · exact Or.inl rfl
  · exact Or.inr rfl

theorem not_isOpen_retryState (row : EffectRow) : ¬ (retryState row).isOpen := by
  rcases retryState_cases row with h | h <;> rw [h] <;> decide

inductive Transition (H : Host) : Move → EffectRow → EffectRow → Prop
  | approve {row : EffectRow} {a stored : EffectAuthorization} {now stamp : Instant}
      (hs : row.state = .pendingAuthorization)
      (hv : a.validFor H now row.requestJson = .ok true)
      (hst : a.stored = .ok stored) :
      Transition H (.approved a now) row { row with
        state := .authorized
        authorizationJson := some stored
        updatedAt := stamp }
  | deny {row : EffectRow} {a stored : EffectAuthorization} {now stamp : Instant}
      (hs : row.state = .pendingAuthorization)
      (hv : a.validFor H now row.requestJson = .ok false)
      (hst : a.stored = .ok stored) :
      Transition H .denied row { row with
        state := .denied
        authorizationJson := some stored
        updatedAt := stamp }
  | cancel {row : EffectRow} {now stamp : Instant} (hs : claimable row.state = true)
      (he : requestExpired now row.requestJson = .ok true) :
      Transition H .cancelled row (transitionColumns .cancelled false false stamp row)
  | exhaust {row : EffectRow} {stamp : Instant} (hs : claimable row.state = true)
      (hb : row.maxAttempts < row.attempts + 1) :
      Transition H .exhausted row (transitionColumns .failedTerminal false false stamp row)
  | claim {row : EffectRow} {token worker : Text} {now leaseUntil stamp : Instant}
      (hs : claimable row.state = true)
      (he : requestExpired now row.requestJson = .ok false)
      (hb : row.attempts + 1 ≤ row.maxAttempts) :
      Transition H
        (.claimed ⟨row.effectId.str, token.str, worker.str, leaseUntil, row.attempts + 1⟩) row
        { row with
          state := .claimed
          attempts := row.attempts + 1
          claimToken := some token
          claimWorker := some worker
          claimUntil := some leaseUntil
          updatedAt := stamp }
  | begin {row : EffectRow} {token : Text} {intent : ExecutionIntent} {now lease stamp : Instant}
      (hs : row.state = .claimed)
      (hl : row.claimUntil = some lease)
      (hn : now < lease)
      (ht : intent.executionToken = token.str) :
      Transition H (.began token now) row { row with
        state := .executing
        executionIntentJson := some intent
        updatedAt := stamp }
  | record {row : EffectRow} {intent : ExecutionIntent} {result : ExecutionRecord} {stamp : Instant}
      (hs : row.state.isOpen)
      (hi : row.executionIntentJson = some intent)
      (ht : result.executionToken = intent.executionToken) :
      Transition H (.recorded intent.executionToken) row { row with
        state := .executed
        executionResultJson := some result
        updatedAt := stamp }
  | fail {row : EffectRow} {providerNotInvoked : Bool} {stamp : Instant}
      (hs : row.state = .claimed ∨ row.state = .executing) :
      Transition H (.failed providerNotInvoked) row (transitionColumns
          (if providerNotInvoked then retryState row else .recoveryRequired)
          providerNotInvoked false stamp row)
  | pass {row : EffectRow} {result : ExecutionRecord} {v : Verification} {stamp : Instant}
      (hs : row.state = .executed)
      (hr : row.executionResultJson = some result)
      (hh : canonicalSha256 H (result.asdict H) = .ok v.executionResultSha256)
      (hp : v.passed = true) (hi : v.independent = true) :
      Transition H .passed row { row with
        state := .verified
        verificationJson := some v
        updatedAt := stamp }
  | reject {row : EffectRow} {v : Verification} {stamp : Instant} (hs : row.state = .executed)
      (hp : (v.passed && v.independent) = false) :
      Transition H .rejected row { row with
        state := .verificationFailed
        verificationJson := some v
        updatedAt := stamp }
  | publish {row : EffectRow} {publication : PyVal} {stamp : Instant} (hs : row.state = .verified) :
      Transition H .published row { row with
        state := .published
        publicationJson := some publication
        updatedAt := stamp }
  | acknowledge {row : EffectRow} {acknowledgement : PyVal} {stamp : Instant}
      (hs : row.state = .published) :
      Transition H .acknowledged row { row with
        state := .acknowledged
        acknowledgementJson := some acknowledgement
        updatedAt := stamp }
  | unknown {row : EffectRow} {intent : ExecutionIntent} {stamp : Instant} (hs : row.state.isOpen)
      (hi : row.executionIntentJson = some intent) :
      Transition H (.unknown intent.executionToken) row
        (transitionColumns .recoveryRequired false false stamp row)
  | notExecuted {row : EffectRow} {intent : ExecutionIntent} {stamp : Instant}
      (hs : row.state.isOpen)
      (hi : row.executionIntentJson = some intent) :
      Transition H (.notExecuted intent.executionToken) row
        (transitionColumns (retryState row) true true stamp row)
  | lapseClaim {row : EffectRow} {stamp : Instant} (hs : row.state = .claimed) :
      Transition H .lapsedClaim row (transitionColumns (retryState row) true false stamp row)
  | lapseExecution {row : EffectRow} {stamp : Instant} (hs : row.state = .executing) :
      Transition H .lapsedExecution row (transitionColumns .recoveryRequired false false stamp row)

variable {H : Host}

variable {mv : Move} {row row' : EffectRow} {s : EffectState}

theorem Transition.requestJson
    (h : Transition H mv row row') : row'.requestJson = row.requestJson := by
  cases h <;> rfl

theorem ne_of_claimable (h : claimable s = true) : s ≠ .pendingAuthorization ∧ s ≠ .denied := by
  constructor
  · rintro rfl
    exact absurd h (by decide)
  · rintro rfl
    exact absurd h (by decide)

theorem EffectState.isOpen.ne (h : s.isOpen) : s ≠ .pendingAuthorization ∧ s ≠ .denied := by
  rcases h with rfl | rfl <;> exact ⟨nofun, nofun⟩

/-- A move is a decision, or it is made of an effect decided already and
approved, and leaves the authorization alone. -/
theorem Transition.decided (h : Transition H mv row row') :
    (∃ a now, mv = .approved a now) ∨ (mv = .denied ∧ row'.state = .denied)
      ∨ (row.state ≠ .pendingAuthorization ∧ row.state ≠ .denied
        ∧ row'.authorizationJson = row.authorizationJson) := by
  have hof : ∀ {s}, row.state = s → s ≠ .pendingAuthorization ∧ s ≠ .denied →
      row'.authorizationJson = row.authorizationJson →
      row.state ≠ .pendingAuthorization ∧ row.state ≠ .denied
        ∧ row'.authorizationJson = row.authorizationJson := by
    rintro s rfl ⟨hp, hd⟩ hsame
    exact ⟨hp, hd, hsame⟩
  cases h with
  | approve _ _ _ => exact Or.inl ⟨_, _, rfl⟩
  | deny _ _ _ => exact Or.inr (Or.inl ⟨rfl, rfl⟩)
  | cancel hs _ => exact Or.inr (Or.inr (hof rfl (ne_of_claimable hs) rfl))
  | exhaust hs _ => exact Or.inr (Or.inr (hof rfl (ne_of_claimable hs) rfl))
  | claim hs _ _ => exact Or.inr (Or.inr (hof rfl (ne_of_claimable hs) rfl))
  | record hs _ _ => exact Or.inr (Or.inr (hof rfl hs.ne rfl))
  | unknown hs _ => exact Or.inr (Or.inr (hof rfl hs.ne rfl))
  | notExecuted hs _ => exact Or.inr (Or.inr (hof rfl hs.ne rfl))
  | fail hs =>
    rcases hs with hs | hs
    · exact Or.inr (Or.inr (hof hs ⟨nofun, nofun⟩ rfl))
    · exact Or.inr (Or.inr (hof hs ⟨nofun, nofun⟩ rfl))
  | begin hs _ _ _ => exact Or.inr (Or.inr (hof hs ⟨nofun, nofun⟩ rfl))
  | pass hs _ _ _ _ => exact Or.inr (Or.inr (hof hs ⟨nofun, nofun⟩ rfl))
  | reject hs _ => exact Or.inr (Or.inr (hof hs ⟨nofun, nofun⟩ rfl))
  | publish hs => exact Or.inr (Or.inr (hof hs ⟨nofun, nofun⟩ rfl))
  | acknowledge hs => exact Or.inr (Or.inr (hof hs ⟨nofun, nofun⟩ rfl))
  | lapseClaim hs => exact Or.inr (Or.inr (hof hs ⟨nofun, nofun⟩ rfl))
  | lapseExecution hs => exact Or.inr (Or.inr (hof hs ⟨nofun, nofun⟩ rfl))

-- == stages

/-- How far an effect has come: decided, executed, judged, published, acknowledged. -/
def EffectState.stage : EffectState → Nat
  | .pendingAuthorization => 0
  | .executed => 2
  | .verified => 3
  | .verificationFailed => 3
  | .published => 4
  | .acknowledged => 5
  | _ => 1

theorem stage_retryState (row : EffectRow) : (retryState row).stage = 1 := by
  rcases retryState_cases row with h | h <;> rw [h] <;> rfl

theorem EffectState.isOpen.stage (h : s.isOpen) : s.stage = 1 := by
  rcases h with rfl | rfl <;> rfl

theorem stage_of_claimable (h : claimable s = true) : s.stage = 1 := by
  unfold claimable at h
  simp only [Bool.or_eq_true, decide_eq_true_eq] at h
  rcases h with rfl | rfl <;> rfl

/-- A column that one stage fills. -/
inductive Column : Type
  | authorization
  | executionResult
  | verification
  | publication
  | acknowledgement

namespace Column

def stage : Column → Nat
  | authorization => 1
  | executionResult => 2
  | verification => 3
  | publication => 4
  | acknowledgement => 5

def isSet : Column → EffectRow → Bool
  | authorization, r => r.authorizationJson.isSome
  | executionResult, r => r.executionResultJson.isSome
  | verification, r => r.verificationJson.isSome
  | publication, r => r.publicationJson.isSome
  | acknowledgement, r => r.acknowledgementJson.isSome

/-- The column holds the same value in two rows. -/
def Same : Column → EffectRow → EffectRow → Prop
  | authorization, r, r' => r'.authorizationJson = r.authorizationJson
  | executionResult, r, r' => r'.executionResultJson = r.executionResultJson
  | verification, r, r' => r'.verificationJson = r.verificationJson
  | publication, r, r' => r'.publicationJson = r.publicationJson
  | acknowledgement, r, r' => r'.acknowledgementJson = r.acknowledgementJson

/-- The moves that write the column, by their name in the history. -/
def writtenBy : Column → EffectEvent → Bool
  | authorization, .authorizationApproved => true
  | authorization, .authorizationDenied => true
  | executionResult, .executionRecorded => true
  | verification, .verificationPassed => true
  | verification, .verificationFailed => true
  | publication, .resultPublished => true
  | acknowledgement, .deliveryAcknowledged => true
  | _, _ => false

theorem Same.refl (c : Column) (r : EffectRow) : c.Same r r := by
  cases c <;> rfl

theorem Same.trans {c : Column} {r r' r'' : EffectRow} (h : c.Same r r')
    (h' : c.Same r' r'') : c.Same r r'' := by
  cases c <;> exact Eq.trans h' h

theorem Same.isSet {c : Column} {r r' : EffectRow} (h : c.Same r r') : c.isSet r' = c.isSet r := by
  cases c <;> exact congrArg Option.isSome h

end Column

variable {mv : Move} {row row' : EffectRow} {id j : Text} {db db' : Db}

/-- A move enters the next stage or stays in the stage of decided effects, and
writes exactly the column of the stage it enters. -/
theorem Transition.stages (h : Transition H mv row row') : (row'.state.stage = row.state.stage + 1
      ∧ ∀ c : Column, c.writtenBy mv.event = decide (c.stage = row'.state.stage)
        ∧ (c.stage = row'.state.stage → c.isSet row' = true)
        ∧ (c.stage ≠ row'.state.stage → c.Same row row')) ∨ (row'.state.stage = row.state.stage
      ∧ ∀ c : Column, c.writtenBy mv.event = false ∧ c.Same row row') := by
  cases h with
  | approve hs _ _ =>
    refine Or.inl ⟨by rw [hs]; rfl, fun c => ?_⟩
    cases c with
    | authorization => exact ⟨rfl, fun _ => rfl, fun h => absurd rfl h⟩
    | _ => exact ⟨rfl, nofun, fun _ => rfl⟩
  | deny hs _ _ =>
    refine Or.inl ⟨by rw [hs]; rfl, fun c => ?_⟩
    cases c with
    | authorization => exact ⟨rfl, fun _ => rfl, fun h => absurd rfl h⟩
    | _ => exact ⟨rfl, nofun, fun _ => rfl⟩
  | record hs _ _ =>
    refine Or.inl ⟨by rw [hs.stage]; rfl, fun c => ?_⟩
    cases c with
    | executionResult => exact ⟨rfl, fun _ => rfl, fun h => absurd rfl h⟩
    | _ => exact ⟨rfl, nofun, fun _ => rfl⟩
  | pass hs _ _ _ _ =>
    refine Or.inl ⟨by rw [hs]; rfl, fun c => ?_⟩
    cases c with
    | verification => exact ⟨rfl, fun _ => rfl, fun h => absurd rfl h⟩
    | _ => exact ⟨rfl, nofun, fun _ => rfl⟩
  | reject hs _ =>
    refine Or.inl ⟨by rw [hs]; rfl, fun c => ?_⟩
    cases c with
    | verification => exact ⟨rfl, fun _ => rfl, fun h => absurd rfl h⟩
    | _ => exact ⟨rfl, nofun, fun _ => rfl⟩
  | publish hs =>
    refine Or.inl ⟨by rw [hs]; rfl, fun c => ?_⟩
    cases c with
    | publication => exact ⟨rfl, fun _ => rfl, fun h => absurd rfl h⟩
    | _ => exact ⟨rfl, nofun, fun _ => rfl⟩
  | acknowledge hs =>
    refine Or.inl ⟨by rw [hs]; rfl, fun c => ?_⟩
    cases c with
    | acknowledgement => exact ⟨rfl, fun _ => rfl, fun h => absurd rfl h⟩
    | _ => exact ⟨rfl, nofun, fun _ => rfl⟩
  | cancel hs _ =>
    exact Or.inr ⟨(stage_of_claimable hs).symm, fun c => by cases c <;> exact ⟨rfl, rfl⟩⟩
  | exhaust hs _ =>
    exact Or.inr ⟨(stage_of_claimable hs).symm, fun c => by cases c <;> exact ⟨rfl, rfl⟩⟩
  | claim hs _ _ =>
    exact Or.inr ⟨(stage_of_claimable hs).symm, fun c => by cases c <;> exact ⟨rfl, rfl⟩⟩
  | begin hs _ _ _ =>
    exact Or.inr ⟨by rw [hs]; rfl, fun c => by cases c <;> exact ⟨rfl, rfl⟩⟩
  | @fail _ n _ hs =>
    refine Or.inr ⟨?_, fun c => by cases c <;> exact ⟨rfl, rfl⟩⟩
    have hstage : row.state.stage = 1 := by
      rcases hs with hs | hs <;> rw [hs] <;> rfl
    rw [hstage]
    cases n with
    | true => exact stage_retryState row
    | false => rfl
  | unknown hs _ =>
    exact Or.inr ⟨hs.stage.symm, fun c => by cases c <;> exact ⟨rfl, rfl⟩⟩
  | notExecuted hs _ =>
    exact Or.inr ⟨(stage_retryState row).trans hs.stage.symm,
      fun c => by cases c <;> exact ⟨rfl, rfl⟩⟩
  | lapseClaim hs =>
    refine Or.inr ⟨?_, fun c => by cases c <;> exact ⟨rfl, rfl⟩⟩
    rw [hs]
    exact stage_retryState row
  | lapseExecution hs =>
    exact Or.inr ⟨by rw [hs]; rfl, fun c => by cases c <;> exact ⟨rfl, rfl⟩⟩

theorem Transition.stage_le
    (h : Transition H mv row row') : row.state.stage ≤ row'.state.stage := by
  rcases h.stages with ⟨hs, _⟩ | ⟨hs, _⟩ <;> omega

-- == images

/-- One row made one move; the others are as they were. -/
def RowMoved (H : Host) (id : Text) (mv : Move) (db db' : Db) : Prop :=
  ∃ row row', db.effect? id = some row ∧ Transition H mv row row'
    ∧ ∀ j, db'.effect? j = if j = id then some row' else db.effect? j

/-- One row made one move and the history has a row about it. -/
inductive Moved (H : Host) (id : Text) (mv : Move) (db : Db) : Db → Prop
  | mk {row : EffectRow} {f : EffectRow → EffectRow}
      {hf : ∀ r, (f r).effectId = r.effectId} {payload : Json}
      {stamp : Instant}
      (hrow : db.effect? id = some row)
      (ht : Transition H mv row (f row)) :
      Moved H id mv db ((db.updateEffect id f hf).insertHistory
        (auditRow H db id mv.event (some row.state) (f row).state payload stamp))

/-- One row made one move that the history does not know of. -/
inductive Touched (H : Host) (id : Text) (mv : Move) (db : Db) : Db → Prop
  | mk {row : EffectRow} {f : EffectRow → EffectRow} {hf : ∀ r, (f r).effectId = r.effectId}
      (hrow : db.effect? id = some row)
      (ht : Transition H mv row (f row)) :
      Touched H id mv db (db.updateEffect id f hf)

/-- A run of lapsed leases. -/
inductive Swept (H : Host) : Db → Db → Prop
  | refl {db : Db} : Swept H db db
  | tail {db db₁ db₂ : Db} {id : Text} {mv : Move}
      (h : Swept H db db₁) (hmv : mv = .lapsedClaim ∨ mv = .lapsedExecution)
      (hm : Moved H id mv db₁ db₂) : Swept H db db₂

theorem Moved.rowMoved (h : Moved H id mv db db') : RowMoved H id mv db db' := by
  obtain ⟨hrow, ht⟩ := h
  refine ⟨_, _, hrow, ht, fun j => ?_⟩
  rw [Db.effect?_insertHistory, Db.effect?_updateEffect, hrow]
  rfl

theorem Touched.rowMoved (h : Touched H id mv db db') : RowMoved H id mv db db' := by
  obtain ⟨hrow, ht⟩ := h
  refine ⟨_, _, hrow, ht, fun j => ?_⟩
  rw [Db.effect?_updateEffect, hrow]
  rfl

/-- The row of one effect across a move of some effect: it made the move, or
it is the same row. -/
theorem RowMoved.cases
    (h : RowMoved H id mv db db') (hj : db'.effect? j = some row') :
    (j = id ∧ ∃ row, db.effect? j = some row ∧ Transition H mv row row')
      ∨ (j ≠ id ∧ db.effect? j = some row') := by
  obtain ⟨row, r', hrow, ht, hall⟩ := h
  rw [hall j] at hj
  split at hj
  · next heq =>
    injection hj with hj
    subst hj heq
    exact Or.inl ⟨rfl, row, hrow, ht⟩
  · next hne => exact Or.inr ⟨hne, hj⟩

theorem RowMoved.forward (h : RowMoved H id mv db db') (hj : db.effect? j = some row) :
    ∃ row', db'.effect? j = some row'
      ∧ ((j = id ∧ Transition H mv row row') ∨ (j ≠ id ∧ row' = row)) := by
  obtain ⟨r, r', hrow, ht, hall⟩ := h
  rw [hall j]
  split
  · next heq =>
    subst heq
    rw [hrow] at hj
    injection hj with hj
    subst hj
    exact ⟨r', rfl, Or.inl ⟨rfl, ht⟩⟩
  · next hne => exact ⟨row, hj, Or.inr ⟨hne, rfl⟩⟩

theorem RowMoved.absent
    (h : RowMoved H id mv db db') (hj : db'.effect? j = none) : db.effect? j = none := by
  cases hrow : db.effect? j with
  | none => rfl
  | some row =>
    obtain ⟨row', hrow', _⟩ := h.forward hrow
    rw [hj] at hrow'
    cases hrow'

theorem Swept.trans {db₁ db₂ : Db} (h : Swept H db db₁)
    (h' : Swept H db₁ db₂) : Swept H db db₂ := by
  induction h' with
  | refl => exact h
  | tail _ hmv hm ih => exact .tail ih hmv hm

theorem Moved.history_length (h : Moved H id mv db db') :
    db'.history.length = db.history.length + 1 := by
  cases h with
  | mk _ _ => exact List.length_append

theorem Swept.eq_of_length (h : Swept H db db')
    (hl : db'.history.length = db.history.length) : db' = db := by
  have hmono : ∀ {db'}, Swept H db db' → db.history.length ≤ db'.history.length := by
    intro db' h
    induction h with
    | refl => exact Nat.le_refl _
    | tail _ _ hm ih =>
      rw [hm.history_length]
      omega
  cases h with
  | refl => rfl
  | tail h₁ _ hm =>
    have hle := hmono h₁
    rw [hm.history_length] at hl
    omega

theorem Swept.induction {I : Db → Prop} (h : Swept H db db')
    (hstep : ∀ id mv db₁ db₂, mv = .lapsedClaim ∨ mv = .lapsedExecution →
      Moved H id mv db₁ db₂ → I db₁ → I db₂) (hi : I db) : I db' := by
  induction h with
  | refl => exact hi
  | tail _ hmv hm ih => exact hstep _ _ _ _ hmv hm ih

theorem Swept.absent (h : Swept H db db') (hj : db'.effect? j = none) : db.effect? j = none := by
  induction h with
  | refl => exact hj
  | tail _ _ hm ih => exact ih (hm.rowMoved.absent hj)

end Centinal26.Effects
