/-
The rows of the effect ledger: requests, authorizations, claims, the records
each stage stores, and the two tables.
-/
import Centinal26.Lib.Table
import Centinal26.Lib.Sqlite
import Centinal26.Py.Host

namespace Centinal26.Effects

open Py

-- == states

inductive EffectState : Type
  | pendingAuthorization
  | authorized
  | claimed
  | executing
  | recoveryRequired
  | executed
  | verified
  | published
  | acknowledged
  | denied
  | failedRetryable
  | failedTerminal
  | verificationFailed
  | cancelled
deriving DecidableEq

def EffectState.value : EffectState → String
  | .pendingAuthorization => "PENDING_AUTHORIZATION"
  | .authorized => "AUTHORIZED"
  | .claimed => "CLAIMED"
  | .executing => "EXECUTING"
  | .recoveryRequired => "RECOVERY_REQUIRED"
  | .executed => "EXECUTED"
  | .verified => "VERIFIED"
  | .published => "PUBLISHED"
  | .acknowledged => "ACKNOWLEDGED"
  | .denied => "DENIED"
  | .failedRetryable => "FAILED_RETRYABLE"
  | .failedTerminal => "FAILED_TERMINAL"
  | .verificationFailed => "VERIFICATION_FAILED"
  | .cancelled => "CANCELLED"

/-- The names under which transitions enter the history. -/
inductive EffectEvent : Type
  | effectSubmitted
  | authorizationApproved
  | authorizationDenied
  | requestExpiredBeforeClaim
  | attemptBudgetExhausted
  | effectClaimed
  | executionIntentPersisted
  | executionRecorded
  | executionFailureRecorded
  | verificationPassed
  | verificationFailed
  | resultPublished
  | deliveryAcknowledged
  | providerExecutionUnknown
  | providerConfirmedNotExecuted
  | claimExpiredBeforeExecution
  | claimExpiredDuringExecution
deriving DecidableEq

def EffectEvent.value : EffectEvent → String
  | .effectSubmitted => "effect_submitted"
  | .authorizationApproved => "authorization_approved"
  | .authorizationDenied => "authorization_denied"
  | .requestExpiredBeforeClaim => "request_expired_before_claim"
  | .attemptBudgetExhausted => "attempt_budget_exhausted"
  | .effectClaimed => "effect_claimed"
  | .executionIntentPersisted => "execution_intent_persisted"
  | .executionRecorded => "execution_recorded"
  | .executionFailureRecorded => "execution_failure_recorded"
  | .verificationPassed => "verification_passed"
  | .verificationFailed => "verification_failed"
  | .resultPublished => "result_published"
  | .deliveryAcknowledged => "delivery_acknowledged"
  | .providerExecutionUnknown => "provider_execution_unknown"
  | .providerConfirmedNotExecuted => "provider_confirmed_not_executed"
  | .claimExpiredBeforeExecution => "claim_expired_before_execution"
  | .claimExpiredDuringExecution => "claim_expired_during_execution"

-- == requests

structure EffectRequest where
  capability : PyStr
  payload : PyVal
  idempotencyKey : PyStr
  requestId : PyStr
  actor : PyStr
  expiresAt : Option IsoText
  createdAt : PyStr

def EffectRequest.asdict (r : EffectRequest) : PyVal :=
  .dict [item "capability" (.str r.capability), item "payload" r.payload,
    item "idempotency_key" (.str r.idempotencyKey),
    item "request_id" (.str r.requestId), item "actor" (.str r.actor),
    item "expires_at" (optText (r.expiresAt.map IsoText.raw)),
    item "created_at" (.str r.createdAt)]

def EffectRequest.sha256 (H : Host) (r : EffectRequest) : Except PyErr Text :=
  canonicalSha256 H r.asdict

/-- `EffectRequest(**json.loads(json.dumps(asdict(request))))`. -/
def EffectRequest.stored (r : EffectRequest) : Except PyErr EffectRequest := do
  .ok { r with payload := ← roundTrip r.payload }

def validateRequestExpiry (r : EffectRequest) : Except PyErr Unit :=
  match r.expiresAt with
  | none => .ok ()
  | some s => do
    match ← fromisoformat s with
    | .aware _ => .ok ()
    | .naive _ => .error (.valueError "expires_at must include a timezone")

/-- `_request_expired`, at a reading of the clock. -/
def requestExpired (now : Instant) (r : EffectRequest) : Except PyErr Bool :=
  match r.expiresAt with
  | none => .ok false
  | some s => do (← fromisoformat s).le (.aware now)

structure EffectAuthorization where
  authorizationId : PyStr
  requestSha256 : PyStr
  capability : PyStr
  actor : PyStr
  approved : Bool
  expiresAt : IsoText
  constraints : PyVal

/-- `json.loads(json.dumps(asdict(authorization)))`. -/
def EffectAuthorization.stored (a : EffectAuthorization) : Except PyErr EffectAuthorization := do
  .ok { a with constraints := ← roundTrip a.constraints }

def EffectAuthorization.eq (stored a : EffectAuthorization) : Bool :=
  decide (stored.authorizationId = a.authorizationId)
    && decide (stored.requestSha256 = a.requestSha256)
    && decide (stored.capability = a.capability)
    && decide (stored.actor = a.actor)
    && decide (stored.approved = a.approved)
    && decide (stored.expiresAt.raw = a.expiresAt.raw)
    && stored.constraints.eq a.constraints

/-- `valid_for`, at a reading of the clock. -/
def EffectAuthorization.validFor (H : Host) (now : Instant)
    (a : EffectAuthorization) (r : EffectRequest) : Except PyErr Bool :=
  match fromisoformat a.expiresAt with
  | .error _ => .ok false
  | .ok expires =>
    if a.approved then do
      let sha ← r.sha256 H
      if a.requestSha256 = sha.str ∧ a.capability = r.capability then
        (DateTime.aware now).lt expires
      else .ok false
    else .ok false

structure EffectClaim where
  effectId : PyStr
  claimToken : PyStr
  workerId : PyStr
  leaseUntil : Instant
  attempt : Nat
deriving DecidableEq

-- == stored records

/-- What `begin_execution` persists. -/
structure ExecutionIntent where
  executionToken : PyStr
  providerId : PyStr
  providerIdempotencyKey : PyStr
  operation : PyStr
  preparedAt : Instant

def ExecutionIntent.asdict (H : Host) (i : ExecutionIntent) : PyVal :=
  .dict [item "schema" (.str (py "frost-effect/1.0")),
    item "execution_token" (.str i.executionToken),
    item "provider_id" (.str i.providerId),
    item "provider_idempotency_key" (.str i.providerIdempotencyKey),
    item "operation" (.str i.operation),
    item "prepared_at" (H.isoformat i.preparedAt).val]

structure ExecutionRecord where
  executionToken : PyStr
  result : PyVal
  providerReceipt : PyVal
  resultSha256 : Text
  recordedAt : Instant

def ExecutionRecord.asdict (H : Host) (e : ExecutionRecord) : PyVal :=
  .dict [item "execution_token" (.str e.executionToken),
    item "result" e.result, item "provider_receipt" e.providerReceipt,
    item "result_sha256" e.resultSha256.val,
    item "recorded_at" (H.isoformat e.recordedAt).val]

structure Verification where
  verifierId : PyStr
  passed : Bool
  independent : Bool
  executionResultSha256 : Text
  evidence : PyVal
  verifiedAt : Instant

-- == tables

structure EffectRow where
  effectId : Text
  idempotencyKey : Text
  requestSha256 : Text
  requestJson : EffectRequest
  state : EffectState
  attempts : Nat
  maxAttempts : Nat
  /-- an `INTEGER` column holds 64 bits -/
  maxAttempts_lt : maxAttempts < 2 ^ 63
  authorizationJson : Option EffectAuthorization
  claimToken : Option Text
  claimWorker : Option Text
  claimUntil : Option Instant
  executionIntentJson : Option ExecutionIntent
  executionResultJson : Option ExecutionRecord
  verificationJson : Option Verification
  publicationJson : Option PyVal
  acknowledgementJson : Option PyVal
  createdAt : Instant
  updatedAt : Instant

/-- A row of `effect_history`; the list order is the order of `sequence`. -/
structure HistoryRow where
  effectId : Text
  event : EffectEvent
  fromState : Option EffectState
  toState : EffectState
  payloadJson : Text
  timestamp : Text
  previousHash : Text
  hash : Text

/-- The dictionary the history hashes: every column but `hash`. -/
def HistoryRow.record (h : HistoryRow) : PyVal :=
  .dict [item "effect_id" h.effectId.val, item "event" (.str (py h.event.value)),
    item "from_state" (optText (h.fromState.map fun s => py s.value)),
    item "to_state" (.str (py h.toState.value)),
    item "payload_json" h.payloadJson.val,
    item "timestamp" h.timestamp.val,
    item "previous_hash" h.previousHash.val]

/-- The ledger's database. -/
structure Db where
  effects : Table EffectRow.effectId
  history : List HistoryRow

namespace Db

def empty : Db := ⟨Table.empty, []⟩

def effect? (db : Db) (id : Text) : Option EffectRow := db.effects.find? id

def updateEffect (db : Db) (id : Text) (f : EffectRow → EffectRow)
    (hf : ∀ r, (f r).effectId = r.effectId) : Db :=
  { db with effects := db.effects.modify id f hf }

/-- `INSERT INTO effects`, with both uniqueness constraints. -/
def insertEffect? (db : Db) (row : EffectRow) : Option Db :=
  if db.effects.rows.any (fun r => decide (r.idempotencyKey = row.idempotencyKey)) then none
  else (db.effects.insert? row).map fun t => { db with effects := t }

def insertHistory (db : Db) (h : HistoryRow) : Db :=
  { db with history := db.history ++ [h] }

/-- The hash the next history row links to. -/
def lastHash (db : Db) : Text :=
  match db.history.getLast? with
  | none => genesis
  | some h => h.hash

-- == lookups

theorem effectId_of_effect? {db : Db} {id : Text} {row : EffectRow}
    (h : db.effect? id = some row) : row.effectId = id :=
  Table.key_of_find? h

@[simp] theorem effect?_updateEffect (db : Db) (id : Text)
    (f : EffectRow → EffectRow) (hf : ∀ r, (f r).effectId = r.effectId)
    (j : Text) :
    (db.updateEffect id f hf).effect? j = if j = id then (db.effect? id).map f else db.effect? j :=
  Table.find?_modify db.effects id f hf j

@[simp] theorem effect?_insertHistory (db : Db) (h : HistoryRow) (j : Text) :
    (db.insertHistory h).effect? j = db.effect? j := rfl

@[simp] theorem history_insertHistory (db : Db) (h : HistoryRow) :
    (db.insertHistory h).history = db.history ++ [h] := rfl

theorem insertEffect?_spec {db db' : Db} {row : EffectRow} (h : db.insertEffect? row = some db') :
    db.effect? row.effectId = none ∧ db'.history = db.history ∧ ∀ j, db'.effect? j
          = if j = row.effectId then some row else db.effect? j := by
  unfold insertEffect? at h
  split at h
  · cases h
  · obtain ⟨t, ht, rfl⟩ := Option.map_eq_some_iff.mp h
    exact ⟨Table.find?_of_insert ht, rfl, Table.find?_insert ht⟩

end Db

end Centinal26.Effects
