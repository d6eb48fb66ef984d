/-
`EffectProtocolLedger`: every operation as the atomic database steps it
takes, statement by statement inside each step.
-/
import Centinal26.Effects.State
import Centinal26.Lib.Program

namespace Centinal26.Effects

open Py Steps

/-- What an operation raises. -/
inductive LedgerError : Type
  | py (e : PyErr)
  | effectConflict (message : String)
  | effectTransitionError (message : String)
deriving DecidableEq

/-- The database, and how much of the host's clock and identifiers is used
up. -/
structure World where
  disk : Disk Db
  ticks : Nat
  draws : Nat

/-- The world before anything happened: a new database. -/
def World.init : World := ⟨⟨Db.empty, none⟩, 0, 0⟩

/-- What connection `me` reads. -/
def World.view (w : World) (me : Nat) : Db := w.disk.view me

/-- Which kind of database step. -/
inductive Access : Type
  | read
  | write
  | immediate
deriving DecidableEq

abbrev LBlock (α : Type) := Block LedgerError World α

abbrev LProg (α : Type) := Prog Access LedgerError World α

-- == statements

/-- Raise what a library function raises. -/
def liftPy {α : Type} (r : Except PyErr α) : LBlock α :=
  fun w => (r.mapError .py, w)

/-- `throw`, outside a step. -/
def raisePy {α : Type} (e : PyErr) : LProg α := Prog.raise (.py e)

/-- `EffectTransitionError`. -/
def refuse {α : Type} (message : String) : LProg α :=
  Prog.raise (.effectTransitionError message)

def databaseLocked : LedgerError := .py (.operationalError "database is locked")

def nestedTransaction : LedgerError :=
  .py (.operationalError "cannot start a transaction within a transaction")

section Statements

variable (H : Host) (me : Nat)

/-- `datetime.now(UTC)`. -/
def readClock : LBlock Instant :=
  fun w => (.ok (H.clock w.ticks), { w with ticks := w.ticks + 1 })

def drawUuid : LBlock Text :=
  fun w => (.ok (H.uuid4 w.draws), { w with draws := w.draws + 1 })

def select {α : Type} (query : Db → α) : LBlock α :=
  fun w => (.ok (query (w.view me)), w)

/-- An `UPDATE` or `INSERT`. -/
def execute (f : Db → Db) : LBlock Unit :=
  fun w =>
    if w.disk.lockedFor me then (.error databaseLocked, w)
    else (.ok (), { w with disk := w.disk.write me f })

def commit : LBlock Unit :=
  fun w => (.ok (), { w with disk := w.disk.commit me })

def rollback : LBlock Unit :=
  fun w => (.ok (), { w with disk := w.disk.rollback me })

def beginImmediate : LBlock Unit :=
  fun w =>
    match w.disk.tx with
    | none => (.ok (), { w with disk := w.disk.write me id })
    | some (c, _) =>
      (.error (if c = me then nestedTransaction else databaseLocked), w)

/-- `_row_locked`: binding the parameter and finding the row both may
fail. -/
def rowLocked (effectId : PyStr) : LBlock EffectRow :=
  fun w =>
    match encode effectId with
    | .error e => (.error (.py e), w)
    | .ok id =>
      match (w.view me).effect? id with
      | none => (.error (.py (.keyError effectId)), w)
      | some row => (.ok row, w)

def appendHistory (effectId : Text) (event : EffectEvent)
    (fromState : Option EffectState) (toState : EffectState)
    (payload : PyVal) : LBlock Unit := do
  let previousHash ← select me Db.lastHash
  let payloadJson ← liftPy (dumps payload)
  let timestamp ← readClock H
  let row : HistoryRow :=
    { effectId, event, fromState, toState
      payloadJson := payloadJson.column
      timestamp := H.isoformat timestamp
      previousHash
      hash := genesis }
  let hash ← liftPy (canonicalSha256 H row.record)
  execute me fun db => db.insertHistory { row with hash }

/-- An `UPDATE` of one row followed by its history row: the shape of every transition. -/
def rewrite (effectId : Text) (f : Instant → EffectRow → EffectRow)
    (hf : ∀ t r, (f t r).effectId = r.effectId) (event : EffectEvent)
    (fromState toState : EffectState) (payload : Except PyErr PyVal) :
    LBlock Unit := do
  let stamp ← readClock H
  execute me fun db => db.updateEffect effectId (f stamp) (hf stamp)
  let payload ← liftPy payload
  appendHistory H me effectId event (some fromState) toState payload

def transitionColumns (nextState : EffectState)
    (clearClaim clearExecutionIntent : Bool) (stamp : Instant) (r : EffectRow) : EffectRow :=
  { r with
    state := nextState
    updatedAt := stamp
    claimToken := if clearClaim then none else r.claimToken
    claimWorker := if clearClaim then none else r.claimWorker
    claimUntil := if clearClaim then none else r.claimUntil
    executionIntentJson :=
      if clearExecutionIntent then none else r.executionIntentJson }

def transitionLocked (row : EffectRow) (nextState : EffectState)
    (event : EffectEvent) (payload : PyVal)
    (clearClaim clearExecutionIntent : Bool) : LBlock Unit :=
  rewrite H me row.effectId (transitionColumns nextState clearClaim clearExecutionIntent)
    (fun _ _ => rfl) event row.state nextState (.ok payload)

/-- The retry decision: another attempt if the budget allows one. -/
def retryState (row : EffectRow) : EffectState :=
  if row.attempts < row.maxAttempts then .failedRetryable
  else .failedTerminal

def claimIdentity (row : EffectRow) (claim : EffectClaim) : Bool :=
  decide (row.claimToken.map Text.str = some claim.claimToken)
    && decide (row.claimWorker.map Text.str = some claim.workerId)

end Statements

-- == operations

section Operations

variable (H : Host) (me : Nat)

/-- The row `submit` inserts. -/
def newRow (effectId idempotencyKey requestSha256 : Text)
    (request : EffectRequest) (maxAttempts : Nat)
    (maxAttempts_lt : maxAttempts < 2 ^ 63) (stamp : Instant) : EffectRow :=
  { effectId, idempotencyKey, requestSha256
    requestJson := request
    state := .pendingAuthorization
    attempts := 0
    maxAttempts
    maxAttempts_lt
    authorizationJson := none
    claimToken := none
    claimWorker := none
    claimUntil := none
    executionIntentJson := none
    executionResultJson := none
    verificationJson := none
    publicationJson := none
    acknowledgementJson := none
    createdAt := stamp
    updatedAt := stamp }

/-- The `INSERT` of `submit` with its history row, up to the commit or, when
a uniqueness constraint refuses the row, up to the rollback. -/
def insertRow (row : EffectRow) : LBlock (Option Text) := do
  let inserted ← select me fun db => db.insertEffect? row
  match inserted with
  | none => do
    execute me id
    rollback me
    pure none
  | some db => do
    execute me fun _ => db
    appendHistory H me row.effectId .effectSubmitted none .pendingAuthorization
      (.dict [item "request_sha256" row.requestSha256.val])
    commit me
    pure (some row.effectId)

def submitRow (request : EffectRequest) (maxAttempts : Nat) : LBlock (Option Text) := do
  let effectId ← drawUuid H
  let stamp ← readClock H
  let requestSha256 ← liftPy (request.sha256 H)
  let stored ← liftPy request.stored
  let idempotencyKey ← liftPy (encode request.idempotencyKey)
  if h : maxAttempts < 2 ^ 63 then
    insertRow H me (newRow effectId idempotencyKey requestSha256 stored maxAttempts h stamp)
  else throw (.py .overflowError)

/-- What `submit` answers about a key that is taken. -/
def submittedBefore (request : EffectRequest) : LBlock (Text × Bool) := do
  let rows ← select me fun db => db.effects.rows.find? fun r =>
    decide (r.idempotencyKey.str = request.idempotencyKey)
  match rows with
  | none => throw (.py .integrityError)
  | some row => do
    let sha ← liftPy (request.sha256 H)
    if row.requestSha256 ≠ sha then
      throw (.effectConflict "idempotency key reused for a different immutable request")
    else pure (row.effectId, false)

def submit (request : EffectRequest) (maxAttempts : Int) : LProg (Text × Bool) := do
  if isBlank request.capability then
    raisePy (.valueError "capability must not be empty")
  else if isBlank request.idempotencyKey then
    raisePy (.valueError "idempotency_key must not be empty")
  else if maxAttempts < 1 then
    raisePy (.valueError "max_attempts must be positive")
  else
    match validateRequestExpiry request with
    | .error e => raisePy e
    | .ok () => do
      let inserted ← Prog.block .write
        (submitRow H me request maxAttempts.toNat)
      match inserted with
      | some effectId => pure (effectId, true)
      | none =>
        Prog.block .read (submittedBefore H me request)

def authorizeRow (row : EffectRow) (authorization : EffectAuthorization) : LBlock EffectState := do
  let now ← readClock H
  let approved ← liftPy (authorization.validFor H now row.requestJson)
  let nextState : EffectState := if approved then .authorized else .denied
  let stored ← liftPy authorization.stored
  rewrite H me row.effectId
    (fun stamp r => { r with
      state := nextState
      authorizationJson := some stored
      updatedAt := stamp })
    (fun _ _ => rfl)
    (if approved then .authorizationApproved else .authorizationDenied)
    row.state nextState
    (.ok (.dict [item "authorization_id" (.str authorization.authorizationId)]))
  commit me
  pure nextState

def authorize (effectId : PyStr) (authorization : EffectAuthorization) : LProg EffectState := do
  let row ← Prog.block .read (rowLocked me effectId)
  if row.state = .authorized ∨ row.state = .denied then
    match row.authorizationJson with
    | none => refuse "authorization is already immutable"
    | some stored =>
      if stored.eq authorization then pure row.state
      else refuse "authorization is already immutable"
  else if row.state ≠ .pendingAuthorization then
    refuse ("cannot authorize from " ++ row.state.value)
  else
    Prog.block .write (authorizeRow H me row authorization)

/-- What `recover_expired_claims` does with a lapsed row. -/
def recoverRow (row : EffectRow) (lease : Instant) : LBlock Unit :=
  if row.state = .claimed then
    transitionLocked H me row (retryState row) .claimExpiredBeforeExecution
      (.dict [item "lease_until" (H.isoformat lease).val]) true false
  else
    transitionLocked H me row .recoveryRequired .claimExpiredDuringExecution
      (.dict [item "lease_until" (H.isoformat lease).val]) false false

/-- The loop of `recover_expired_claims` over the rows it has read. -/
def recoverRows (now : DateTime) : List EffectRow → LBlock Nat
  | [] => pure 0
  | row :: rest => do
    match row.claimUntil with
    -- the query only returns rows with a lease
    | none => recoverRows now rest
    | some lease =>
      if ← liftPy (now.le (.aware lease)) then recoverRows now rest
      else do
        recoverRow H me row lease
        pure ((← recoverRows now rest) + 1)

/-- The rows a lease can lapse on. -/
def leasedRows (db : Db) : List EffectRow :=
  db.effects.rows.filter fun r =>
    (decide (r.state = .claimed) || decide (r.state = .executing)) && r.claimUntil.isSome

/-- The `SELECT` of `recover_expired_claims`, and the time it compares
with. -/
def recoverRead (now : Option DateTime) : LBlock (DateTime × List EffectRow) := do
  let reading ← readClock H
  let rows ← select me leasedRows
  pure (now.getD (.aware reading), rows)

/-- The writes of `recover_expired_claims`. -/
def recoverWrite (now : DateTime) (rows : List EffectRow) : LBlock Nat := do
  let recovered ← recoverRows H me now rows
  commit me
  pure recovered

def recoverExpiredClaims (now : Option DateTime) : LProg Nat := do
  let (now, rows) ← Prog.block .read (recoverRead H me now)
  Prog.block .write (recoverWrite H me now rows)

/-- The states `claim` picks from. -/
def claimable (s : EffectState) : Bool :=
  decide (s = .authorized) || decide (s = .failedRetryable)

def claimOrder (a b : EffectRow) : Bool :=
  decide (a.createdAt < b.createdAt) || (decide (a.createdAt = b.createdAt)
      && decide (a.effectId.str ≤ b.effectId.str))

def nextClaimable (db : Db) : Option EffectRow :=
  db.effects.minBy? (fun r => claimable r.state) claimOrder

def claimCandidate (row : EffectRow) (workerId : PyStr) (leaseSeconds : Int) :
    LBlock (Option EffectClaim) := do
  let now ← readClock H
  let expired ← liftPy (requestExpired now row.requestJson)
  if expired then
    transitionLocked H me row .cancelled .requestExpiredBeforeClaim (.dict [item "expires_at"
        (optText (row.requestJson.expiresAt.map IsoText.raw))]) false false
    commit me
    pure none
  else if row.maxAttempts < row.attempts + 1 then
    transitionLocked H me row .failedTerminal .attemptBudgetExhausted (.dict []) false false
    commit me
    pure none
  else
    let token ← drawUuid H
    let now ← readClock H
    let leaseUntil ← liftPy (addSeconds now leaseSeconds)
    let worker ← liftPy (encode workerId)
    rewrite H me row.effectId
      (fun stamp r => { r with
        state := .claimed
        attempts := row.attempts + 1
        claimToken := some token
        claimWorker := some worker
        claimUntil := some leaseUntil
        updatedAt := stamp })
      (fun _ _ => rfl) .effectClaimed row.state .claimed
      (.ok (.dict [item "worker_id" worker.val, item "attempt" (.int (row.attempts + 1)),
        item "lease_until" (H.isoformat leaseUntil).val]))
    commit me
    pure (some ⟨row.effectId.str, token.str, workerId, leaseUntil, row.attempts + 1⟩)

/-- `claim`, from `BEGIN IMMEDIATE` to the commit. -/
def claimRow (workerId : PyStr) (leaseSeconds : Int) : LBlock (Option EffectClaim) := do
  beginImmediate me
  let candidate ← select me nextClaimable
  match candidate with
  | none => do
    commit me
    pure none
  | some row => claimCandidate H me row workerId leaseSeconds

def claim (workerId : PyStr) (leaseSeconds : Int) : LProg (Option EffectClaim) := do
  if isBlank workerId then
    raisePy (.valueError "worker_id must not be empty")
  else if leaseSeconds < 1 then
    raisePy (.valueError "lease_seconds must be positive")
  else do
    let _ ← recoverExpiredClaims H me none
    Prog.block .immediate (claimRow H me workerId leaseSeconds)

def claimedRowLocked (claim : EffectClaim) : LBlock EffectRow := do
  let row ← rowLocked me claim.effectId
  if row.state ≠ .claimed then
    throw (.effectTransitionError "effect is not currently claimed")
  else if ¬ claimIdentity row claim then
    throw (.effectTransitionError "claim identity mismatch")
  else
    match row.claimUntil with
    | none => throw (.py (.valueError "Invalid isoformat string"))
    | some lease => do
      let now ← readClock H
      if lease ≤ now then
        throw (.effectTransitionError "claim lease has expired")
      else pure row

/-- The write of `begin_execution`. -/
def beginRow (row : EffectRow) (providerId providerIdempotencyKey operation : PyStr) :
    LBlock Text := do
  let executionToken ← drawUuid H
  let preparedAt ← readClock H
  let intent : ExecutionIntent :=
    ⟨executionToken.str, providerId, providerIdempotencyKey, operation, preparedAt⟩
  rewrite H me row.effectId
    (fun stamp r => { r with
      state := .executing
      executionIntentJson := some intent
      updatedAt := stamp })
    (fun _ _ => rfl) .executionIntentPersisted .claimed .executing
    (.ok (intent.asdict H))
  commit me
  pure executionToken

def beginExecution (claim : EffectClaim)
    (providerId providerIdempotencyKey operation : PyStr) : LProg Text := do
  if isBlank providerId ∨ isBlank providerIdempotencyKey ∨ isBlank operation then
    raisePy (.valueError "provider_id, provider_idempotency_key, and operation are required")
  else do
    let row ← Prog.block .read (claimedRowLocked H me claim)
    Prog.block .write (beginRow H me row providerId providerIdempotencyKey operation)

def recordRow (row : EffectRow) (executionToken : PyStr)
    (result providerReceipt : PyVal) : LBlock EffectState := do
  let resultSha256 ← liftPy (canonicalSha256 H result)
  let recordedAt ← readClock H
  let result ← liftPy (roundTrip result)
  let providerReceipt ← liftPy (roundTrip providerReceipt)
  let record : ExecutionRecord :=
    ⟨executionToken, result, providerReceipt, resultSha256, recordedAt⟩
  rewrite H me row.effectId
    (fun stamp r => { r with
      state := .executed
      executionResultJson := some record
      updatedAt := stamp })
    (fun _ _ => rfl) .executionRecorded row.state .executed
    (.ok (.dict [item "result_sha256" resultSha256.val]))
  commit me
  pure .executed

def recordExecution (effectId executionToken : PyStr)
    (result providerReceipt : PyVal) : LProg EffectState := do
  let row ← Prog.block .read (rowLocked me effectId)
  if row.state = .executed then
    if row.executionResultJson.map ExecutionRecord.executionToken
        = some executionToken then pure row.state
    else refuse "execution result is already immutable"
  else if row.state ≠ .executing ∧ row.state ≠ .recoveryRequired then
    refuse ("cannot record execution from " ++ row.state.value)
  else if row.executionIntentJson.map ExecutionIntent.executionToken ≠ some executionToken then
    refuse "execution token does not match persisted intent"
  else
    Prog.block .write (recordRow H me row executionToken result providerReceipt)

/-- Where `mark_execution_failure` sends a row. -/
def failureState (row : EffectRow) (providerNotInvoked : Bool) : EffectState :=
  if providerNotInvoked then retryState row else .recoveryRequired

/-- The write of `mark_execution_failure`. -/
def failRow (row : EffectRow) (error : PyVal) (providerNotInvoked : Bool) : LBlock EffectState := do
  transitionLocked H me row (failureState row providerNotInvoked) .executionFailureRecorded
    (.dict [item "error" error, item "provider_not_invoked" (.bool providerNotInvoked)])
    providerNotInvoked false
  commit me
  pure (failureState row providerNotInvoked)

def markExecutionFailure (claim : EffectClaim) (error : PyVal)
    (providerNotInvoked : Bool) : LProg EffectState := do
  let row ← Prog.block .read (rowLocked me claim.effectId)
  if ¬ claimIdentity row claim then
    refuse "claim identity mismatch"
  else if row.state ≠ .claimed ∧ row.state ≠ .executing then
    refuse ("cannot record execution failure from " ++ row.state.value)
  else
    Prog.block .write (failRow H me row error providerNotInvoked)

/-- The write of `verify`, once it has asserted that `execution` is there. -/
def verifyRow (row : EffectRow) (execution : ExecutionRecord)
    (verifierId : PyStr) (passed : Bool) (evidence : PyVal)
    (independent : Bool) : LBlock EffectState := do
  let executionResultSha256 ← liftPy (canonicalSha256 H (execution.asdict H))
  let verifiedAt ← readClock H
  let accepted := passed && independent
  let nextState : EffectState :=
    if accepted then .verified else .verificationFailed
  let evidence ← liftPy (roundTrip evidence)
  let verification : Verification :=
    ⟨verifierId, passed, independent, executionResultSha256, evidence, verifiedAt⟩
  rewrite H me row.effectId
    (fun stamp r => { r with
      state := nextState
      verificationJson := some verification
      updatedAt := stamp })
    (fun _ _ => rfl)
    (if accepted then .verificationPassed else .verificationFailed)
    row.state nextState
    (.ok (.dict [item "verifier_id" (.str verifierId),
      item "passed" (.bool passed), item "independent" (.bool independent)]))
  commit me
  pure nextState

def verify (effectId verifierId : PyStr) (passed : Bool) (evidence : PyVal)
    (independent : Bool) : LProg EffectState := do
  if isBlank verifierId then
    raisePy (.valueError "verifier_id must not be empty")
  else do
    let row ← Prog.block .read (rowLocked me effectId)
    if row.state = .verified ∨ row.state = .verificationFailed then
      match row.verificationJson with
      | none => refuse "verification is already immutable"
      | some stored =>
        if stored.verifierId = verifierId ∧ stored.passed = passed then
          pure row.state
        else refuse "verification is already immutable"
    else if row.state ≠ .executed then
      refuse ("cannot verify from " ++ row.state.value)
    else
      match row.executionResultJson with
      | none => raisePy .assertionError
      | some execution =>
        Prog.block .write (verifyRow H me row execution verifierId passed evidence independent)

def publishRow (row : EffectRow) (publication : PyVal) : LBlock EffectState := do
  let stored ← liftPy (roundTrip publication)
  rewrite H me row.effectId
    (fun stamp r => { r with
      state := .published
      publicationJson := some stored
      updatedAt := stamp })
    (fun _ _ => rfl) .resultPublished row.state .published
    (do .ok (.dict [item "publication_sha256" (← canonicalSha256 H publication).val]))
  commit me
  pure .published

def publish (effectId : PyStr) (publication : PyVal) : LProg EffectState := do
  let row ← Prog.block .read (rowLocked me effectId)
  if row.state = .published then
    match row.publicationJson with
    | none => refuse "publication is already immutable"
    | some stored =>
      if stored.eq publication then pure row.state
      else refuse "publication is already immutable"
  else if row.state ≠ .verified then
    refuse ("cannot publish from " ++ row.state.value)
  else
    Prog.block .write (publishRow H me row publication)

def acknowledgeRow (row : EffectRow) (acknowledgement : PyVal) : LBlock EffectState := do
  let stored ← liftPy (roundTrip acknowledgement)
  rewrite H me row.effectId
    (fun stamp r => { r with
      state := .acknowledged
      acknowledgementJson := some stored
      updatedAt := stamp })
    (fun _ _ => rfl) .deliveryAcknowledged row.state .acknowledged
    (do .ok (.dict [item "ack_sha256" (← canonicalSha256 H acknowledgement).val]))
  commit me
  pure .acknowledged

def acknowledge (effectId : PyStr) (acknowledgement : PyVal) : LProg EffectState := do
  let row ← Prog.block .read (rowLocked me effectId)
  if row.state = .acknowledged then
    match row.acknowledgementJson with
    | none => refuse "acknowledgement is already immutable"
    | some stored =>
      if stored.eq acknowledgement then pure row.state
      else refuse "acknowledgement is already immutable"
  else if row.state ≠ .published then
    refuse ("cannot acknowledge from " ++ row.state.value)
  else
    Prog.block .write (acknowledgeRow H me row acknowledgement)

/-- The argument `provider_status`, which any string may be. -/
inductive ProviderStatus : Type
  | notExecuted
  | executed
  | unknown
  | other (s : PyStr)
deriving DecidableEq

/-- The write of `reconcile_execution` when the provider does not know. -/
def unknownRow (row : EffectRow) (executionToken : PyStr) : LBlock EffectState := do
  transitionLocked H me row .recoveryRequired .providerExecutionUnknown
    (.dict [item "execution_token" (.str executionToken)]) false false
  commit me
  pure .recoveryRequired

/-- The write of `reconcile_execution` when nothing was executed. -/
def notExecutedRow (row : EffectRow) (executionToken : PyStr) : LBlock EffectState := do
  transitionLocked H me row (retryState row) .providerConfirmedNotExecuted
    (.dict [item "execution_token" (.str executionToken)]) true true
  commit me
  pure (retryState row)

def reconcileExecution (effectId executionToken : PyStr)
    (providerStatus : ProviderStatus) (result providerReceipt : PyVal) :
    LProg EffectState := do
  match providerStatus with
  | .other _ => raisePy (.valueError "invalid provider_status")
  | status => do
    let row ← Prog.block .read (rowLocked me effectId)
    if row.state ≠ .executing ∧ row.state ≠ .recoveryRequired then
      refuse ("cannot reconcile execution from " ++ row.state.value)
    else if row.executionIntentJson.map ExecutionIntent.executionToken ≠ some executionToken then
      refuse "execution token does not match persisted intent"
    else if status = .unknown then
      Prog.block .write (unknownRow H me row executionToken)
    else if status = .executed then
      if result.isNone || providerReceipt.isNone then
        raisePy (.valueError "executed reconciliation requires result and provider_receipt")
      else do
        Prog.block .read (rollback me)
        recordExecution H me effectId executionToken result providerReceipt
    else
      Prog.block .write (notExecutedRow H me row executionToken)

end Operations

-- == audit

def auditFrom (H : Host) (previous : Text) : List HistoryRow → Except PyErr Bool
  | [] => .ok true
  | h :: rest => do
    if h.previousHash ≠ previous then .ok false
    else do
      let found ← canonicalSha256 H h.record
      if found ≠ h.hash then .ok false
      else auditFrom H found rest

def verifyAuditChain (H : Host) (db : Db) : Except PyErr Bool :=
  auditFrom H genesis db.history

-- == calls

/-- A call of one of the ledger's operations, with its arguments. -/
inductive Call : Type
  | submit (request : EffectRequest) (maxAttempts : Int)
  | authorize (effectId : PyStr) (authorization : EffectAuthorization)
  | claim (workerId : PyStr) (leaseSeconds : Int)
  | beginExecution (claim : EffectClaim) (providerId providerIdempotencyKey operation : PyStr)
  | recordExecution (effectId executionToken : PyStr) (result providerReceipt : PyVal)
  | markExecutionFailure (claim : EffectClaim) (error : PyVal) (providerNotInvoked : Bool)
  | verify (effectId verifierId : PyStr) (passed : Bool) (evidence : PyVal) (independent : Bool)
  | publish (effectId : PyStr) (publication : PyVal)
  | acknowledge (effectId : PyStr) (acknowledgement : PyVal)
  | reconcileExecution (effectId executionToken : PyStr)
      (providerStatus : ProviderStatus) (result providerReceipt : PyVal)
  | recoverExpiredClaims (now : Option DateTime)

/-- What a call returns. -/
inductive Reply : Type
  | submitted (effectId : Text) (created : Bool)
  | state (s : EffectState)
  | claimed (claim : Option EffectClaim)
  | token (executionToken : Text)
  | recovered (count : Nat)
deriving DecidableEq

def Call.prog (H : Host) (me : Nat) : Call → LProg Reply
  | .submit r n =>
    (fun (id, created) => .submitted id created) <$> Effects.submit H me r n
  | .authorize id a => .state <$> Effects.authorize H me id a
  | .claim worker lease => .claimed <$> Effects.claim H me worker lease
  | .beginExecution c p k o =>
    .token <$> Effects.beginExecution H me c p k o
  | .recordExecution id t r p =>
    .state <$> Effects.recordExecution H me id t r p
  | .markExecutionFailure c e n =>
    .state <$> Effects.markExecutionFailure H me c e n
  | .verify id v p e i => .state <$> Effects.verify H me id v p e i
  | .publish id p => .state <$> Effects.publish H me id p
  | .acknowledge id a => .state <$> Effects.acknowledge H me id a
  | .reconcileExecution id t s r p =>
    .state <$> Effects.reconcileExecution H me id t s r p
  | .recoverExpiredClaims now =>
    .recovered <$> Effects.recoverExpiredClaims H me now

/-- Operations run one at a time on one ledger: a call runs to its end before
the next one starts. -/
def step (H : Host) (call : Call) (w : World) : Except LedgerError Reply × World :=
  (call.prog H 0).run w

-- == a sample

/-! A run to try the ledger on: one effect, up to its execution. -/

namespace Sample

def newYear : Instant := 63902822400000000

def host : Host := .sample fun _ => newYear

def request : EffectRequest :=
  ⟨py "mail.send", .dict [item "to" (.str (py "bob"))], py "order-7",
    py "request-1", py "alice", none, py "2026-01-01T00:00:00+00:00"⟩

/-- An approval of the request, for an hour. -/
def authorization : EffectAuthorization :=
  ⟨py "grant-1", match request.sha256 host with
    | .ok sha => sha.str
    | .error _ => [],
    py "mail.send", py "carol", true,
    ⟨py "2026-01-01T01:00:00+00:00", some (.aware (newYear + 3600000000))⟩,
    .dict []⟩

def effectId : PyStr := (host.uuid4 0).str

def worker : PyStr := py "worker-1"

/-- The n-th identifier drawn, as the token of a claim with a lease of a
minute. -/
def ticket (n attempt : Nat) : EffectClaim :=
  ⟨effectId, (host.uuid4 n).str, worker, newYear + 60000000, attempt⟩

def beginning (claim : EffectClaim) : Call :=
  .beginExecution claim (py "smtp") (py "order-7") (py "send")

def result : PyVal := .dict [item "sent" (.bool true)]

/-- Submitted, approved, claimed and begun. -/
def started : List Call :=
  [.submit request 3, .authorize effectId authorization, .claim worker 60, beginning (ticket 1 1)]

def stateAfter (calls : List Call) : Option EffectState :=
  (((calls.foldl (fun w call => (step host call w).2) World.init).view
    0).effect? (host.uuid4 0)).map EffectRow.state

def finished : List Call :=
  started ++ [ .recordExecution effectId (host.uuid4 2).str result result,
    .verify effectId (py "auditor") true result true,
    .publish effectId result, .acknowledge effectId result]

end Sample

end Centinal26.Effects
