/-
`FleetController`: what its operations do to the database.
-/
import Centinal26.Fleet.State
import Centinal26.Lib.Interleave

namespace Centinal26.Fleet

open Py Steps

abbrev FBlock (α : Type) := Block PyErr Db α

def liftPy {α : Type} (r : Except PyErr α) : FBlock α := fun db => (r, db)

-- == hashes

def sha256Json (H : Host) (body : PyVal) : Except PyErr Text := do
  .ok (H.sha256 (← encode ((← dumpsStrict body).text .canonical)))

/-- `canonical_json` of a column: the document, if its text can be stored. -/
def canonicalColumn (v : PyVal) : Except PyErr Json := do
  let doc ← dumpsStrict v
  let _ ← encode (doc.text .canonical)
  .ok doc

def bindable : PyVal → Except PyErr Unit
  | .none => .ok ()
  | .bool _ => .ok ()
  | .int n => if -2 ^ 63 ≤ n ∧ n < 2 ^ 63 then .ok () else .error .overflowError
  | .float _ => .ok ()
  | .str s => do let _ ← encode s; .ok ()
  | _ => .error (.operationalError "type is not supported")

/-- An identifier with the first 32 digits of a hash. -/
def idOf (name : String) (digest : Text) : Text :=
  ⟨py name ++ digest.str.take 32, encodable_append.mpr ⟨encodable_py name,
    fun c hc => digest.encodable c (List.mem_of_mem_take hc)⟩⟩

/-- The dictionary of some items, as it is stored. -/
def fieldsOf (members : List (PyStr × Json)) : Fields :=
  ⟨sortByName (dictOf (normaliseMembers members)), isNormal_normalise (.obj members)⟩

def isoVal (H : Host) (now : Instant) : PyVal := .str (H.isoformat now).str

-- == events

/-- The document whose hash an event carries. -/
def eventBody (occurredAt eventType entityId : PyStr) (payload : Fields)
    (prevEventHash : PyStr) : Json :=
  .obj (sortByName [(py "occurred_at", .str occurredAt),
    (py "event_type", .str eventType), (py "entity_id", .str entityId),
    (py "payload", payload.doc.json), (py "prev_event_hash", .str prevEventHash)])

def FleetEvent.body (e : FleetEvent) : Json :=
  eventBody e.occurredAt.str (py e.eventType.value) e.entityId.str e.payload e.prevEventHash.str

def Db.lastHash (db : Db) : Text :=
  match db.events.getLast? with
  | none => genesis
  | some e => e.eventHash

def appendEvent (H : Host) (kind : EventKind) (entityId : Text)
    (members : List (PyStr × Json)) (now : Instant) : FBlock Text := fun db =>
  let payload := fieldsOf members
  let body := eventBody (H.isoformat now).str (py kind.value) entityId.str payload
    db.lastHash.str
  match Events.canonicalJson body with
  | .error e => (.error e, db)
  | .ok text =>
    let digest := H.sha256 text
    let event : FleetEvent := ⟨idOf ("fleet:" ++ kind.lower ++ ":") digest,
      H.isoformat now, kind, entityId, payload, db.lastHash, digest⟩
    if (db.events.any fun e => decide (e.eventId = event.eventId)
        || decide (e.eventHash = event.eventHash)) then
      (.error .integrityError, db)
    else (.ok digest, { db with events := db.events ++ [event] })

def verifyEvents (H : Host) : Text → List FleetEvent → Except PyErr Bool
  | _, [] => .ok true
  | previous, e :: rest =>
    if e.prevEventHash ≠ previous then .ok false
    else do
      let text ← Events.canonicalJson e.body
      if H.sha256 text ≠ e.eventHash then .ok false
      else verifyEvents H e.eventHash rest

def verifyEventChain (H : Host) (db : Db) : Except PyErr Bool :=
  verifyEvents H genesis db.events

-- == contracts

/-- The arguments of `create_contract`. -/
structure ContractArgs where
  idempotencyKey : PyStr
  problemStatement : PyStr
  sourceBasis : PyVal
  priority : PyStr
  expectedOutcome : PyStr
  successCriteria : PyVal
  allowedScope : PyVal
  prohibitedScope : PyVal
  dependencies : List PyStr
  assignedRole : PyStr
  verificationRequirements : PyVal
  rollbackPlan : PyVal
  resourceBudget : PyVal
  retryBudget : Int
  currentHead : PyStr
  subsystem : PyStr
  failureCriteria : PyVal
  nextReviewCondition : PyStr
  ranking : PyVal
  onVerifiedRole : Option PyStr
  now : Instant

/-- The machine, with `rank_contract`: float arithmetic on the ranking. -/
structure FleetHost extends Host where
  rankContract : PyStr → PyVal → Except PyErr FloatLit

def roleVal (r : Role) : PyVal := .str (py r.value)

/-- The body whose hash names a contract. -/
def contractBody (H : Host) (a : ContractArgs) (score : FloatLit) : PyVal :=
  .dict [item "idempotency_key" (.str a.idempotencyKey), item "created_at" (isoVal H a.now),
    item "problem_statement" (.str a.problemStatement),
    item "source_basis" a.sourceBasis, item "priority" (.str a.priority),
    item "rank_score" (.float (.finite score)), item "ranking" a.ranking,
    item "expected_outcome" (.str a.expectedOutcome),
    item "success_criteria" a.successCriteria,
    item "allowed_scope" a.allowedScope,
    item "prohibited_scope" a.prohibitedScope,
    item "dependencies" (.list (a.dependencies.map .str)),
    item "assigned_role" (.str a.assignedRole),
    item "verification_requirements" a.verificationRequirements,
    item "rollback_plan" a.rollbackPlan,
    item "resource_budget" a.resourceBudget,
    item "retry_budget" (.int a.retryBudget),
    item "current_head" (.str a.currentHead),
    item "subsystem" (.str a.subsystem),
    item "failure_criteria" a.failureCriteria,
    item "next_review_condition" (.str a.nextReviewCondition),
    item "on_verified_role" (optText a.onVerifiedRole)]

/-- What is stored of a contract as it is given. -/
structure ContractColumns where
  idempotencyKey : Text
  dependencies : List Text
  subsystem : Text

/-- The columns of a contract; those nothing reads again only have to be
storable. -/
def contractColumns (a : ContractArgs) : Except PyErr ContractColumns := do
  let key ← encode a.idempotencyKey
  let _ ← encode a.problemStatement
  let _ ← canonicalColumn a.sourceBasis
  let _ ← encode a.priority
  let _ ← canonicalColumn a.ranking
  let _ ← encode a.expectedOutcome
  let _ ← canonicalColumn a.successCriteria
  let _ ← canonicalColumn a.allowedScope
  let _ ← canonicalColumn a.prohibitedScope
  let dependencies ← a.dependencies.mapM encode
  let _ ← canonicalColumn a.verificationRequirements
  let _ ← canonicalColumn a.rollbackPlan
  let _ ← canonicalColumn a.resourceBudget
  bindable (.int a.retryBudget)
  let _ ← encode a.currentHead
  let subsystem ← encode a.subsystem
  let _ ← canonicalColumn a.failureCriteria
  let _ ← encode a.nextReviewCondition
  .ok ⟨key, dependencies, subsystem⟩

def insertContract (row : ContractRow) : FBlock Unit := fun db =>
  if (db.contracts.rows.any fun c => decide (c.idempotencyKey = row.idempotencyKey)
      || decide (c.contractHash = row.contractHash)) then
    (.error .integrityError, db)
  else match db.contracts.insert? row with
    | none => (.error .integrityError, db)
    | some contracts => (.ok (), { db with contracts := contracts })

/-- `INSERT INTO fleet_contract_state`. -/
def insertState (row : StateRow) : FBlock Unit := fun db =>
  match db.states.insert? row with
  | none => (.error .integrityError, db)
  | some states => (.ok (), { db with states := states })

def createBlock (H : Host) (a : ContractArgs) (role : Role)
    (onVerified : Option Role) (score : FloatLit) (contractHash : Text) :
    FBlock Unit := do
  let contractId := idOf "contract:" contractHash
  let columns ← liftPy (contractColumns a)
  insertContract ⟨contractId, columns.idempotencyKey, a.now, score,
    columns.dependencies, role, a.retryBudget, columns.subsystem, onVerified,
    contractHash⟩
  insertState ⟨contractId, .ready, role, none, none, 0⟩
  let _ ← appendEvent H .contractCreated contractId [
    (py "priority", .str a.priority), (py "rank_score", .float (.finite score)),
    (py "assigned_role", .str a.assignedRole), (py "subsystem", .str a.subsystem),
    (py "contract_hash", .str contractHash.str)] a.now
  pure ()

-- == claims

/-- A row of the `SELECT` of `claim_next`. -/
structure Candidate where
  contract : ContractRow
  attemptCount : Nat

/-- The arguments of the block of `claim_next`. -/
structure ClaimArgs where
  role : Role
  claimer : PyStr
  leaseSeconds : Int
  batchLimit : Int
  now : Instant
  rows : List Candidate

/-- A contract `claim_next` returns. -/
structure Claimed where
  contract : ContractRow
  claimedBy : Text
  leaseUntil : Instant
  attemptCount : Nat
deriving DecidableEq

/-- The `WHERE` of `claim_next`. -/
def StateRow.isOpen (s : StateRow) (role : Role) (now : Instant) : Bool :=
  decide (s.ownerRole = role) && (decide (s.status = .ready)
    || decide (s.status = .running) && s.leaseUntil.any fun l => decide (l ≤ now))

/-- The contract can be claimed by the role at the time. -/
def claimable (db : Db) (role : Role) (now : Instant) (id : Text) : Bool :=
  (db.state? id).any fun s => s.isOpen role now

/-- `ORDER BY rank_score DESC, created_at ASC, contract_id ASC`. -/
def ContractRow.before (a b : ContractRow) : Bool :=
  if a.rankScore.value = b.rankScore.value then
    if a.createdAt = b.createdAt then decide (a.contractId.str ≤ b.contractId.str)
    else decide (a.createdAt < b.createdAt)
  else decide (b.rankScore.value < a.rankScore.value)

/-- The `SELECT` of `claim_next`. -/
def candidates (db : Db) (role : Role) (now : Instant) : List Candidate :=
  (db.contracts.rows.filterMap fun c =>
    match db.state? c.contractId with
    | some s => if s.isOpen role now then some ⟨c, s.attemptCount⟩ else none
    | none => none).mergeSort fun a b => a.contract.before b.contract

def dependenciesSatisfied (db : Db) (c : ContractRow) : Bool :=
  c.dependencies.all fun d =>
    match db.state? d with
    | some s => decide (s.status ∈ Status.success)
    | none => false

/-- `now - timedelta(hours=24)`. -/
def cutoff (now : Instant) : Except PyErr Instant :=
  if 86400000000 ≤ now then .ok (now - 86400000000) else .error .overflowError

/-- `_error_budget(..)["contracted"]`. -/
def contracted (db : Db) (subsystem : Text) (now : Instant) : Except PyErr Bool := do
  let since ← cutoff now
  let rows := db.errors.rows.filter fun r =>
    decide (r.subsystem = subsystem ∧ since ≤ r.occurredAt)
  let total := rows.length
  let unrecovered := rows.countP fun r => !r.recovered
  let invariants := rows.countP fun r =>
    decide (r.eventType.str = py "INVARIANT_VIOLATION")
  .ok (decide (0 < invariants) || decide (4 ≤ total ∧ 2 ≤ unrecovered ∧ total ≤ 4 * unrecovered))

/-- The candidate has used its retry budget up. -/
def Candidate.spent (row : Candidate) : Bool :=
  decide (row.contract.retryBudget + 1 ≤ row.attemptCount)

/-- The error budget keeps the role from claiming. -/
def ClaimArgs.shutOut (a : ClaimArgs) (shut : Bool) : Bool :=
  shut && decide (a.role ≠ .judge ∧ a.role ≠ .sre)

/-- One turn of the loop of `claim_next`. -/
def claimOne (H : Host) (a : ClaimArgs) (row : Candidate) : FBlock (Option Claimed) := do
  if row.spent then do
    (fun db => (.ok (),
      db.updateState row.contract.contractId StateRow.fail StateRow.fail_contractId))
    let _ ← appendEvent H .contractFailed row.contract.contractId
      [(py "reason", .str (py "retry budget exhausted"))] a.now
    pure none
  else do
    let satisfied ← fun db => (.ok (dependenciesSatisfied db row.contract), db)
    if !satisfied then pure none
    else do
      let shut ← fun db => (contracted db row.contract.subsystem a.now, db)
      if a.shutOut shut then pure none
      else do
        let leaseUntil ← liftPy (addSeconds a.now a.leaseSeconds)
        let claimer ← liftPy (encode a.claimer)
        (fun db => (.ok (), db.updateState row.contract.contractId
          (StateRow.claim claimer leaseUntil) (StateRow.claim_contractId _ _)))
        let _ ← appendEvent H .contractClaimed row.contract.contractId [
          (py "role", .str (py a.role.value)), (py "claimer", .str a.claimer),
          (py "lease_until", .str (H.isoformat leaseUntil).str)] a.now
        pure (some ⟨row.contract, claimer, leaseUntil, row.attemptCount + 1⟩)

/-- The loop of `claim_next`, with what has been claimed so far. -/
def claimEach (H : Host) (a : ClaimArgs) : List Candidate → List Claimed → FBlock (List Claimed)
  | [], claimed => pure claimed
  | row :: rows, claimed =>
    if a.batchLimit ≤ claimed.length then pure claimed
    else do
      let item ← claimOne H a row
      claimEach H a rows (claimed ++ item.toList)

def claimBlock (H : Host) (a : ClaimArgs) : FBlock (List Claimed) :=
  claimEach H a a.rows []

-- == handoffs

def handoffDigest (H : Host) (contractId sourceResultId : Text)
    (fromRole toRole : Role) (reason : String) (now : Instant) : Except PyErr Text :=
  sha256Json H (.dict [item "contract_id" contractId.val,
    item "source_result_id" sourceResultId.val, item "from_role" (roleVal fromRole),
    item "to_role" (roleVal toRole), item "reason" (.str (py reason)),
    item "created_at" (isoVal H now)])

/-- `INSERT OR IGNORE INTO fleet_handoffs`. -/
def Db.insertHandoff (db : Db) (row : HandoffRow) : Db :=
  if (db.handoffs.rows.any fun h => decide (h.handoffHash = row.handoffHash)) then db
  else match db.handoffs.insert? row with
    | none => db
    | some handoffs => { db with handoffs := handoffs }

def createHandoff (H : Host) (contractId : Text) (sourceResultId : Text)
    (fromRole toRole : Role) (reason : String) (now : Instant) : FBlock Text := do
  let digest ← liftPy
    (handoffDigest H contractId sourceResultId fromRole toRole reason now)
  let handoffId := idOf "handoff:" digest
  (fun db => (.ok (), db.insertHandoff ⟨handoffId, contractId, some sourceResultId,
    fromRole, toRole, Text.lit reason, now, digest⟩))
  (fun db => (.ok (), db.updateState contractId (StateRow.hand toRole) (StateRow.hand_contractId _)))
  let _ ← appendEvent H .handoffCreated handoffId [
    (py "contract_id", .str contractId.str),
    (py "from_role", .str (py fromRole.value)),
    (py "to_role", .str (py toRole.value)), (py "reason", .str (py reason))] now
  pure handoffId

-- == results

/-- `payload.get("reason", status)`, bound to the column `terminal_reason`. -/
def terminalReason (payload : List (PyKey × PyVal)) : Except PyErr Unit :=
  match payload.find? fun m => m.1.eq (.str (py "reason")) with
  | some m => bindable m.2
  | none => .ok ()

/-- The arguments of the block of `record_result`. -/
structure ResultArgs where
  contractId : Text
  role : Role
  status : PyStr
  payload : List (PyKey × PyVal)
  evidenceHash : PyStr
  now : Instant

def resultBody (H : Host) (a : ResultArgs) : PyVal :=
  .dict [item "contract_id" a.contractId.val, item "role" (roleVal a.role),
    item "status" (.str a.status), item "created_at" (isoVal H a.now),
    item "payload" (.dict a.payload), item "evidence_hash" (.str a.evidenceHash)]

def insertResult (row : ResultRow) : FBlock Unit := fun db =>
  if (db.results.rows.any fun r => decide (r.resultHash = row.resultHash)) then
    (.error .integrityError, db)
  else match db.results.insert? row with
    | none => (.error .integrityError, db)
    | some results => (.ok (), { db with results := results })

def setStatus (contractId : Text) (status : Status) : FBlock Unit := fun db =>
  (.ok (), db.updateState contractId (StateRow.put status) (StateRow.put_contractId _))

def resultEffect (H : Host) (a : ResultArgs) (resultId : Text) : FBlock Unit :=
  if a.status ∈ awaitingVerification.map py then do
    let _ ← createHandoff H a.contractId resultId a.role .judge
      "independent verification required" a.now
    pure ()
  else match Status.named? Status.success a.status with
    | some status => setStatus a.contractId status
    | none =>
      match Status.named? Status.closing a.status with
      | some status => do
        liftPy (terminalReason a.payload)
        setStatus a.contractId status
      | none => setStatus a.contractId .ready

def resultBlock (H : Host) (a : ResultArgs) (resultHash : Text) : FBlock Unit := do
  let resultId := idOf "result:" resultHash
  let status ← liftPy (encode a.status)
  let payload ← liftPy (canonicalColumn (.dict a.payload))
  let evidenceHash ← liftPy (encode a.evidenceHash)
  insertResult ⟨resultId, a.contractId, a.role, status, a.now, payload, evidenceHash, resultHash⟩
  resultEffect H a resultId
  let _ ← appendEvent H .resultRecorded resultId [
    (py "contract_id", .str a.contractId.str), (py "role", .str (py a.role.value)),
    (py "status", .str a.status), (py "result_hash", .str resultHash.str)] a.now
  pure ()

-- == verdicts

/-- The arguments of the block of `record_verdict`, with the row that was
read. -/
structure VerdictArgs where
  resultId : Text
  verdict : Verdict
  verifier : PyStr
  details : List (PyKey × PyVal)
  evidenceHash : PyStr
  now : Instant
  contractId : Text
  assignedRole : Role
  onVerifiedRole : Option Role

def verdictBody (H : Host) (a : VerdictArgs) : PyVal :=
  .dict [item "result_id" a.resultId.val, item "contract_id" a.contractId.val,
    item "verdict" (.str (py a.verdict.value)), item "verifier" (.str a.verifier),
    item "created_at" (isoVal H a.now), item "details" (.dict a.details),
    item "evidence_hash" (.str a.evidenceHash)]

def insertVerdict (row : VerdictRow) : FBlock Unit := fun db =>
  if (db.verdicts.rows.any fun v => decide (v.resultId = row.resultId)
      || decide (v.verdictHash = row.verdictHash)) then
    (.error .integrityError, db)
  else match db.verdicts.insert? row with
    | none => (.error .integrityError, db)
    | some verdicts => (.ok (), { db with verdicts := verdicts })

/-- Close a contract in the judge's hands. -/
def judgeStatus (contractId : Text) (status : Status) : FBlock Unit := fun db =>
  (.ok (), db.updateState contractId (StateRow.judge status) (StateRow.judge_contractId _))

def verdictEffect (H : Host) (a : VerdictArgs) : FBlock Unit :=
  match a.verdict with
  | .verified =>
    match a.onVerifiedRole with
    | some nextRole => do
      let _ ← createHandoff H a.contractId a.resultId .judge nextRole
        "verified result eligible for next operational stage" a.now
      pure ()
    | none => judgeStatus a.contractId .verified
  | .verificationFailed => do
    let _ ← createHandoff H a.contractId a.resultId .judge a.assignedRole
      "verification failed; corrective work required" a.now
    pure ()
  | .inconclusive => do
    liftPy (terminalReason a.details)
    judgeStatus a.contractId .inconclusive
  | .blockedExternal => do
    liftPy (terminalReason a.details)
    judgeStatus a.contractId .blockedExternal

def verdictBlock (H : Host) (a : VerdictArgs) (verdictHash : Text) : FBlock Unit := do
  let verifier ← liftPy (encode a.verifier)
  let details ← liftPy (canonicalColumn (.dict a.details))
  let evidenceHash ← liftPy (encode a.evidenceHash)
  insertVerdict ⟨idOf "verdict:" verdictHash, a.resultId, a.contractId, a.verdict,
    verifier, a.now, details, evidenceHash, verdictHash⟩
  verdictEffect H a
  let _ ← appendEvent H .verdictRecorded (idOf "verdict:" verdictHash) [
    (py "contract_id", .str a.contractId.str), (py "result_id", .str a.resultId.str),
    (py "verdict", .str (py a.verdict.value)),
    (py "verdict_hash", .str verdictHash.str)] a.now
  pure ()

-- == errors

/-- The arguments of `record_error_event`. -/
structure ErrorArgs where
  subsystem : PyStr
  eventType : PyStr
  severity : PyStr
  recovered : Bool
  details : PyVal
  now : Instant

/-- The body whose hash names an error event. -/
def errorBody (H : Host) (a : ErrorArgs) : PyVal :=
  .dict [item "subsystem" (.str a.subsystem), item "event_type" (.str a.eventType),
    item "severity" (.str a.severity), item "recovered" (.bool a.recovered),
    item "occurred_at" (isoVal H a.now), item "details" a.details]

/-- `INSERT OR IGNORE INTO fleet_error_events`. -/
def Db.insertError (db : Db) (row : ErrorRow) : Db :=
  if (db.errors.rows.any fun r => decide (r.eventHash = row.eventHash)) then db
  else match db.errors.insert? row with
    | none => db
    | some errors => { db with errors := errors }

def errorBlock (H : Host) (a : ErrorArgs) (digest : Text) : FBlock Unit := do
  let errorId := idOf "error:" digest
  let subsystem ← liftPy (encode a.subsystem)
  let eventType ← liftPy (encode a.eventType)
  let severity ← liftPy (encode a.severity)
  let details ← liftPy (canonicalColumn a.details)
  (fun db => (.ok (), db.insertError ⟨errorId, subsystem, eventType, severity,
    a.recovered, a.now, details, digest⟩))
  let _ ← appendEvent H .errorRecorded errorId [
    (py "subsystem", .str a.subsystem), (py "event_type", .str a.eventType),
    (py "recovered", .bool a.recovered)] a.now
  pure ()

end Centinal26.Fleet
