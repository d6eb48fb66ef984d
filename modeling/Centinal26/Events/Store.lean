/-
`EventStore`: the event log and its hash chain.
-/
import Centinal26.Py.Host
import Centinal26.Py.JsonText
import Centinal26.Py.Normal

namespace Centinal26.Events

open Py

-- == types

inductive EventType : Type
  | sourceIngested
  | goalDiscovered
  | taskCreated
  | dependencyAdded
  | taskReady
  | taskAuthorized
  | taskStarted
  | taskExecuted
  | verificationPassed
  | verificationFailed
  | taskCompleted
  | taskFailed
  | artifactCreated
  | decisionRecorded
  | blockerRecorded
deriving DecidableEq

namespace EventType

def value : EventType → String
  | sourceIngested => "SOURCE_INGESTED"
  | goalDiscovered => "GOAL_DISCOVERED"
  | taskCreated => "TASK_CREATED"
  | dependencyAdded => "DEPENDENCY_ADDED"
  | taskReady => "TASK_READY"
  | taskAuthorized => "TASK_AUTHORIZED"
  | taskStarted => "TASK_STARTED"
  | taskExecuted => "TASK_EXECUTED"
  | verificationPassed => "VERIFICATION_PASSED"
  | verificationFailed => "VERIFICATION_FAILED"
  | taskCompleted => "TASK_COMPLETED"
  | taskFailed => "TASK_FAILED"
  | artifactCreated => "ARTIFACT_CREATED"
  | decisionRecorded => "DECISION_RECORDED"
  | blockerRecorded => "BLOCKER_RECORDED"

def all : List EventType :=
  [sourceIngested, goalDiscovered, taskCreated, dependencyAdded, taskReady,
    taskAuthorized, taskStarted, taskExecuted, verificationPassed,
    verificationFailed, taskCompleted, taskFailed, artifactCreated,
    decisionRecorded, blockerRecorded]

def ofName? (name : PyStr) : Option EventType :=
  all.find? fun t => decide (py t.value = name)

end EventType

/-- What the event store and its readers raise. -/
inductive EventError : Type
  | py (e : PyErr)
  | stateTransition (message : PyStr)
deriving DecidableEq

def liftPy {α : Type} (r : Except PyErr α) : Except EventError α :=
  r.mapError .py

-- == events

structure Event where
  seq : Int
  eventId : Text
  ts : Text
  type : Text
  entityId : Option Text
  payload : Fields
  prevHash : Text
  eventHash : Text

structure EventRow where
  seq : Int
  eventId : Text
  ts : Text
  type : Text
  entityId : Option Text
  payloadJson : Option Doc
  prevHash : Text
  eventHash : Text
  schemaVersion : Int

def eventSchemaVersion : Int := 1

def EventRow.toEvent (r : EventRow) : Except EventError Event :=
  if r.schemaVersion ≠ eventSchemaVersion then
    .error (.stateTransition (py "unsupported event schema version"))
  else
    match r.payloadJson with
    | none => .error (.py (.valueError "Expecting value"))
    | some doc =>
      match doc.fields? with
      | none =>
        .error (.stateTransition (py "event payload is not a JSON object"))
      | some payload => .ok ⟨r.seq, r.eventId, r.ts, r.type, r.entityId,
          payload, r.prevHash, r.eventHash⟩

def canonicalJson (d : Json) : Except PyErr Text :=
  if d.isFinite then encode (d.text .canonical) else .error notCompliant

def optJson : Option PyStr → Json
  | none => .null
  | some s => .str s

def eventBody (eventId ts type : PyStr) (entityId : Option PyStr)
    (payload : Fields) (prevHash : PyStr) : Json :=
  .obj (sortByName [(py "schema_version", .int eventSchemaVersion),
    (py "event_id", .str eventId), (py "ts", .str ts), (py "type", .str type),
    (py "entity_id", optJson entityId), (py "payload", payload.doc.json),
    (py "prev_hash", .str prevHash)])

def eventHash (H : Host) (eventId ts type : PyStr) (entityId : Option PyStr)
    (payload : Fields) (prevHash : PyStr) : Except PyErr Text := do
  .ok (H.sha256 (← canonicalJson (eventBody eventId ts type entityId payload prevHash)))

def Event.body (e : Event) : Json :=
  eventBody e.eventId.str e.ts.str e.type.str (e.entityId.map Text.str) e.payload e.prevHash.str

-- == reads

def events (rows : List EventRow) : Except EventError (List Event) :=
  rows.mapM EventRow.toEvent

/-- The loop of `verify_chain`. -/
def verifyEvents (H : Host) : Text → List Event → Except PyErr Bool
  | _, [] => .ok true
  | previous, e :: rest =>
    if e.prevHash ≠ previous then .ok false
    else if (EventType.ofName? e.type.str).isNone then .ok false
    else do
      let expected ← canonicalJson e.body
      if H.sha256 expected ≠ e.eventHash then .ok false
      else verifyEvents H e.eventHash rest

def verifyChain (H : Host) (rows : List EventRow) : Except PyErr Bool :=
  match events rows with
  | .error _ => .ok false
  | .ok es => verifyEvents H genesis es

-- == append

/-- The table of a store. -/
structure EventLog where
  rows : List EventRow
  lastSeq : Int
  bound : ∀ r ∈ rows, r.seq ≤ lastSeq
  nonneg : 0 ≤ lastSeq

namespace EventLog

def empty : EventLog := ⟨[], 0, fun _ h => (by cases h), Int.le_refl 0⟩

def lastHash (log : EventLog) : Text :=
  match log.rows.getLast? with
  | none => genesis
  | some r => r.eventHash

/-- `INSERT INTO events`, with both uniqueness constraints. -/
def insert (log : EventLog) (row : EventRow) (hseq : row.seq = log.lastSeq + 1) :
    Except PyErr EventLog :=
  if log.rows.any fun r => decide (r.eventId = row.eventId)
      || decide (r.eventHash = row.eventHash) then
    .error .integrityError
  else .ok {
    rows := log.rows ++ [row]
    lastSeq := log.lastSeq + 1
    bound := fun r hr => by
      rcases List.mem_append.mp hr with hr | hr
      · have := log.bound r hr
        omega
      · cases List.mem_singleton.mp hr
        exact Int.le_of_eq hseq
    nonneg := by
      have := log.nonneg
      omega }

def rowOf (e : Event) : EventRow :=
  ⟨e.seq, e.eventId, e.ts, e.type, e.entityId, some e.payload.doc, e.prevHash,
    e.eventHash, eventSchemaVersion⟩

/-- The dictionary `append` stores: its argument through canonical JSON. -/
def normalizedPayload (payload : PyVal) : Except PyErr Fields := do
  let doc ← dumpsStrict payload
  match doc.load.fields? with
  | none => .error .typeError
  | some fields => .ok fields

/-- `s.encode("utf-8")` of an optional column. -/
def encodeOpt : Option PyStr → Except PyErr (Option Text)
  | none => .ok none
  | some s => do .ok (some (← encode s))

/-- The transaction of `append`. -/
def insertEvent (H : Host) (log : EventLog) (type : EventType) (payload : Fields)
    (entityId : Option PyStr) (eventId ts : PyStr) :
    Except PyErr (Event × EventLog) := do
  let digest ← eventHash H eventId ts (py type.value) entityId payload
    log.lastHash.str
  let event : Event := ⟨log.lastSeq + 1, ← encode eventId, ← encode ts,
    Text.lit type.value, ← encodeOpt entityId, payload, log.lastHash, digest⟩
  .ok (event, ← log.insert (rowOf event) rfl)

/-- `append`, with the event's id and time at hand. -/
def append (H : Host) (log : EventLog) (type : PyStr) (payload : PyVal)
    (entityId : Option PyStr) (eventId ts : PyStr) : Except PyErr (Event × EventLog) :=
  match EventType.ofName? type with
  | none => .error (.valueError "unknown event type")
  | some type =>
    match payload with
    | .dict _ => do
      let fields ← normalizedPayload payload
      log.insertEvent H type fields entityId eventId ts
    | _ => .error .typeError

structure AppendRequest where
  type : PyStr
  payload : PyVal
  entityId : Option PyStr
  eventId : PyStr
  ts : PyStr

/-- The table after an `append`, which changes nothing where it raises. -/
def after (H : Host) (log : EventLog) (r : AppendRequest) : EventLog :=
  match log.append H r.type r.payload r.entityId r.eventId r.ts with
  | .ok (_, log') => log'
  | .error _ => log

def appendAll (H : Host) (requests : List AppendRequest) : EventLog :=
  requests.foldl (after H) empty

end EventLog

end Centinal26.Events
