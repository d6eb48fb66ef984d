/-
Requests of external adapters, and what the gateway makes of them.
-/
import Centinal26.Events.Writer
import Centinal26.Ingest.Extract
import Centinal26.Lib.Interleave

namespace Centinal26.Gateway

open Py Events

-- == catalog

inductive AdapterStatus : Type
  | notConfigured
  | discovered
  | hostValidated
  | connectedValidated
  | deviceValidated
  | blocked
deriving DecidableEq

def AdapterStatus.value : AdapterStatus → String
  | notConfigured => "NOT_CONFIGURED"
  | discovered => "DISCOVERED"
  | hostValidated => "HOST_VALIDATED"
  | connectedValidated => "CONNECTED_VALIDATED"
  | deviceValidated => "DEVICE_VALIDATED"
  | blocked => "BLOCKED"

structure AdapterDescriptor where
  operations : List PyStr
  status : AdapterStatus

/-- `FederationCatalog`: the descriptors by the adapter. -/
abbrev FederationCatalog := Dict PyStr AdapterDescriptor

def canonicalAdapterIds : List String :=
  ["aaard", "base44", "discord", "fras", "frost-call", "hermes"]

-- == errors

/-- What `ingest` raises; a conflict is a class of its own. -/
inductive GatewayError : Type
  | event (e : EventError)
  | conflict
deriving DecidableEq

def GatewayError.py (e : PyErr) : GatewayError := .event (.py e)

-- == requests

structure AdapterRequest where
  adapterId : PyStr
  externalId : PyStr
  capability : PyStr
  payload : PyVal
  constraints : PyVal
  objective : PyVal
  actor : PyVal

def clean (value : PyStr) : Except PyErr PyStr :=
  let cleaned := Ingest.strip value
  if cleaned.isEmpty then .error (.valueError "must not be empty") else .ok cleaned

def safeToken (value : PyStr) : PyStr :=
  let token := (Ingest.stripBy (· == 45)
    (Ingest.dashRuns false (Ingest.strip value))).take 48
  if token.isEmpty then py "adapter" else token

/-- `isinstance(value, dict)`, or it raises. -/
def requireDict : PyVal → Except PyErr Unit
  | .dict _ => .ok ()
  | _ => .error .typeError

def optional : PyVal → Except PyErr (Option PyStr)
  | .none => .ok none
  | .str s =>
    if (Ingest.strip s).isEmpty then
      .error (.valueError "must not be empty when provided")
    else .ok (some (Ingest.strip s))
  | _ => .error (.valueError "must not be empty when provided")

/-- The body of a request: its strings, which JSON leaves alone, and the whole of
it as JSON gives it back. -/
structure RequestBody where
  adapterId : PyStr
  externalId : PyStr
  capability : PyStr
  objective : Option PyStr
  actor : Option PyStr
  fields : Fields

namespace RequestBody

def payload (b : RequestBody) : Json := (b.fields.get? (py "payload")).getD .null

def constraints (b : RequestBody) : Json :=
  (b.fields.get? (py "constraints")).getD .null

end RequestBody

def requestBody (r : AdapterRequest) : Except PyErr RequestBody := do
  let adapterId ← clean r.adapterId
  let externalId ← clean r.externalId
  let capability ← clean r.capability
  requireDict r.payload
  requireDict r.constraints
  let objective ← optional r.objective
  let actor ← optional r.actor
  let fields ← EventLog.normalizedPayload (.dict [item "adapter_id" (.str adapterId),
    item "external_id" (.str externalId), item "capability" (.str capability),
    item "payload" r.payload, item "constraints" r.constraints,
    item "objective" (optText objective), item "actor" (optText actor)])
  .ok ⟨adapterId, externalId, capability, objective, actor, fields⟩

def requestSha256 (H : Host) (b : RequestBody) : Except PyErr Text := do
  .ok (H.sha256 (← canonicalJson b.fields.doc.json))

def stableSuffix (H : Host) (adapterId externalId : PyStr) : Except PyErr PyStr := do
  .ok ((H.sha256 (← encode (adapterId ++ [0] ++ externalId))).str.take 24)

-- == prepared

/-- What a call knows before it looks at the log. -/
structure Prepared where
  body : RequestBody
  status : AdapterStatus
  digest : Text
  requestId : PyStr
  taskId : PyStr

/-- `catalog.get`, with the checks of the descriptor. -/
def admits (catalog : FederationCatalog) (adapterId : PyStr) : Except PyErr AdapterStatus :=
  if canonicalAdapterIds.all fun id => decide (py id ≠ adapterId) then
    .error (.valueError "unsupported canonical adapter")
  else match catalog.get? adapterId with
    | none => .error (.keyError adapterId)
    | some descriptor =>
      if descriptor.status = .blocked then
        .error (.permissionError "adapter is blocked")
      else if py "intent.submit" ∉ descriptor.operations then
        .error (.valueError "adapter is not registered for intent.submit")
      else .ok descriptor.status

/-- The pure part of `ingest`. -/
def prepare (H : Host) (catalog : FederationCatalog) (r : AdapterRequest) :
    Except PyErr Prepared := do
  let body ← requestBody r
  let status ← admits catalog body.adapterId
  let digest ← requestSha256 H body
  let suffix ← stableSuffix H body.adapterId body.externalId
  let token := safeToken body.adapterId
  .ok ⟨body, status, digest, py "adapter-request:" ++ token ++ py ":" ++ suffix,
    py "task:adapter:" ++ token ++ py ":" ++ suffix⟩

namespace Prepared

/-- A dictionary of JSON values, as `append` gets it. -/
def payloadOf (members : List (PyStr × Json)) : PyVal := loads (.obj members)

/-- The payload of the `SOURCE_INGESTED` event. -/
def sourceMembers (p : Prepared) : List (PyStr × Json) :=
  [(py "source_id", .str p.requestId), (py "kind", .str (py "adapter-request")),
    (py "adapter_id", .str p.body.adapterId),
    (py "external_id", .str p.body.externalId),
    (py "request_sha256", .str p.digest.str),
    (py "capability", .str p.body.capability),
    (py "catalog_status", .str (py p.status.value)),
    (py "authority", .str (py "proposal_only")),
    (py "request", p.body.fields.doc.json)]

/-- The payload of the `TASK_CREATED` event. -/
def taskMembers (p : Prepared) : List (PyStr × Json) :=
  [(py "task_id", .str p.taskId), (py "source_id", .str p.requestId),
    (py "objective", .str (p.body.objective.getD
      (p.body.adapterId ++ py " request for " ++ p.body.capability))),
    (py "capability", .str p.body.capability), (py "input", p.body.payload),
    (py "constraints", p.body.constraints),
    (py "adapter_id", .str p.body.adapterId),
    (py "external_id", .str p.body.externalId),
    (py "request_sha256", .str p.digest.str),
    (py "actor", .str (p.body.actor.getD (py "adapter:" ++ p.body.adapterId))),
    (py "authority", .str (py "authorization_required"))]

def sourceEvent (p : Prepared) : NewEvent :=
  ⟨.sourceIngested, payloadOf p.sourceMembers, some p.requestId⟩

def taskEvent (p : Prepared) : NewEvent :=
  ⟨.taskCreated, payloadOf p.taskMembers, some p.taskId⟩

end Prepared

end Centinal26.Gateway

/-
`CanonicalAdapterGateway.ingest`, one step after the other.

A call verifies the chain, counts the events, and then twice rebuilds the state
and appends the event that is missing in it. Each of these is a step for itself:
what a call has read may be out of date when it appends. The events it appends
are checked against the chain by the store, and against the state by nobody.
-/

namespace Centinal26.Gateway

open Py Steps Events

/-- The steps of a call. -/
inductive Access : Type
  | verify
  | count
  | rebuild
  | append (r : NewEvent)

abbrev Call := FederationCatalog × AdapterRequest

abbrev GProg (α : Type) := Prog Access GatewayError StoreWorld α

def stateOf (log : EventLog) : Except EventError ProjectState := do
  rebuildState (← Events.events log.rows)

-- == steps

/-- `store.verify_chain()`. -/
def verifyStep (H : Host) : GProg Bool :=
  .block .verify fun w => ((verifyChain H w.log.rows).mapError .py, w)

def countStep : GProg Nat := .block .count fun w => (.ok w.log.rows.length, w)

def rebuildStep : GProg ProjectState :=
  .block .rebuild fun w => ((stateOf w.log).mapError .event, w)

def appendStep (H : Host) (r : NewEvent) : GProg Events.Event :=
  .block (.append r) fun w =>
    ((appendEvent H r w).1.mapError .event, (appendEvent H r w).2)

-- == calls

def saysStr (value : Option Json) (s : PyStr) : Bool :=
  decide (value.bind Json.str? = some s)

/-- The source is there with the same content, or it is appended. -/
def recordSource (H : Host) (p : Prepared) : GProg Unit := do
  let state ← rebuildStep
  match state.sources.get? p.requestId with
  | some source =>
    if saysStr (source.get? (py "request_sha256")) p.digest.str then pure ()
    else throw .conflict
  | none => do
    let _ ← appendStep H p.sourceEvent
    pure ()

/-- The task is there with the same content, or it is appended. -/
def recordTask (H : Host) (p : Prepared) : GProg Unit := do
  let state ← rebuildStep
  match state.tasks.get? p.taskId with
  | some task =>
    if saysStr (task.get? (py "request_sha256")) p.digest.str
        && saysStr (task.get? (py "source_id")) p.requestId then pure ()
    else throw .conflict
  | none => do
    let _ ← appendStep H p.taskEvent
    pure ()

def confirm (p : Prepared) : GProg Unit := do
  let state ← rebuildStep
  if p.taskId ∈ deriveReadyTasks state then pure ()
  else match state.tasks.get? p.taskId with
    | none => throw (.py (.keyError p.taskId))
    | some task =>
      if task.status.isInFlight || task.status.isTerminal then pure ()
      else throw (.py (.runtimeError "task is unexpectedly not ready"))

structure AdapterIngestResult where
  adapterId : PyStr
  externalId : PyStr
  requestId : PyStr
  taskId : PyStr
  requestSha256 : Text
  duplicate : Bool
  eventsAppended : Int

def ingest (H : Host) (c : Call) : GProg AdapterIngestResult := do
  if ← verifyStep H then do
    let p ← Prog.ofExcept ((prepare H c.1 c.2).mapError .py)
    let start ← countStep
    recordSource H p
    recordTask H p
    confirm p
    let now ← countStep
    let later ← countStep
    pure ⟨p.body.adapterId, p.body.externalId, p.requestId, p.taskId, p.digest,
      decide (now = start), later - start⟩
  else throw (.py (.valueError "refusing adapter ingestion because the event chain is invalid"))

-- == gateways

abbrev Procs := Pool Access GatewayError StoreWorld AdapterIngestResult Unit

abbrev Step :=
  Machine.Entry (Sched Call) (Steps.Event Access GatewayError AdapterIngestResult Unit) Procs

def step (H : Host) : Sched Call → Procs →
    Steps.Event Access GatewayError AdapterIngestResult Unit × Procs :=
  Pool.step (fun _ c => ingest H c) (fun _ _ _ => ()) (fun _ _ _ _ => ()) fun _ w => w

def runOf (H : Host) (w : StoreWorld) (sched : List (Sched Call)) : Procs :=
  Machine.exec (step H) sched (Pool.idle w)

def traceOf (H : Host) (w : StoreWorld) (sched : List (Sched Call)) : List Step :=
  Machine.trace (step H) sched (Pool.idle w)

end Centinal26.Gateway
