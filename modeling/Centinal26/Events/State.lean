/-
`ProjectState`: what a log of events is reduced to.
-/
import Centinal26.Events.Store
import Centinal26.Lib.Replay
import Centinal26.Py.Dict
import Mathlib.Data.List.Sort

namespace Centinal26.Events

open Py

-- == tasks

/-- The values of `TASK_EVENT_STATUS`, and `DISCOVERED`. -/
inductive TaskStatus : Type
  | discovered
  | ready
  | authorized
  | running
  | executed
  | verified
  | verificationFailed
  | complete
  | failed
deriving DecidableEq

namespace TaskStatus

def value : TaskStatus → String
  | discovered => "DISCOVERED"
  | ready => "READY"
  | authorized => "AUTHORIZED"
  | running => "RUNNING"
  | executed => "EXECUTED"
  | verified => "VERIFIED"
  | verificationFailed => "VERIFICATION_FAILED"
  | complete => "COMPLETE"
  | failed => "FAILED"

def isTerminal : TaskStatus → Bool
  | complete => true
  | failed => true
  | verificationFailed => true
  | _ => false

/-- The states `derive_ready_tasks` leaves alone besides the terminal ones. -/
def isInFlight : TaskStatus → Bool
  | authorized => true
  | running => true
  | executed => true
  | verified => true
  | _ => false

end TaskStatus

def EventType.status? : EventType → Option TaskStatus
  | .taskReady => some .ready
  | .taskAuthorized => some .authorized
  | .taskStarted => some .running
  | .taskExecuted => some .executed
  | .verificationPassed => some .verified
  | .verificationFailed => some .verificationFailed
  | .taskCompleted => some .complete
  | .taskFailed => some .failed
  | _ => none

structure Task where
  payload : Fields
  status : TaskStatus
  dependencies : List PyStr
  lastEvent : Option Fields

def Task.get? (t : Task) (key : PyStr) : Option Json :=
  if key = py "status" then some (.str (py t.status.value))
  else if key = py "dependencies" then some (.arr (t.dependencies.map .str))
  else if key = py "last_event" then
    (t.lastEvent.map fun d => d.doc.json).or (t.payload.get? key)
  else t.payload.get? key

-- == state

structure ProjectState where
  sources : Dict PyStr Fields
  goals : Dict PyStr Fields
  tasks : Dict PyStr Task
  artifacts : Dict PyStr Fields
  decisions : Dict PyStr Fields
  blockers : Dict PyStr Fields
  lastSeq : Int
  lastHash : Text

namespace ProjectState

def empty : ProjectState :=
  ⟨.empty, .empty, .empty, .empty, .empty, .empty, 0, genesis⟩

def setTask (s : ProjectState) (id : PyStr) (t : Task) : ProjectState :=
  { s with tasks := s.tasks.set id t }

end ProjectState

def entityId (e : Event) (payloadKey : String) : Except EventError PyStr :=
  let candidate := match e.entityId with
    | some id => some id.str
    | none => (e.payload.get? (py payloadKey)).bind Json.str?
  match candidate with
  | some (c :: cs) => .ok (c :: cs)
  | _ => .error (.stateTransition (e.type.str ++ py " requires an entity id"))

def unknownTask (id : PyStr) : EventError :=
  .stateTransition (py "unknown task: " ++ id)

/-- `sorted(set(dependencies) | {dependency})`. -/
def addDependency (dependencies : List PyStr) (id : PyStr) : List PyStr :=
  (if id ∈ dependencies then dependencies else id :: dependencies).insertionSort fun s t => s ≤ t

/-- `payload.get("task_id") or entity_id`, if it is a string. -/
def dependentId (e : Event) : Option PyStr :=
  match e.payload.get? (py "task_id") with
  | none => e.entityId.map Text.str
  | some v => if v.truthy then v.str? else e.entityId.map Text.str

def createTask (s : ProjectState) (e : Event) : Except EventError ProjectState := do
  let id ← entityId e "task_id"
  match s.tasks.get? id with
  | some _ => .error (.stateTransition (py "task already exists: " ++ id))
  | none => .ok (s.setTask id ⟨e.payload, .discovered, [], none⟩)

def dependTask (s : ProjectState) (e : Event) : Except EventError ProjectState :=
  match dependentId e, (e.payload.get? (py "depends_on")).bind Json.str? with
  | some id, some dependency =>
    match s.tasks.get? id with
    | none => .error (unknownTask id)
    | some t => .ok (s.setTask id
        { t with dependencies := addDependency t.dependencies dependency })
  | _, _ => .error (.stateTransition (py "DEPENDENCY_ADDED requires task_id and depends_on"))

def moveTask (s : ProjectState) (e : Event) (status : TaskStatus) :
    Except EventError ProjectState := do
  let id ← entityId e "task_id"
  match s.tasks.get? id with
  | none => .error (unknownTask id)
  | some t => .ok (s.setTask id { t with
      status := status
      lastEvent := if e.payload.members.isEmpty then t.lastEvent
        else some e.payload })

def reduceType (s : ProjectState) (e : Event) : EventType → Except EventError ProjectState
  | .sourceIngested => do
    let id ← entityId e "source_id"
    .ok { s with sources := s.sources.set id e.payload }
  | .goalDiscovered => do
    let id ← entityId e "goal_id"
    .ok { s with goals := s.goals.set id e.payload }
  | .taskCreated => createTask s e
  | .dependencyAdded => dependTask s e
  | .artifactCreated => do
    let id ← entityId e "artifact_id"
    .ok { s with artifacts := s.artifacts.set id e.payload }
  | .decisionRecorded => do
    let id ← entityId e "decision_id"
    .ok { s with decisions := s.decisions.set id e.payload }
  | .blockerRecorded => do
    let id ← entityId e "blocker_id"
    .ok { s with blockers := s.blockers.set id e.payload }
  | type =>
    match type.status? with
    | some status => moveTask s e status
    | none =>
      .error (.stateTransition (py "unhandled event type: " ++ e.type.str))

def reduceEvent (s : ProjectState) (e : Event) : Except EventError ProjectState :=
  if e.seq ≤ s.lastSeq then
    .error (.stateTransition (py "events must be reduced in strictly increasing sequence order"))
  else if e.prevHash ≠ s.lastHash then
    .error (.stateTransition (py "event hash linkage does not match reducer state"))
  else
    match EventType.ofName? e.type.str with
    | none =>
      .error (.stateTransition (py "unhandled event type: " ++ e.type.str))
    | some type => do
      let s ← reduceType s e type
      .ok { s with lastSeq := e.seq, lastHash := e.eventHash }

def rebuildState (es : List Event) : Except EventError ProjectState :=
  Replay.replay reduceEvent .empty es

def isReady (s : ProjectState) (t : Task) : Bool :=
  !t.status.isTerminal && !t.status.isInFlight && t.dependencies.all fun d =>
      ((s.tasks.get? d).map Task.status) == some .complete

def deriveReadyTasks (s : ProjectState) : List PyStr :=
  ((s.tasks.items.filter fun m => isReady s m.2).map Prod.fst).insertionSort fun s t => s ≤ t

end Centinal26.Events
