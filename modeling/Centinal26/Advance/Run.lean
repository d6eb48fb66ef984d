/-
Which tasks an advance run may start.
-/
import Centinal26.Events.Writer
import Centinal26.Pipeline.Engine

namespace Centinal26.Advance

open Py Events
open Pipeline (AutomatedEngine CapabilitySpec Intent)

-- == modes

/-- `VALID_AUTHORIZATION_MODES`. -/
inductive Mode : Type
  | autoSafe
  | explicit
  | effectProtocol
deriving DecidableEq

namespace Mode

def value : Mode → String
  | autoSafe => "AUTO_SAFE"
  | explicit => "EXPLICIT"
  | effectProtocol => "EFFECT_PROTOCOL"

def ofName? (name : PyStr) : Option Mode :=
  [autoSafe, explicit, effectProtocol].find? fun m => decide (py m.value = name)

end Mode

/-- `DEFAULT_AUTHORIZATION_MODES.get(capability, EXPLICIT)`. -/
def defaultMode (capability : PyStr) : PyStr :=
  if capability = py "system.echo" then py "AUTO_SAFE" else py "EXPLICIT"

/-- The arguments of `advance_until_idle`. -/
structure Settings where
  authorize : Bool
  maxTasks : Int
  authorizationModes : Option (Dict PyStr PyStr)

def configuredMode (S : Settings) (capability : PyStr) : PyStr :=
  ((S.authorizationModes.getD .empty).get? capability).getD (defaultMode capability)

def authorizationMode (S : Settings) (capability : PyStr) (task : Task) : Except PyErr Mode :=
  match Mode.ofName? (configuredMode S capability) with
  | none => .error (.valueError "invalid authorization mode")
  | some mode =>
    if ((task.get? (py "authority")).bind Json.str? = some (py "authorization_required")
        && decide (mode = .autoSafe)) then .ok .explicit
    else .ok mode

/-- The check of `authorization_modes` itself. -/
def validModes (S : Settings) : Except PyErr Unit :=
  match S.authorizationModes with
  | none => .ok ()
  | some modes => modes.items.foldlM (fun _ m =>
    if (isBlank m.1) then .error (.valueError "capability name may not be empty")
    else if (Mode.ofName? m.2).isNone then
      .error (.valueError "invalid authorization mode")
    else .ok ()) ()

-- == blockers

/-- The reasons a ready task is not started for. -/
inductive Reason : Type
  | noCapability
  | verifierNotIndependent
  | effectProtocolRequired
  | approvalRequired
  | invalidTaskInput
deriving DecidableEq

def Reason.value : Reason → String
  | noCapability => "NO_CAPABILITY"
  | verifierNotIndependent => "VERIFIER_NOT_INDEPENDENT"
  | effectProtocolRequired => "EFFECT_PROTOCOL_REQUIRED"
  | approvalRequired => "APPROVAL_REQUIRED"
  | invalidTaskInput => "INVALID_TASK_INPUT"

/-- Where the authority to start a task comes from. -/
inductive Source : Type
  | explicitInvocation
  | capabilityPolicy
deriving DecidableEq

def Source.value : Source → String
  | explicitInvocation => "explicit_advance_invocation"
  | capabilityPolicy => "capability_policy_auto_safe"

def taskPayload (task : Task) : Except PyErr PyVal :=
  match (task.get? (py "input")).or (task.get? (py "payload")) with
  | none => .ok (.dict [])
  | some .null => .ok (.dict [])
  | some (.obj members) => .ok (loads (.obj members))
  | some _ => .error .typeError

/-- A task that can be started, or why it is not, with the detail that is
recorded. -/
inductive Gate : Type
  | runnable (source : Source)
  | blocked (reason : Reason) (detail : PyStr)

def gate (E : AutomatedEngine) (S : Settings) (task : Task) : Except PyErr Gate :=
  match (task.get? (py "capability")).bind Json.str? with
  | none | some [] =>
    .ok (.blocked .noCapability (py "task has no registered capability name"))
  | some capability =>
    match E.capabilities capability with
    | none => .ok (.blocked .noCapability (py "capability is not registered: " ++ capability))
    | some spec =>
      if !spec.verifierIndependent then
        .ok (.blocked .verifierNotIndependent
          (py "capability lacks independent verification: " ++ capability))
      else do
        let mode ← authorizationMode S capability task
        if mode = .effectProtocol then
          .ok (.blocked .effectProtocolRequired (py
            "external-effect capability must use the frost-effect protocol"))
        else if !S.authorize && decide (mode ≠ .autoSafe) then
          .ok (.blocked .approvalRequired (py
            "capability policy or task provenance requires explicit authorization"))
        else
          match taskPayload task with
          | .error _ => .ok (.blocked .invalidTaskInput (py "task input/payload must be an object"))
          | .ok _ => .ok (.runnable
              (if S.authorize then .explicitInvocation else .capabilityPolicy))

end Centinal26.Advance

/-
`advance_until_idle`, one step after the other.

An advance run works on two stores: the event log, and the database of the
runtime. It rebuilds the state before every task, records what keeps the other
ready tasks from being started, and runs the first one it may start to its end:
the events say what the runtime has done.

# Loops

A run starts at most `max_tasks` tasks, and is by recursion on those left. How
often the runtime is asked to go on with one job is bounded by `fuel`; a run that
needs more is cut there.
-/

namespace Centinal26.Advance

open Py Steps Events
open Pipeline (AutomatedEngine CapabilitySpec Intent EngineError RProg JobRow JobState)
open Core (Grant)

/-- The event log and the runtime's surroundings. -/
structure World where
  store : StoreWorld
  runtime : Pipeline.World

/-- What a run raises. -/
inductive AdvanceError : Type
  | event (e : EventError)
  | engine (e : EngineError)
  /-- the run was cut -/
  | outOfFuel

def AdvanceError.py (e : PyErr) : AdvanceError := .event (.py e)

/-- The steps of a run: on the log, and on the runtime, for a key when a job is
submitted. -/
inductive Access : Type
  | verify
  | rebuild
  | append (r : NewEvent)
  | runtime (key : Option PyStr) (a : Pipeline.Access)

abbrev AProg (α : Type) := Prog Access AdvanceError World α

/-- The machines under the two stores. -/
structure Hosts where
  store : Host
  runtime : Host

variable (H : Hosts) (E : AutomatedEngine) (S : Settings)

-- == steps

def stateOf (log : EventLog) : Except EventError ProjectState := do
  rebuildState (← Events.events log.rows)

/-- `store.verify_chain()`. -/
def verifyStep : AProg Bool :=
  .block .verify fun w =>
    ((verifyChain H.store w.store.log.rows).mapError .py, w)

def rebuildStep : AProg ProjectState :=
  .block .rebuild fun w => ((stateOf w.store.log).mapError .event, w)

def appendStep (r : NewEvent) : AProg Unit :=
  .block (.append r) fun w =>
    (((appendEvent H.store r w.store).1.map fun _ => ()).mapError .event,
      { w with store := (appendEvent H.store r w.store).2 })

def runtimePart {α : Type} (key : Option PyStr) (p : RProg α) : AProg α :=
  p.within (.runtime key) .engine World.runtime fun r w => { w with runtime := r }

def raisePy {α : Type} (r : Except PyErr α) : AProg α :=
  Prog.ofExcept (r.mapError .py)

-- == one task

def taskEvent (type : EventType) (taskId : PyStr) (fields : List (PyKey × PyVal)) : NewEvent :=
  ⟨type, .dict (item "task_id" (.str taskId) :: fields), some taskId⟩

def newGrant (capability : PyStr) : RProg Grant :=
  Prog.block .outside do
    let id ← Pipeline.drawUuid H.runtime
    let now ← Pipeline.readClock H.runtime
    let expires ← Pipeline.liftPy (addSeconds now 600)
    pure ⟨id.str, capability, ⟨(H.runtime.isoformat expires).str, some (.aware expires)⟩⟩

def deterministicIntent (taskId capability : PyStr) (payload : PyVal) : Intent :=
  ⟨capability, payload, py "event-state-advance",
    .dict [item "task_id" (.str taskId)], taskId, py "1970-01-01T00:00:00+00:00"⟩

def taskKey (taskId : PyStr) : PyStr := py "event-task:" ++ taskId

def jobRow (jobId : Text) : RProg JobRow :=
  Prog.block .read do
    let found ← Pipeline.select E.me fun db => db.job? jobId
    match found with
    | some row => pure row
    | none => throw (.py (.runtimeError "advance job disappeared"))

/-- The loop of `_run_task`. -/
def drive (jobId : Text) : Nat → AProg JobRow
  | 0 => throw .outOfFuel
  | fuel + 1 => do
    let row ← runtimePart none (jobRow E jobId)
    if row.state.isTerminal then pure row
    else do
      let executed ← runtimePart none (Pipeline.runOnce H.runtime E false)
      match executed with
      | none => throw (.py (.runtimeError "advance runtime could not execute queued task"))
      | some id =>
        if id ≠ jobId then
          throw (.py (.runtimeError "advance runtime executed an unrelated queued job"))
        else drive jobId fuel

/-- What the events say of the job's end. -/
def endFields (jobId : Text) (row : JobRow) : Except PyErr (List (PyKey × PyVal)) := do
  let digest ← match row.result with
    | none => .ok PyVal.none
    | some v => do .ok (← canonicalSha256 H.runtime v).val
  .ok [item "job_id" jobId.val, item "runtime_state" (.str (py row.state.value)),
    item "result_sha256" digest,
    item "evidence_path" (match row.evidencePath with
      | some path => .str path.str
      | none => .none)]

/-- The events that end a task: whether it is complete. -/
def endTask (taskId : PyStr) (state : JobState) (fields : List (PyKey × PyVal)) : AProg Bool :=
  match state with
  | .verified => do
    appendStep H (taskEvent .taskExecuted taskId fields)
    appendStep H (taskEvent .verificationPassed taskId
      (fields ++ [item "verifier_independent" (.bool true)]))
    appendStep H (taskEvent .taskCompleted taskId fields)
    pure true
  | .failedVerification => do
    appendStep H (taskEvent .taskExecuted taskId fields)
    appendStep H (taskEvent .verificationFailed taskId fields)
    pure false
  | _ => do
    appendStep H (taskEvent .taskFailed taskId fields)
    pure false

def runTask (fuel : Nat) (taskId capability : PyStr) (task : Task) (source : Source) :
    AProg Bool := do
  let payload ← raisePy (taskPayload task)
  let grant ← runtimePart none (newGrant H capability)
  let intent := deterministicIntent taskId capability payload
  if task.status ≠ .ready then
    appendStep H (taskEvent .taskReady taskId [item "capability" (.str capability)])
  appendStep H (taskEvent .taskAuthorized taskId
    [item "capability" (.str capability), item "grant_id" (.str grant.grantId),
      item "expires_at" (.str grant.expiresAt.raw),
      item "authorization_source" (.str (py source.value))])
  let jobId ← runtimePart (some (taskKey taskId))
    (Pipeline.engineSubmit H.runtime E intent grant (some (taskKey taskId)))
  appendStep H (taskEvent .taskStarted taskId
    [item "job_id" jobId.val, item "capability" (.str capability)])
  let row ← drive H E jobId fuel
  let fields ← raisePy (endFields H jobId row)
  endTask H taskId row.state fields

-- == the run

structure AdvanceReport where
  executed : List PyStr
  completed : List PyStr
  failed : List PyStr
  blocked : List (PyStr × Reason)
  stopReason : String
  remainingReady : List PyStr

def blockerIdOf (taskId : PyStr) (reason : Reason) : Except PyErr PyStr := do
  let text ← encode (taskId ++ [0] ++ py reason.value)
  .ok (py "blocker:" ++ (H.store.sha256 text).str.take 24)

def recordBlockerOnce (state : ProjectState) (taskId : PyStr) (reason : Reason)
    (detail : PyStr) : AProg Unit := do
  let blockerId ← raisePy (blockerIdOf H taskId reason)
  if state.blockers.contains blockerId then pure ()
  else appendStep H ⟨.blockerRecorded, .dict [item "blocker_id" (.str blockerId),
    item "task_id" (.str taskId), item "reason" (.str (py reason.value)),
    item "detail" (.str detail)], some blockerId⟩

/-- The ready tasks, each through the gates: what may be started, and what may
not. -/
def survey (state : ProjectState) :
    List PyStr → AProg (List (PyStr × Source) × List (PyStr × Reason))
  | [] => pure ([], [])
  | taskId :: rest => do
    match state.tasks.get? taskId with
    | none => throw (.py (.keyError taskId))
    | some task =>
      match ← raisePy (gate E S task) with
      | .blocked reason detail => do
        recordBlockerOnce H state taskId reason detail
        let (runnable, blockers) ← survey state rest
        pure (runnable, (taskId, reason) :: blockers)
      | .runnable source => do
        let (runnable, blockers) ← survey state rest
        pure ((taskId, source) :: runnable, blockers)

def capabilityOf (task : Task) : PyStr :=
  ((task.get? (py "capability")).bind Json.str?).getD []

def addBlocked (report : AdvanceReport) (blockers : List (PyStr × Reason)) : AdvanceReport :=
  { report with blocked := blockers.foldl (fun d m => setItem d m.1 m.2) report.blocked }

def addExecuted (report : AdvanceReport) (taskId : PyStr) (ok : Bool) : AdvanceReport :=
  { report with
    executed := report.executed ++ [taskId]
    completed := if ok then report.completed ++ [taskId] else report.completed
    failed := if ok then report.failed else report.failed ++ [taskId] }

/-- The loop of `advance_until_idle`, on the tasks that may still be started. -/
def advanceLoop (fuel : Nat) : Nat → AdvanceReport → AProg AdvanceReport
  | 0, report => pure report
  | left + 1, report => do
    let state ← rebuildStep
    let (runnable, blockers) ← survey H E S state (deriveReadyTasks state)
    match runnable with
    | [] => pure (addBlocked report blockers)
    | (taskId, source) :: _ => do
      let state ← rebuildStep
      match state.tasks.get? taskId with
      | none => throw (.py (.keyError taskId))
      | some task => do
        let ok ← runTask H E fuel taskId (capabilityOf task) task source
        advanceLoop fuel left (addExecuted (addBlocked report blockers) taskId ok)

def stopReason (S : Settings) (state : ProjectState) (report : AdvanceReport) : String :=
  let ready := deriveReadyTasks state
  let reasons := ready.filterMap fun id => getItem? report.blocked id
  if S.maxTasks ≤ report.executed.length && !ready.isEmpty then "RESOURCE_LIMIT"
  else if !ready.isEmpty then
    if reasons.isEmpty then "BLOCKED"
    else if reasons.all fun r => decide (r = .approvalRequired) then "APPROVAL_REQUIRED"
    else if reasons.all fun r => decide (r = .effectProtocolRequired) then
      "EFFECT_PROTOCOL_REQUIRED"
    else if reasons.all fun r =>
        decide (r = .noCapability ∨ r = .verifierNotIndependent) then "NO_CAPABILITY"
    else "BLOCKED"
  else if state.tasks.items.any fun m => !m.2.status.isTerminal then "DEPENDENCY_BLOCKED"
  else "COMPLETE"

def advanceUntilIdle (fuel : Nat) : AProg AdvanceReport := do
  if S.maxTasks < 1 then throw (.py (.valueError "max_tasks must be positive"))
  else if ← verifyStep H then do
    raisePy (validModes S)
    let report ← advanceLoop H E S fuel S.maxTasks.toNat ⟨[], [], [], [], "IDLE", []⟩
    let state ← rebuildStep
    pure { report with
      remainingReady := deriveReadyTasks state
      stopReason := stopReason S state report }
  else throw (.py (.valueError "refusing advance because the event chain is invalid"))

end Centinal26.Advance
