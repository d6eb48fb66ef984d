/-
`ingest_bytes`: a source becomes events.
-/
import Centinal26.Events.Writer
import Centinal26.Ingest.Extract
import Centinal26.Lib.Plan

namespace Centinal26.Ingest

open Py Steps Events

-- == kinds

def kinds : List (String × EventType × String) :=
  [("goal", .goalDiscovered, "goal_id"), ("task", .taskCreated, "task_id"),
    ("decision", .decisionRecorded, "decision_id"),
    ("blocker", .blockerRecorded, "blocker_id"),
    ("artifact", .artifactCreated, "artifact_id")]

def kindOf? (kind : PyStr) : Option (EventType × PyStr) :=
  (kinds.find? fun k => decide (py k.1 = kind)).map fun k => (k.2.1, py k.2.2)

-- == validation

/-- The records of `_validate_plan`: the tasks' identifiers, if all authors'
identifiers are distinct. -/
def validateRecords (digest : PyStr) : List (PyStr × PyStr) → Dict PyStr PyStr →
    List PendingRecord → Except PyErr (Dict PyStr PyStr)
  | _, taskIds, [] => .ok taskIds
  | seen, taskIds, r :: rest =>
    if (r.kind, r.externalId) ∈ seen then .error (.valueError "duplicate id")
    else validateRecords digest ((r.kind, r.externalId) :: seen) (if r.kind = py "task" then
        taskIds.set r.externalId (entityId (py "task") digest r.externalId)
      else taskIds) rest

def validatePlan (records : List PendingRecord) (dependencies : List Dependency)
    (digest : PyStr) : Except PyErr (Dict PyStr PyStr) := do
  let taskIds ← validateRecords digest [] .empty records
  if dependencies.all fun d => taskIds.contains d.1 then .ok taskIds
  else .error (.valueError "dependency references unknown task id")

-- == events

/-- A dictionary of JSON values, as `append` gets it. -/
def payloadOf (members : List (PyStr × Json)) : PyVal := loads (.obj members)

def sourceEvent (digest sourceId : PyStr) (size : Nat) (name : PyStr)
    (path : Option PyStr) (mediaType : PyStr) : NewEvent :=
  ⟨.sourceIngested, payloadOf [(py "source_id", .str sourceId),
    (py "sha256", .str digest), (py "bytes", .int size), (py "name", .str name),
    (py "path", optJson path), (py "media_type", .str mediaType)],
    some sourceId⟩

/-- `payload.setdefault("objective", text)` and `payload.pop("depends_on")`. -/
def taskPayload (text : PyStr) (payload : List (PyStr × Json)) : List (PyStr × Json) :=
  let payload := match getItem? payload (py "objective") with
    | some _ => payload
    | none => setItem payload (py "objective") (.str text)
  payload.filter fun m => decide (m.1 ≠ py "depends_on")

def recordEvent (digest sourceId : PyStr) (r : PendingRecord) : Except PyErr NewEvent :=
  let internalId := entityId r.kind digest r.externalId
  match kindOf? r.kind with
  | none => .error (.keyError r.kind)
  | some (type, idKey) =>
    let payload := dictOf ([(idKey, .str internalId),
      (py "source_id", .str sourceId), (py "external_id", .str r.externalId),
      (py "text", .str r.text)] ++ r.payload)
    let payload := if r.kind = py "task" then taskPayload r.text payload
      else payload
    .ok ⟨type, payloadOf payload, some internalId⟩

def dependencyEvent (digest sourceId : PyStr) (taskIds : Dict PyStr PyStr)
    (d : Dependency) : Except PyErr NewEvent :=
  match taskIds.get? d.1 with
  | none => .error (.keyError d.1)
  | some taskId =>
    let dependencyId := (taskIds.get? d.2).getD
      (entityId (py "task") digest d.2)
    .ok ⟨.dependencyAdded, payloadOf [(py "task_id", .str taskId),
      (py "depends_on", .str dependencyId), (py "source_id", .str sourceId),
      (py "external_task_id", .str d.1),
      (py "external_dependency_id", .str d.2)], some taskId⟩

-- == calls

def existingState (H : Host) (log : EventLog) : Except EventError ProjectState := do
  if ← Events.liftPy (verifyChain H log.rows) then do
    rebuildState (← events log.rows)
  else .error (.py (.valueError "refusing ingestion because the event chain is invalid"))

structure IngestResult where
  sourceId : PyStr
  sha256 : Text
  duplicate : Bool
  eventsAppended : Nat
  extracted : List (PyStr × Nat)

/-- Append the events in turn, and count them by kind. -/
def appendEach (H : Host) : List (PyStr × Except PyErr NewEvent) →
    List (PyStr × Nat) → Block EventError StoreWorld (List (PyStr × Nat))
  | [], counts => pure counts
  | (_, .error e) :: _, _ => throw (.py e)
  | (kind, .ok r) :: rest, counts => do
    let _ ← appendEvent H r
    appendEach H rest (setItem counts kind ((getItem? counts kind).getD 0 + 1))

/-- The events of the records and the dependencies, with their kinds. -/
def recordEvents (digest sourceId : PyStr) (records : List PendingRecord) :
    List (PyStr × Except PyErr NewEvent) :=
  records.map fun r => (r.kind, recordEvent digest sourceId r)

def dependencyEvents (digest sourceId : PyStr) (taskIds : Dict PyStr PyStr)
    (dependencies : List Dependency) : List (PyStr × Except PyErr NewEvent) :=
  dependencies.map fun d =>
    (py "dependency", dependencyEvent digest sourceId taskIds d)

def sourceIdFor (F : Formats) (content : List UInt8) : PyStr :=
  py "source:" ++ (F.sha256 content).str

/-- The arguments of a call. -/
structure Source where
  content : List UInt8
  name : PyStr
  path : Option PyStr
  maxBytes : Int

/-- What the checks of a call have read. -/
structure Prepared where
  records : List PendingRecord
  dependencies : List Dependency
  mediaType : PyStr
  taskIds : Dict PyStr PyStr

/-- The checks of `ingest_bytes`: a result, if the source is there already. -/
def prepare (H : Host) (F : Formats) (src : Source) (log : EventLog) :
    Except EventError (IngestResult ⊕ Prepared) := do
  if src.maxBytes < src.content.length then
    .error (.py (.valueError "source exceeds max_bytes"))
  else
    let digest := F.sha256 src.content
    let sourceId := sourceIdFor F src.content
    let state ← existingState H log
    if state.sources.contains sourceId then
      .ok (.inl ⟨sourceId, digest, true, 0, []⟩)
    else
      let (records, dependencies, mediaType) ←
        Events.liftPy (extract F src.content src.name)
      let taskIds ← Events.liftPy (validatePlan records dependencies digest.str)
      .ok (.inr ⟨records, dependencies, mediaType, taskIds⟩)

/-- The writes of `ingest_bytes`. -/
def commit (H : Host) (F : Formats) (src : Source) (p : Prepared) :
    Block EventError StoreWorld IngestResult := do
  let digest := F.sha256 src.content
  let sourceId := sourceIdFor F src.content
  let start ← fun w => (.ok w.log.rows.length, w)
  let _ ← appendEvent H (sourceEvent digest.str sourceId src.content.length
    src.name src.path p.mediaType)
  let counts ← appendEach H (recordEvents digest.str sourceId p.records) []
  let counts ← appendEach H
    (dependencyEvents digest.str sourceId p.taskIds p.dependencies) counts
  let stop ← fun w => (.ok w.log.rows.length, w)
  pure ⟨sourceId, digest, false, stop - start, counts⟩

def ingestBytes (H : Host) (F : Formats) (src : Source) :
    Block EventError StoreWorld IngestResult := fun w =>
  match prepare H F src w.log with
  | .error e => (.error e, w)
  | .ok (.inl result) => (.ok result, w)
  | .ok (.inr p) => commit H F src p w

-- == plan

/-- The events `commit` is going to append. -/
def Prepared.events (p : Prepared) (F : Formats) (src : Source) : List (Except PyErr NewEvent) :=
  let digest := (F.sha256 src.content).str
  let sourceId := sourceIdFor F src.content
  .ok (sourceEvent digest sourceId src.content.length src.name src.path p.mediaType)
    :: ((recordEvents digest sourceId p.records).map Prod.snd
      ++ (dependencyEvents digest sourceId p.taskIds p.dependencies).map Prod.snd)

/-- The events a call is going to append. -/
def plan (H : Host) (F : Formats) (src : Source) (log : EventLog) : List (Except PyErr NewEvent) :=
  match prepare H F src log with
  | .ok (.inr p) => p.events F src
  | _ => []

/-- The events of its plan a call appends: all up to the first that cannot be
made or is refused. -/
def taken (H : Host) (F : Formats) (src : Source) (w : StoreWorld) : List NewEvent :=
  Plan.taken (appendEvent H) (accepted H) w (plan H F src w.log)

end Centinal26.Ingest

/-
A call of `ingest_bytes` performs its plan: it appends the events of the plan
in turn, up to the first that cannot be made or is refused, and returns if and
only if none is.
-/

namespace Centinal26.Ingest

open Py Steps Events Plan

variable {H : Host} {F : Formats}

abbrev afterAll (H : Host) (w : StoreWorld) (rs : List NewEvent) : StoreWorld :=
  Plan.after (appendEvent H) w rs

theorem appends_lawful (H : Host) : Lawful (appendEvent H) (accepted H) StoreWorld.log where
  accepts w r h := by
    obtain ⟨fields, e, log, -, -, hrun⟩ := appendEvent_accepted h
    exact ⟨e, _, hrun⟩
  refuses w r h := by
    obtain ⟨err, w', hrun, hlog⟩ := appendEvent_refused h
    exact ⟨err, w', hrun, hlog⟩

abbrev Appends (H : Host) {α : Type} (m : Block EventError StoreWorld α)
    (w : StoreWorld) (ps : List (Except PyErr NewEvent)) : Prop :=
  Runs (appendEvent H) (accepted H) StoreWorld.log m w ps

theorem appendEach_appends (ps : List (PyStr × Except PyErr NewEvent))
    (counts : List (PyStr × Nat)) (w : StoreWorld) :
    Appends H (appendEach H ps counts) w (ps.map Prod.snd) := by
  induction ps generalizing counts w with
  | nil => exact Runs.pure w counts
  | cons p ps ih =>
    obtain ⟨kind, p⟩ := p
    cases p with
    | error e => exact Runs.throw w (EventError.py e) e (ps.map Prod.snd)
    | ok r =>
      exact Runs.bind (p := [.ok r]) (Runs.one (appends_lawful H) w r) fun _ => ih _ _

theorem commit_appends (src : Source) (p : Prepared) (w : StoreWorld) :
    Appends H (commit H F src p) w (p.events F src) := by
  refine Runs.bind (p := []) (Runs.read rfl) fun start => ?_
  refine Runs.bind (p := [.ok _]) (Runs.one (appends_lawful H) w _) fun _ => ?_
  refine Runs.bind (appendEach_appends _ [] _) fun counts => ?_
  rw [← List.append_nil (List.map Prod.snd (dependencyEvents _ _ _ _))]
  refine Runs.bind (appendEach_appends _ counts _) fun counts => ?_
  exact Runs.bind (p := []) (Runs.read rfl) fun stop => Runs.pure _ _

theorem ingestBytes_log (src : Source) (w : StoreWorld) :
    (ingestBytes H F src w).2.log = (afterAll H w (taken H F src w)).log := by
  unfold ingestBytes taken plan
  cases prepare H F src w.log with
  | error e => rfl
  | ok r =>
    cases r with
    | inl result => rfl
    | inr p =>
      have hruns := commit_appends (H := H) (F := F) src p w
      by_cases hwhole : (Plan.taken (appendEvent H) (accepted H) w
          (p.events F src)).length = (p.events F src).length
      · obtain ⟨result, hrun⟩ := hruns.whole hwhole
        simp only [hrun]
      · obtain ⟨e, w', hrun, hlog⟩ := hruns.part hwhole
        simp only [hrun]
        exact hlog

theorem ingestBytes_isOk {src : Source} {w : StoreWorld}
    (h : plan H F src w.log ≠ []) : (ingestBytes H F src w).1.isOk = true
      ↔ (taken H F src w).length = (plan H F src w.log).length := by
  revert h
  unfold ingestBytes taken plan
  cases prepare H F src w.log with
  | error e => exact fun h => absurd rfl h
  | ok r =>
    cases r with
    | inl result => exact fun h => absurd rfl h
    | inr p =>
      intro _
      have hruns := commit_appends (H := H) (F := F) src p w
      by_cases hwhole : (Plan.taken (appendEvent H) (accepted H) w
          (p.events F src)).length = (p.events F src).length
      · obtain ⟨result, hrun⟩ := hruns.whole hwhole
        simp only [hrun]
        exact ⟨fun _ => hwhole, fun _ => rfl⟩
      · obtain ⟨e, w', hrun, hlog⟩ := hruns.part hwhole
        simp only [hrun]
        exact ⟨nofun, fun h => absurd h hwhole⟩

theorem afterAll_length {w : StoreWorld} {rs : List NewEvent}
    (h : InTurn (appendEvent H) (accepted H) w rs) :
    (afterAll H w rs).log.rows.length = w.log.rows.length + rs.length := by
  induction rs generalizing w with
  | nil => rfl
  | cons r rs ih =>
    obtain ⟨fields, e, log, -, happended, hrun⟩ := appendEvent_accepted h.1
    have hlength := ih h.2
    show (afterAll H (appendEvent H r w).2 rs).log.rows.length = _
    rw [hlength, hrun, List.length_cons]
    show log.rows.length + _ = _
    rw [happended.rows, List.length_append, List.length_singleton]
    omega

end Centinal26.Ingest
