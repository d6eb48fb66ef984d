/-
The intelligence controller: what `observe` keeps of the changes it detects.
-/
import Centinal26.Lib.Machine
import Centinal26.Lib.Table
import Centinal26.Py.Host
import Centinal26.Py.Normal

namespace Centinal26.Intelligence

open Py

-- == words

/-- The keys of `SEVERITY_ORDER`. -/
inductive Severity : Type
  | info
  | low
  | medium
  | high
  | critical
deriving DecidableEq

namespace Severity

def value : Severity → String
  | info => "INFO"
  | low => "LOW"
  | medium => "MEDIUM"
  | high => "HIGH"
  | critical => "CRITICAL"

def order : Severity → Int
  | info => 10
  | low => 20
  | medium => 30
  | high => 40
  | critical => 50

def ofName? (name : PyStr) : Option Severity :=
  [info, low, medium, high, critical].find? fun s => decide (py s.value = name)

end Severity

inductive WorkStatus : Type
  | queued
  | running
  | complete
deriving DecidableEq

-- == tables

structure CadencePolicy where
  policyKey : String
  eventClass : String
  dispatchClass : String
  maxDelaySeconds : Int
  priority : Int
  requiresAi : Bool
  requiresMaterialChange : Bool
  enabled : Bool

def defaultPolicies : List CadencePolicy :=
  [⟨"critical-contradiction-immediate", "CRITICAL_CONTRADICTION", "IMMEDIATE", 0, 110,
      true, true, true⟩,
    ⟨"new-evidence-immediate", "NEW_EVIDENCE", "IMMEDIATE", 0, 105, true, true, true⟩,
    ⟨"state-change-immediate", "STATE_CHANGE", "IMMEDIATE", 0, 100, true, true, true⟩,
    ⟨"ordinary-review-batch", "ORDINARY_REVIEW", "BATCH_10M", 600, 50, true, false, true⟩,
    ⟨"deep-synthesis-hourly", "DEEP_SYNTHESIS", "HOURLY", 3600, 40, true, false, true⟩,
    ⟨"portfolio-review-daily", "PORTFOLIO_REVIEW", "DAILY", 86400, 30, true, false, true⟩,
    ⟨"full-corpus-audit-weekly", "FULL_CORPUS_AUDIT", "WEEKLY", 604800, 20, true, false, true⟩,
    ⟨"architecture-review-monthly", "ARCHITECTURE_REVIEW", "MONTHLY", 31 * 86400, 10,
      true, false, true⟩,
    ⟨"scientific-compatibility-daily", "SCIENTIFIC_COMPATIBILITY", "DAILY", 86400, 25,
      true, false, true⟩]

/-- A row of `source_snapshots`. -/
structure Snapshot where
  sourceKind : Text
  sourceKey : Text
  contentHash : Text
  payload : Json
  observedAt : Text

/-- `PRIMARY KEY(source_kind, source_key)`. -/
def Snapshot.source (s : Snapshot) : PyStr × PyStr := (s.sourceKind.str, s.sourceKey.str)

/-- A row of `change_events`; its `seq` is its place. -/
structure ChangeEvent where
  eventKey : Text
  detectedAt : Text
  sourceKind : Text
  sourceKey : Text
  changeType : Text
  severity : Severity
  dispatchClass : String
  dedupeKey : Text
  previousHash : Text
  currentHash : Text
  evidence : Json
  contradiction : Json
  prevEventHash : Text
  eventHash : Text

def ChangeEvent.source (e : ChangeEvent) : PyStr × PyStr :=
  (e.sourceKind.str, e.sourceKey.str)

structure WorkItem where
  workKey : Text
  createdAt : Instant
  dueAt : Instant
  kind : String
  dispatchClass : String
  priority : Int
  status : WorkStatus
  payload : Json
  sourceEventKey : Option Text
  claimedBy : Option Text
  leaseUntil : Option Instant
  completedAt : Option Instant
  result : Option Json

/-- A row of `event_processing`; its status is `PROCESSED`. -/
structure Processing where
  eventKey : Text
  processedAt : Instant
  result : Json

structure Db where
  policies : List CadencePolicy
  snapshots : Table Snapshot.source
  changeEvents : List ChangeEvent
  workItems : Table WorkItem.workKey
  processing : Table Processing.eventKey

def Db.seeded : Db := ⟨defaultPolicies, .empty, [], .empty, .empty⟩

-- == reads

def sha256Json (H : Host) (v : PyVal) : Except PyErr Text := do
  .ok (H.sha256 (← encode ((← dumpsStrict v).text .canonical)))

def canonicalColumn (v : PyVal) : Except PyErr Json := do
  let doc ← dumpsStrict v
  let _ ← encode (doc.text .canonical)
  .ok doc

namespace Db

def policy (db : Db) (eventClass : PyStr) : Except PyErr CadencePolicy :=
  match db.policies.find? fun p =>
      decide (py p.eventClass = eventClass) && p.enabled with
  | some p => .ok p
  | none => .error (.keyError eventClass)

def previousHash (db : Db) (source : PyStr × PyStr) : Text :=
  match db.snapshots.find? source with
  | some s => s.contentHash
  | none => genesis

def lastHash (db : Db) : Text :=
  match db.changeEvents.getLast? with
  | some e => e.eventHash
  | none => genesis

end Db

-- == changes

structure Observation where
  sourceKind : PyStr
  sourceKey : PyStr
  changeType : PyStr
  severity : PyStr
  evidence : PyVal
  contradiction : Option PyVal
  materialChange : Bool
  now : Option Instant

def Observation.contradictionDict (a : Observation) : PyVal :=
  match a.contradiction with
  | some v => v.orEmpty
  | none => .dict []

structure ChangeBody where
  eventKey : Text
  detectedAt : Text
  sourceKind : Text
  sourceKey : Text
  changeType : Text
  severity : Severity
  dispatchClass : String
  dedupeKey : Text
  previousHash : Text
  currentHash : Text
  evidence : PyVal
  contradiction : PyVal
  prevEventHash : Text

def ChangeBody.source (b : ChangeBody) : PyStr × PyStr :=
  (b.sourceKind.str, b.sourceKey.str)

/-- The body, as the dictionary that is hashed. -/
def ChangeBody.val (b : ChangeBody) : PyVal :=
  .dict [item "event_key" b.eventKey.val, item "detected_at" b.detectedAt.val,
    item "source_kind" b.sourceKind.val, item "source_key" b.sourceKey.val,
    item "change_type" b.changeType.val, item "severity" (.str (py b.severity.value)),
    item "dispatch_class" (.str (py b.dispatchClass)),
    item "dedupe_key" b.dedupeKey.val, item "previous_hash" b.previousHash.val,
    item "current_hash" b.currentHash.val, item "evidence" b.evidence,
    item "contradiction" b.contradiction, item "prev_event_hash" b.prevEventHash.val]

/-- What `observe` returns of a change: `{**body, "event_hash": digest}`, and when it
was detected. -/
structure Change where
  body : ChangeBody
  eventHash : Text
  detected : Instant

/-- `f"{source_kind}:{source_key}:{change_type}:{current_hash}"`. -/
def dedupeKey (a : Observation) (currentHash : Text) : PyStr :=
  a.sourceKind ++ py ":" ++ a.sourceKey ++ py ":" ++ a.changeType ++ py ":" ++ currentHash.str

def named (name : String) (t : Text) : Text :=
  ⟨py name ++ t.str, encodable_append.mpr ⟨encodable_py name, t.encodable⟩⟩

/-- `f"change:{hashlib.sha256(dedupe_key.encode()).hexdigest()[:32]}"`. -/
def eventKey (H : Host) (dedupeKey : Text) : Text :=
  named "change:" ⟨(H.sha256 dedupeKey).str.take 32,
    fun c hc => (H.sha256 dedupeKey).encodable c (List.mem_of_mem_take hc)⟩

/-- The change types with a policy of their own. -/
def policyTypes : List String := ["STATE_CHANGE", "CRITICAL_CONTRADICTION", "NEW_EVIDENCE"]

def policyFor (db : Db) (a : Observation) : Except PyErr CadencePolicy := do
  let policy ←
    if policyTypes.any fun t => decide (py t = a.changeType) then db.policy a.changeType
    else db.policy (py "ORDINARY_REVIEW")
  if policy.requiresMaterialChange && !a.materialChange then
    db.policy (py "ORDINARY_REVIEW")
  else .ok policy

/-- What the reads of `observe` arrive at: a change with its policy and its
hash, or nothing new. -/
def detect (H : Host) (a : Observation) (severity : Severity) (now : Instant) (db : Db) :
    Except PyErr (Option (Change × CadencePolicy)) := do
  let currentHash ← sha256Json H a.evidence
  let sourceKind ← encode a.sourceKind
  let sourceKey ← encode a.sourceKey
  if currentHash = db.previousHash (a.sourceKind, a.sourceKey) then .ok none
  else
    let policy ← policyFor db a
    let dedupeKey ← encode (dedupeKey a currentHash)
    let changeType ← encode a.changeType
    let body : ChangeBody := ⟨eventKey H dedupeKey, H.isoformat now, sourceKind, sourceKey,
      changeType, severity, policy.dispatchClass, dedupeKey,
      db.previousHash (a.sourceKind, a.sourceKey), currentHash, a.evidence,
      a.contradictionDict, db.lastHash⟩
    let digest ← sha256Json H body.val
    .ok (some (⟨body, digest, now⟩, policy))

-- == writes

def insertChange (events : List ChangeEvent) (e : ChangeEvent) : List ChangeEvent :=
  if events.any fun d => decide (d.eventKey = e.eventKey)
      || decide (d.dedupeKey = e.dedupeKey) || decide (d.eventHash = e.eventHash)
  then events
  else events ++ [e]

def Change.row (c : Change) (evidence contradiction : Json) : ChangeEvent :=
  ⟨c.body.eventKey, c.body.detectedAt, c.body.sourceKind, c.body.sourceKey,
    c.body.changeType, c.body.severity, c.body.dispatchClass, c.body.dedupeKey,
    c.body.previousHash, c.body.currentHash, evidence, contradiction,
    c.body.prevEventHash, c.eventHash⟩

def Change.snapshot (c : Change) (evidence : Json) : Snapshot :=
  ⟨c.body.sourceKind, c.body.sourceKey, c.body.currentHash, evidence, c.body.detectedAt⟩

def Change.work (c : Change) (policy : CadencePolicy) : WorkItem :=
  ⟨named "event:" c.body.eventKey, c.detected, c.detected, "CHANGE_EVENT",
    policy.dispatchClass, policy.priority + c.body.severity.order, .queued,
    .obj [(py "change_type", .str c.body.changeType.str),
      (py "event_key", .str c.body.eventKey.str)], some c.body.eventKey, none, none, none, none⟩

/-- `_enqueue_work`: a new item names an event there is. -/
def enqueueWork (item : WorkItem) (db : Db) : Except PyErr Db :=
  match db.workItems.insert? item with
  | none => .ok db
  | some workItems =>
    if item.sourceEventKey.all fun k =>
        db.changeEvents.any fun e => decide (e.eventKey = k)
    then .ok { db with workItems := workItems }
    else .error .integrityError

def storeChange (c : Change) (policy : CadencePolicy) (db : Db) : Except PyErr Db := do
  let evidence ← canonicalColumn c.body.evidence
  let contradiction ← canonicalColumn c.body.contradiction
  enqueueWork (c.work policy) { db with
    changeEvents := insertChange db.changeEvents (c.row evidence contradiction)
    snapshots := db.snapshots.upsert (c.snapshot evidence) }

-- == observe

/-- The database, with the number of times the clock was read. -/
structure World where
  db : Db
  ticks : Nat

namespace World

def time (H : Host) (now : Option Instant) (w : World) : Instant :=
  now.getD (H.clock w.ticks)

def timed (now : Option Instant) (w : World) : World :=
  match now with
  | some _ => w
  | none => { w with ticks := w.ticks + 1 }

@[simp] theorem timed_db (now : Option Instant) (w : World) : (w.timed now).db = w.db := by
  cases now <;> rfl

end World

def observe (H : Host) (a : Observation) (w : World) : Except PyErr (Option Change) × World :=
  match Severity.ofName? a.severity with
  | none => (.error (.valueError "invalid severity"), w)
  | some severity =>
    match detect H a severity (w.time H a.now) w.db with
    | .error e => (.error e, w.timed a.now)
    | .ok none => (.ok none, w.timed a.now)
    | .ok (some (c, policy)) =>
      match storeChange c policy w.db with
      | .error e => (.error e, w.timed a.now)
      | .ok db => (.ok (some c), { w.timed a.now with db := db })

abbrev Call := Machine.Entry Observation (Except PyErr (Option Change)) World

def afterCalls (H : Host) (calls : List Observation) : World :=
  Machine.exec (observe H) calls ⟨.seeded, 0⟩

def history (H : Host) (calls : List Observation) : List Call :=
  Machine.trace (observe H) calls ⟨.seeded, 0⟩

end Centinal26.Intelligence
