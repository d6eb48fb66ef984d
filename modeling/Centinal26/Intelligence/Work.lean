/-
Work items: scheduled, claimed, completed and listed.
-/
import Centinal26.Intelligence.Store
import Centinal26.Lib.Program
import Centinal26.Py.Iso

namespace Centinal26.Intelligence

open Py Steps

abbrev Update (α : Type) := Tx PyErr Db α

/-- `_iso` of a time: in UTC it must still be a `datetime`. -/
def isoTime (t : Instant) : Except PyErr Unit :=
  if 0 ≤ t ∧ t ≤ maxInstant then .ok () else .error .overflowError

-- == schedule

/-- What `ensure_scheduled_work` goes by: the two answers of `next_conversation`, and
the window of each class at the time it is called. -/
structure Schedule where
  pending : Bool
  conversation : Option Text
  /-- `_window_key(event_class, now)` -/
  window : String → Text
  now : Instant

def Schedule.classes (s : Schedule) : List String :=
  (if s.pending then ["ORDINARY_REVIEW"] else [])
    ++ ["DEEP_SYNTHESIS", "PORTFOLIO_REVIEW", "SCIENTIFIC_COMPATIBILITY",
      "FULL_CORPUS_AUDIT", "ARCHITECTURE_REVIEW"]

/-- The payload of a scheduled item, its keys in order. -/
def Schedule.payload (s : Schedule) (eventClass : String) : Except PyErr Json :=
  if eventClass = "ORDINARY_REVIEW" then
    match s.conversation with
    | none => .error .typeError
    | some key => .ok (.obj [(py "conversation_key", .str key.str),
        (py "event_class", .str (py eventClass)), (py "window", .str (s.window eventClass).str)])
  else .ok (.obj [(py "event_class", .str (py eventClass)),
    (py "window", .str (s.window eventClass).str)])

def Schedule.workKey (s : Schedule) (eventClass : String) : Text :=
  named ("scheduled:" ++ eventClass ++ ":") (s.window eventClass)

/-- The body of `ensure_scheduled_work`'s loop. -/
def Schedule.one (s : Schedule) (out : List Text × Db) (eventClass : String) :
    Except PyErr (List Text × Db) := do
  let policy ← out.2.policy (py eventClass)
  let payload ← s.payload eventClass
  let db ← enqueueWork ⟨s.workKey eventClass, s.now, s.now, eventClass, policy.dispatchClass,
    policy.priority, .queued, payload, none, none, none, none, none⟩ out.2
  .ok (if (out.2.workItems.find? (s.workKey eventClass)).isSome then out.1
    else out.1 ++ [s.workKey eventClass], db)

/-- `ensure_scheduled_work`: the keys of the items that are new. -/
def ensureScheduledWork (s : Schedule) : Update (List Text) := fun db => do
  isoTime s.now
  s.classes.foldlM s.one ([], db)

-- == claim

/-- The item waits, or its lease is over. -/
def WorkItem.isClaimable (now : Instant) (i : WorkItem) : Bool :=
  decide (i.status = .queued)
    || (decide (i.status = .running) && i.leaseUntil.any fun t => decide (t ≤ now))

def WorkItem.claimed (i : WorkItem) (claimer : Text) (leaseUntil : Instant) : WorkItem :=
  { i with status := .running, claimedBy := some claimer, leaseUntil := some leaseUntil }

/-- The transaction of `claim_work`: the key of the item, if it is granted. -/
def claimWork (key claimer : PyStr) (lease : Int) (now : Instant) : Update (Option Text) :=
  fun db =>
    if lease < 1 then .error (.valueError "lease_seconds must be positive")
    else do
      isoTime now
      let leaseUntil ← addSeconds now lease
      let key ← encode key
      match db.workItems.find? key with
      | none => .ok (none, db)
      | some item =>
        if !item.isClaimable now || decide (now < item.dueAt) then .ok (none, db)
        else do
          let claimer ← encode claimer
          .ok (some key, { db with
            workItems := db.workItems.modify key (fun i => i.claimed claimer leaseUntil)
              fun _ => rfl })

-- == complete

def WorkItem.completed (i : WorkItem) (result : Json) (now : Instant) : WorkItem :=
  { i with
    status := .complete, completedAt := some now, result := some result, leaseUntil := none }

/-- The event of a completed item has been processed; an event key is never empty. -/
def recordProcessed (source : Option Text) (result : Json) (now : Instant) (db : Db) :
    Except PyErr Db :=
  match source with
  | none => .ok db
  | some key =>
    if db.changeEvents.any fun e => decide (e.eventKey = key) then
      .ok { db with processing := db.processing.upsert ⟨key, now, result⟩ }
    else .error .integrityError

def completeWork (key : PyStr) (result : PyVal) (now : Instant) : Update Unit := fun db => do
  isoTime now
  let key ← encode key
  match db.workItems.find? key with
  | none => .error (.keyError key.str)
  | some item =>
    if item.status = .complete then .ok ((), db)
    else do
      let result ← canonicalColumn result
      let db ← recordProcessed item.sourceEventKey result now { db with
        workItems := db.workItems.modify key (fun i => i.completed result now) fun _ => rfl }
      .ok ((), db)

-- == list

/-- `status='QUEUED' AND due_at <= ?`, of texts. -/
def WorkItem.isDue (now : Instant) (i : WorkItem) : Bool :=
  decide (i.status = .queued) && !decide (isoformat now < isoformat i.dueAt)

/-- `ORDER BY priority DESC, due_at ASC, work_key ASC`. -/
def WorkItem.before (a b : WorkItem) : Bool :=
  decide (b.priority < a.priority)
    || (decide (a.priority = b.priority) && (decide (isoformat a.dueAt < isoformat b.dueAt)
      || (decide (isoformat a.dueAt = isoformat b.dueAt)
        && !decide (b.workKey.str < a.workKey.str))))

def dueWork (now : Instant) (db : Db) : Except PyErr (List WorkItem) := do
  isoTime now
  .ok ((db.workItems.rows.filter (WorkItem.isDue now)).mergeSort WorkItem.before)

-- == lemmas

theorem isoTime_ok {t : Instant} {u : Unit} (h : isoTime t = .ok u) : 0 ≤ t ∧ t ≤ maxInstant := by
  unfold isoTime at h
  split at h
  · next hrange => exact hrange
  · cases h

theorem canonicalColumn_ok {v : PyVal} {d : Json} (h : canonicalColumn v = .ok d) :
    dumpsStrict v = .ok d := by
  obtain ⟨d', hd', h⟩ := of_bind_ok h
  obtain ⟨_, -, h⟩ := of_bind_ok h
  cases h
  exact hd'

theorem foldlM_schedule {P : Db → Prop} {s : Schedule}
    (hone : ∀ out out' eventClass, s.one out eventClass = .ok out' → P out.2 → P out'.2)
    {classes : List String} {out out' : List Text × Db}
    (h : classes.foldlM s.one out = .ok out') (hP : P out.2) : P out'.2 := by
  induction classes generalizing out with
  | nil =>
    cases h
    exact hP
  | cons c classes ih =>
    rw [List.foldlM_cons] at h
    obtain ⟨mid, hmid, h⟩ := of_bind_ok h
    exact ih h (hone out mid c hmid hP)

end Centinal26.Intelligence
