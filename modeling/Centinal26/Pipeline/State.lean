/-
The automated engine's data: intents, jobs, canonical state, run history, and
the evidence files.
-/
import Centinal26.Core.Audit
import Centinal26.Lib.Sqlite
import Centinal26.Lib.Table

namespace Centinal26.Pipeline

open Py Centinal26.Core

-- == intents

structure Intent where
  capability : PyStr
  payload : PyVal
  actor : PyStr
  constraints : PyVal
  intentId : PyStr
  createdAt : PyStr

def Intent.asdict (i : Intent) : PyVal :=
  .dict [item "capability" (.str i.capability), item "payload" i.payload,
    item "actor" (.str i.actor), item "constraints" i.constraints,
    item "intent_id" (.str i.intentId), item "created_at" (.str i.createdAt)]

def Intent.sha256 (H : Host) (i : Intent) : Except PyErr Text :=
  canonicalSha256 H i.asdict

/-- `Intent(**json.loads(json.dumps(asdict(intent), sort_keys=True)))`. -/
def Intent.stored (i : Intent) : Except PyErr Intent := do
  let payload ← roundTrip i.payload
  let constraints ← roundTrip i.constraints
  .ok { i with payload, constraints }

-- == jobs

/-- The states a job goes through. -/
inductive JobState : Type
  | queued
  | running
  | verified
  | rejected
  | failed
  | failedVerification
  | stateDiverged
  | stateUpdateFailed
deriving DecidableEq

def JobState.value : JobState → String
  | .queued => "queued"
  | .running => "running"
  | .verified => "verified"
  | .rejected => "rejected"
  | .failed => "failed"
  | .failedVerification => "failed_verification"
  | .stateDiverged => "state_diverged"
  | .stateUpdateFailed => "state_update_failed"

def JobState.isTerminal : JobState → Bool
  | .queued => false
  | .running => false
  | _ => true

/-- The kinds of evidence `run_once` files. -/
inductive EvidenceKind : Type
  | executionFailure
  | rejected
  | verifiedOutput
  | verificationFailure
  | stateDivergence
  | stateUpdateFailure
deriving DecidableEq

def EvidenceKind.value : EvidenceKind → String
  | .executionFailure => "execution-failure"
  | .rejected => "rejected"
  | .verifiedOutput => "verified-output"
  | .verificationFailure => "verification-failure"
  | .stateDivergence => "state-divergence"
  | .stateUpdateFailure => "state-update-failure"

/-- `root / job_id / f"{attempt:04d}-{kind}.json"`. -/
structure EvidencePath where
  jobId : Text
  attempt : Nat
  kind : EvidenceKind
deriving DecidableEq

/-- `f"{n:04d}"`. -/
def padded (n : Nat) : PyStr :=
  let digits := intRepr n
  List.replicate (4 - digits.length) 48 ++ digits

def EvidencePath.str (p : EvidencePath) : PyStr :=
  p.jobId.str ++ py "/" ++ padded p.attempt ++ py "-" ++ py p.kind.value ++ py ".json"

structure JobRow where
  id : Text
  idempotencyKey : Text
  intentSha256 : Text
  intent : Intent
  grant : Grant
  capability : Text
  state : JobState
  attempts : Nat
  maxAttempts : Int
  leaseUntil : Option Instant
  result : Option PyVal
  evidencePath : Option EvidencePath
  createdAt : Instant
  updatedAt : Instant

/-- `lease_until IS NOT NULL AND lease_until<?`, of a running job. -/
def JobRow.lapsed (r : JobRow) (now : Instant) : Bool :=
  decide (r.state = .running) && match r.leaseUntil with
      | some lease => decide (lease < now)
      | none => false

/-- `ORDER BY created_at,id`. -/
def JobRow.le (r r' : JobRow) : Bool :=
  decide (r.createdAt < r'.createdAt ∨ r.createdAt = r'.createdAt ∧ r.id.str ≤ r'.id.str)

/-- `"queued" if row["attempts"] < row["max_attempts"] else "failed"`. -/
def requeueState (attempts : Nat) (maxAttempts : Int) : JobState :=
  if (attempts : Int) < maxAttempts then .queued else .failed

-- == tables

structure StateRow where
  key : Text
  value : PyVal
  version : Nat
  updatedAt : Instant

structure RunRow where
  runId : Text
  verified : Bool
  evidenceComplete : Bool
  stateDiverged : Bool
  recoveryTest : Bool
  verifierIndependent : Bool
  createdAt : Instant

/-- The runtime database. -/
structure Db where
  jobs : Table JobRow.id
  canonicalState : Table StateRow.key
  runHistory : Table RunRow.runId

namespace Db

def empty : Db := ⟨Table.empty, Table.empty, Table.empty⟩

def job? (db : Db) (id : Text) : Option JobRow := db.jobs.find? id

def updateJob (db : Db) (id : Text) (f : JobRow → JobRow) (hf : ∀ r, (f r).id = r.id) : Db :=
  { db with jobs := db.jobs.modify id f hf }

/-- `INSERT INTO jobs`, with both uniqueness constraints. -/
def insertJob? (db : Db) (row : JobRow) : Option Db :=
  if db.jobs.rows.any (fun r => decide (r.idempotencyKey = row.idempotencyKey)) then none
  else (db.jobs.insert? row).map fun t => { db with jobs := t }

def nextQueued (db : Db) : Option JobRow :=
  db.jobs.minBy? (fun r => decide (r.state = .queued)) JobRow.le

def state? (db : Db) (key : Text) : Option StateRow :=
  db.canonicalState.find? key

/-- The version of a capability's canonical state, zero before the first. -/
def version (db : Db) (key : Text) : Nat :=
  match db.state? key with
  | none => 0
  | some r => r.version

/-- `INSERT INTO canonical_state .. ON CONFLICT(key) DO UPDATE`. -/
def upsertState (db : Db) (row : StateRow) : Db :=
  match db.canonicalState.insert? row with
  | some t => { db with canonicalState := t }
  | none =>
    { db with
      canonicalState := db.canonicalState.modify row.key
        (fun r => { row with key := r.key }) fun _ => rfl }

def insertRun? (db : Db) (row : RunRow) : Option Db :=
  (db.runHistory.insert? row).map fun t => { db with runHistory := t }

-- == lookups

variable {db db' : Db} {row : JobRow}

theorem id_of_job? {id : Text} (h : db.job? id = some row) : row.id = id :=
  Table.key_of_find? h

@[simp] theorem job?_updateJob (db : Db) (id : Text) (f : JobRow → JobRow)
    (hf : ∀ r, (f r).id = r.id) (j : Text) :
    (db.updateJob id f hf).job? j = if j = id then (db.job? id).map f else db.job? j :=
  Table.find?_modify db.jobs id f hf j

theorem insertJob?_spec (h : db.insertJob? row = some db') :
    db.job? row.id = none ∧ (∀ key, db'.state? key = db.state? key)
      ∧ ∀ j, db'.job? j = if j = row.id then some row else db.job? j := by
  unfold insertJob? at h
  split at h
  · cases h
  · obtain ⟨t, ht, rfl⟩ := Option.map_eq_some_iff.mp h
    exact ⟨Table.find?_of_insert ht, fun _ => rfl, Table.find?_insert ht⟩

theorem nextQueued_spec (h : db.nextQueued = some row) :
    db.job? row.id = some row ∧ row.state = .queued :=
  ⟨Table.find?_minBy? h, of_decide_eq_true (Table.minBy?_spec h).2⟩

@[simp] theorem job?_upsertState (db : Db) (row : StateRow) (j : Text) :
    (db.upsertState row).job? j = db.job? j := by
  unfold upsertState
  split <;> rfl

theorem state?_upsertState (db : Db) (row : StateRow) (key : Text) : (db.upsertState row).state? key
      = if key = row.key then some row else db.state? key := by
  unfold upsertState
  split
  · next t ht => exact Table.find?_insert ht key
  · next hnone =>
    -- the insert was refused, so there is a row to rewrite
    obtain ⟨r, hr⟩ := Table.exists_of_insert_none hnone
    refine (Table.find?_modify db.canonicalState row.key
      (fun r => { row with key := r.key }) (fun _ => rfl) key).trans ?_
    rw [hr, Option.map_some, Table.key_of_find? hr]
    rfl

theorem insertRun?_spec {row : RunRow} (h : db.insertRun? row = some db') :
    (∀ j, db'.job? j = db.job? j) ∧ ∀ key, db'.state? key = db.state? key := by
  obtain ⟨t, _, rfl⟩ := Option.map_eq_some_iff.mp h
  exact ⟨fun _ => rfl, fun _ => rfl⟩

end Db

-- == evidence

structure EvidenceFile where
  path : EvidencePath
  body : Json

end Centinal26.Pipeline
