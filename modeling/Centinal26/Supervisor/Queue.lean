/-
`LeaseQueue`: a job queue in a database, with leases and a bounded number of
attempts.
-/
import Centinal26.Lib.Machine
import Centinal26.Lib.Table
import Centinal26.Py.Host

namespace Centinal26.Supervisor

open Py

-- == states

inductive JobState : Type
  | queued
  | running
  | pass
  | review
  | fail
  | error
deriving DecidableEq

namespace JobState

def value : JobState → String
  | queued => "QUEUED"
  | running => "RUNNING"
  | pass => "PASS"
  | review => "REVIEW"
  | fail => "FAIL"
  | error => "ERROR"

def isTerminal : JobState → Bool
  | queued => false
  | running => false
  | _ => true

end JobState

/-- `SupervisorResult`: its state is a terminal one. -/
structure SupervisorResult where
  state : JobState
  payload : PyVal
  terminal : state.isTerminal = true

-- == tables

variable {τ : Type}

structure Job (τ : Type) where
  id : Text
  operation : Text
  input : Json
  idempotencyKey : Option Text
  priority : Int
  state : JobState
  attempts : Int
  maxAttempts : Int
  leaseOwner : Option Text
  leaseExpires : Option τ
  result : Option Json
  createdAt : τ
  updatedAt : τ

/-- A row of `job_history`; its `seq` is its place. -/
structure HistoryRow (τ : Type) where
  jobId : Text
  state : JobState
  payload : Json
  time : τ

/-- The queue, with the number of identifiers drawn. -/
structure Queue (τ : Type) where
  jobs : Table (Job.id (τ := τ))
  history : List (HistoryRow τ)
  draws : Nat

namespace Queue

def empty : Queue τ := ⟨.empty, [], 0⟩

def keyed? (q : Queue τ) (key : Text) : Option (Job τ) :=
  q.jobs.rows.find? fun job => decide (job.idempotencyKey = some key)

/-- `INSERT INTO job_history`. -/
def record (q : Queue τ) (jobId : Text) (state : JobState) (payload : Json) (time : τ) : Queue τ :=
  { q with history := q.history ++ [⟨jobId, state, payload, time⟩] }

def update (q : Queue τ) (id : Text) (f : Job τ → Job τ) (hf : ∀ job, (f job).id = job.id) :
    Queue τ :=
  { q with jobs := q.jobs.modify id f hf }

end Queue

-- == submit

structure Submission where
  operation : PyStr
  input : PyVal
  idempotencyKey : Option PyStr
  priority : Int
  maxAttempts : Int

/-- What the statements of `submit` bind. -/
structure Bound where
  operation : PyStr
  input : Json
  key : Option Text
  priority : Int
  maxAttempts : Int
  positive : 1 ≤ maxAttempts

/-- `json.dumps(dict(input_value), ..)`. -/
def inputJson : PyVal → Except PyErr Json
  | .dict items => dumps (.dict items)
  | _ => .error .typeError

/-- `idempotency_key`, encoded if it is given. -/
def keyText : Option PyStr → Except PyErr (Option Text)
  | none => .ok none
  | some key => do .ok (some (← encode key))

/-- What `submit` does before its statements, and what they bind. -/
def Submission.bound (s : Submission) : Except PyErr Bound :=
  if h : s.maxAttempts < 1 then .error (.valueError "max_attempts must be >= 1")
  else do
    let input ← inputJson s.input
    let key ← keyText s.idempotencyKey
    .ok ⟨s.operation, input, key, s.priority, s.maxAttempts, Int.not_lt.mp h⟩

def Bound.job (b : Bound) (id operation : Text) (now : τ) : Job τ :=
  ⟨id, operation, b.input, b.key, b.priority, .queued, 0, b.maxAttempts, none, none, none, now, now⟩

def Queue.drawn (q : Queue τ) : Queue τ := { q with draws := q.draws + 1 }

/-- The numbers fit the integers of SQLite. -/
def Bound.fits (b : Bound) : Bool :=
  decide (-2 ^ 63 ≤ b.priority ∧ b.priority < 2 ^ 63 ∧ b.maxAttempts < 2 ^ 63)

/-- The transaction of `submit`: the identifier is the primary key, and the
idempotency key is unique. -/
def insertJob (H : Host) (b : Bound) (now : τ) (q : Queue τ) : Except PyErr Text × Queue τ :=
  match encode b.operation with
  | .error e => (.error e, q.drawn)
  | .ok operation =>
    if !b.fits then (.error .overflowError, q.drawn)
    else if b.key.any fun key => (q.keyed? key).isSome then (.error .integrityError, q.drawn)
    else match q.jobs.insert? (b.job (H.uuid4 q.draws) operation now) with
      | none => (.error .integrityError, q.drawn)
      | some jobs =>
        (.ok (H.uuid4 q.draws), { q.drawn with jobs := jobs }.record
          (H.uuid4 q.draws) .queued b.input now)

-- == leases

section Leases

variable (F : Floats τ)

/-- The lease of a running job has run out. -/
def Job.isExpired (job : Job τ) (now : τ) : Bool :=
  decide (job.state = .running) && job.leaseExpires.any fun t => F.lt t now

def leaseExpired : Json := .obj [(py "reason", .str (py "lease_expired"))]

/-- What becomes of a job whose lease has run out. -/
def Job.recovered (job : Job τ) (now : τ) : Job τ :=
  { job with
    state := if job.attempts < job.maxAttempts then .queued else .error
    leaseOwner := none
    leaseExpires := none
    result := some leaseExpired
    updatedAt := now }

theorem Job.recovered_id (now : τ) (job : Job τ) : (job.recovered now).id = job.id := rfl

/-- The body of `recover_expired`'s loop. -/
def recoverJob (now : τ) (q : Queue τ) (job : Job τ) : Queue τ :=
  (q.update job.id (fun r => r.recovered now) (Job.recovered_id now)).record job.id
    (job.recovered now).state leaseExpired now

def recoverExpired (now : τ) (q : Queue τ) : Except PyErr Int × Queue τ :=
  let rows := q.jobs.rows.filter fun job => job.isExpired F now
  (.ok rows.length, rows.foldl (recoverJob now) q)

/-- `ORDER BY priority DESC,created_at,id`. -/
def Job.before (a b : Job τ) : Bool :=
  decide (b.priority < a.priority) || (decide (a.priority = b.priority)
      && (F.lt a.createdAt b.createdAt
        || (!F.lt b.createdAt a.createdAt && decide (a.id.str ≤ b.id.str))))

def Job.claimed (job : Job τ) (worker : Text) (expires : Option τ) (now : τ) : Job τ :=
  { job with
    state := .running
    attempts := job.attempts + 1
    leaseOwner := some worker
    leaseExpires := expires
    updatedAt := now }

/-- `UPDATE .. AND state='QUEUED'`. -/
def Job.claimedBy (job : Job τ) (worker : Text) (expires : Option τ) (now : τ) : Job τ :=
  if job.state = .queued then job.claimed worker expires now else job

theorem Job.claimedBy_id (worker : Text) (expires : Option τ) (now : τ) (job : Job τ) :
    (job.claimedBy worker expires now).id = job.id := by
  unfold claimedBy
  split <;> rfl

def claimJson (worker : Text) (attempt : Int) : Json :=
  .obj [(py "worker_id", .str worker.str), (py "attempt", .int attempt)]

def claim (worker : PyStr) (lease now : τ) (q : Queue τ) :
    Except PyErr (Option (Job τ)) × Queue τ :=
  if F.le lease F.zero then (.error (.valueError "lease_seconds must be positive"), q)
  else match q.jobs.minBy? (fun job => decide (job.state = .queued)) (Job.before F) with
    | none => (.ok none, q)
    | some job =>
      match encode worker with
      | .error e => (.error e, q)
      | .ok worker =>
        (.ok (some { job with attempts := job.attempts + 1 }),
          (q.update job.id (fun r => r.claimedBy worker (F.column (F.add now lease)) now)
            (Job.claimedBy_id worker _ now)).record job.id .running
              (claimJson worker (job.attempts + 1)) now)

def Job.isLeasedBy (job : Job τ) (worker : PyStr) : Bool :=
  decide (job.state = .running) && decide (job.leaseOwner.map Text.str = some worker)

/-- What `heartbeat` makes of the job. -/
def Job.beaten (job : Job τ) (expires : Option τ) (now : τ) : Job τ :=
  { job with leaseExpires := expires, updatedAt := now }

theorem Job.beaten_id (expires : Option τ) (now : τ) (job : Job τ) :
    (job.beaten expires now).id = job.id := rfl

def notLeased : PyErr := .permissionError "job is not leased by this worker"

def heartbeat (jobId worker : PyStr) (lease now : τ) (q : Queue τ) : Except PyErr Unit × Queue τ :=
  match encode jobId, encode worker with
  | .ok id, .ok _ =>
    match q.jobs.find? id with
    | none => (.error notLeased, q)
    | some job =>
      if job.isLeasedBy worker then
        (.ok (), q.update id (fun r => r.beaten (F.column (F.add now lease)) now)
          (Job.beaten_id _ now))
      else (.error notLeased, q)
  | .error e, _ => (.error e, q)
  | _, .error e => (.error e, q)

end Leases

-- == finish

def Job.next (job : Job τ) (state : JobState) : JobState :=
  if state = .error ∧ job.attempts < job.maxAttempts then .queued else state

def Job.finished (job : Job τ) (state : JobState) (payload : Json) (now : τ) : Job τ :=
  { job with
    state := job.next state
    result := some payload
    leaseOwner := none
    leaseExpires := none
    updatedAt := now }

theorem Job.finished_id (state : JobState) (payload : Json) (now : τ) (job : Job τ) :
    (job.finished state payload now).id = job.id := rfl

def finish (jobId worker : PyStr) (result : SupervisorResult) (now : τ) (q : Queue τ) :
    Except PyErr Unit × Queue τ :=
  match dumps result.payload, encode jobId with
  | .ok payload, .ok id =>
    match q.jobs.find? id with
    | none => (.error (.keyError jobId), q)
    | some job =>
      if job.isLeasedBy worker then
        (.ok (), (q.update id (fun r => r.finished result.state payload now)
          (Job.finished_id _ payload now)).record id (job.next result.state) payload now)
      else (.error notLeased, q)
  | .error e, _ => (.error e, q)
  | _, .error e => (.error e, q)

-- == operations

/-- The operations, and the two steps of `submit`. -/
inductive Op (τ : Type) : Type
  | find (key : Text)
  | insert (b : Bound) (now : τ)
  | recover (now : τ)
  | claim (worker : PyStr) (lease now : τ)
  | heartbeat (jobId worker : PyStr) (lease now : τ)
  | finish (jobId worker : PyStr) (result : SupervisorResult) (now : τ)

inductive Reply (τ : Type) : Type
  | found (id : Option Text)
  | inserted (id : Text)
  | recovered (n : Int)
  | claimed (job : Option (Job τ))
  | unit

def perform (H : Host) (F : Floats τ) : Op τ → Queue τ → Except PyErr (Reply τ) × Queue τ
  | .find key, q => (.ok (.found ((q.keyed? key).map Job.id)), q)
  | .insert b now, q => ((insertJob H b now q).1.map .inserted, (insertJob H b now q).2)
  | .recover now, q =>
    ((recoverExpired F now q).1.map .recovered, (recoverExpired F now q).2)
  | .claim worker lease now, q =>
    ((claim F worker lease now q).1.map .claimed, (claim F worker lease now q).2)
  | .heartbeat jobId worker lease now, q =>
    ((heartbeat F jobId worker lease now q).1.map fun _ => .unit,
      (heartbeat F jobId worker lease now q).2)
  | .finish jobId worker result now, q =>
    ((finish jobId worker result now q).1.map fun _ => .unit, (finish jobId worker result now q).2)

def machine : Host := Host.sample fun n => n

end Centinal26.Supervisor
