/-
`RuntimeStore`: every method as the database steps it takes.
-/
import Centinal26.Lib.Program
import Centinal26.Pipeline.State

namespace Centinal26.Pipeline

open Py Centinal26.Core Steps

inductive EngineError : Type
  | py (e : PyErr)
  | idempotencyConflict (message : String)
  /-- an `Exception` of a capability -/
  | raised (name message : PyStr)
  /-- an exception of a capability that is not an `Exception` -/
  | escaped
deriving DecidableEq

/-- The database, the files, and how much of the host's clock and identifiers
is used up. -/
structure World where
  disk : Disk Db
  evidence : Table EvidenceFile.path
  audit : AuditLog
  ticks : Nat
  draws : Nat

def World.init : World := ⟨⟨Db.empty, none⟩, Table.empty, AuditLog.empty, 0, 0⟩

/-- What connection `me` reads. -/
def World.view (w : World) (me : Nat) : Db := w.disk.view me

/-- What a step is. -/
inductive Access : Type
  | read
  | submit
  | claim
  | recover (id : Text) (state : JobState)
  | finish (id : Text) (state : JobState)
  | setState (key : Text)
  | record
  | commit
  /-- a step that leaves the database alone -/
  | outside
deriving DecidableEq

abbrev RBlock (α : Type) := Block EngineError World α

abbrev RProg (α : Type) := Prog Access EngineError World α

-- == statements

/-- Raise what a library function raises. -/
def liftPy {α : Type} (r : Except PyErr α) : RBlock α :=
  fun w => (r.mapError .py, w)

/-- `raise`, outside a step. -/
def raisePy {α : Type} (e : PyErr) : RProg α := Prog.raise (.py e)

def databaseLocked : EngineError := .py (.operationalError "database is locked")

def nestedTransaction : EngineError :=
  .py (.operationalError "cannot start a transaction within a transaction")

section Statements

variable (H : Host) (me : Nat)

def readClock : RBlock Instant :=
  fun w => (.ok (H.clock w.ticks), { w with ticks := w.ticks + 1 })

def drawUuid : RBlock Text :=
  fun w => (.ok (H.uuid4 w.draws), { w with draws := w.draws + 1 })

def select {α : Type} (query : Db → α) : RBlock α :=
  fun w => (.ok (query (w.view me)), w)

/-- An `UPDATE` or `INSERT`. -/
def execute (f : Db → Db) : RBlock Unit :=
  fun w =>
    if w.disk.lockedFor me then (.error databaseLocked, w)
    else (.ok (), { w with disk := w.disk.write me f })

def commit : RBlock Unit :=
  fun w => (.ok (), { w with disk := w.disk.commit me })

def rollback : RBlock Unit :=
  fun w => (.ok (), { w with disk := w.disk.rollback me })

def beginImmediate : RBlock Unit :=
  fun w =>
    match w.disk.tx with
    | none => (.ok (), { w with disk := w.disk.write me id })
    | some (c, _) =>
      (.error (if c = me then nestedTransaction else databaseLocked), w)

end Statements

-- == methods

section Methods

variable (H : Host) (me : Nat)

/-- The `commit` that ends a method. -/
def committed : RProg Unit := Prog.block .commit (commit me)

/-- The row `submit` inserts. -/
def newRow (id idempotencyKey intentSha256 : Text) (intent : Intent)
    (grant : Grant) (capability : Text) (maxAttempts : Int) (stamp : Instant) : JobRow :=
  { id, idempotencyKey, intentSha256, intent, grant, capability
    state := .queued
    attempts := 0
    maxAttempts
    leaseUntil := none
    result := none
    evidencePath := none
    createdAt := stamp
    updatedAt := stamp }

/-- The `INSERT` of `submit`, with its commit or, when a uniqueness
constraint refuses the row, its rollback. -/
def insertRow (row : JobRow) : RBlock (Option Text) := do
  let inserted ← select me fun db => db.insertJob? row
  match inserted with
  | none => do
    execute me id
    rollback me
    pure none
  | some db => do
    execute me fun _ => db
    commit me
    pure (some row.id)

def submitRow (intent : Intent) (grant : Grant) (key : PyStr)
    (maxAttempts : Int) : RBlock (Option Text) := do
  let id ← drawUuid H
  let stamp ← readClock H
  let stored ← liftPy intent.stored
  let intentSha256 ← liftPy (intent.sha256 H)
  let idempotencyKey ← liftPy (encode key)
  let capability ← liftPy (encode intent.capability)
  if -2 ^ 63 ≤ maxAttempts ∧ maxAttempts < 2 ^ 63 then
    insertRow me (newRow id idempotencyKey intentSha256 stored grant capability maxAttempts stamp)
  else throw (.py .overflowError)

/-- What `submit` answers about a key that is taken. -/
def submittedBefore (intent : Intent) (key : PyStr) : RBlock (Text × Bool) := do
  let found ← select me fun db => db.jobs.rows.find? fun r =>
    decide (r.idempotencyKey.str = key)
  match found with
  | none => throw (.py .integrityError)
  | some row => do
    let sha ← liftPy (intent.sha256 H)
    let existing ← liftPy (if row.intentSha256.str = []
      then row.intent.sha256 H else .ok row.intentSha256)
    if existing ≠ sha then
      throw (.idempotencyConflict "idempotency key reused with different intent content")
    else pure (row.id, false)

def submit (intent : Intent) (grant : Grant) (key : PyStr)
    (maxAttempts : Int) : RProg (Text × Bool) := do
  if isBlank key then
    raisePy (.valueError "idempotency key must not be empty")
  else do
    let inserted ← Prog.block .submit (submitRow H me intent grant key maxAttempts)
    match inserted with
    | some id => pure (id, true)
    | none => Prog.block .read (submittedBefore H me intent key)

def recoverColumns (state : JobState) (stamp : Instant) (r : JobRow) : JobRow :=
  { r with state, leaseUntil := none, updatedAt := stamp }

/-- The loop of `recover` over the rows it has read. -/
def recoverRows (stamp : Instant) : List JobRow → RProg Unit
  | [] => pure ()
  | row :: rest => do
    let state := requeueState row.attempts row.maxAttempts
    Prog.block (.recover row.id state) (execute me fun db =>
      db.updateJob row.id (recoverColumns state stamp) fun _ => rfl)
    recoverRows stamp rest

/-- The `SELECT` of `recover`, with the reading it compares leases to. -/
def lapsedRows : RBlock (Instant × List JobRow) := do
  let stamp ← readClock H
  let rows ← select me fun db => db.jobs.rows.filter fun r => r.lapsed stamp
  pure (stamp, rows)

def recover : RProg Nat := do
  let (stamp, rows) ← Prog.block .read (lapsedRows H me)
  recoverRows me stamp rows
  committed me
  pure rows.length

/-- The columns `claim` sets, `WHERE .. state='queued'`. -/
def claimColumns (leaseUntil stamp : Instant) (r : JobRow) : JobRow :=
  if r.state = .queued then
    { r with
      state := .running
      attempts := r.attempts + 1
      leaseUntil := some leaseUntil
      updatedAt := stamp }
  else r

theorem claimColumns_id (leaseUntil stamp : Instant) (r : JobRow) :
    (claimColumns leaseUntil stamp r).id = r.id := by
  unfold claimColumns
  split <;> rfl

/-- How many rows the `UPDATE` of `claim` finds. -/
def claimable (id : Text) (db : Db) : Nat :=
  match db.job? id with
  | some r => if r.state = .queued then 1 else 0
  | none => 0

def claimRow (leaseSeconds : Int) : RBlock (Option Text) := do
  beginImmediate me
  let picked ← select me Db.nextQueued
  match picked with
  | none => do
    commit me
    pure none
  | some row => do
    let now ← readClock H
    let leaseUntil ← liftPy (addSeconds now leaseSeconds)
    let stamp ← readClock H
    let rowcount ← select me (claimable row.id)
    execute me fun db => db.updateJob row.id (claimColumns leaseUntil stamp)
      (claimColumns_id leaseUntil stamp)
    commit me
    if rowcount ≠ 1 then pure none else pure (some row.id)

def claim (leaseSeconds : Int) : RProg (Option JobRow) := do
  if leaseSeconds < 1 then
    raisePy (.valueError "lease_seconds must be positive")
  else do
    let _ ← recover H me
    let picked ← Prog.block .claim (claimRow H me leaseSeconds)
    match picked with
    | none => pure none
    | some id => Prog.block .read (select me fun db => db.job? id)

def finishColumns (state : JobState) (result : PyVal)
    (evidence : Option EvidencePath) (stamp : Instant) (r : JobRow) : JobRow :=
  { r with
    state
    result := some result
    evidencePath := evidence
    leaseUntil := none
    updatedAt := stamp }

def finishRow (id : Text) (state : JobState) (result : PyVal)
    (evidence : Option EvidencePath) : RBlock Unit := do
  let result ← liftPy (roundTrip result)
  let stamp ← readClock H
  execute me fun db =>
    db.updateJob id (finishColumns state result evidence stamp) fun _ => rfl

def finish (id : Text) (state : JobState) (result : PyVal)
    (evidence : Option EvidencePath) : RProg Unit := do
  Prog.block (.finish id state) (finishRow H me id state result evidence)
  committed me

def retry (id : Text) (result : PyVal) (evidence : EvidencePath) : RProg JobState := do
  let found ← Prog.block .read (select me fun db => db.job? id)
  match found with
  | none => raisePy (.keyError id.str)
  | some row => do
    let state := requeueState row.attempts row.maxAttempts
    finish H me id state result (some evidence)
    pure state

def getState (key : PyStr) : RProg (Option PyVal) :=
  Prog.block .read do
    let key ← liftPy (encode key)
    select me fun db => (db.state? key).map StateRow.value

/-- The upsert of `set_state`. -/
def stateRow (key : Text) (value : PyVal) (version : Nat) : RBlock Unit := do
  let value ← liftPy (roundTrip value)
  let stamp ← readClock H
  execute me fun db => db.upsertState ⟨key, value, version, stamp⟩

def setState (key : PyStr) (value : PyVal) : RProg Nat := do
  let (key, version) ← Prog.block .read do
    let key ← liftPy (encode key)
    let version ← select me fun db => db.version key + 1
    pure (key, version)
  Prog.block (.setState key) (stateRow H me key value version)
  committed me
  pure version

def insertRun (row : RunRow) : RBlock Unit := do
  let inserted ← select me fun db => db.insertRun? row
  match inserted with
  | none => do
    execute me id
    throw (.py .integrityError)
  | some db => execute me fun _ => db

def record (verified evidence recovery independent stateDiverged : Bool) : RProg Unit := do
  Prog.block .record do
    let runId ← drawUuid H
    let stamp ← readClock H
    insertRun me ⟨runId, verified, evidence, stateDiverged, recovery, independent, stamp⟩
  committed me

end Methods

-- == samples

namespace Sample

/-- New year's day of 2026, in microseconds from year 1. -/
def newYear : Instant := 63902908800000000

/-- A machine whose clock advances ten minutes at every reading. -/
def host : Host := .sample fun n => newYear + 600000000 * n

def intent : Intent :=
  ⟨py "system.echo", .dict [], py "local-user", .dict [], py "intent-1",
    py "2026-01-01T00:00:00+00:00"⟩

def grant : Grant :=
  ⟨py "grant-1", py "system.echo", ⟨py "2027-01-01T00:00:00+00:00",
      some (.aware (newYear + 31536000000000))⟩⟩

end Sample

end Centinal26.Pipeline
