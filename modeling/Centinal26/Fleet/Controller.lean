/-
The operations of `FleetController`, and who runs them.
-/
import Centinal26.Fleet.Store

namespace Centinal26.Fleet

open Py Steps

-- == steps

/-- What an operation answers, as far as callers tell the answers apart. -/
inductive Reply : Type
  | created (contractId : Text)
  | existing (contractId : Text)
  | claimed (items : List Claimed)
  | result (resultId : Text)
  | verdict (verdictId : Text)
  | ruled (verdictId : Text)
  | error (errorId : Text) (contracted : Bool)
deriving DecidableEq

/-- The blocks, with what they are given. -/
inductive Write : Type
  | create (a : ContractArgs) (role : Role) (onVerified : Option Role)
      (score : FloatLit) (contractHash : Text)
  | claim (a : ClaimArgs)
  | result (a : ResultArgs) (resultHash : Text)
  | verdict (a : VerdictArgs) (verdictHash : Text)
  | error (a : ErrorArgs) (digest : Text)

/-- The steps of the operations. -/
inductive Access : Type
  | existing (idempotencyKey : Text)
  | candidates (role : Role) (now : Instant)
  | contract (id : Text)
  | result (id : Text)
  | verdict (resultId : Text)
  | budget (now : Instant)
  | write (w : Write)

def Write.block (H : Host) : Write → FBlock Reply
  | .create a role onVerified score contractHash => do
    createBlock H a role onVerified score contractHash
    pure (.created (idOf "contract:" contractHash))
  | .claim a => do pure (.claimed (← claimBlock H a))
  | .result a resultHash => do
    resultBlock H a resultHash
    pure (.result (idOf "result:" resultHash))
  | .verdict a verdictHash => do
    verdictBlock H a verdictHash
    pure (.verdict (idOf "verdict:" verdictHash))
  | .error a digest => do
    errorBlock H a digest
    pure (.error (idOf "error:" digest) false)

/-- `BEGIN IMMEDIATE .. commit()`, with `rollback()` on an exception. -/
def transaction {α : Type} (m : FBlock α) : FBlock α := fun db =>
  match m db with
  | (.ok a, db') => (.ok a, db')
  | (.error e, _) => (.error e, db)

abbrev FProg := Prog Access PyErr Db

def read {α : Type} (l : Access) (f : Db → Except PyErr α) : FProg α :=
  Prog.block l fun db => (f db, db)

def write (H : Host) (w : Write) : FProg Reply :=
  Prog.block (.write w) (transaction (w.block H))

-- == operations

def priorities : List String := ["P0", "P1", "P2", "P3", "P4"]

def Db.joined? (db : Db) (id : Text) : Option (ContractRow × StateRow) :=
  match db.contracts.find? id, db.state? id with
  | some c, some s => some (c, s)
  | _, _ => none

def checkRoles (a : ContractArgs) : Except PyErr (Role × Option Role) :=
  match Role.ofName? a.assignedRole with
  | none => .error (.valueError "invalid role")
  | some role =>
    match a.onVerifiedRole with
    | none => .ok (role, none)
    | some name =>
      match Role.ofName? name with
      | none => .error (.valueError "invalid on_verified_role")
      | some next => .ok (role, some next)

def checkContract (a : ContractArgs) : Except PyErr (Role × Option Role) := do
  if a.priority ∉ priorities.map py then .error (.valueError "invalid priority")
  else do
    let roles ← checkRoles a
    if a.retryBudget < 0 then
      .error (.valueError "retry_budget must be non-negative")
    else if a.idempotencyKey = [] ∨ a.problemStatement = [] ∨ a.subsystem = [] then
      .error (.valueError "idempotency_key, problem_statement, and subsystem are required")
    else .ok roles

def createContract (F : FleetHost) (a : ContractArgs) : FProg Reply := do
  let (role, onVerified) ← Prog.ofExcept (checkContract a)
  let key ← Prog.ofExcept (encode a.idempotencyKey)
  let existing ← read (.existing key) fun db =>
    .ok (db.contracts.rows.find? fun c => decide (c.idempotencyKey = key))
  match existing with
  | some row => pure (.existing row.contractId)
  | none => do
    let score ← Prog.ofExcept (F.rankContract a.priority a.ranking)
    let contractHash ← Prog.ofExcept (sha256Json F.toHost
      (contractBody F.toHost a score))
    write F.toHost (.create a role onVerified score contractHash)

def claimNext (H : Host) (role claimer : PyStr) (leaseSeconds batchLimit : Int)
    (now : Instant) : FProg Reply :=
  match Role.ofName? role with
  | none => throw (.valueError "invalid role")
  | some role =>
    if leaseSeconds < 1 ∨ batchLimit < 1 ∨ 3 < batchLimit then
      throw (.valueError "invalid lease_seconds or batch_limit")
    else do
      let rows ← read (.candidates role now) fun db => .ok (candidates db role now)
      write H (.claim ⟨role, claimer, leaseSeconds, batchLimit, now, rows⟩)

/-- What `record_result` is given. -/
structure ResultCall where
  contractId : PyStr
  role : PyStr
  status : PyStr
  payload : List (PyKey × PyVal)
  evidenceHash : PyStr
  now : Instant

def recordResult (H : Host) (c : ResultCall) : FProg Reply :=
  match Role.ofName? c.role with
  | none => throw (.valueError "invalid role")
  | some role => do
    let id ← Prog.ofExcept (encode c.contractId)
    let state ← read (.contract id) fun db => .ok (db.joined? id)
    match state with
    | none => throw (.keyError c.contractId)
    | some (_, s) =>
      if s.ownerRole ≠ role ∧ role ≠ .judge then
        throw (.valueError "contract owned by another role")
      else do
        let a : ResultArgs := ⟨id, role, c.status, c.payload, c.evidenceHash, c.now⟩
        let resultHash ← Prog.ofExcept (sha256Json H (resultBody H a))
        write H (.result a resultHash)

/-- What `record_verdict` is given. -/
structure VerdictCall where
  resultId : PyStr
  verdict : PyStr
  verifier : PyStr
  details : List (PyKey × PyVal)
  evidenceHash : PyStr
  now : Instant

def Db.judged? (db : Db) (resultId : Text) : Option (ResultRow × ContractRow) :=
  match db.results.find? resultId with
  | none => none
  | some r =>
    match db.contracts.find? r.contractId with
    | none => none
    | some c => some (r, c)

def recordVerdict (H : Host) (c : VerdictCall) : FProg Reply :=
  match Verdict.ofName? c.verdict with
  | none => throw (.valueError "invalid verdict")
  | some verdict => do
    let id ← Prog.ofExcept (encode c.resultId)
    let row ← read (.result id) fun db => .ok (db.judged? id)
    match row with
    | none => throw (.keyError c.resultId)
    | some (r, contract) => do
      let existing ← read (.verdict id) fun db =>
        .ok (db.verdicts.rows.find? fun v => decide (v.resultId = id))
      match existing with
      | some v => pure (.ruled v.verdictId)
      | none => do
        let a : VerdictArgs := ⟨id, verdict, c.verifier, c.details,
          c.evidenceHash, c.now, r.contractId, contract.assignedRole,
          contract.onVerifiedRole⟩
        let verdictHash ← Prog.ofExcept (sha256Json H (verdictBody H a))
        write H (.verdict a verdictHash)

def recordErrorEvent (H : Host) (a : ErrorArgs) : FProg Reply := do
  let digest ← Prog.ofExcept (sha256Json H (errorBody H a))
  let _ ← write H (.error a digest)
  let subsystem ← Prog.ofExcept (encode a.subsystem)
  let shut ← read (.budget a.now) fun db => contracted db subsystem a.now
  pure (.error (idOf "error:" digest) shut)

/-- The operations. -/
inductive Call : Type
  | create (a : ContractArgs)
  | claim (role claimer : PyStr) (leaseSeconds batchLimit : Int) (now : Instant)
  | result (c : ResultCall)
  | verdict (c : VerdictCall)
  | error (a : ErrorArgs)

def start (F : FleetHost) : Call → FProg Reply
  | .create a => createContract F a
  | .claim role claimer leaseSeconds batchLimit now =>
    claimNext F.toHost role claimer leaseSeconds batchLimit now
  | .result c => recordResult F.toHost c
  | .verdict c => recordVerdict F.toHost c
  | .error a => recordErrorEvent F.toHost a

-- == one controller

/-- A call of a controller that has the database to itself. -/
def call (F : FleetHost) (c : Call) (db : Db) : Except PyErr Reply × Db :=
  (start F c).run db

abbrev Done := Machine.Entry Call (Except PyErr Reply) Db

/-- The database after some calls of one controller. -/
def afterCalls (F : FleetHost) (calls : List Call) : Db :=
  Machine.exec (call F) calls Db.empty

def history (F : FleetHost) (calls : List Call) : List Done :=
  Machine.trace (call F) calls Db.empty

-- == controllers

def Access.commits (H : Host) (l : Access) (db : Db) : Bool :=
  match l with
  | .write w => (w.block H db).1.isOk
  | _ => false

/-- An operation in the middle knows whether it has committed. -/
def track (H : Host) (g : Bool) (l : Access) (db _ : Db) : Bool :=
  g || l.commits H db

abbrev Procs := Pool Access PyErr Db Reply Bool

abbrev Step := Machine.Entry (Sched Call) (Event Access PyErr Reply Bool) Procs

def step (F : FleetHost) : Sched Call → Procs → Event Access PyErr Reply Bool × Procs :=
  Pool.step (fun _ c => start F c) (fun _ _ _ => false) (track F.toHost) fun _ db => db

/-- The controllers after a schedule, on a new database. -/
def runOf (F : FleetHost) (sched : List (Sched Call)) : Procs :=
  Machine.exec (step F) sched (Pool.idle Db.empty)

def traceOf (F : FleetHost) (sched : List (Sched Call)) : List Step :=
  Machine.trace (step F) sched (Pool.idle Db.empty)

-- == try-outs

def zero : FloatLit := ⟨0, [48, 46, 48], readFloat_zero⟩

/-- A machine to try things on: every contract ranks alike. -/
def machine : FleetHost :=
  { Host.sample fun n => n with rankContract := fun _ _ => .ok zero }

/-- The first time whose error budget can be computed. -/
def dawn : Instant := 86400000000

def buildContract (retryBudget : Int) (onVerified : Option PyStr) : ContractArgs where
  idempotencyKey := py "build"
  problemStatement := py "nothing is built"
  sourceBasis := .dict []
  priority := py "P0"
  expectedOutcome := []
  successCriteria := .list []
  allowedScope := .list []
  prohibitedScope := .list []
  dependencies := []
  assignedRole := py "BUILDER"
  verificationRequirements := .list []
  rollbackPlan := .dict []
  resourceBudget := .dict []
  retryBudget := retryBudget
  currentHead := []
  subsystem := py "core"
  failureCriteria := .list []
  nextReviewCondition := []
  ranking := .dict []
  onVerifiedRole := onVerified
  now := dawn

/-- The identifier the machine gives a contract. -/
def idOn (a : ContractArgs) : Text :=
  match sha256Json machine.toHost (contractBody machine.toHost a zero) with
  | .ok contractHash => idOf "contract:" contractHash
  | .error _ => genesis

/-- A claim of one contract for ten minutes, some seconds after dawn. -/
def claimAt (role claimer : String) (seconds : Int) : Call :=
  .claim (py role) (py claimer) 600 1 (dawn + seconds * 1000000)

/-- A result of a contract, some seconds after dawn. -/
def resultAt (a : ContractArgs) (role status : String) (seconds : Int) : Call :=
  .result ⟨(idOn a).str, py role, py status, [], [], dawn + seconds * 1000000⟩

/-- The identifier the machine gives a result. -/
def resultOn (a : ContractArgs) (role : Role) (status : String) (seconds : Int) : Text :=
  match sha256Json machine.toHost (resultBody machine.toHost
      ⟨idOn a, role, py status, [], [], dawn + seconds * 1000000⟩) with
  | .ok resultHash => idOf "result:" resultHash
  | .error _ => genesis

/-- A verdict on a result, some seconds after dawn. -/
def verdictAt (resultId : Text) (verdict : String) (seconds : Int) : Call :=
  .verdict ⟨resultId.str, py verdict, py "judy", [], [], dawn + seconds * 1000000⟩

end Centinal26.Fleet
