/-
`JobStore` and `Engine`: the baseline engine, which one process drives on a
connection of its own.
-/
import Centinal26.Core.Audit
import Centinal26.Lib.Machine
import Centinal26.Lib.Program
import Centinal26.Lib.Table

namespace Centinal26.Core

open Py Steps

-- == jobs

inductive JobState : Type
  | queued
  | rejected
  | failed
  | executed
  | verificationFailed
  | verified
deriving DecidableEq

def JobState.value : JobState → String
  | .queued => "queued"
  | .rejected => "rejected"
  | .failed => "failed"
  | .executed => "executed"
  | .verificationFailed => "verification_failed"
  | .verified => "verified"

structure JobRow where
  id : Text
  capability : Text
  input : Option PyVal
  grant : Option Grant
  state : JobState
  result : Option Json
  createdAt : Instant
  updatedAt : Instant

/-- `ORDER BY created_at`. -/
def JobRow.le (r r' : JobRow) : Bool := decide (r.createdAt ≤ r'.createdAt)

structure World where
  jobs : Table JobRow.id
  audit : AuditLog
  ticks : Nat
  draws : Nat
  executed : List Text

/-- What the engine raises: what a library raises, or what a capability lets
out. -/
inductive CoreError : Type
  | py (e : PyErr)
  | escaped
deriving DecidableEq

abbrev CBlock (α : Type) := Block CoreError World α

-- == capabilities

structure Verification where
  passed : PyVal
  evidence : PyVal

def Verification.asdict (v : Verification) : PyVal :=
  .dict [item "passed" v.passed, item "evidence" v.evidence]

/-- What a verifier returns. -/
inductive Verdict : Type
  | verification (v : Verification)
  | other

structure RegisteredCapability where
  execute : Nat → PyVal → Outcome PyVal
  verify : Nat → PyVal → PyVal → Outcome Verdict

/-- The capabilities, and how deep `json.dumps` gets into a value before a `RecursionError`. -/
structure Engine where
  capabilities : PyStr → Option RegisteredCapability
  nesting : Nat
  roomy : 2 ≤ nesting

def Engine.register (E : Engine) (name : PyStr) (registered : RegisteredCapability) : Engine :=
  { E with capabilities := fun n => if n = name then some registered else E.capabilities n }

-- == methods

section Methods

variable (H : Host) (E : Engine)

def liftPy {α : Type} (r : Except PyErr α) : CBlock α :=
  fun w => (r.mapError .py, w)

/-- `json.dumps`, as deep as it gets. -/
def dumpsWithin (nesting : Nat) (v : PyVal) : Except PyErr Json :=
  if v.nesting ≤ nesting then dumpsPlain v else .error .recursionError

/-- `now_iso`. -/
def readClock : CBlock Instant :=
  fun w => (.ok (H.clock w.ticks), { w with ticks := w.ticks + 1 })

def drawUuid : CBlock Text :=
  fun w => (.ok (H.uuid4 w.draws), { w with draws := w.draws + 1 })

def insertRow (row : JobRow) : CBlock Unit := fun w =>
  match w.jobs.insert? row with
  | some jobs => (.ok (), { w with jobs })
  | none => (.error (.py .integrityError), w)

def storeSubmit (capability : PyStr) (data : PyVal) (grant : Grant) : CBlock Text := do
  let id ← drawUuid H
  let stamp ← readClock H
  let input ← liftPy (dumpsWithin E.nesting data)
  let capability ← liftPy (encode capability)
  insertRow ⟨id, capability, some (loads input), some grant, .queued, none, stamp, stamp⟩
  pure id

def World.nextJob (w : World) : Option JobRow :=
  w.jobs.minBy? (fun r => decide (r.state = .queued)) JobRow.le

def nextJob : CBlock (Option JobRow) := fun w => (.ok w.nextJob, w)

def transitionColumns (state : JobState) (result : Json) (stamp : Instant) (r : JobRow) : JobRow :=
  { r with state, result := some result, updatedAt := stamp }

def updateJob (id : Text) (state : JobState) (result : Json) (stamp : Instant) :
    CBlock Unit := fun w =>
  (.ok (), { w with
    jobs := w.jobs.modify id (transitionColumns state result stamp) fun _ => rfl })

def transition (id : Text) (state : JobState) (result : PyVal) : CBlock Unit := do
  let result ← liftPy (dumpsWithin E.nesting result)
  let stamp ← readClock H
  updateJob id state result stamp

/-- `append`, at a reading of the clock. The record is one deeper than its payload. -/
def writeAudit (event : String) (payload : List (PyKey × PyVal))
    (now : Instant) : CBlock Unit := fun w =>
  if (PyVal.dict payload).nesting + 1 ≤ E.nesting then
    match w.audit.append H event (.dict payload) now with
    | .ok audit => (.ok (), { w with audit })
    | .error e => (.error (.py e), w)
  else (.error (.py .recursionError), w)

def auditAppend (event : String) (payload : List (PyKey × PyVal)) : CBlock Unit := do
  let now ← readClock H
  writeAudit H E event payload now

def permits (grant : Grant) (capability : PyStr) : CBlock Bool := do
  let now ← readClock H
  liftPy (grant.permits capability now)

def submit (capability : PyStr) (data : PyVal) (grant : Grant) : CBlock Text := do
  let permitted ← permits H grant capability
  if !permitted then do
    auditAppend H E "authorization_denied" [item "capability" (.str capability)]
    throw (.py (.permissionError "grant does not authorize this capability"))
  else if (E.capabilities capability).isNone then
    throw (.py (.keyError (py "unknown capability: " ++ capability)))
  else do
    let id ← storeSubmit H E capability data grant
    auditAppend H E "job_queued" [item "job_id" id.val, item "capability" (.str capability)]
    pure id

def callExecute (registered : RegisteredCapability) (id : Text) (data : PyVal) :
    CBlock (Outcome PyVal) := fun w =>
  (.ok (registered.execute w.executed.length data), { w with executed := w.executed ++ [id] })

def callVerify (registered : RegisteredCapability) (data output : PyVal) :
    CBlock (Outcome Verdict) := fun w =>
  (.ok (registered.verify w.executed.length data output), w)

def conclude (id : Text) (state : JobState) (result : List (PyKey × PyVal)) : CBlock Unit := do
  transition H E id state (.dict result)
  auditAppend H E ("job_" ++ state.value) (item "job_id" id.val :: result)

/-- The result of a verification that did not take place. -/
def noVerification (output : PyVal) (error message : PyStr) : List (PyKey × PyVal) :=
  [item "ok" (.bool false), item "output" output,
    item "verification" (.dict [item "passed" (.bool false),
      item "error" (.str error), item "message" (.str message)])]

/-- `run_once` from the verifier on. -/
def verifyOutput (row : JobRow) (registered : RegisteredCapability)
    (data output : PyVal) : CBlock Unit := do
  let verified ← callVerify registered data output
  match verified with
  | .escaped => throw .escaped
  | .raised name message =>
    conclude H E row.id .verificationFailed (noVerification output name message)
  | .returned .other =>
    conclude H E row.id .verificationFailed (noVerification output (py "InvalidVerificationResult")
        (py "verifier must return Verification"))
  | .returned (.verification v) =>
    conclude H E row.id (if v.passed.truthy then .verified else .verificationFailed)
      [item "ok" v.passed, item "output" output, item "verification" v.asdict]

/-- `run_once` from what the capability did on. -/
def settleOutcome (row : JobRow) (registered : RegisteredCapability)
    (data : PyVal) : Outcome PyVal → CBlock Unit
  | .escaped => throw .escaped
  | .raised name message =>
    conclude H E row.id .failed [item "ok" (.bool false),
      item "error" (.str name), item "message" (.str message)]
  | .returned output => do
    conclude H E row.id .executed [item "ok" (.bool true), item "output" output]
    verifyOutput H E row registered data output

/-- `run_once` with its capability at hand. -/
def execute (row : JobRow) (registered : RegisteredCapability) (data : PyVal) : CBlock Unit := do
  auditAppend H E "job_started" [item "job_id" row.id.val, item "capability" row.capability.val]
  let outcome ← callExecute registered row.id data
  settleOutcome H E row registered data outcome

def column {α : Type} (found : Option α) : CBlock α :=
  liftPy (match found with
    | some a => .ok a
    | none => .error (.valueError "Expecting value"))

/-- `run_once` with a job whose row has been parsed. -/
def runRow (row : JobRow) (grant : Grant) (data : PyVal) : CBlock Unit := do
  let permitted ← permits H grant row.capability.str
  if !permitted then
    conclude H E row.id .rejected [item "error" (.str (py "authorization expired or mismatched"))]
  else
    match E.capabilities row.capability.str with
    | none =>
      conclude H E row.id .rejected [item "error" (.str (py "capability is no longer registered"))]
    | some registered => execute H E row registered data

def runJob (row : JobRow) : CBlock Unit := do
  let grant ← column row.grant
  let data ← column row.input
  runRow H E row grant data

def runOnce : CBlock (Option Text) := do
  let picked ← nextJob
  match picked with
  | none => pure none
  | some row => do
    runJob H E row
    pure (some row.id)

end Methods

end Centinal26.Core
