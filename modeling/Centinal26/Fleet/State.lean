/-
The tables of the fleet controller.
-/
import Centinal26.Events.Store
import Centinal26.Lib.Table

namespace Centinal26.Fleet

open Py

-- == words

/-- `ROLES`. -/
inductive Role : Type
  | governor
  | builder
  | judge
  | sre
  | evolution
deriving DecidableEq

namespace Role

def value : Role → String
  | governor => "GOVERNOR"
  | builder => "BUILDER"
  | judge => "JUDGE"
  | sre => "SRE"
  | evolution => "EVOLUTION"

def ofName? (name : PyStr) : Option Role :=
  [governor, builder, judge, sre, evolution].find? fun r => decide (py r.value = name)

end Role

/-- What the `status` of a contract can be. -/
inductive Status : Type
  | ready
  | running
  | verified
  | operational
  | physicalValidated
  | readyForGaPromotion
  | ga
  | superseded
  | retired
  | blockedExternal
  | failedPreserved
  | cancelled
  | inconclusive
deriving DecidableEq

namespace Status

def value : Status → String
  | ready => "READY"
  | running => "RUNNING"
  | verified => "VERIFIED"
  | operational => "OPERATIONAL"
  | physicalValidated => "PHYSICAL_VALIDATED"
  | readyForGaPromotion => "READY_FOR_GA_PROMOTION"
  | ga => "GA"
  | superseded => "SUPERSEDED"
  | retired => "RETIRED"
  | blockedExternal => "BLOCKED_EXTERNAL"
  | failedPreserved => "FAILED_PRESERVED"
  | cancelled => "CANCELLED"
  | inconclusive => "INCONCLUSIVE"

def success : List Status :=
  [verified, operational, physicalValidated, readyForGaPromotion, ga, superseded, retired]

/-- The statuses a result closes a contract with, besides success. -/
def closing : List Status := [blockedExternal, failedPreserved, cancelled]

def named? (statuses : List Status) (name : PyStr) : Option Status :=
  statuses.find? fun s => decide (py s.value = name)

end Status

/-- The result statuses that ask for a verdict. -/
def awaitingVerification : List String :=
  ["EXECUTED_AWAITING_VERIFICATION", "CANDIDATE_PACKAGE_AWAITING_VERIFICATION",
    "PHYSICAL_EVIDENCE_AWAITING_VERIFICATION"]

inductive Verdict : Type
  | verified
  | verificationFailed
  | inconclusive
  | blockedExternal
deriving DecidableEq

namespace Verdict

def value : Verdict → String
  | verified => "VERIFIED"
  | verificationFailed => "VERIFICATION_FAILED"
  | inconclusive => "INCONCLUSIVE"
  | blockedExternal => "BLOCKED_EXTERNAL"

def ofName? (name : PyStr) : Option Verdict :=
  [verified, verificationFailed, inconclusive, blockedExternal].find? fun v =>
    decide (py v.value = name)

end Verdict

inductive EventKind : Type
  | contractCreated
  | contractFailed
  | contractClaimed
  | handoffCreated
  | resultRecorded
  | verdictRecorded
  | errorRecorded
deriving DecidableEq

namespace EventKind

def value : EventKind → String
  | contractCreated => "CONTRACT_CREATED"
  | contractFailed => "CONTRACT_FAILED"
  | contractClaimed => "CONTRACT_CLAIMED"
  | handoffCreated => "HANDOFF_CREATED"
  | resultRecorded => "RESULT_RECORDED"
  | verdictRecorded => "VERDICT_RECORDED"
  | errorRecorded => "ERROR_RECORDED"

def lower : EventKind → String
  | contractCreated => "contract_created"
  | contractFailed => "contract_failed"
  | contractClaimed => "contract_claimed"
  | handoffCreated => "handoff_created"
  | resultRecorded => "result_recorded"
  | verdictRecorded => "verdict_recorded"
  | errorRecorded => "error_recorded"

end EventKind

-- == rows

/-- A row of `fleet_contracts`, as far as it is read again. -/
structure ContractRow where
  contractId : Text
  idempotencyKey : Text
  createdAt : Instant
  rankScore : FloatLit
  dependencies : List Text
  assignedRole : Role
  retryBudget : Int
  subsystem : Text
  onVerifiedRole : Option Role
  contractHash : Text
deriving DecidableEq

structure StateRow where
  contractId : Text
  status : Status
  ownerRole : Role
  claimedBy : Option Text
  leaseUntil : Option Instant
  attemptCount : Nat
deriving DecidableEq

namespace StateRow

def fail (s : StateRow) : StateRow := { s with status := .failedPreserved }

def claim (claimer : Text) (leaseUntil : Instant) (s : StateRow) : StateRow :=
  { s with
    status := .running
    claimedBy := some claimer
    leaseUntil := some leaseUntil
    attemptCount := s.attemptCount + 1 }

def hand (toRole : Role) (s : StateRow) : StateRow :=
  { s with
    ownerRole := toRole
    status := .ready
    claimedBy := none
    leaseUntil := none }

/-- The contract is closed by its owner, or put back. -/
def put (status : Status) (s : StateRow) : StateRow :=
  { s with status := status, claimedBy := none, leaseUntil := none }

/-- The contract is closed in the judge's hands. -/
def judge (status : Status) (s : StateRow) : StateRow :=
  { s with
    status := status
    ownerRole := .judge
    claimedBy := none
    leaseUntil := none }

theorem fail_contractId (s : StateRow) : s.fail.contractId = s.contractId := rfl

theorem claim_contractId (claimer : Text) (leaseUntil : Instant) (s : StateRow) :
    (s.claim claimer leaseUntil).contractId = s.contractId := rfl

theorem hand_contractId (toRole : Role) (s : StateRow) :
    (s.hand toRole).contractId = s.contractId := rfl

theorem put_contractId (status : Status) (s : StateRow) :
    (s.put status).contractId = s.contractId := rfl

theorem judge_contractId (status : Status) (s : StateRow) :
    (s.judge status).contractId = s.contractId := rfl

end StateRow

structure ResultRow where
  resultId : Text
  contractId : Text
  role : Role
  status : Text
  createdAt : Instant
  payload : Json
  evidenceHash : Text
  resultHash : Text

structure VerdictRow where
  verdictId : Text
  resultId : Text
  contractId : Text
  verdict : Verdict
  verifier : Text
  createdAt : Instant
  details : Json
  evidenceHash : Text
  verdictHash : Text

structure HandoffRow where
  handoffId : Text
  contractId : Text
  sourceResultId : Option Text
  fromRole : Role
  toRole : Role
  reason : Text
  createdAt : Instant
  handoffHash : Text

structure ErrorRow where
  errorId : Text
  subsystem : Text
  eventType : Text
  severity : Text
  recovered : Bool
  occurredAt : Instant
  details : Json
  eventHash : Text

structure FleetEvent where
  eventId : Text
  occurredAt : Text
  eventType : EventKind
  entityId : Text
  payload : Fields
  prevEventHash : Text
  eventHash : Text

/-- The database. -/
structure Db where
  contracts : Table ContractRow.contractId
  states : Table StateRow.contractId
  results : Table ResultRow.resultId
  verdicts : Table VerdictRow.verdictId
  handoffs : Table HandoffRow.handoffId
  errors : Table ErrorRow.errorId
  events : List FleetEvent

namespace Db

def empty : Db := ⟨.empty, .empty, .empty, .empty, .empty, .empty, []⟩

def state? (db : Db) (id : Text) : Option StateRow := db.states.find? id

def updateState (db : Db) (id : Text) (f : StateRow → StateRow)
    (hf : ∀ r, (f r).contractId = r.contractId) : Db :=
  { db with states := db.states.modify id f hf }

theorem state?_updateState (db : Db) (id : Text) (f : StateRow → StateRow)
    (hf : ∀ r, (f r).contractId = r.contractId) (j : Text) :
    (db.updateState id f hf).state? j = if j = id then (db.state? id).map f else db.state? j :=
  Table.find?_modify db.states id f hf j

end Db

end Centinal26.Fleet
