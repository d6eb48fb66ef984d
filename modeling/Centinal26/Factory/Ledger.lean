/-
`CapabilityFactoryLedger`: capabilities on their way to promotion.
-/
import Centinal26.Ingest.Extract
import Centinal26.Lib.Interleave
import Centinal26.Lib.Table

namespace Centinal26.Factory

open Py Steps

-- == constants

inductive CapabilityStage : Type
  | discovered
  | wrapped
  | buildable
  | tested
  | deployed
  | reachable
  | chatgptCallableVerified
  | promoted
  | blocked
  | quarantined
  | demoted
deriving DecidableEq

/-- The place in `ORDERED_STAGES`. -/
def CapabilityStage.index? : CapabilityStage → Option Nat
  | discovered => some 0
  | wrapped => some 1
  | buildable => some 2
  | tested => some 3
  | deployed => some 4
  | reachable => some 5
  | chatgptCallableVerified => some 6
  | promoted => some 7
  | _ => none

/-- `REQUIRED_PROMOTION_GATES`. -/
inductive Gate : Type
  | providerDeploymentExists
  | health200
  | sourceHashMatch
  | capabilitiesContract
  | semanticInvoke
  | guardianDenial
  | independentVerification
  | provenanceReceipt
deriving DecidableEq

namespace Gate

def name : Gate → String
  | providerDeploymentExists => "provider_deployment_exists"
  | health200 => "health_200"
  | sourceHashMatch => "source_hash_match"
  | capabilitiesContract => "capabilities_contract"
  | semanticInvoke => "semantic_invoke"
  | guardianDenial => "guardian_denial"
  | independentVerification => "independent_verification"
  | provenanceReceipt => "provenance_receipt"

def all : List Gate :=
  [providerDeploymentExists, health200, sourceHashMatch, capabilitiesContract,
    semanticInvoke, guardianDenial, independentVerification, provenanceReceipt]

theorem mem_all (g : Gate) : g ∈ all := by
  cases g <;> decide

def ofName? (s : PyStr) : Option Gate := all.find? fun g => decide (py g.name = s)

end Gate

-- == tables

structure CapabilityCandidate where
  capabilityId : PyStr
  operation : PyStr
  sourceIdentity : PyStr
  adapterIdentity : PyStr
  riskClass : PyStr
  providerId : PyStr
  schemaIdentity : PyStr
  metadata : PyVal

namespace CapabilityCandidate

variable (c : CapabilityCandidate)

def asdict : PyVal :=
  .dict [item "capability_id" (.str c.capabilityId), item "operation" (.str c.operation),
    item "source_identity" (.str c.sourceIdentity),
    item "adapter_identity" (.str c.adapterIdentity), item "risk_class" (.str c.riskClass),
    item "provider_id" (.str c.providerId), item "schema_identity" (.str c.schemaIdentity),
    item "metadata" c.metadata]

def identity (H : Host) : Except PyErr Text := canonicalSha256 H c.asdict

end CapabilityCandidate

structure CandidateRow where
  capabilityId : Text
  identity : Text
  document : Json
  stage : CapabilityStage

structure GateRow where
  capabilityId : Text
  identity : Text
  gate : Gate
  passed : Bool
  evidence : Json

def GateRow.key (r : GateRow) : Text × Text × Gate := (r.capabilityId, r.identity, r.gate)

structure PromotionDecision where
  capabilityId : Text
  previousStage : CapabilityStage
  newStage : CapabilityStage
  reason : String
  failedGates : List Gate
  evidenceHash : Text

structure Db where
  candidates : Table CandidateRow.capabilityId
  gates : Table GateRow.key
  decisions : List PromotionDecision

namespace Db

def empty : Db := ⟨.empty, .empty, []⟩

/-- `SELECT .. FROM gates WHERE capability_id=? AND candidate_identity=?`. -/
def gatesOf (db : Db) (c identity : Text) : List GateRow :=
  db.gates.rows.filter fun r => decide (r.capabilityId = c ∧ r.identity = identity)

end Db

-- == writes

/-- The committed writes. -/
inductive Write : Type
  | discover (row : CandidateRow)
  | advance (c : Text) (stage : CapabilityStage)
  | gate (row : GateRow)
  | settle (c identity : Text) (gates : List GateRow) (stage : CapabilityStage)
  | decide (d : PromotionDecision)

/-- `UPDATE candidates SET stage=? WHERE capability_id=?`. -/
def Db.setStage (db : Db) (c : Text) (stage : CapabilityStage) : Db :=
  { db with
    candidates := db.candidates.modify c (fun row => { row with stage := stage }) fun _ => rfl }

def Write.apply : Write → Db → Db
  | .discover row, db => { db with candidates := db.candidates.upsert row }
  | .advance c stage, db => db.setStage c stage
  | .gate row, db => { db with gates := db.gates.upsert row }
  | .settle c _ _ stage, db => db.setStage c stage
  | .decide d, db => { db with decisions := db.decisions ++ [d] }

-- == programs

inductive Access : Type
  | candidate
  | gates
  | write (w : Write)

abbrev FProg (α : Type) := Prog Access PyErr Db α

def readStep {α : Type} (l : Access) (f : Db → Except PyErr α) : FProg α :=
  Prog.block l fun db => (f db, db)

def writeStep (w : Write) : FProg Unit := Prog.block (.write w) fun db => (.ok (), w.apply db)

section Programs

variable (H : Host)

def isShell (riskClass : PyStr) : Bool :=
  ["shell", "arbitrary_shell", "remote_shell"].any fun s =>
    decide (Ingest.lower riskClass = py s)

def discover (c : CapabilityCandidate) : FProg CapabilityStage :=
  if isBlank c.capabilityId || isBlank c.operation then
    .raise (.valueError "capability_id and operation are required")
  else if isShell c.riskClass then
    .raise (.valueError "unrestricted shell capabilities are not admissible")
  else do
    let id ← Prog.ofExcept (encode c.capabilityId)
    let row ← readStep .candidate fun db => .ok (db.candidates.find? id)
    let identity ← Prog.ofExcept (c.identity H)
    match row.filter fun row => decide (row.identity = identity) with
    | some row => .ret row.stage
    | none => do
      let document ← Prog.ofExcept (dumps c.asdict)
      writeStep (.discover ⟨id, identity, document, .discovered⟩)
      .ret .discovered

def candidateRow (capabilityId : PyStr) : FProg CandidateRow := do
  let id ← Prog.ofExcept (encode capabilityId)
  readStep .candidate fun db =>
    match db.candidates.find? id with
    | some row => .ok row
    | none => .error (.keyError capabilityId)

def advanceStructural (capabilityId : PyStr) (target : CapabilityStage) : FProg CapabilityStage :=
  match target.index? with
  | none => .raise (.valueError "structural advancement is limited through DEPLOYED")
  | some targetIndex =>
    if 4 < targetIndex then
      .raise (.valueError "structural advancement is limited through DEPLOYED")
    else do
      let row ← candidateRow capabilityId
      match row.stage.index? with
      | none => .raise (.valueError "tuple.index(x): x not in tuple")
      | some currentIndex =>
        if currentIndex + 1 < targetIndex then
          .raise (.valueError "capability stages may not be skipped")
        else if targetIndex ≤ currentIndex then .ret row.stage
        else do
          writeStep (.advance row.capabilityId target)
          .ret target

def recordGate (capabilityId gate : PyStr) (passed : Bool) (evidence : PyVal) : FProg Unit :=
  match Gate.ofName? gate with
  | none => .raise (.valueError "unknown promotion gate")
  | some gate => do
    let row ← candidateRow capabilityId
    let evidence ← Prog.ofExcept (dumps evidence)
    writeStep (.gate ⟨row.capabilityId, row.identity, gate, passed, evidence⟩)

def observed? (gates : List GateRow) (gate : Gate) : Option Bool :=
  (gates.find? fun r => decide (r.gate = gate)).map GateRow.passed

/-- The gates that are not observed to be passed. -/
def failedGates (gates : List GateRow) : List Gate :=
  Gate.all.filter fun g => !(observed? gates g).getD false

/-- What `evaluate` hashes. -/
def evidencePayload (identity : Text) (gates : List GateRow) : PyVal :=
  .dict [item "candidate_identity" identity.val,
    item "gates" (.dict (gates.map fun r => item r.gate.name
      (.dict [item "passed" (.bool r.passed), item "evidence" (loads r.evidence)])))]

/-- The stage an evaluation comes to, and why. -/
def nextStage (previous : CapabilityStage) (gates : List GateRow) : CapabilityStage × String :=
  if failedGates gates = [] then (.promoted, "all mandatory promotion gates passed")
  else if previous = .promoted then
    (.demoted, "promoted capability regressed a mandatory gate")
  else if observed? gates .sourceHashMatch = some false then
    (.quarantined, "source identity mismatch")
  else if observed? gates .providerDeploymentExists = some false then
    (.blocked, "execution provider unavailable")
  else if observed? gates .health200 = some true
      ∧ observed? gates .providerDeploymentExists = some true then
    (.reachable, "provider reachable; semantic promotion gates incomplete")
  else (previous, "promotion gates incomplete")

def evaluate (capabilityId : PyStr) : FProg PromotionDecision := do
  let row ← candidateRow capabilityId
  let gates ← readStep .gates fun db => .ok (db.gatesOf row.capabilityId row.identity)
  let evidenceHash ← Prog.ofExcept (canonicalSha256 H (evidencePayload row.identity gates))
  writeStep (.settle row.capabilityId row.identity gates (nextStage row.stage gates).1)
  let decision : PromotionDecision := ⟨row.capabilityId, row.stage,
    (nextStage row.stage gates).1, (nextStage row.stage gates).2, failedGates gates,
    evidenceHash⟩
  writeStep (.decide decision)
  .ret decision

/-- The operations. -/
inductive Op : Type
  | discover (c : CapabilityCandidate)
  | advanceStructural (capabilityId : PyStr) (target : CapabilityStage)
  | recordGate (capabilityId gate : PyStr) (passed : Bool) (evidence : PyVal)
  | evaluate (capabilityId : PyStr)

inductive Reply : Type
  | stage (s : CapabilityStage)
  | recorded
  | decision (d : PromotionDecision)

def Op.steps : Op → FProg Reply
  | .discover c => Reply.stage <$> Factory.discover H c
  | .advanceStructural capabilityId target =>
    Reply.stage <$> Factory.advanceStructural capabilityId target
  | .recordGate capabilityId gate passed evidence =>
    (fun _ => Reply.recorded) <$> Factory.recordGate capabilityId gate passed evidence
  | .evaluate capabilityId => Reply.decision <$> Factory.evaluate H capabilityId

end Programs

-- == pool

abbrev Procs := Pool Access PyErr Db Reply Unit

abbrev Step := Machine.Entry (Sched Op) (Event Access PyErr Reply Unit) Procs

/-- One scheduled event; a crash keeps what was committed. -/
def step (H : Host) : Sched Op → Procs → Event Access PyErr Reply Unit × Procs :=
  Pool.step (fun _ op => op.steps H) (fun _ _ _ => ()) (fun _ _ _ _ => ()) fun _ db => db

end Centinal26.Factory
