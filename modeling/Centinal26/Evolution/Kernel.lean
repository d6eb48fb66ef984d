/-
The evolution kernel: a capability's envelope under a MetaPolicy, and what becomes of a
candidate.
-/
import Centinal26.Py.Dict
import Centinal26.Py.Host

namespace Centinal26.Evolution

open Py

-- == floats

/-- What the machine computes with floats. -/
structure Arithmetic where
  add : PyFloat → PyFloat → PyFloat
  sub : PyFloat → PyFloat → PyFloat
  mul : PyFloat → PyFloat → PyFloat
  div : PyFloat → PyFloat → PyFloat
  neg : PyFloat → PyFloat
  /-- `sum(xs)` -/
  sum : List PyFloat → PyFloat
  /-- `math.exp(x)` -/
  exp : PyFloat → Except PyErr PyFloat

def lt (a b : PyFloat) : Bool := a.num.lt b.num

def le (a b : PyFloat) : Bool := a.num.lt b.num || a.num.eq b.num

/-- `0.0`. -/
def zero : PyFloat := .finite ⟨0, [48, 46, 48], readFloat_zero⟩

/-- `1.0`. -/
def one : PyFloat := .finite ⟨1, [49, 46, 48], by decide +kernel⟩

def inUnit (value : PyFloat) : Bool := le zero value && le value one

def bounded (value : PyFloat) : Except PyErr PyFloat :=
  if inUnit value then .ok value else .error (.valueError "must be in [0,1]")

section Weights

variable (A : Arithmetic) (values weights : Dict PyStr PyFloat)

def checkWeights : Except PyErr Unit :=
  if weights.items = [] then .error (.valueError "weights may not be empty")
  else if weights.items.any fun w => !values.contains w.1 then
    .error (.valueError "missing evidence components")
  else if weights.items.any fun w => lt w.2 zero then
    .error (.valueError "weights must be non-negative")
  else .ok ()

def weightedScore : Except PyErr PyFloat := do
  checkWeights values weights
  let total := A.sum (weights.items.map Prod.snd)
  if le total zero then .error (.valueError "weights must have positive total")
  else do
    let parts ← weights.items.mapM fun w => do
      .ok (A.mul (← bounded ((values.get? w.1).getD .nan)) w.2)
    .ok (A.div (A.sum parts) total)

def weightedDelta : Except PyErr PyFloat := do
  checkWeights values weights
  .ok (A.sum (weights.items.map fun w => A.mul w.2 ((values.get? w.1).getD .nan)))

end Weights

-- == policies

inductive RiskClass : Type
  | low
  | medium
  | high
deriving DecidableEq

def RiskClass.value : RiskClass → String
  | low => "LOW"
  | medium => "MEDIUM"
  | high => "HIGH"

def RiskClass.rank : RiskClass → Nat
  | low => 0
  | medium => 1
  | high => 2

structure MetaPolicyConstraints where
  minOccurrences : Int
  minConfidence : PyFloat
  maxAutoRisk : RiskClass
  requireDeterministicPass : Bool
  requireRollback : Bool
  allowSchemaMutation : Bool
  allowExternalSideEffects : Bool
  occurrences : 1 ≤ minOccurrences
  confidence : inUnit minConfidence = true

structure PolicyFields where
  maturityWeights : Dict PyStr PyFloat
  uncertaintyWeights : Dict PyStr PyFloat
  mutationFloor : PyFloat
  mutationCeiling : PyFloat
  annealingRate : PyFloat
  explorationFloorFraction : PyFloat
  confidenceFloor : PyFloat
  occurrenceFloor : Int
  requiredEvidenceDepth : Int
  regressionTolerances : Dict PyStr PyFloat
  promotionDeltaMin : PyFloat
  branchDeltaMin : PyFloat
  nicheOccurrenceMin : Int
  nicheDurationMinDays : PyFloat
  nicheReplicationMin : Int
  maxEffectiveRisk : RiskClass

/-- `EvolutionKernelPolicy.__post_init__` lets the policy pass. -/
def PolicyFields.check (p : PolicyFields) : Bool :=
  !lt p.mutationFloor zero && !lt p.mutationCeiling p.mutationFloor
    && !lt p.annealingRate zero && inUnit p.explorationFloorFraction
    && inUnit p.confidenceFloor
    && !(decide (p.occurrenceFloor < 1) || decide (p.requiredEvidenceDepth < 1))
    && !(decide (p.nicheOccurrenceMin < 1) || decide (p.nicheReplicationMin < 1))
    && !lt p.nicheDurationMinDays zero
    && !p.regressionTolerances.items.any fun t => lt t.2 zero

structure EvolutionKernelPolicy extends PolicyFields where
  checked : toPolicyFields.check = true

namespace EvolutionKernelPolicy

variable (p : EvolutionKernelPolicy)

def respects (m : MetaPolicyConstraints) : Bool :=
  le m.minConfidence p.confidenceFloor && decide (m.minOccurrences ≤ p.occurrenceFloor)
    && decide (p.maxEffectiveRisk.rank ≤ m.maxAutoRisk.rank)

def floatDict (d : Dict PyStr PyFloat) : PyVal :=
  .dict (d.items.map fun m => (.str m.1, .float m.2))

/-- `{"schema": .., "kernel_version": .., "policy": asdict(self)}`. -/
def document : PyVal :=
  .dict [item "schema" (.str (py "centinal26-evolution-kernel-v2")),
    item "kernel_version" (.str (py "2.0.0-draft")),
    item "policy" (.dict [item "maturity_weights" (floatDict p.maturityWeights),
      item "uncertainty_weights" (floatDict p.uncertaintyWeights),
      item "mutation_floor" (.float p.mutationFloor),
      item "mutation_ceiling" (.float p.mutationCeiling),
      item "annealing_rate" (.float p.annealingRate),
      item "exploration_floor_fraction" (.float p.explorationFloorFraction),
      item "confidence_floor" (.float p.confidenceFloor),
      item "occurrence_floor" (.int p.occurrenceFloor),
      item "required_evidence_depth" (.int p.requiredEvidenceDepth),
      item "regression_tolerances" (floatDict p.regressionTolerances),
      item "promotion_delta_min" (.float p.promotionDeltaMin),
      item "branch_delta_min" (.float p.branchDeltaMin),
      item "niche_occurrence_min" (.int p.nicheOccurrenceMin),
      item "niche_duration_min_days" (.float p.nicheDurationMinDays),
      item "niche_replication_min" (.int p.nicheReplicationMin),
      item "max_effective_risk" (.str (py p.maxEffectiveRisk.value))])]

def digest (H : Host) : Except PyErr Text := do
  .ok (H.sha256 (← encode ((← dumps p.document).text ⟨true, py ",", py ":"⟩)))

end EvolutionKernelPolicy

-- == envelopes

structure EvolutionEnvelope where
  capabilityId : PyStr
  generation : Int
  maturityScore : PyFloat
  uncertaintyScore : PyFloat
  mutationFloor : PyFloat
  mutationCeiling : PyFloat
  effectiveMutationBudget : PyFloat
  confidenceFloor : PyFloat
  occurrenceFloor : Int
  requiredEvidenceDepth : Int
  regressionTolerances : Dict PyStr PyFloat
  promotionDeltaMin : PyFloat
  branchDeltaMin : PyFloat
  nicheOccurrenceMin : Int
  nicheDurationMinDays : PyFloat
  nicheReplicationMin : Int
  maxEffectiveRisk : RiskClass
  sourceMetaPolicy : PyStr
  sourcePolicyHash : PyStr
  sourceEvidenceHash : PyStr
  kernelVersion : String
  kernelHash : Text

/-- The arguments of `compute_envelope`, but for the policies. -/
structure EnvelopeArgs where
  capabilityId : PyStr
  generation : Int
  maturityComponents : Dict PyStr PyFloat
  uncertaintyComponents : Dict PyStr PyFloat
  sourceMetaPolicy : PyStr
  sourcePolicyHash : PyStr
  sourceEvidenceHash : PyStr

/-- The mutation budget: Python's `max` and `min` keep their first argument unless the
second one is greater, or less. -/
def mutationBudget (A : Arithmetic) (p : PolicyFields) (maturity uncertainty : PyFloat) :
    Except PyErr PyFloat := do
  let factor := A.add p.explorationFloorFraction
    (A.mul (A.sub one p.explorationFloorFraction) uncertainty)
  let span := A.sub p.mutationCeiling p.mutationFloor
  let decay ← A.exp (A.mul (A.neg p.annealingRate) maturity)
  let mutation := A.add p.mutationFloor (A.mul (A.mul span decay) factor)
  let raised := if lt p.mutationFloor mutation then mutation else p.mutationFloor
  .ok (if lt raised p.mutationCeiling then raised else p.mutationCeiling)

def computeEnvelope (H : Host) (A : Arithmetic) (a : EnvelopeArgs) (p : EvolutionKernelPolicy)
    (m : MetaPolicyConstraints) : Except PyErr EvolutionEnvelope :=
  if a.capabilityId = [] then .error (.valueError "capability_id may not be empty")
  else if a.generation < 0 then .error (.valueError "generation must be non-negative")
  else if !p.respects m then
    .error (.valueError "evolution policy loosens its source MetaPolicy")
  else do
    let maturity ← weightedScore A a.maturityComponents p.maturityWeights
    let uncertainty ← weightedScore A a.uncertaintyComponents p.uncertaintyWeights
    let mutation ← mutationBudget A p.toPolicyFields maturity uncertainty
    let kernelHash ← p.digest H
    .ok {
      capabilityId := a.capabilityId
      generation := a.generation
      maturityScore := maturity
      uncertaintyScore := uncertainty
      mutationFloor := p.mutationFloor
      mutationCeiling := p.mutationCeiling
      effectiveMutationBudget := mutation
      confidenceFloor := p.confidenceFloor
      occurrenceFloor := p.occurrenceFloor
      requiredEvidenceDepth := p.requiredEvidenceDepth
      regressionTolerances := p.regressionTolerances
      promotionDeltaMin := p.promotionDeltaMin
      branchDeltaMin := p.branchDeltaMin
      nicheOccurrenceMin := p.nicheOccurrenceMin
      nicheDurationMinDays := p.nicheDurationMinDays
      nicheReplicationMin := p.nicheReplicationMin
      maxEffectiveRisk := p.maxEffectiveRisk
      sourceMetaPolicy := a.sourceMetaPolicy
      sourcePolicyHash := a.sourcePolicyHash
      sourceEvidenceHash := a.sourceEvidenceHash
      kernelVersion := "2.0.0-draft"
      kernelHash := kernelHash }

-- == candidates

structure PersistenceEvidence where
  independentOccurrences : Int
  durationDays : PyFloat
  independentReplications : Int
  medianAdvantage : PyFloat

structure CandidateGovernanceEvidence where
  candidateId : PyStr
  authorized : Bool
  riskClass : RiskClass
  confidence : PyFloat
  occurrenceCount : Int
  evidenceDepth : Int
  rollbackDefined : Bool
  deterministicStatus : Option PyStr
  schemaMutation : Bool
  externalSideEffects : Bool
  protectedDeltas : Dict PyStr PyFloat
  currentFitDeltas : Dict PyStr PyFloat
  currentFitWeights : Dict PyStr PyFloat
  nicheFitDeltas : Dict PyStr PyFloat
  nicheFitWeights : Dict PyStr PyFloat
  persistence : PersistenceEvidence
  lowSwitchingCost : Bool
  highCoexistenceCost : Bool

inductive GateDisposition : Type
  | pass
  | blockedUnauthorized
  | blockedPendingValidation
  | blockedInsufficientEvidence
  | blockedRollbackRequired
  | humanReviewRequired
  | rejectValidationFailed
deriving DecidableEq

structure GateResult where
  disposition : GateDisposition
  reasons : List String

def GateResult.hardValid (g : GateResult) : Bool := decide (g.disposition = .pass)

inductive EvolutionDecision : Type
  | rejectFromPromotion
  | promote
  | polymorph
  | speciate
deriving DecidableEq

structure GovernorResult where
  hardValid : Bool
  compatible : Option Bool
  fitScore : Option PyFloat
  nicheFitScore : Option PyFloat
  persistent : Option Bool
  decision : EvolutionDecision
  gate : GateResult
  reasons : List String

section Govern

variable (A : Arithmetic) (e : CandidateGovernanceEvidence) (v : EvolutionEnvelope)
  (m : MetaPolicyConstraints)

def constitutionalGate : GateResult :=
  if !e.authorized then
    ⟨.blockedUnauthorized, ["candidate lacks explicit authorization"]⟩
  else if e.deterministicStatus = some (py "FAIL") then
    ⟨.rejectValidationFailed, ["deterministic validation explicitly failed"]⟩
  else if m.requireDeterministicPass && decide (e.deterministicStatus ≠ some (py "PASS")) then
    ⟨.blockedPendingValidation, ["MetaPolicy requires an explicit deterministic PASS"]⟩
  else if m.requireRollback && !e.rollbackDefined then
    ⟨.blockedRollbackRequired, ["MetaPolicy requires a defined rollback"]⟩
  else if e.schemaMutation && !m.allowSchemaMutation then
    ⟨.humanReviewRequired, ["candidate requests schema mutation outside autonomous policy"]⟩
  else if e.externalSideEffects && !m.allowExternalSideEffects then
    ⟨.humanReviewRequired, ["candidate requests external side effects outside autonomous policy"]⟩
  else if lt e.confidence v.confidenceFloor then
    ⟨.blockedInsufficientEvidence, ["candidate confidence is below the derived envelope floor"]⟩
  else if e.occurrenceCount < v.occurrenceFloor then
    ⟨.blockedInsufficientEvidence,
      ["independent occurrence count is below the derived envelope floor"]⟩
  else if e.evidenceDepth < v.requiredEvidenceDepth then
    ⟨.blockedInsufficientEvidence, ["validated evidence depth is below the derived envelope floor"]⟩
  else if v.maxEffectiveRisk.rank < e.riskClass.rank then
    ⟨.humanReviewRequired, ["candidate risk exceeds the autonomous envelope"]⟩
  else ⟨.pass, []⟩

def compatibleWithProtectedMetrics : Except PyErr Bool :=
  if v.regressionTolerances.items.any fun t => !e.protectedDeltas.contains t.1 then
    .error (.valueError "missing protected deltas")
  else .ok (v.regressionTolerances.items.all fun t =>
    le (A.neg t.2) ((e.protectedDeltas.get? t.1).getD .nan))

def persistentNiche (p : PersistenceEvidence) : Bool :=
  decide (v.nicheOccurrenceMin ≤ p.independentOccurrences)
    && le v.nicheDurationMinDays p.durationDays
    && decide (v.nicheReplicationMin ≤ p.independentReplications)
    && le v.branchDeltaMin p.medianAdvantage

def fourWay (compatible persistent : Bool) (fit nicheFit : PyFloat) : EvolutionDecision × String :=
  if compatible && le v.promotionDeltaMin fit then
    (.promote, "compatible current-environment Fit exceeds promotion threshold")
  else if compatible && persistent && le v.branchDeltaMin nicheFit && e.lowSwitchingCost then
    (.polymorph, "persistent compatible niche is cheaply selectable")
  else if !compatible && persistent && le v.branchDeltaMin nicheFit && e.highCoexistenceCost then
    (.speciate, "persistent useful niche is incompatible and costly to coexist")
  else (.rejectFromPromotion,
    "candidate has not cleared promotion, polymorphism, or speciation gates")

/-- What `govern_candidate` computes once the gate is passed. -/
def weigh : Except PyErr (Bool × PyFloat × PyFloat × Bool × EvolutionDecision × String) := do
  let compatible ← compatibleWithProtectedMetrics A e v
  let fit ← weightedDelta A e.currentFitDeltas e.currentFitWeights
  let nicheFit ← weightedDelta A e.nicheFitDeltas e.nicheFitWeights
  let persistent := persistentNiche v e.persistence
  .ok (compatible, fit, nicheFit, persistent, fourWay e v compatible persistent fit nicheFit)

def governCandidate : Except PyErr GovernorResult :=
  if !(constitutionalGate e v m).hardValid then
    .ok ⟨false, none, none, none, none, .rejectFromPromotion, constitutionalGate e v m,
      (constitutionalGate e v m).reasons⟩
  else do
    let (compatible, fit, nicheFit, persistent, decision, reason) ← weigh A e v
    .ok ⟨true, some compatible, some fit, some nicheFit, some persistent, decision,
      constitutionalGate e v m, [reason]⟩

end Govern

end Centinal26.Evolution
