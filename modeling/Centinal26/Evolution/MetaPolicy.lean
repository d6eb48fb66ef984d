/-
A candidate that is promoted is within the MetaPolicy.
-/
import Centinal26.Evolution.Kernel
import Mathlib.Algebra.Order.Ring.Rat

namespace Centinal26.Evolution

open Py

-- == order

theorem lt_nan (a : PyFloat) : lt .nan a = false := by
  cases a <;> rfl

theorem le_nan (a : PyFloat) : le a .nan = false := by
  cases a <;> rfl

theorem nan_le (a : PyFloat) : le .nan a = false := by
  cases a <;> rfl

variable {a b : PyFloat} {m : MetaPolicyConstraints} {v : EvolutionEnvelope}
  {e : CandidateGovernanceEvidence}

theorem ne_nan_of_le (h : le a b = true) : a ≠ .nan ∧ b ≠ .nan := by
  constructor
  · rintro rfl
    rw [nan_le] at h
    cases h
  · rintro rfl
    rw [le_nan] at h
    cases h

theorem lt_self (a : PyFloat) : lt a a = false := by
  cases a with
  | finite x => simp [lt, PyFloat.num, Num.lt]
  | _ => rfl

theorem finite_le {x y : FloatLit} : le (.finite x) (.finite y) = true ↔ x.value ≤ y.value := by
  simp [le, PyFloat.num, Num.lt, Num.eq, le_iff_lt_or_eq]

theorem le_of_not_lt (ha : a ≠ .nan) (hb : b ≠ .nan) (h : lt a b = false) : le b a = true := by
  cases a with
  | nan => exact absurd rfl ha
  | infinity => cases b <;> first | rfl | exact absurd rfl hb
  | negInfinity =>
    cases b with
    | nan => exact absurd rfl hb
    | negInfinity => rfl
    | infinity => cases h
    | finite y => cases h
  | finite x =>
    cases b with
    | nan => exact absurd rfl hb
    | infinity => cases h
    | negInfinity => rfl
    | finite y =>
      have hle : y.value ≤ x.value := by
        simpa [lt, PyFloat.num, Num.lt] using h
      exact finite_le.mpr hle

theorem le_trans' {c : PyFloat} (hab : le a b = true) (hbc : le b c = true) : le a c = true := by
  have ha := (ne_nan_of_le hab).1
  have hc := (ne_nan_of_le hbc).2
  cases b with
  | nan => exact absurd rfl (ne_nan_of_le hab).2
  | infinity =>
    cases c with
    | infinity => cases a <;> first | rfl | exact absurd rfl ha
    | _ => cases hbc
  | negInfinity =>
    cases a with
    | negInfinity => cases c <;> first | rfl | exact absurd rfl hc
    | _ => cases hab
  | finite y =>
    cases a with
    | nan => exact absurd rfl ha
    | infinity => cases hab
    | negInfinity => cases c <;> first | rfl | exact absurd rfl hc
    | finite x =>
      cases c with
      | nan => exact absurd rfl hc
      | infinity => rfl
      | negInfinity => cases hbc
      | finite z => exact finite_le.mpr (le_trans (finite_le.mp hab) (finite_le.mp hbc))

-- == layers

structure Respected (m : MetaPolicyConstraints) (v : EvolutionEnvelope) : Prop where
  confidence : le m.minConfidence v.confidenceFloor = true
  occurrences : m.minOccurrences ≤ v.occurrenceFloor
  risk : v.maxEffectiveRisk.rank ≤ m.maxAutoRisk.rank

theorem respected {H : Host} {A : Arithmetic} {a : EnvelopeArgs} {p : EvolutionKernelPolicy}
   
    (h : computeEnvelope H A a p m = .ok v) : Respected m v := by
  unfold computeEnvelope at h
  split at h
  · cases h
  · split at h
    · cases h
    · split at h
      · cases h
      · next hrespects =>
        obtain ⟨maturity, -, h⟩ := of_bind_ok h
        obtain ⟨uncertainty, -, h⟩ := of_bind_ok h
        obtain ⟨mutation, -, h⟩ := of_bind_ok h
        obtain ⟨kernelHash, -, h⟩ := of_bind_ok h
        cases h
        simp only [EvolutionKernelPolicy.respects, Bool.not_eq_true, Bool.not_eq_false',
          Bool.and_eq_true, decide_eq_true_eq] at hrespects
        exact ⟨hrespects.1.1, hrespects.1.2, hrespects.2⟩

/-- What the gate asks of a candidate, but for its confidence. -/
structure Clears (e : CandidateGovernanceEvidence) (v : EvolutionEnvelope)
    (m : MetaPolicyConstraints) : Prop where
  authorized : e.authorized = true
  notFailed : e.deterministicStatus ≠ some (py "FAIL")
  passed : m.requireDeterministicPass = true → e.deterministicStatus = some (py "PASS")
  rollback : m.requireRollback = true → e.rollbackDefined = true
  mutation : e.schemaMutation = true → m.allowSchemaMutation = true
  effects : e.externalSideEffects = true → m.allowExternalSideEffects = true
  occurrences : v.occurrenceFloor ≤ e.occurrenceCount
  depth : v.requiredEvidenceDepth ≤ e.evidenceDepth
  risk : e.riskClass.rank ≤ v.maxEffectiveRisk.rank

theorem hardValid_iff : (constitutionalGate e v m).hardValid = true
      ↔ Clears e v m ∧ lt e.confidence v.confidenceFloor = false := by
  constructor
  · unfold constitutionalGate
    let sound : GateResult → Prop := fun r =>
      r.hardValid = true → Clears e v m ∧ lt e.confidence v.confidenceFloor = false
    change sound _
    refine iteInduction nofun fun h₁ => ?_
    refine iteInduction nofun fun h₂ => ?_
    refine iteInduction nofun fun h₃ => ?_
    refine iteInduction nofun fun h₄ => ?_
    refine iteInduction nofun fun h₅ => ?_
    refine iteInduction nofun fun h₆ => ?_
    refine iteInduction nofun fun h₇ => ?_
    refine iteInduction nofun fun h₈ => ?_
    refine iteInduction nofun fun h₉ => ?_
    refine iteInduction nofun fun h₁₀ _ => ?_
    refine ⟨⟨by simpa using h₁, h₂, ?_, ?_, ?_, ?_, by omega, by omega, by omega⟩,
      by simpa using h₇⟩
    · intro hm
      simpa [hm] using h₃
    · intro hm
      simpa [hm] using h₄
    · intro hm
      simpa [hm] using h₅
    · intro hm
      simpa [hm] using h₆
  · rintro ⟨h, hconfidence⟩
    unfold constitutionalGate
    rw [if_neg (by simp [h.authorized]), if_neg h.notFailed, if_neg, if_neg, if_neg, if_neg,
      if_neg (by simp [hconfidence]), if_neg (Int.not_lt.mpr h.occurrences),
      if_neg (Int.not_lt.mpr h.depth), if_neg (Nat.not_lt.mpr h.risk)]
    · rfl
    · intro hm
      rw [Bool.and_eq_true] at hm
      simp [h.effects hm.1] at hm
    · intro hm
      rw [Bool.and_eq_true] at hm
      simp [h.mutation hm.1] at hm
    · intro hm
      rw [Bool.and_eq_true] at hm
      simp [h.rollback hm.1] at hm
    · intro hm
      rw [Bool.and_eq_true] at hm
      simp [h.passed hm.1] at hm

-- == soundness

structure Within (e : CandidateGovernanceEvidence) (m : MetaPolicyConstraints) : Prop where
  authorized : e.authorized = true
  notFailed : e.deterministicStatus ≠ some (py "FAIL")
  passed : m.requireDeterministicPass = true → e.deterministicStatus = some (py "PASS")
  rollback : m.requireRollback = true → e.rollbackDefined = true
  mutation : e.schemaMutation = true → m.allowSchemaMutation = true
  effects : e.externalSideEffects = true → m.allowExternalSideEffects = true
  confidence : le m.minConfidence e.confidence = true
  occurrences : m.minOccurrences ≤ e.occurrenceCount
  risk : e.riskClass.rank ≤ m.maxAutoRisk.rank

/-- The candidate's metrics are those of one to promote, to polymorph or to speciate. -/
def Advances (A : Arithmetic) (e : CandidateGovernanceEvidence) (v : EvolutionEnvelope) : Prop :=
  ∃ compatible fit nicheFit, compatibleWithProtectedMetrics A e v = .ok compatible
    ∧ weightedDelta A e.currentFitDeltas e.currentFitWeights = .ok fit
    ∧ weightedDelta A e.nicheFitDeltas e.nicheFitWeights = .ok nicheFit
    ∧ (fourWay e v compatible (persistentNiche v e.persistence) fit nicheFit).1
      ≠ .rejectFromPromotion

def atFloor (e : CandidateGovernanceEvidence) (v : EvolutionEnvelope) :
    CandidateGovernanceEvidence :=
  { e with confidence := v.confidenceFloor }

theorem hardValid_atFloor :
    (constitutionalGate (atFloor e v) v m).hardValid = true ↔ Clears e v m := by
  rw [hardValid_iff]
  constructor
  · rintro ⟨h, -⟩
    exact ⟨h.authorized, h.notFailed, h.passed, h.rollback, h.mutation, h.effects,
      h.occurrences, h.depth, h.risk⟩
  · intro h
    exact ⟨⟨h.authorized, h.notFailed, h.passed, h.rollback, h.mutation, h.effects,
      h.occurrences, h.depth, h.risk⟩, lt_self _⟩

theorem governed_iff {A : Arithmetic} :
    (∃ r, governCandidate A e v m = .ok r ∧ r.decision ≠ .rejectFromPromotion)
      ↔ (constitutionalGate e v m).hardValid = true ∧ Advances A e v := by
  constructor
  · rintro ⟨r, h, hdecision⟩
    unfold governCandidate at h
    split at h
    · cases h
      exact absurd rfl hdecision
    · next hgate =>
      obtain ⟨⟨compatible, fit, nicheFit, persistent, decision, reason⟩, hweigh, h⟩ :=
        of_bind_ok h
      cases h
      unfold weigh at hweigh
      obtain ⟨compatible', hcompatible, hweigh⟩ := of_bind_ok hweigh
      obtain ⟨fit', hfit, hweigh⟩ := of_bind_ok hweigh
      obtain ⟨nicheFit', hniche, hweigh⟩ := of_bind_ok hweigh
      simp only [Except.ok.injEq, Prod.mk.injEq] at hweigh
      obtain ⟨-, -, -, -, hfour⟩ := hweigh
      refine ⟨by simpa using hgate, compatible', fit', nicheFit', hcompatible, hfit, hniche, ?_⟩
      rw [hfour]
      exact hdecision
  · rintro ⟨hgate, compatible, fit, nicheFit, hcompatible, hfit, hniche, hdecision⟩
    unfold governCandidate weigh
    rw [hgate, hcompatible, hfit, hniche]
    exact ⟨_, rfl, hdecision⟩

/-- Evolution stays within the MetaPolicy for just those candidates whose confidence is a
number, or that another check turns away: the gate, were the confidence high enough, or
the metrics. -/
theorem stays_within_iff (H : Host) (A : Arithmetic) (a : EnvelopeArgs)
    (p : EvolutionKernelPolicy) (m : MetaPolicyConstraints) (v : EvolutionEnvelope)
    (e : CandidateGovernanceEvidence) (h : computeEnvelope H A a p m = .ok v) :
    ((∃ r, governCandidate A e v m = .ok r ∧ r.decision ≠ .rejectFromPromotion) → Within e m)
      ↔ e.confidence ≠ .nan ∨ (constitutionalGate (atFloor e v) v m).hardValid = false
        ∨ ¬ Advances A e v := by
  have hrespected := respected h
  have hfloor : v.confidenceFloor ≠ .nan := (ne_nan_of_le hrespected.confidence).2
  rw [governed_iff, hardValid_iff]
  constructor
  · intro hwithin
    by_cases hnan : e.confidence = .nan
    · refine Or.inr ?_
      by_cases hclears : Clears e v m
      · refine Or.inr fun hadvances => ?_
        have hconfidence := (hwithin ⟨⟨hclears, by rw [hnan, lt_nan]⟩, hadvances⟩).confidence
        exact (ne_nan_of_le hconfidence).2 hnan
      · refine Or.inl ?_
        rw [← Bool.not_eq_true, hardValid_atFloor]
        exact hclears
    · exact Or.inl hnan
  · rintro hcondition ⟨⟨hclears, hconfidence⟩, hadvances⟩
    rcases hcondition with hnan | hgate | hmetrics
    · exact
        { authorized := hclears.authorized
          notFailed := hclears.notFailed
          passed := hclears.passed
          rollback := hclears.rollback
          mutation := hclears.mutation
          effects := hclears.effects
          confidence := le_trans' hrespected.confidence (le_of_not_lt hnan hfloor hconfidence)
          occurrences := Int.le_trans hrespected.occurrences hclears.occurrences
          risk := Nat.le_trans hclears.risk hrespected.risk }
    · rw [hardValid_atFloor.mpr hclears] at hgate
      cases hgate
    · exact absurd hadvances hmetrics

-- == a candidate

namespace Sample

/-- The value of a float, which is nought for the others. -/
def valueOf : PyFloat → Rat
  | .finite x => x.value
  | _ => 0

def digit (q : Rat) : PyFloat := if q = 0 then zero else if q = 1 then one else .nan

def arithmetic : Arithmetic where
  add x y := digit (valueOf x + valueOf y)
  sub x y := digit (valueOf x - valueOf y)
  mul x y := digit (valueOf x * valueOf y)
  div x y := digit (valueOf x / valueOf y)
  neg x := digit (-valueOf x)
  sum xs := digit (xs.map valueOf).sum
  exp x := .ok (if valueOf x = 0 then one else .nan)

def weights : Dict PyStr PyFloat := ⟨[(py "fit", one)], by decide⟩

def strict : MetaPolicyConstraints where
  minOccurrences := 1
  minConfidence := one
  maxAutoRisk := .low
  requireDeterministicPass := true
  requireRollback := true
  allowSchemaMutation := false
  allowExternalSideEffects := false
  occurrences := by decide
  confidence := by decide

def policy : EvolutionKernelPolicy where
  maturityWeights := weights
  uncertaintyWeights := weights
  mutationFloor := zero
  mutationCeiling := one
  annealingRate := zero
  explorationFloorFraction := zero
  confidenceFloor := one
  occurrenceFloor := 1
  requiredEvidenceDepth := 1
  regressionTolerances := .empty
  promotionDeltaMin := one
  branchDeltaMin := one
  nicheOccurrenceMin := 1
  nicheDurationMinDays := zero
  nicheReplicationMin := 1
  maxEffectiveRisk := .low
  checked := by decide

def arguments : EnvelopeArgs := ⟨py "search", 0, weights, weights, [], [], []⟩

/-- A candidate in perfect order, of the given confidence. -/
def candidate (confidence : PyFloat) : CandidateGovernanceEvidence where
  candidateId := py "candidate"
  authorized := true
  riskClass := .low
  confidence := confidence
  occurrenceCount := 1
  evidenceDepth := 1
  rollbackDefined := true
  deterministicStatus := some (py "PASS")
  schemaMutation := false
  externalSideEffects := false
  protectedDeltas := .empty
  currentFitDeltas := weights
  currentFitWeights := weights
  nicheFitDeltas := weights
  nicheFitWeights := weights
  persistence := ⟨1, one, 1, one⟩
  lowSwitchingCost := true
  highCoexistenceCost := false

def host : Host := Host.sample fun n => n

def decided (confidence : PyFloat) : Option EvolutionDecision := do
  let v ← (computeEnvelope host arithmetic arguments policy strict).toOption
  let r ← (governCandidate arithmetic (candidate confidence) v strict).toOption
  some r.decision

theorem decided_eq {confidence : PyFloat} {decision : EvolutionDecision}
    (h : decided confidence = some decision) :
    ∃ v r, computeEnvelope host arithmetic arguments policy strict = .ok v
      ∧ governCandidate arithmetic (candidate confidence) v strict = .ok r
      ∧ r.decision = decision := by
  unfold decided at h
  cases hv : computeEnvelope host arithmetic arguments policy strict with
  | error e =>
    rw [hv] at h
    cases h
  | ok v =>
    rw [hv] at h
    replace h : (governCandidate arithmetic (candidate confidence) v strict).toOption.bind
      (fun r => some r.decision) = some decision := h
    cases hr : governCandidate arithmetic (candidate confidence) v strict with
    | error e =>
      rw [hr] at h
      cases h
    | ok r =>
      rw [hr] at h
      exact ⟨v, r, rfl, hr, Option.some_inj.mp h⟩

end Sample

open Sample in
/-- A confidence that is NaN is promoted where certainty is asked for. -/
theorem nan_promoted : ¬ ∀ (H : Host) (A : Arithmetic) (a : EnvelopeArgs)
    (p : EvolutionKernelPolicy) (m : MetaPolicyConstraints) (v : EvolutionEnvelope)
    (e : CandidateGovernanceEvidence) (r : GovernorResult), computeEnvelope H A a p m = .ok v →
    governCandidate A e v m = .ok r → r.decision ≠ .rejectFromPromotion → Within e m := by
  intro h
  have hdecided : decided .nan = some .promote := by decide +kernel
  obtain ⟨v, r, hv, hr, hdecision⟩ := decided_eq hdecided
  have hwithin := h _ _ _ _ _ v _ r hv hr (by rw [hdecision]; exact nofun)
  exact (ne_nan_of_le hwithin.confidence).2 rfl

open Sample in
/-- The same candidate, certain, is promoted and within the MetaPolicy. -/
theorem stays_within_certain : ∃ r v, computeEnvelope host arithmetic arguments policy strict
      = .ok v ∧ governCandidate arithmetic (candidate one) v strict = .ok r
    ∧ r.decision = .promote ∧ Within (candidate one) strict := by
  have hdecided : decided one = some .promote := by decide +kernel
  obtain ⟨v, r, hv, hr, hdecision⟩ := decided_eq hdecided
  have hiff := stays_within_iff host arithmetic arguments policy strict v (candidate one) hv
  refine ⟨r, v, hv, hr, hdecision, hiff.mpr (Or.inl nofun) ⟨r, hr, ?_⟩⟩
  rw [hdecision]
  exact nofun

end Centinal26.Evolution
