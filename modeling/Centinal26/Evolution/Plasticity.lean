/-
The mutation budget over exact numbers.
-/
import Centinal26.Evolution.Kernel
import Mathlib.Algebra.Order.BigOperators.Group.List
import Mathlib.Algebra.Order.Field.Basic
import Mathlib.Tactic.Linarith
import Mathlib.Algebra.BigOperators.Group.List.Basic

namespace Centinal26.Evolution.Exact

open Py

variable {K : Type} [Field K] [LinearOrder K]

-- == definitions

/-- `math.exp`, as far as it matters. -/
structure Exponential (K : Type) [Field K] [LinearOrder K] where
  exp : K → K
  pos : ∀ x, 0 < exp x
  mono : Monotone exp
  zero : exp 0 = 1

def bounded (value : K) : Except PyErr K :=
  if 0 ≤ value ∧ value ≤ 1 then .ok value else .error (.valueError "must be in [0,1]")

section Scores

variable (components weights : Dict PyStr K)

/-- The value of a component, times its weight. -/
def part (w : PyStr × K) : Except PyErr K := do
  .ok ((← bounded ((components.get? w.1).getD 0)) * w.2)

def weightedScore : Except PyErr K :=
  if weights.items = [] then .error (.valueError "weights may not be empty")
  else if weights.items.any fun w => !components.contains w.1 then
    .error (.valueError "missing evidence components")
  else if weights.items.any fun w => decide (w.2 < 0) then
    .error (.valueError "weights must be non-negative")
  else if (weights.items.map Prod.snd).sum ≤ 0 then
    .error (.valueError "weights must have positive total")
  else do
    let parts ← weights.items.mapM (part components)
    .ok (parts.sum / (weights.items.map Prod.snd).sum)

end Scores

/-- The fields of `EvolutionKernelPolicy` that its check and the envelope read. -/
structure PolicyFields (K : Type) where
  maturityWeights : Dict PyStr K
  uncertaintyWeights : Dict PyStr K
  mutationFloor : K
  mutationCeiling : K
  annealingRate : K
  explorationFloorFraction : K
  confidenceFloor : K
  occurrenceFloor : Int
  requiredEvidenceDepth : Int
  regressionTolerances : Dict PyStr K
  nicheOccurrenceMin : Int
  nicheDurationMinDays : K
  nicheReplicationMin : Int
  maxEffectiveRisk : RiskClass

/-- `EvolutionKernelPolicy.__post_init__` lets the policy pass. -/
def PolicyFields.check (p : PolicyFields K) : Bool :=
  !decide (p.mutationFloor < 0) && !decide (p.mutationCeiling < p.mutationFloor)
    && !decide (p.annealingRate < 0) && (bounded p.explorationFloorFraction).isOk
    && (bounded p.confidenceFloor).isOk
    && !(decide (p.occurrenceFloor < 1) || decide (p.requiredEvidenceDepth < 1))
    && !(decide (p.nicheOccurrenceMin < 1) || decide (p.nicheReplicationMin < 1))
    && !decide (p.nicheDurationMinDays < 0)
    && !p.regressionTolerances.items.any fun t => decide (t.2 < 0)

/-- `EvolutionKernelPolicy`. -/
structure Policy (K : Type) [Field K] [LinearOrder K] extends PolicyFields K where
  checked : toPolicyFields.check = true

/-- `MetaPolicyConstraints`, as far as `respects` reads it. -/
structure MetaPolicy (K : Type) where
  minOccurrences : Int
  minConfidence : K
  maxAutoRisk : RiskClass

def Policy.respects (p : Policy K) (m : MetaPolicy K) : Bool :=
  decide (m.minConfidence ≤ p.confidenceFloor) && decide (m.minOccurrences ≤ p.occurrenceFloor)
    && decide (p.maxEffectiveRisk.rank ≤ m.maxAutoRisk.rank)

structure EnvelopeArgs (K : Type) where
  capabilityId : PyStr
  generation : Int
  maturityComponents : Dict PyStr K
  uncertaintyComponents : Dict PyStr K

structure Envelope (K : Type) where
  capabilityId : PyStr
  generation : Int
  maturityScore : K
  uncertaintyScore : K
  effectiveMutationBudget : K

variable (E : Exponential K)

def mutation (p : PolicyFields K) (maturity uncertainty : K) : K :=
  p.mutationFloor + (p.mutationCeiling - p.mutationFloor) * E.exp (-p.annealingRate * maturity)
    * (p.explorationFloorFraction + (1 - p.explorationFloorFraction) * uncertainty)

def mutationBudget (p : PolicyFields K) (maturity uncertainty : K) : K :=
  min p.mutationCeiling (max p.mutationFloor (mutation E p maturity uncertainty))

def computeEnvelope (a : EnvelopeArgs K) (p : Policy K) (m : MetaPolicy K) :
    Except PyErr (Envelope K) :=
  if a.capabilityId = [] then .error (.valueError "capability_id may not be empty")
  else if a.generation < 0 then .error (.valueError "generation must be non-negative")
  else if !p.respects m then
    .error (.valueError "evolution policy loosens its source MetaPolicy")
  else do
    let maturity ← weightedScore a.maturityComponents p.maturityWeights
    let uncertainty ← weightedScore a.uncertaintyComponents p.uncertaintyWeights
    .ok ⟨a.capabilityId, a.generation, maturity, uncertainty,
      mutationBudget E p.toPolicyFields maturity uncertainty⟩

-- == scores

theorem bounded_ok {value v : K} (h : bounded value = .ok v) :
    v = value ∧ 0 ≤ value ∧ value ≤ 1 := by
  unfold bounded at h
  split at h
  · next hb =>
    cases h
    exact ⟨rfl, hb⟩
  · cases h

/-- What a score is, and what was checked of it. -/
structure Scored (components weights : Dict PyStr K) (s : K) : Prop where
  weight : ∀ w ∈ weights.items, 0 ≤ w.2
  component : ∀ w ∈ weights.items, ∃ v, components.get? w.1 = some v ∧ 0 ≤ v ∧ v ≤ 1
  total : 0 < (weights.items.map Prod.snd).sum
  score : s = (weights.items.map fun w => (components.get? w.1).getD 0 * w.2).sum
    / (weights.items.map Prod.snd).sum

theorem mapM_part {components : Dict PyStr K} {ws : List (PyStr × K)} {parts : List K}
    (h : ws.mapM (part components) = .ok parts) :
    parts = (ws.map fun w => (components.get? w.1).getD 0 * w.2)
      ∧ ∀ w ∈ ws, 0 ≤ (components.get? w.1).getD 0 ∧ (components.get? w.1).getD 0 ≤ 1 := by
  induction ws generalizing parts with
  | nil =>
    cases h
    exact ⟨rfl, fun _ hw => by cases hw⟩
  | cons w rest ih =>
    rw [List.mapM_cons] at h
    obtain ⟨x, hx, h⟩ := of_bind_ok h
    obtain ⟨xs, hxs, h⟩ := of_bind_ok h
    cases h
    obtain ⟨v, hv, hx⟩ := of_bind_ok hx
    cases hx
    obtain ⟨rfl, hbounds⟩ := bounded_ok hv
    obtain ⟨rfl, hrest⟩ := ih hxs
    exact ⟨rfl, List.forall_mem_cons.mpr ⟨hbounds, hrest⟩⟩

theorem weightedScore_ok {components weights : Dict PyStr K} {s : K}
    (h : weightedScore components weights = .ok s) : Scored components weights s := by
  unfold weightedScore at h
  split at h
  · cases h
  split at h
  · cases h
  next hpresent =>
  split at h
  · cases h
  next hweight =>
  split at h
  · cases h
  next htotal =>
  obtain ⟨parts, hparts, h⟩ := of_bind_ok h
  cases h
  obtain ⟨rfl, hbounds⟩ := mapM_part hparts
  simp only [List.any_eq_true, decide_eq_true_eq, not_exists, not_and, not_lt] at hweight
  refine ⟨hweight, fun w hw => ?_, not_le.mp htotal, rfl⟩
  have hsome : (components.get? w.1).isSome = true := by
    simp only [List.any_eq_true, not_exists, not_and, Bool.not_eq_true, Bool.not_eq_false']
      at hpresent
    exact hpresent w hw
  obtain ⟨v, hv⟩ := Option.isSome_iff_exists.mp hsome
  have hb := hbounds w hw
  rw [hv] at hb
  exact ⟨v, hv, hb⟩

section Ordered

variable [IsStrictOrderedRing K]

theorem Scored.nonneg {components weights : Dict PyStr K} {s : K}
    (h : Scored components weights s) : 0 ≤ s := by
  rw [h.score]
  refine div_nonneg (List.sum_nonneg fun x hx => ?_) h.total.le
  obtain ⟨w, hw, rfl⟩ := List.mem_map.mp hx
  obtain ⟨v, hv, hnonneg, -⟩ := h.component w hw
  rw [hv]
  exact mul_nonneg hnonneg (h.weight w hw)

theorem Scored.le {components components' weights : Dict PyStr K} {s s' : K}
    (h : Scored components weights s) (h' : Scored components' weights s')
    (hle : ∀ w ∈ weights.items, ∀ v v', components.get? w.1 = some v →
      components'.get? w.1 = some v' → v ≤ v') : s ≤ s' := by
  rw [h.score, h'.score]
  refine div_le_div_of_nonneg_right (List.sum_le_sum fun w hw => ?_) h.total.le
  obtain ⟨v, hv, -⟩ := h.component w hw
  obtain ⟨v', hv', -⟩ := h'.component w hw
  rw [hv, hv']
  exact mul_le_mul_of_nonneg_right (hle w hw v v' hv hv') (h.weight w hw)

theorem Scored.le_one {components weights : Dict PyStr K} {s : K}
    (h : Scored components weights s) : s ≤ 1 := by
  rw [h.score, div_le_one h.total]
  refine List.sum_le_sum fun w hw => ?_
  obtain ⟨v, hv, -, hone⟩ := h.component w hw
  rw [hv]
  exact mul_le_of_le_one_left (h.weight w hw) hone

end Ordered

theorem parts_congr {components components' : Dict PyStr K} {ws : List (PyStr × K)}
    (h : ∀ w ∈ ws, components'.get? w.1 = components.get? w.1) :
    (ws.any fun w => !components'.contains w.1) = (ws.any fun w => !components.contains w.1)
      ∧ ws.mapM (part components') = ws.mapM (part components) := by
  induction ws with
  | nil => exact ⟨rfl, rfl⟩
  | cons w rest ih =>
    rw [List.forall_mem_cons] at h
    obtain ⟨hany, hparts⟩ := ih h.2
    rw [List.any_cons, List.any_cons, List.mapM_cons, List.mapM_cons, hany, hparts]
    unfold Dict.contains part
    rw [h.1]
    exact ⟨rfl, rfl⟩

theorem weightedScore_congr {components components' weights : Dict PyStr K}
    (h : ∀ w ∈ weights.items, components'.get? w.1 = components.get? w.1) :
    weightedScore components' weights = weightedScore components weights := by
  obtain ⟨hpresent, hparts⟩ := parts_congr h
  unfold weightedScore
  rw [hpresent, hparts]

-- == budget

theorem Policy.bounds (p : Policy K) : 0 ≤ p.mutationFloor ∧ p.mutationFloor ≤ p.mutationCeiling
    ∧ 0 ≤ p.annealingRate ∧ 0 ≤ p.explorationFloorFraction ∧ p.explorationFloorFraction ≤ 1 := by
  have h := p.checked
  unfold PolicyFields.check at h
  simp only [Bool.and_eq_true, Bool.not_eq_true', decide_eq_false_iff_not, not_lt] at h
  obtain ⟨⟨⟨⟨⟨⟨⟨⟨hfloor, hceiling⟩, hrate⟩, hexploration⟩, -⟩, -⟩, -⟩, -⟩, -⟩ := h
  obtain ⟨v, hv⟩ := exists_ok hexploration
  exact ⟨hfloor, hceiling, hrate, (bounded_ok hv).2⟩

section Budget

variable [IsStrictOrderedRing K] {E : Exponential K} {p : Policy K} {maturity maturity' : K}
  {uncertainty uncertainty' : K}

theorem factor_nonneg (hu : 0 ≤ uncertainty) :
    0 ≤ p.explorationFloorFraction + (1 - p.explorationFloorFraction) * uncertainty := by
  obtain ⟨-, -, -, hnonneg, hone⟩ := p.bounds
  exact add_nonneg hnonneg (mul_nonneg (sub_nonneg.mpr hone) hu)

theorem factor_le_one (hu : uncertainty ≤ 1) :
    p.explorationFloorFraction + (1 - p.explorationFloorFraction) * uncertainty ≤ 1 := by
  obtain ⟨-, -, -, -, hone⟩ := p.bounds
  calc p.explorationFloorFraction + (1 - p.explorationFloorFraction) * uncertainty
      ≤ p.explorationFloorFraction + (1 - p.explorationFloorFraction) :=
        add_le_add_right (mul_le_of_le_one_right (sub_nonneg.mpr hone) hu) _
    _ = 1 := add_sub_cancel _ _

theorem span_nonneg : 0 ≤ p.mutationCeiling - p.mutationFloor := sub_nonneg.mpr p.bounds.2.1

theorem decay_le_one (hm : 0 ≤ maturity) : E.exp (-p.annealingRate * maturity) ≤ 1 := by
  rw [← E.zero]
  exact E.mono (mul_nonpos_of_nonpos_of_nonneg (neg_nonpos.mpr p.bounds.2.2.1) hm)

theorem mutation_bounds (hm : 0 ≤ maturity) (hu : 0 ≤ uncertainty) (hu' : uncertainty ≤ 1) :
    p.mutationFloor ≤ mutation E p.toPolicyFields maturity uncertainty
      ∧ mutation E p.toPolicyFields maturity uncertainty ≤ p.mutationCeiling := by
  have hdecay := (E.pos (-p.annealingRate * maturity)).le
  have hfactor := factor_nonneg (p := p) hu
  refine ⟨le_add_of_nonneg_right (mul_nonneg (mul_nonneg span_nonneg hdecay) hfactor), ?_⟩
  have hproduct : (p.mutationCeiling - p.mutationFloor) * E.exp (-p.annealingRate * maturity)
      * (p.explorationFloorFraction + (1 - p.explorationFloorFraction) * uncertainty)
      ≤ p.mutationCeiling - p.mutationFloor :=
    (mul_le_of_le_one_right (mul_nonneg span_nonneg hdecay) (factor_le_one hu')).trans
      (mul_le_of_le_one_right span_nonneg (decay_le_one hm))
  calc mutation E p.toPolicyFields maturity uncertainty
      ≤ p.mutationFloor + (p.mutationCeiling - p.mutationFloor) := add_le_add_right hproduct _
    _ = p.mutationCeiling := add_sub_cancel _ _

theorem mutationBudget_eq (hm : 0 ≤ maturity) (hu : 0 ≤ uncertainty) (hu' : uncertainty ≤ 1) :
    mutationBudget E p.toPolicyFields maturity uncertainty
      = mutation E p.toPolicyFields maturity uncertainty := by
  obtain ⟨hfloor, hceiling⟩ := mutation_bounds (E := E) (p := p) hm hu hu'
  unfold mutationBudget
  rw [max_eq_right hfloor, min_eq_right hceiling]

theorem mutation_anti (hle : maturity ≤ maturity') (hu : 0 ≤ uncertainty) :
    mutation E p.toPolicyFields maturity' uncertainty
      ≤ mutation E p.toPolicyFields maturity uncertainty := by
  have hrate : -p.annealingRate * maturity' ≤ -p.annealingRate * maturity :=
    mul_le_mul_of_nonpos_left hle (neg_nonpos.mpr p.bounds.2.2.1)
  exact add_le_add_right (mul_le_mul_of_nonneg_right
    (mul_le_mul_of_nonneg_left (E.mono hrate) span_nonneg) (factor_nonneg hu)) _

theorem mutation_mono (hle : uncertainty ≤ uncertainty') :
    mutation E p.toPolicyFields maturity uncertainty
      ≤ mutation E p.toPolicyFields maturity uncertainty' := by
  obtain ⟨-, -, -, -, hone⟩ := p.bounds
  have hfactor := add_le_add_right
    (mul_le_mul_of_nonneg_left hle (sub_nonneg.mpr hone)) p.explorationFloorFraction
  exact add_le_add_right (mul_le_mul_of_nonneg_left hfactor (mul_nonneg span_nonneg (E.pos _).le)) _

end Budget

-- == envelopes

theorem computeEnvelope_ok {E : Exponential K} {a : EnvelopeArgs K} {p : Policy K}
    {m : MetaPolicy K} {env : Envelope K} (h : computeEnvelope E a p m = .ok env) :
    ∃ maturity uncertainty, Scored a.maturityComponents p.maturityWeights maturity
      ∧ Scored a.uncertaintyComponents p.uncertaintyWeights uncertainty
      ∧ env.effectiveMutationBudget = mutationBudget E p.toPolicyFields maturity uncertainty := by
  unfold computeEnvelope at h
  split at h
  · cases h
  split at h
  · cases h
  split at h
  · cases h
  obtain ⟨maturity, hmaturity, h⟩ := of_bind_ok h
  obtain ⟨uncertainty, huncertainty, h⟩ := of_bind_ok h
  cases h
  exact ⟨maturity, uncertainty, weightedScore_ok hmaturity, weightedScore_ok huncertainty, rfl⟩

theorem Scored.unique {components weights : Dict PyStr K} {s s' : K}
    (h : Scored components weights s) (h' : Scored components weights s') : s = s' :=
  h.score.trans h'.score.symm

/-- Every component of the one is at most that of the other. -/
def Below (components components' : Dict PyStr K) : Prop :=
  ∀ k v v', components.get? k = some v → components'.get? k = some v' → v ≤ v'

/-- The budget is between the floor and the ceiling, falls with every maturity component and rises
with every uncertainty component; components without a weight have no effect. -/
theorem envelope_plastic [IsStrictOrderedRing K] (E : Exponential K) (p : Policy K)
    (m : MetaPolicy K) (a : EnvelopeArgs K) :
    (∀ env, computeEnvelope E a p m = .ok env → p.mutationFloor ≤ env.effectiveMutationBudget
        ∧ env.effectiveMutationBudget ≤ p.mutationCeiling)
    ∧ (∀ components env env', Below a.maturityComponents components →
      computeEnvelope E a p m = .ok env →
      computeEnvelope E { a with maturityComponents := components } p m = .ok env' →
      env'.effectiveMutationBudget ≤ env.effectiveMutationBudget)
    ∧ (∀ components env env', Below a.uncertaintyComponents components →
      computeEnvelope E a p m = .ok env →
      computeEnvelope E { a with uncertaintyComponents := components } p m = .ok env' →
      env.effectiveMutationBudget ≤ env'.effectiveMutationBudget)
    ∧ ∀ maturity uncertainty,
      (∀ w ∈ p.maturityWeights.items, maturity.get? w.1 = a.maturityComponents.get? w.1) →
      (∀ w ∈ p.uncertaintyWeights.items, uncertainty.get? w.1 = a.uncertaintyComponents.get? w.1) →
      computeEnvelope E { a with
        maturityComponents := maturity, uncertaintyComponents := uncertainty } p m
        = computeEnvelope E a p m := by
  refine ⟨fun env h => ?_, fun components env env' hbelow h h' => ?_,
    fun components env env' hbelow h h' => ?_, fun maturity uncertainty hm hu => ?_⟩
  · obtain ⟨maturity, uncertainty, hm, hu, hbudget⟩ := computeEnvelope_ok h
    rw [hbudget, mutationBudget_eq hm.nonneg hu.nonneg hu.le_one]
    exact mutation_bounds hm.nonneg hu.nonneg hu.le_one
  · obtain ⟨maturity, uncertainty, hm, hu, hbudget⟩ := computeEnvelope_ok h
    obtain ⟨maturity', uncertainty', hm', hu', hbudget'⟩ := computeEnvelope_ok h'
    cases hu.unique hu'
    rw [hbudget, hbudget', mutationBudget_eq hm.nonneg hu.nonneg hu.le_one,
      mutationBudget_eq hm'.nonneg hu.nonneg hu.le_one]
    exact mutation_anti (hm.le hm' fun w _ => hbelow w.1) hu.nonneg
  · obtain ⟨maturity, uncertainty, hm, hu, hbudget⟩ := computeEnvelope_ok h
    obtain ⟨maturity', uncertainty', hm', hu', hbudget'⟩ := computeEnvelope_ok h'
    cases hm.unique hm'
    rw [hbudget, hbudget', mutationBudget_eq hm.nonneg hu.nonneg hu.le_one,
      mutationBudget_eq hm.nonneg hu'.nonneg hu'.le_one]
    exact mutation_mono (hu.le hu' fun w _ => hbelow w.1)
  · unfold computeEnvelope
    rw [weightedScore_congr hm, weightedScore_congr hu]

namespace Sample

def grow (x : Rat) : Rat := if x ≤ 0 then 1 / (1 - x) else 1 + x

theorem grow_pos (x : Rat) : 0 < grow x := by
  unfold grow
  split
  · next h => exact div_pos one_pos (by linarith)
  · next h => linarith

theorem grow_mono : Monotone grow := by
  intro x y hle
  unfold grow
  split
  · next hx =>
    split
    · next hy => exact one_div_le_one_div_of_le (by linarith) (by linarith)
    · next hy =>
      have hone : 1 / (1 - x) ≤ 1 := (div_le_one (by linarith)).mpr (by linarith)
      linarith
  · next hx =>
    split
    · next hy => linarith
    · next hy => linarith

def growing : Exponential Rat := ⟨grow, grow_pos, grow_mono, by decide +kernel⟩

def policy : Policy Rat where
  maturityWeights := Dict.empty.set (py "evidence") 2
  uncertaintyWeights := Dict.empty.set (py "novelty") 1
  mutationFloor := 1 / 10
  mutationCeiling := 1 / 2
  annealingRate := 3
  explorationFloorFraction := 1 / 5
  confidenceFloor := 1 / 2
  occurrenceFloor := 1
  requiredEvidenceDepth := 1
  regressionTolerances := .empty
  nicheOccurrenceMin := 1
  nicheDurationMinDays := 0
  nicheReplicationMin := 1
  maxEffectiveRisk := .low
  checked := by decide +kernel

def args : EnvelopeArgs Rat :=
  ⟨py "c", 0, Dict.empty.set (py "evidence") (1 / 3), Dict.empty.set (py "novelty") (1 / 2)⟩

theorem sample_plastic : ∃ env, computeEnvelope growing args policy ⟨1, 1 / 4, .low⟩ = .ok env
    ∧ (1 / 10 : Rat) ≤ env.effectiveMutationBudget
    ∧ env.effectiveMutationBudget ≤ (1 / 2 : Rat) := by
  have hok : (computeEnvelope growing args policy ⟨1, 1 / 4, .low⟩).isOk = true := by
    decide +kernel
  obtain ⟨env, henv⟩ := exists_ok hok
  exact ⟨env, henv, (envelope_plastic growing policy ⟨1, 1 / 4, .low⟩ args).1 env henv⟩

end Sample

end Centinal26.Evolution.Exact
