/-
`evaluate`: the verdict on a claim, from the evidence for it and against it.
-/
import Centinal26.Py.Value
import Mathlib.Order.MinMax

namespace Centinal26.Claims

open Py

-- == evidence

inductive Verdict : Type
  | verified
  | partiallyVerified
  | documentedOnly
  | prediction
  | contradicted
  | insufficientEvidence
deriving DecidableEq

inductive EvidenceTier : Type
  | primaryExternal
  | reproducibleExecution
  | contemporaneousRecord
  | authoredDocument
  | conversationAssertion
deriving DecidableEq

def EvidenceTier.value : EvidenceTier → Nat
  | primaryExternal => 5
  | reproducibleExecution => 4
  | contemporaneousRecord => 3
  | authoredDocument => 2
  | conversationAssertion => 1

structure Evidence where
  sourceId : PyStr
  description : PyStr
  tier : EvidenceTier
  supports : Bool
  independent : Bool
  reproducible : Bool
  quote : Option PyStr
  locator : Option PyStr
  sha256 : Option PyStr

/-- `quality`: a float that is a whole number. -/
def Evidence.quality (e : Evidence) : Nat :=
  e.tier.value + (if e.independent then 1 else 0) + if e.reproducible then 1 else 0

structure Claim where
  claimId : PyStr
  text : PyStr
  claimType : PyStr
  sourceContext : PyStr
  prediction : Bool
  requiredEvidence : List PyStr

structure ClaimResult where
  claim : Claim
  evidence : List Evidence
  verdict : Verdict
  rationale : String
  nextAction : String

-- == evaluate

/-- `max((e.quality for e in items), default=0.0)`. -/
def best (items : List Evidence) : Nat := (items.map Evidence.quality).foldr max 0

def support (evidence : List Evidence) : List Evidence := evidence.filter Evidence.supports

def adverse (evidence : List Evidence) : List Evidence := evidence.filter fun e => !e.supports

/-- The verdict, with its rationale and what to do next. -/
def judge (claim : Claim) (evidence : List Evidence) : Verdict × String × String :=
  let bestSupport := best (support evidence)
  let bestAdverse := best (adverse evidence)
  let independentSupport := (support evidence).filter Evidence.independent
  let reproducibleSupport := (support evidence).filter Evidence.reproducible
  if claim.prediction && decide (bestAdverse < EvidenceTier.primaryExternal.value) then
    (.prediction, "The statement is forward-looking; available evidence can document the "
      ++ "prediction but not establish its future outcome.",
      "Test the prediction against a preregistered external measurement or experiment.")
  else if bestSupport ≤ bestAdverse ∧ EvidenceTier.reproducibleExecution.value ≤ bestAdverse then
    (.contradicted, "Higher-quality adverse evidence outweighs the available supporting evidence.",
      "Withdraw, narrow, or explicitly supersede the claim unless stronger contrary evidence "
      ++ "is produced.")
  else if !independentSupport.isEmpty
      && decide (EvidenceTier.primaryExternal.value ≤ bestSupport) then
    (.verified, "At least one high-quality independent primary source supports the claim and no "
      ++ "equal-or-stronger contradiction is present.",
      "Preserve source identity, retrieval metadata, and hashes; periodically re-check "
      ++ "time-sensitive claims.")
  else if !reproducibleSupport.isEmpty
      && decide (EvidenceTier.reproducibleExecution.value ≤ bestSupport) then
    (.partiallyVerified, "The computational or mathematical result is reproducible, but "
      ++ "independent empirical validation is absent or incomplete.",
      "Run the same test on external data or obtain an independent reproduction.")
  else if !(support evidence).isEmpty
      && decide (EvidenceTier.authoredDocument.value ≤ bestSupport) then
    (.documentedOnly, "The available evidence establishes that the claim is documented, not that "
      ++ "the underlying proposition is independently true.",
      "Acquire independent primary records, execution receipts, or externally reproducible "
      ++ "measurements.")
  else
    (.insufficientEvidence,
      "No evidence of sufficient quality was supplied to verify or contradict the claim.",
      "Collect the minimum evidence listed for this claim and rerun verification.")

def remark (evidence : List Evidence) (verdict : Verdict) : String :=
  if !(support evidence).isEmpty && !(adverse evidence).isEmpty
      && decide (verdict ≠ .contradicted ∧ verdict ≠ .prediction) then
    " Conflicting evidence is retained in the ledger rather than discarded."
  else ""

def evaluate (claim : Claim) (evidence : List Evidence) : ClaimResult :=
  let (verdict, rationale, nextAction) := judge claim evidence
  ⟨claim, evidence, verdict, rationale ++ remark evidence verdict, nextAction⟩

-- == best item

variable {items : List Evidence} {n : Nat} {e : Evidence}

theorem le_best (hn : 0 < n) : n ≤ best items ↔ ∃ e ∈ items, n ≤ e.quality := by
  unfold best
  induction items with
  | nil => simp; omega
  | cons e rest ih =>
    rw [List.map_cons, List.foldr_cons, le_max_iff, ih]
    simp

theorem best_le : best items ≤ n ↔ ∀ e ∈ items, e.quality ≤ n := by
  unfold best
  induction items with
  | nil => simp
  | cons e rest ih =>
    rw [List.map_cons, List.foldr_cons, Nat.max_le, ih, List.forall_mem_cons]

theorem mem_support {evidence : List Evidence} :
    e ∈ support evidence ↔ e ∈ evidence ∧ e.supports = true := List.mem_filter

theorem mem_adverse {evidence : List Evidence} :
    e ∈ adverse evidence ↔ e ∈ evidence ∧ e.supports = false := by
  unfold adverse
  rw [List.mem_filter, Bool.not_eq_true']

theorem nonempty_filter {p : Evidence → Bool} :
    (!(items.filter p).isEmpty) = true ↔ ∃ e ∈ items, p e = true := by
  rw [Bool.not_eq_true', List.isEmpty_eq_false_iff_exists_mem]
  simp only [List.mem_filter]

-- == deserved

section Deserved

variable (claim : Claim) (evidence : List Evidence)

def Supported (p : Evidence → Prop) : Prop := ∃ e ∈ evidence, e.supports = true ∧ p e

/-- The support is not weighed: a prediction that nothing external speaks against, or an adverse
item at least as good as every supporting one. -/
def Silenced : Prop :=
  (claim.prediction = true ∧ ∀ e ∈ evidence, e.supports = false → e.quality < 5)
    ∨ ∃ e ∈ evidence, e.supports = false ∧ 4 ≤ e.quality
      ∧ ∀ e' ∈ evidence, e'.supports = true → e'.quality ≤ e.quality

def Evidence.IsPrimary (e : Evidence) : Prop :=
  e.independent = true ∧ e.tier = .primaryExternal

/-- A reproducible item that is good by itself. -/
def Evidence.IsReproduced (e : Evidence) : Prop := e.reproducible = true ∧ 4 ≤ e.quality

/-- No verdict can be put together from several items. -/
def Deserved : Prop :=
  Silenced claim evidence ∨ Supported evidence Evidence.IsPrimary
    ∨ ((∀ e ∈ evidence, e.supports = true → e.independent = false)
          ∨ ∀ e ∈ evidence, e.supports = true → e.quality < 5)
      ∧ (Supported evidence Evidence.IsReproduced
          ∨ (∀ e ∈ evidence, e.supports = true → e.reproducible = false)
          ∨ ∀ e ∈ evidence, e.supports = true → e.quality < 4)

end Deserved

-- == verdicts

section Verdicts

variable {claim : Claim} {evidence : List Evidence}

theorem not_supported {p : Evidence → Prop} :
    ¬ Supported evidence p ↔ ∀ e ∈ evidence, e.supports = true → ¬ p e := by
  unfold Supported
  push Not
  rfl

theorem supported_filter {p : Evidence → Bool} : (!((support evidence).filter p).isEmpty) = true
      ↔ Supported evidence fun e => p e = true := by
  rw [nonempty_filter]
  simp only [mem_support, and_assoc]
  rfl

theorem supported_best {n : Nat} (hn : 0 < n) :
    n ≤ best (support evidence) ↔ Supported evidence fun e => n ≤ e.quality := by
  rw [le_best hn]
  simp only [mem_support, and_assoc]
  rfl

theorem outweighed_iff :
    best (support evidence) ≤ best (adverse evidence) ∧ 4 ≤ best (adverse evidence)
      ↔ ∃ e ∈ evidence, e.supports = false ∧ 4 ≤ e.quality
        ∧ ∀ e' ∈ evidence, e'.supports = true → e'.quality ≤ e.quality := by
  constructor
  · rintro ⟨hle, hfour⟩
    obtain ⟨e, he, hbest⟩ := (le_best (Nat.lt_of_lt_of_le (by decide) hfour)).mp
      (Nat.le_refl (best (adverse evidence)))
    obtain ⟨hmem, hsupports⟩ := mem_adverse.mp he
    refine ⟨e, hmem, hsupports, hfour.trans hbest, fun e' he' hs => ?_⟩
    exact (best_le.mp hle e' (mem_support.mpr ⟨he', hs⟩)).trans hbest
  · rintro ⟨e, he, hsupports, hfour, hall⟩
    have hbest : e.quality ≤ best (adverse evidence) :=
      best_le.mp (Nat.le_refl _) e (mem_adverse.mpr ⟨he, hsupports⟩)
    refine ⟨best_le.mpr fun e' he' => ?_, hfour.trans hbest⟩
    obtain ⟨hmem, hs⟩ := mem_support.mp he'
    exact (hall e' hmem hs).trans hbest

theorem silenced_iff : (claim.prediction && decide (best (adverse evidence) < 5)) = true
        ∨ (best (support evidence) ≤ best (adverse evidence) ∧ 4 ≤ best (adverse evidence))
      ↔ Silenced claim evidence := by
  unfold Silenced
  rw [outweighed_iff, Bool.and_eq_true, decide_eq_true_eq]
  refine or_congr_left (and_congr_right fun _ => ?_)
  rw [show best (adverse evidence) < 5 ↔ best (adverse evidence) ≤ 4 from Nat.lt_succ_iff, best_le]
  simp only [mem_adverse, Nat.lt_succ_iff, and_imp]

theorem verdict_spec : ((evaluate claim evidence).verdict = .verified
      ↔ ¬ Silenced claim evidence ∧ Supported evidence (fun e => e.independent = true)
        ∧ Supported evidence fun e => 5 ≤ e.quality)
    ∧ ((evaluate claim evidence).verdict = .partiallyVerified ↔ ¬ Silenced claim evidence
        ∧ ¬ (Supported evidence (fun e => e.independent = true)
          ∧ Supported evidence fun e => 5 ≤ e.quality)
        ∧ Supported evidence (fun e => e.reproducible = true)
        ∧ Supported evidence fun e => 4 ≤ e.quality) := by
  rw [← silenced_iff, ← supported_filter, ← supported_filter, ← supported_best (by decide),
    ← supported_best (by decide)]
  show ((judge claim evidence).1 = _ ↔ _) ∧ ((judge claim evidence).1 = _ ↔ _)
  unfold judge
  dsimp only
  split
  · next hp =>
    exact ⟨iff_of_false nofun fun h => h.1 (Or.inl hp), iff_of_false nofun fun h => h.1 (Or.inl hp)⟩
  split
  · next ho =>
    exact ⟨iff_of_false nofun fun h => h.1 (Or.inr ho), iff_of_false nofun fun h => h.1 (Or.inr ho)⟩
  next hp ho =>
  split
  · next hv =>
    rw [Bool.and_eq_true, decide_eq_true_eq] at hv
    exact ⟨iff_of_true rfl ⟨not_or_intro hp ho, hv⟩, iff_of_false nofun fun h => h.2.1 hv⟩
  next hv =>
  rw [Bool.and_eq_true, decide_eq_true_eq] at hv
  split
  · next hr =>
    rw [Bool.and_eq_true, decide_eq_true_eq] at hr
    exact ⟨iff_of_false nofun fun h => hv h.2, iff_of_true rfl ⟨not_or_intro hp ho, hv, hr⟩⟩
  next hr =>
  rw [Bool.and_eq_true, decide_eq_true_eq] at hr
  split
  · exact ⟨iff_of_false nofun fun h => hv h.2, iff_of_false nofun fun h => hr h.2.2⟩
  · exact ⟨iff_of_false nofun fun h => hv h.2, iff_of_false nofun fun h => hr h.2.2⟩

theorem Evidence.IsPrimary.quality {e : Evidence} (h : e.IsPrimary) : 5 ≤ e.quality := by
  unfold Evidence.quality
  rw [h.2]
  exact Nat.le_add_right_of_le (Nat.le_add_right _ _)

theorem Supported.imp {p q : Evidence → Prop} (h : Supported evidence p) (hpq : ∀ e, p e → q e) :
    Supported evidence q := by
  obtain ⟨e, he, hs, hp⟩ := h
  exact ⟨e, he, hs, hpq e hp⟩

theorem not_verified_of_tier (h : ∀ e ∈ evidence, e.supports = true → e.tier.value ≤ 2) :
    (evaluate claim evidence).verdict ≠ .verified := by
  intro hverified
  obtain ⟨-, -, e, he, hs, hquality⟩ := verdict_spec.1.mp hverified
  have htier := h e he hs
  have hbonus : e.quality ≤ e.tier.value + 2 := by
    unfold Evidence.quality
    split <;> split <;> omega
  omega

/-- A verdict rests on one item that deserves it exactly if none can be put together from several;
authored documents and assertions never verify a claim. -/
theorem verdict_deserved (claim : Claim) (evidence : List Evidence) :
    (((evaluate claim evidence).verdict = .verified → Supported evidence Evidence.IsPrimary)
        ∧ ((evaluate claim evidence).verdict = .partiallyVerified →
          Supported evidence Evidence.IsReproduced)
      ↔ Deserved claim evidence) ∧ ((∀ e ∈ evidence, e.supports = true →
        e.tier = .authoredDocument ∨ e.tier = .conversationAssertion) →
      (evaluate claim evidence).verdict ≠ .verified) := by
  constructor
  · have hprimary : Supported evidence Evidence.IsPrimary →
        Supported evidence (fun e => e.independent = true)
          ∧ Supported evidence fun e => 5 ≤ e.quality :=
      fun h => ⟨h.imp fun _ h => h.1, h.imp fun _ h => h.quality⟩
    have hindependent : (∀ e ∈ evidence, e.supports = true → e.independent = false)
        ↔ ¬ Supported evidence fun e => e.independent = true := by
      simp only [not_supported, Bool.not_eq_true]
    have hreproducible : (∀ e ∈ evidence, e.supports = true → e.reproducible = false)
        ↔ ¬ Supported evidence fun e => e.reproducible = true := by
      simp only [not_supported, Bool.not_eq_true]
    have hfive : (∀ e ∈ evidence, e.supports = true → e.quality < 5)
        ↔ ¬ Supported evidence fun e => 5 ≤ e.quality := by
      simp only [not_supported, Nat.not_le]
    have hfour : (∀ e ∈ evidence, e.supports = true → e.quality < 4)
        ↔ ¬ Supported evidence fun e => 4 ≤ e.quality := by
      simp only [not_supported, Nat.not_le]
    unfold Deserved
    rw [verdict_spec.1, verdict_spec.2, hindependent, hreproducible, hfive, hfour]
    by_cases hsilenced : Silenced claim evidence
    · exact iff_of_true ⟨fun h => absurd hsilenced h.1, fun h => absurd hsilenced h.1⟩
        (Or.inl hsilenced)
    by_cases hboth : Supported evidence (fun e => e.independent = true)
        ∧ Supported evidence fun e => 5 ≤ e.quality
    · -- verified, so what is to be deserved is the primary source
      constructor
      · intro h
        exact Or.inr (Or.inl (h.1 ⟨hsilenced, hboth⟩))
      · rintro (h | h | ⟨hnot, -⟩)
        · exact absurd h hsilenced
        · exact ⟨fun _ => h, fun h => absurd hboth h.2.1⟩
        · exact absurd hboth (not_and_or.mpr hnot)
    · constructor
      · intro h
        refine Or.inr (Or.inr ⟨not_and_or.mp hboth, ?_⟩)
        by_cases hgood : Supported evidence (fun e => e.reproducible = true)
            ∧ Supported evidence fun e => 4 ≤ e.quality
        · exact Or.inl (h.2 ⟨hsilenced, hboth, hgood⟩)
        · exact Or.inr (not_and_or.mp hgood)
      · rintro (h | h | ⟨-, hreproduced | hnot⟩)
        · exact absurd h hsilenced
        · exact absurd (hprimary h) hboth
        · exact ⟨fun h => absurd h.2 hboth, fun _ => hreproduced⟩
        · exact ⟨fun h => absurd h.2 hboth, fun h => absurd h.2.2 (not_and_or.mpr hnot)⟩
  · intro h
    refine not_verified_of_tier fun e he hs => ?_
    rcases h e he hs with htier | htier <;> rw [htier] <;> decide

end Verdicts

-- == adverse evidence

section Adverse

variable {claim : Claim} {evidence added : List Evidence}

/-- The best support is better than every adverse item, one of which is as good as an external
source: what a prediction must have to leave its own rung and still stand. -/
def Overpowers (evidence : List Evidence) : Prop :=
  (∃ e ∈ evidence, e.supports = false ∧ 5 ≤ e.quality)
    ∧ Supported evidence fun s => ∀ e ∈ evidence, e.supports = false → e.quality < s.quality

theorem Evidence.bonus_of_quality {e : Evidence} (h : 6 ≤ e.quality) :
    e.independent = true ∨ e.reproducible = true := by
  unfold Evidence.quality at h
  have htier : e.tier.value ≤ 5 := by cases e.tier <;> decide
  cases hi : e.independent with
  | true => exact Or.inl rfl
  | false =>
    cases hr : e.reproducible with
    | true => exact Or.inr rfl
    | false =>
      rw [hi, hr] at h
      exact absurd (h.trans htier) (by decide)

theorem not_silenced_prediction (hpred : claim.prediction = true) :
    ¬ Silenced claim evidence ↔ (∃ e ∈ evidence, e.supports = false ∧ 5 ≤ e.quality)
      ∧ ∀ e ∈ evidence, e.supports = false → 4 ≤ e.quality →
        Supported evidence fun s => e.quality < s.quality := by
  unfold Silenced Supported
  push Not
  exact and_congr_left fun _ => ⟨fun h => h hpred, fun h _ => h⟩

theorem overpowers_iff (hpred : claim.prediction = true) :
    Overpowers evidence ↔ ¬ Silenced claim evidence := by
  rw [not_silenced_prediction hpred]
  refine and_congr_right ?_
  rintro ⟨e, he, hsupports, hfive⟩
  constructor
  · rintro ⟨s, hs, hsup, hbeats⟩ e' he' hadverse -
    exact ⟨s, hs, hsup, hbeats e' he' hadverse⟩
  · intro h
    have hbest : 5 ≤ best (adverse evidence) :=
      (le_best (by decide)).mpr ⟨e, mem_adverse.mpr ⟨he, hsupports⟩, hfive⟩
    obtain ⟨b, hb, hmax⟩ := (le_best (Nat.lt_of_lt_of_le (by decide) hbest)).mp
      (Nat.le_refl (best (adverse evidence)))
    obtain ⟨hbmem, hbadverse⟩ := mem_adverse.mp hb
    obtain ⟨s, hs, hsup, hlt⟩ := h b hbmem hbadverse (Nat.le_trans (by decide) (hbest.trans hmax))
    refine ⟨s, hs, hsup, fun e' he' hadverse => ?_⟩
    have hle : e'.quality ≤ best (adverse evidence) :=
      best_le.mp (Nat.le_refl _) e' (mem_adverse.mpr ⟨he', hadverse⟩)
    exact Nat.lt_of_le_of_lt (hle.trans hmax) hlt

theorem prediction_established (hpred : claim.prediction = true) :
    (evaluate claim evidence).verdict = .verified
        ∨ (evaluate claim evidence).verdict = .partiallyVerified
      ↔ Overpowers evidence := by
  rw [verdict_spec.1, verdict_spec.2, overpowers_iff hpred]
  constructor
  · rintro (h | h)
    · exact h.1
    · exact h.1
  · intro hsilenced
    obtain ⟨⟨e, he, hsupports, hfive⟩, s, hs, hsup, hbeats⟩ :=
      (overpowers_iff hpred).mpr hsilenced
    have hsix : 6 ≤ s.quality := Nat.lt_of_le_of_lt hfive (hbeats e he hsupports)
    by_cases hindependent : Supported evidence fun e => e.independent = true
    · exact Or.inl ⟨hsilenced, hindependent, s, hs, hsup, Nat.le_of_succ_le hsix⟩
    · refine Or.inr ⟨hsilenced, fun h => hindependent h.1, ?_, s, hs, hsup,
        Nat.le_trans (by decide) hsix⟩
      rcases Evidence.bonus_of_quality hsix with hi | hr
      · exact absurd ⟨s, hs, hsup, hi⟩ hindependent
      · exact ⟨s, hs, hsup, hr⟩

theorem supported_append (hadverse : ∀ e ∈ added, e.supports = false) {p : Evidence → Prop} :
    Supported (evidence ++ added) p ↔ Supported evidence p := by
  constructor
  · rintro ⟨e, he, hs, hp⟩
    rcases List.mem_append.mp he with he | he
    · exact ⟨e, he, hs, hp⟩
    · rw [hadverse e he] at hs
      cases hs
  · rintro ⟨e, he, hs, hp⟩
    exact ⟨e, List.mem_append_left _ he, hs, hp⟩

theorem Silenced.append (hpred : claim.prediction = false)
    (hadverse : ∀ e ∈ added, e.supports = false) (h : Silenced claim evidence) :
    Silenced claim (evidence ++ added) := by
  rcases h with ⟨hp, -⟩ | ⟨e, he, hsupports, hfour, hbeats⟩
  · rw [hpred] at hp
    cases hp
  · refine Or.inr ⟨e, List.mem_append_left _ he, hsupports, hfour, fun s hs hsup => ?_⟩
    rcases List.mem_append.mp hs with hs | hs
    · exact hbeats s hs hsup
    · rw [hadverse s hs] at hsup
      cases hsup

theorem verified_of_append (hpred : claim.prediction = false)
    (hadverse : ∀ e ∈ added, e.supports = false)
    (h : (evaluate claim (evidence ++ added)).verdict = .verified) :
    (evaluate claim evidence).verdict = .verified := by
  obtain ⟨hsilenced, hindependent, hquality⟩ := verdict_spec.1.mp h
  rw [supported_append hadverse] at hindependent hquality
  exact verdict_spec.1.mpr ⟨fun h => hsilenced (h.append hpred hadverse), hindependent, hquality⟩

/-- Adverse evidence never verifies a claim and a prediction is never established, exactly if no
support of a prediction is better than an adverse item as good as an external source. -/
theorem adverse_iff (claim : Claim) (evidence added : List Evidence)
    (hadverse : ∀ e ∈ added, e.supports = false) : (((evaluate claim evidence).verdict ≠ .verified →
          (evaluate claim (evidence ++ added)).verdict ≠ .verified)
        ∧ (claim.prediction = true → ∀ items ∈ [evidence, evidence ++ added],
          (evaluate claim items).verdict ≠ .verified
            ∧ (evaluate claim items).verdict ≠ .partiallyVerified))
      ↔ (claim.prediction = true → ¬ Overpowers evidence ∧ ¬ Overpowers (evidence ++ added)) := by
  cases hpred : claim.prediction with
  | false =>
    refine iff_of_true ⟨fun hnot h => hnot (verified_of_append hpred hadverse h), ?_⟩ ?_
    · intro h
      cases h
    · intro h
      cases h
  | true =>
    simp only [List.forall_mem_cons, List.not_mem_nil, false_imp_iff, implies_true, and_true,
      ← not_or, prediction_established hpred, forall_const]
    constructor
    · exact fun h => h.2
    · refine fun h => ⟨fun _ hverified => ?_, h⟩
      exact h (Or.inr ((prediction_established hpred).mp (Or.inl hverified)))

end Adverse

namespace Sample

def item (tier : EvidenceTier) (independent reproducible : Bool) : Evidence :=
  ⟨py "s", py "d", tier, true, independent, reproducible, none, none, none⟩

def claim : Claim := ⟨py "CLM-0001", py "It works.", py "general", py "conversation", false, []⟩

/-- A run of one's own and an independent assertion make a verified claim. -/
theorem run_and_word : (evaluate claim [item .reproducibleExecution false true,
        item .conversationAssertion true false]).verdict = .verified
      ∧ ¬ Supported [item .reproducibleExecution false true,
        item .conversationAssertion true false] Evidence.IsPrimary := by
  refine ⟨by decide, ?_⟩
  rintro ⟨e, he, -, hindependent, htier⟩
  rcases List.mem_cons.mp he with rfl | he
  · cases htier
  · rw [List.mem_singleton.mp he] at htier
    cases htier

def forecast : Claim := ⟨py "CLM-0002", py "It will work.", py "general", py "conversation", true, []⟩

/-- A forecast with the best support there can be, and an external source against it. -/
def against : Evidence :=
  ⟨py "t", py "d", .primaryExternal, false, false, false, none, none, none⟩

/-- One source against a forecast verifies it. -/
theorem forecast_verified :
    (evaluate forecast [item .primaryExternal true true]).verdict = .prediction
      ∧ (evaluate forecast ([item .primaryExternal true true] ++ [against])).verdict
        = .verified := by decide

theorem forecast_adverse : (∀ e ∈ [against], e.supports = false)
      ∧ ¬ (forecast.prediction = true → ¬ Overpowers [item .primaryExternal true true]
        ∧ ¬ Overpowers ([item .primaryExternal true true] ++ [against])) := by
  have hadverse : ∀ e ∈ [against], e.supports = false := by
    intro e he
    rw [List.mem_singleton.mp he]
    rfl
  refine ⟨hadverse, fun h => ?_⟩
  refine ((adverse_iff forecast [item .primaryExternal true true] [against] hadverse).mpr h).1 ?_ ?_
  · decide
  · decide

end Sample

end Centinal26.Claims
