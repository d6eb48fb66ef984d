/-
The compute router: `route_workload` filters the providers and takes the best one that is left.
-/
import Centinal26.Py.Value
import Mathlib.Data.List.MinMax
import Mathlib.Data.List.Nodup
import Mathlib.Data.Prod.Lex
import Mathlib.Algebra.Order.Ring.Rat

namespace Centinal26.Compute

open Py

-- == providers

inductive ProviderStatus : Type
  | connected
  | availableNotConnected
  | blockedConsent
  | requiresConfig
  | notAvailable
deriving DecidableEq

/-- `ComputeProvider`; a finite float is the number it stands for. -/
structure ComputeProvider where
  providerId : PyStr
  status : ProviderStatus
  capabilities : List PyStr
  allowedWorkloads : List PyStr
  prohibitedUses : List PyStr
  cost : Rat
  latency : Rat
  privacyPenalty : Rat
  verificationValue : Rat

structure Workload where
  workloadType : PyStr
  requiredCapabilities : List PyStr
  requiresPhysicalAndroid : Bool
  requiresProviderRecord : Bool
  requiresOriginalBytes : Bool
  requiresOwnerAuthorization : Bool
  requiresOauthConsent : Bool

structure RoutingDecision where
  providerId : Option PyStr
  eligible : Bool
  reason : PyStr
  score : Option Rat
deriving DecidableEq

/-- What floats make of a product and a difference, rounded. -/
structure Arithmetic where
  mul : Rat → Rat → Rat
  sub : Rat → Rat → Rat

-- == routing

def blockedByExternalGate (w : Workload) : Option PyStr :=
  if w.requiresPhysicalAndroid then some (py "PHYSICAL_ANDROID_EXECUTION")
  else if w.requiresProviderRecord then some (py "PROVIDER_HELD_RECORDS")
  else if w.requiresOriginalBytes then some (py "ORIGINAL_EVIDENCE_BYTES")
  else if w.requiresOwnerAuthorization then some (py "OWNER_AUTHORIZATION_FACT")
  else if w.requiresOauthConsent then some (py "OAUTH_EXTERNAL_CONSENT")
  else none

variable (A : Arithmetic)

def score (p : ComputeProvider) : Rat :=
  A.sub (A.sub (A.sub (A.mul p.verificationValue 3) (A.mul p.cost 2)) p.latency)
    (A.mul p.privacyPenalty 2)

/-- The checks of the loop over the providers. -/
def passes (w : Workload) (p : ComputeProvider) : Bool :=
  decide (p.status = .connected) && decide (w.workloadType ∈ p.allowedWorkloads)
    && w.requiredCapabilities.all (fun c => decide (c ∈ p.capabilities))
    && !(decide (py "evidence_substitution" ∈ p.prohibitedUses) && (blockedByExternalGate w).isSome)

def key (p : ComputeProvider) : Rat ×ₗ PyStr := toLex (score A p, p.providerId)

/-- `route_workload`; `max` takes the first of the greatest. -/
def routeWorkload (w : Workload) (providers : List ComputeProvider)
    (satisfiedExternalGates : List PyStr) : RoutingDecision :=
  match (blockedByExternalGate w).filter fun gate => decide (gate ∉ satisfiedExternalGates) with
  | some gate => ⟨none, false, py "blocked by external gate " ++ gate, none⟩
  | none =>
    match (providers.filter (passes w)).argmax (key A) with
    | none => ⟨none, false, py "no connected provider satisfies workload contract", none⟩
    | some p => ⟨some p.providerId, true, py "best eligible bounded provider", some (score A p)⟩

-- == statement

def requiredGates (w : Workload) : List PyStr :=
  [(w.requiresPhysicalAndroid, py "PHYSICAL_ANDROID_EXECUTION"),
    (w.requiresProviderRecord, py "PROVIDER_HELD_RECORDS"),
    (w.requiresOriginalBytes, py "ORIGINAL_EVIDENCE_BYTES"),
    (w.requiresOwnerAuthorization, py "OWNER_AUTHORIZATION_FACT"),
    (w.requiresOauthConsent, py "OAUTH_EXTERNAL_CONSENT")].filterMap fun g =>
      if g.1 then some g.2 else none

def Satisfied (w : Workload) (satisfied : List PyStr) : Prop :=
  ∀ gate ∈ requiredGates w, gate ∈ satisfied

structure Qualifies (w : Workload) (p : ComputeProvider) : Prop where
  connected : p.status = .connected
  allowed : w.workloadType ∈ p.allowedWorkloads
  capable : ∀ c ∈ w.requiredCapabilities, c ∈ p.capabilities
  admits : requiredGates w ≠ [] → py "evidence_substitution" ∉ p.prohibitedUses

/-- What a routing promises. -/
structure Sound (w : Workload) (providers : List ComputeProvider) (satisfied : List PyStr) :
    Prop where
  gates : (routeWorkload A w providers satisfied).eligible = true → Satisfied w satisfied
  best : (routeWorkload A w providers satisfied).eligible = true → ∃ p ∈ providers, Qualifies w p
      ∧ (routeWorkload A w providers satisfied).providerId = some p.providerId
      ∧ (routeWorkload A w providers satisfied).score = some (score A p)
      ∧ ∀ q ∈ providers, Qualifies w q → key A q ≤ key A p
  orderFree : (providers.map ComputeProvider.providerId).Nodup → ∀ providers',
    providers'.Perm providers →
      routeWorkload A w providers' satisfied = routeWorkload A w providers satisfied
  refused : (routeWorkload A w providers satisfied).eligible = false
    ↔ ¬ Satisfied w satisfied ∨ ¬ ∃ p ∈ providers, Qualifies w p

-- == gates

variable {A} {w : Workload} {providers : List ComputeProvider} {satisfied : List PyStr}

theorem blockedByExternalGate_eq (w : Workload) :
    blockedByExternalGate w = (requiredGates w).head? := by
  obtain ⟨_, _, physical, record, original, owner, consent⟩ := w
  cases physical <;> cases record <;> cases original <;> cases owner <;> cases consent <;> rfl

theorem passes_iff (p : ComputeProvider) : passes w p = true ↔ Qualifies w p := by
  have hgates : (blockedByExternalGate w).isSome = true ↔ requiredGates w ≠ [] := by
    rw [blockedByExternalGate_eq, List.isSome_head?]
  unfold passes
  rw [Bool.and_eq_true, Bool.and_eq_true, Bool.and_eq_true, decide_eq_true_eq, decide_eq_true_eq,
    List.all_eq_true, Bool.not_eq_true', Bool.and_eq_false_iff, decide_eq_false_iff_not,
    ← Bool.not_eq_true (Option.isSome _), hgates]
  constructor
  · rintro ⟨⟨⟨hconnected, hallowed⟩, hcapable⟩, hadmits⟩
    refine ⟨hconnected, hallowed, fun c hc => of_decide_eq_true (hcapable c hc), fun hne => ?_⟩
    exact hadmits.resolve_right (not_not_intro hne)
  · intro h
    refine ⟨⟨⟨h.connected, h.allowed⟩, fun c hc => decide_eq_true (h.capable c hc)⟩, ?_⟩
    by_cases hne : requiredGates w = []
    · exact Or.inr (not_not_intro hne)
    · exact Or.inl (h.admits hne)

def FirstSatisfied (w : Workload) (satisfied : List PyStr) : Prop :=
  ∀ gate, (requiredGates w).head? = some gate → gate ∈ satisfied

theorem Satisfied.first (h : Satisfied w satisfied) : FirstSatisfied w satisfied :=
  fun gate hgate => h gate (List.mem_of_head? hgate)

theorem filter_none_iff : (blockedByExternalGate w).filter
    (fun gate => decide (gate ∉ satisfied)) = none ↔ FirstSatisfied w satisfied := by
  rw [blockedByExternalGate_eq, Option.filter_eq_none_iff]
  constructor
  · intro h gate hgate
    simpa using h gate hgate
  · intro h gate hgate
    simpa using h gate hgate

/-- The routing is eligible just if the first gate is satisfied and somebody qualifies. -/
theorem eligible_iff : (routeWorkload A w providers satisfied).eligible = true
    ↔ FirstSatisfied w satisfied ∧ ∃ p ∈ providers, Qualifies w p := by
  unfold routeWorkload
  rw [← filter_none_iff]
  split
  · next gate hgate =>
    rw [hgate]
    exact iff_of_false (nofun) fun h => (by cases h.1)
  · next hnone =>
    rw [hnone]
    split
    · next hbest =>
      refine iff_of_false (nofun) fun h => ?_
      obtain ⟨-, p, hp, hq⟩ := h
      have hmem := List.mem_filter.mpr ⟨hp, (passes_iff p).mpr hq⟩
      rw [List.argmax_eq_none.mp hbest] at hmem
      cases hmem
    · next p hbest =>
      have hmem := List.mem_filter.mp (List.argmax_mem hbest)
      exact iff_of_true rfl ⟨rfl, p, hmem.1, (passes_iff p).mp hmem.2⟩

theorem routed_best (h : (routeWorkload A w providers satisfied).eligible = true) :
    ∃ p ∈ providers, Qualifies w p
      ∧ (routeWorkload A w providers satisfied).providerId = some p.providerId
      ∧ (routeWorkload A w providers satisfied).score = some (score A p)
      ∧ ∀ q ∈ providers, Qualifies w q → key A q ≤ key A p := by
  unfold routeWorkload at h ⊢
  split at h
  · cases h
  · split at h
    · cases h
    · next p hbest =>
      have hmem := List.mem_filter.mp (List.argmax_mem hbest)
      refine ⟨p, hmem.1, (passes_iff p).mp hmem.2, rfl, rfl, fun q hq hqualifies => ?_⟩
      exact List.le_of_mem_argmax (List.mem_filter.mpr ⟨hq, (passes_iff q).mpr hqualifies⟩) hbest

/-- Among providers with identifiers of their own the greatest key is one provider's. -/
theorem argmax_perm {ps ps' : List ComputeProvider}
    (hnodup : (ps.map ComputeProvider.providerId).Nodup) (hperm : ps'.Perm ps) :
    ps'.argmax (key A) = ps.argmax (key A) := by
  cases hbest : ps.argmax (key A) with
  | none =>
    rw [List.argmax_eq_none] at hbest ⊢
    rw [hbest] at hperm
    exact hperm.eq_nil
  | some p =>
    cases hbest' : ps'.argmax (key A) with
    | none =>
      rw [List.argmax_eq_none] at hbest'
      rw [hbest'] at hperm
      rw [hperm.symm.eq_nil] at hbest
      cases hbest
    | some p' =>
      have hp := List.argmax_mem hbest
      have hp' := hperm.mem_iff.mp (List.argmax_mem hbest')
      have hkeys : key A p' = key A p := le_antisymm (List.le_of_mem_argmax hp' hbest)
        (List.le_of_mem_argmax (hperm.mem_iff.mpr hp) hbest')
      have hid : p'.providerId = p.providerId := congrArg (fun k => (ofLex k).2) hkeys
      rw [List.inj_on_of_nodup_map hnodup hp' hp hid]

theorem routed_orderFree (hnodup : (providers.map ComputeProvider.providerId).Nodup)
    {providers' : List ComputeProvider} (hperm : providers'.Perm providers) :
    routeWorkload A w providers' satisfied = routeWorkload A w providers satisfied := by
  unfold routeWorkload
  rw [argmax_perm (hnodup.sublist (List.filter_sublist.map _)) (hperm.filter _)]

-- == result

/-- The router does what it promises just if the first gate decides: where it is satisfied, so
are the others, or nobody qualifies. -/
theorem routed_iff (A : Arithmetic) (w : Workload) (providers : List ComputeProvider)
    (satisfied : List PyStr) : Sound A w providers satisfied
      ↔ (FirstSatisfied w satisfied → (∃ p ∈ providers, Qualifies w p) →
          Satisfied w satisfied) := by
  constructor
  · intro h hfirst hsome
    exact h.gates (eligible_iff.mpr ⟨hfirst, hsome⟩)
  · intro h
    have hgates : (routeWorkload A w providers satisfied).eligible = true →
        Satisfied w satisfied := fun heligible =>
      h (eligible_iff.mp heligible).1 (eligible_iff.mp heligible).2
    refine ⟨hgates, routed_best, fun hnodup _ hperm => routed_orderFree hnodup hperm, ?_⟩
    rw [← Bool.not_eq_true, eligible_iff, ← not_and_or]
    refine not_congr ⟨fun hboth => ⟨h hboth.1 hboth.2, hboth.2⟩, fun hboth =>
      ⟨hboth.1.first, hboth.2⟩⟩

namespace Sample

def arithmetic : Arithmetic := ⟨(· * ·), (· - ·)⟩

def workload : Workload := ⟨py "probe", [], true, false, false, true, false⟩

def phone : ComputeProvider := ⟨py "phone", .connected, [], [py "probe"], [], 0, 0, 0, 0⟩

end Sample

/-- The owner's authorization is skipped where the phone is there. -/
theorem routed_unauthorized : ¬ ∀ A w providers satisfied, Sound A w providers satisfied := by
  intro h
  have hgates := (h Sample.arithmetic Sample.workload [Sample.phone]
    [py "PHYSICAL_ANDROID_EXECUTION"]).gates (by decide +kernel)
  exact absurd (hgates (py "OWNER_AUTHORIZATION_FACT") (by decide)) (by decide)

end Centinal26.Compute
