/-
Routing among discovered manifests: the eligible ones that offer a capability, the one of
least rank first.
-/
import Centinal26.Interop.Checkable

namespace Centinal26.Interop

open Py

-- == routing

section Routing

variable (L : Library)

def isRouteEligible (catalog : Option FederationCatalog) (now : Stamp) (raw : Members) :
    Except PyErr Bool := do
  let known := catalog.getD defaultFederationCatalog
  let errors ← validateManifestDict L (some known) now raw
  if errors ≠ [] then .ok false
  else match manifestFromDict L raw with
    | .error e => .error e.raised
    | .ok m =>
      if m.authorizationState ≠ .authorized then .ok false
      else if m.trustTier = .superseded ∨ m.trustTier = .rejected then .ok false
      else if !m.healthLease.status.isLive then .ok false
      else do
        let descriptor ← lookup known m.adapterId
        .ok (decide (descriptor.status ≠ .notConfigured ∧ descriptor.status ≠ .blocked))

/-- `(health_rank, trust_rank, manifest.adapter_id)`. -/
structure Rank where
  health : Nat
  trust : Nat
  adapterId : PyStr

def Rank.lt (a b : Rank) : Prop :=
  a.health < b.health ∨ a.health = b.health ∧ (a.trust < b.trust
      ∨ a.trust = b.trust ∧ a.adapterId < b.adapterId)

instance (a b : Rank) : Decidable (a.lt b) := by
  unfold Rank.lt
  infer_instance

def TrustTier.order : TrustTier → Nat
  | canonical => 0
  | compatibleModule => 1
  | experimental => 2
  | _ => 9

def rankOf (m : AdapterManifest) : Rank :=
  ⟨if m.healthLease.status = .healthy then 0 else 1, m.trustTier.order, shown m.adapterId⟩

def AdapterManifest.offers (m : AdapterManifest) (capabilityId : PyStr) : Bool :=
  m.capabilities.any fun c => c.capabilityId.isStr capabilityId

section Select

variable (catalog : Option FederationCatalog) (now : Stamp) (capabilityId : PyStr)

/-- The loop of `select_route`. -/
def candidates : List Members → Except PyErr (List (Rank × Members))
  | [] => .ok []
  | raw :: rest => do
    if ← isRouteEligible L (some (catalog.getD defaultFederationCatalog)) now raw then
      match manifestFromDict L raw with
      | .error e => .error e.raised
      | .ok m => do
        let more ← candidates rest
        .ok (if m.offers capabilityId then (rankOf m, raw) :: more else more)
    else candidates rest

def selectRoute (manifests : List Members) : Except PyErr (Option Members) := do
  let found ← candidates L catalog now capabilityId manifests
  .ok ((found.mergeSort fun a b => decide (¬ b.1.lt a.1)).head?.map Prod.snd)

-- == eligibility

def eligible (raw : Members) : Bool :=
  match isRouteEligible L (some (catalog.getD defaultFederationCatalog)) now raw with
  | .ok b => b
  | .error _ => false

/-- An eligible manifest that offers the capability, and what it reads as. -/
structure Offering (raw : Members) (m : AdapterManifest) : Prop where
  eligible : eligible L catalog now raw = true
  manifest : manifestFromDict L raw = .ok m
  offers : m.offers capabilityId = true

def candidate? (raw : Members) : Option (Rank × Members) :=
  if eligible L catalog now raw then
    match manifestFromDict L raw with
    | .ok m => if m.offers capabilityId then some (rankOf m, raw) else none
    | .error _ => none
  else none

theorem candidate?_eq_some {raw : Members} {c : Rank × Members} :
    candidate? L catalog now capabilityId raw = some c
      ↔ c.2 = raw ∧ ∃ m, Offering L catalog now capabilityId raw m ∧ c.1 = rankOf m := by
  unfold candidate?
  constructor
  · intro h
    split at h
    · next he =>
      split at h
      · next m hm =>
        split at h
        · next ho =>
          cases h
          exact ⟨rfl, m, ⟨he, hm, ho⟩, rfl⟩
        · cases h
      · cases h
    · cases h
  · intro h
    obtain ⟨rfl, m, ho, hrank⟩ := h
    rw [if_pos ho.eligible, ho.manifest]
    simp only [ho.offers, if_true, ← hrank]

theorem lookup_of_valid {known : FederationCatalog} {t : Int} {m : AdapterManifest}
    (h : manifestErrors L known t m = .ok []) :
    ∃ descriptor, lookup known m.adapterId = .ok descriptor := by
  unfold manifestErrors at h
  obtain ⟨identity, -, h⟩ := of_bind_ok h
  obtain ⟨artifact, -, h⟩ := of_bind_ok h
  obtain ⟨auth, -, h⟩ := of_bind_ok h
  obtain ⟨capabilities, -, h⟩ := of_bind_ok h
  obtain ⟨health, -, h⟩ := of_bind_ok h
  injection h with h
  simp only [List.append_eq_nil_iff] at h
  have hcatalog : catalogErrors m (lookup known m.adapterId).toOption = [] := by tauto
  cases hd : lookup known m.adapterId with
  | ok descriptor => exact ⟨descriptor, rfl⟩
  | error e =>
    rw [hd] at hcatalog
    simp [catalogErrors, Except.toOption] at hcatalog

theorem returns_isRouteEligible (raw : Members) : Returns (isRouteEligible L catalog now raw)
      ↔ Returns (validateManifestDict L catalog now raw) := by
  have hsame : validateManifestDict L (some (catalog.getD defaultFederationCatalog)) now raw
      = validateManifestDict L catalog now raw := by
    cases catalog <;> rfl
  show Returns (validateManifestDict L (some (catalog.getD defaultFederationCatalog)) now raw
    >>= _) ↔ _
  rw [hsame, returns_bind]
  refine ⟨fun h => h.1, fun h => ⟨h, fun errors herrors => ?_⟩⟩
  split
  · exact returns_ok _
  · next hnone =>
    have hempty : errors = [] := by
      by_contra hne
      exact hnone hne
    subst hempty
    unfold validateManifestDict at herrors
    obtain ⟨hits, -, herrors⟩ := of_bind_ok herrors
    cases hm : manifestFromDict L raw with
    | error e =>
      rw [hm] at herrors
      cases e <;> simp at herrors
    | ok m =>
      rw [hm] at herrors
      obtain ⟨t, -, hfound⟩ := of_bind_ok herrors
      obtain ⟨found, hfound, hlast⟩ := of_bind_ok hfound
      injection hlast with hlast
      obtain ⟨-, rfl⟩ := List.append_eq_nil_iff.mp hlast
      obtain ⟨descriptor, hd⟩ := lookup_of_valid L hfound
      simp only
      split
      · exact returns_ok _
      · split
        · exact returns_ok _
        · split
          · exact returns_ok _
          · rw [hd]
            exact returns_ok _

-- == the loop

theorem candidates_eq {ms : List Members}
    (h : ∀ raw ∈ ms, Returns (isRouteEligible L catalog now raw)) :
    candidates L catalog now capabilityId ms
      = .ok (ms.filterMap (candidate? L catalog now capabilityId)) := by
  induction ms with
  | nil => rfl
  | cons raw rest ih =>
    have hrest := ih fun r hr => h r (List.mem_cons_of_mem _ hr)
    have hsame : isRouteEligible L (some (catalog.getD defaultFederationCatalog)) now raw
        = isRouteEligible L catalog now raw := by
      cases catalog <;> rfl
    obtain ⟨b, hb⟩ := h raw (List.mem_cons_self ..)
    have hel : eligible L catalog now raw = b := by
      unfold eligible
      rw [hsame, hb]
    unfold candidates
    rw [hsame, hb, bind_ok_eq, List.filterMap_cons, candidate?, hel]
    cases b with
    | false => exact hrest
    | true =>
      cases hm : manifestFromDict L raw with
      | error e =>
        -- an eligible manifest has been read
        unfold isRouteEligible at hb
        obtain ⟨errors, hvalid, hb⟩ := of_bind_ok hb
        unfold validateManifestDict at hvalid
        obtain ⟨hits, -, hvalid⟩ := of_bind_ok hvalid
        rw [hm] at hvalid hb
        cases e with
        | recursionError => cases hvalid
        | _ =>
          injection hvalid with hvalid
          subst hvalid
          simp at hb
      | ok m =>
        simp only [hrest, bind_ok_eq, if_true]
        cases m.offers capabilityId <;> rfl

theorem Rank.irrefl (a : Rank) : ¬ a.lt a := by
  intro h
  unfold Rank.lt at h
  rcases h with h | ⟨-, h | ⟨-, h⟩⟩
  · omega
  · omega
  · exact lt_irrefl _ h

theorem Rank.trans {a b c : Rank} (hab : a.lt b) (hbc : b.lt c) : a.lt c := by
  unfold Rank.lt at *
  rcases hab with h | ⟨h, h' | ⟨h', hid⟩⟩ <;> rcases hbc with k | ⟨k, k' | ⟨k', kid⟩⟩
  · exact Or.inl (by omega)
  · exact Or.inl (by omega)
  · exact Or.inl (by omega)
  · exact Or.inl (by omega)
  · exact Or.inr ⟨by omega, Or.inl (by omega)⟩
  · exact Or.inr ⟨by omega, Or.inl (by omega)⟩
  · exact Or.inl (by omega)
  · exact Or.inr ⟨by omega, Or.inl (by omega)⟩
  · exact Or.inr ⟨by omega, Or.inr ⟨by omega, lt_trans hid kid⟩⟩

theorem Rank.trichotomy (a b : Rank) : a.lt b ∨ a = b ∨ b.lt a := by
  obtain ⟨ah, at', aid⟩ := a
  obtain ⟨bh, bt, bid⟩ := b
  unfold Rank.lt
  rcases Nat.lt_trichotomy ah bh with h | rfl | h
  · exact Or.inl (Or.inl h)
  · rcases Nat.lt_trichotomy at' bt with h | rfl | h
    · exact Or.inl (Or.inr ⟨rfl, Or.inl h⟩)
    · rcases lt_trichotomy aid bid with h | rfl | h
      · exact Or.inl (Or.inr ⟨rfl, Or.inr ⟨rfl, h⟩⟩)
      · exact Or.inr (Or.inl rfl)
      · exact Or.inr (Or.inr (Or.inr ⟨rfl, Or.inr ⟨rfl, h⟩⟩))
    · exact Or.inr (Or.inr (Or.inr ⟨rfl, Or.inl h⟩))
  · exact Or.inr (Or.inr (Or.inl h))

theorem head?_mergeSort (cs : List (Rank × Members)) :
    match (cs.mergeSort fun a b => decide (¬ b.1.lt a.1)).head? with
    | some c => c ∈ cs ∧ ∀ d ∈ cs, ¬ d.1.lt c.1
    | none => cs = [] := by
  have htrans : ∀ a b c : Rank × Members, decide (¬ b.1.lt a.1) = true →
      decide (¬ c.1.lt b.1) = true → decide (¬ c.1.lt a.1) = true := by
    intro a b c hab hbc
    simp only [decide_eq_true_eq] at *
    intro hca
    rcases Rank.trichotomy b.1 c.1 with h | h | h
    · exact hab (Rank.trans h hca)
    · exact hab (h ▸ hca)
    · exact hbc h
  have htotal : ∀ a b : Rank × Members,
      (decide (¬ b.1.lt a.1) || decide (¬ a.1.lt b.1)) = true := by
    intro a b
    simp only [Bool.or_eq_true, decide_eq_true_eq]
    by_contra h
    simp only [not_or, not_not] at h
    exact Rank.irrefl _ (Rank.trans h.1 h.2)
  have hsorted := List.pairwise_mergeSort htrans htotal cs
  split
  · next c hc =>
    obtain ⟨rest, hrest⟩ : ∃ rest, cs.mergeSort (fun a b => decide (¬ b.1.lt a.1)) = c :: rest := by
      cases hs : cs.mergeSort fun a b => decide (¬ b.1.lt a.1) with
      | nil =>
        rw [hs] at hc
        cases hc
      | cons d rest =>
        rw [hs] at hc
        cases hc
        exact ⟨rest, rfl⟩
    rw [hrest] at hsorted
    have hmem : ∀ d, d ∈ cs ↔ d ∈ c :: rest := by
      intro d
      rw [← hrest, List.mem_mergeSort]
    refine ⟨(hmem c).mpr (List.mem_cons_self ..), fun d hd => ?_⟩
    rcases List.mem_cons.mp ((hmem d).mp hd) with rfl | hd
    · exact Rank.irrefl _
    · exact of_decide_eq_true ((List.pairwise_cons.mp hsorted).1 d hd)
  · next hc =>
    have hnil := List.head?_eq_none_iff.mp hc
    have hlength := congrArg List.length hnil
    rw [List.length_mergeSort] at hlength
    exact List.length_eq_zero_iff.mp hlength

-- == one bad one

/-- Routing looks at eligible manifests only, and takes one that offers the capability
and that no other is before. -/
def RoutesWell (ms : List Members) : Prop :=
  ∃ chosen, selectRoute L catalog now capabilityId ms = .ok chosen
    ∧ selectRoute L catalog now capabilityId (ms.filter (eligible L catalog now)) = .ok chosen
    ∧ match chosen with
      | some raw => raw ∈ ms ∧ ∃ m, Offering L catalog now capabilityId raw m
          ∧ ∀ other ∈ ms, ∀ m', Offering L catalog now capabilityId other m' →
              ¬ (rankOf m').lt (rankOf m)
      | none => ∀ other ∈ ms, ∀ m, ¬ Offering L catalog now capabilityId other m

theorem routesWell_of_returns {ms : List Members}
    (h : ∀ raw ∈ ms, Returns (validateManifestDict L catalog now raw)) :
    RoutesWell L catalog now capabilityId ms := by
  have hreturns : ∀ raw ∈ ms, Returns (isRouteEligible L catalog now raw) := fun raw hraw =>
    (returns_isRouteEligible L catalog now raw).mpr (h raw hraw)
  have hall := candidates_eq L catalog now capabilityId hreturns
  have hkept : ∀ raw ∈ ms.filter (eligible L catalog now),
      Returns (isRouteEligible L catalog now raw) := fun raw hraw =>
    hreturns raw (List.mem_of_mem_filter hraw)
  have hsome := candidates_eq L catalog now capabilityId hkept
  have hsame : (ms.filter (eligible L catalog now)).filterMap
        (candidate? L catalog now capabilityId)
      = ms.filterMap (candidate? L catalog now capabilityId) := by
    rw [List.filterMap_filter]
    refine List.filterMap_congr fun raw _ => ?_
    by_cases he : eligible L catalog now raw = true
    · rw [if_pos he]
    · rw [if_neg he, candidate?, if_neg he]
  refine ⟨_, by rw [selectRoute, hall]; rfl, by rw [selectRoute, hsome, hsame]; rfl, ?_⟩
  have hhead := head?_mergeSort (ms.filterMap (candidate? L catalog now capabilityId))
  cases hc : ((ms.filterMap (candidate? L catalog now capabilityId)).mergeSort
      fun a b => decide (¬ b.1.lt a.1)).head? with
  | none =>
    rw [hc] at hhead
    intro other hother m ho
    have hcand := (candidate?_eq_some L catalog now capabilityId).mpr
      (⟨rfl, m, ho, rfl⟩ : (rankOf m, other).2 = other ∧ _)
    have hmem := List.mem_filterMap.mpr ⟨other, hother, hcand⟩
    have hnone : ms.filterMap (candidate? L catalog now capabilityId) = [] := hhead
    rw [hnone] at hmem
    cases hmem
  | some c =>
    rw [hc] at hhead
    obtain ⟨hmem, hleast⟩ := hhead
    obtain ⟨raw, hraw, hcand⟩ := List.mem_filterMap.mp hmem
    obtain ⟨hsnd, m, ho, hrank⟩ := (candidate?_eq_some L catalog now capabilityId).mp hcand
    show c.2 ∈ ms ∧ _
    rw [hsnd]
    refine ⟨hraw, m, ho, fun other hother m' ho' => ?_⟩
    have hcand' := (candidate?_eq_some L catalog now capabilityId).mpr
      (⟨rfl, m', ho', rfl⟩ : (rankOf m', other).2 = other ∧ _)
    have hnot := hleast _ (List.mem_filterMap.mpr ⟨other, hother, hcand'⟩)
    rw [hrank] at hnot
    exact hnot

/-- Every manifest is validated without an exception and routing is right, just where
every manifest is `Checkable`. -/
theorem routing_iff (ms : List Members) :
    (∀ raw ∈ ms, ∃ errors, validateManifestDict L catalog now raw = .ok errors)
        ∧ RoutesWell L catalog now capabilityId ms
      ↔ ∀ raw ∈ ms, Checkable L now raw := by
  constructor
  · intro h raw hraw
    exact (returns_validateManifestDict L catalog now raw).mp (h.1 raw hraw)
  · intro h
    have hreturns : ∀ raw ∈ ms, Returns (validateManifestDict L catalog now raw) :=
      fun raw hraw => (returns_validateManifestDict L catalog now raw).mpr (h raw hraw)
    exact ⟨hreturns, routesWell_of_returns L catalog now capabilityId hreturns⟩

end Select

end Routing

-- == a number

section Number

/-- A library that knows the three times below. -/
def Library.sample : Library where
  lower s := s
  frames := 990
  repr _ := some "?"
  fromisoformat s :=
    if s = py "2026-08-21T17:00:00+00:00" then .ok ⟨63922928400000000, some 0⟩
    else if s = py "2026-08-21T17:10:00+00:00" then .ok ⟨63922929000000000, some 0⟩
    else .error "Invalid isoformat string"
  fromLocal t := .ok t
  timestamp t :=
    if t = 63922928400000000 then .finite
      ⟨1787331600, [49, 55, 56, 55, 51, 51, 49, 54, 48, 48, 46, 48], by decide +kernel⟩
    else .finite ⟨1787332200, [49, 55, 56, 55, 51, 51, 50, 50, 48, 48, 46, 48], by decide +kernel⟩
  ofInt _ := .finite ⟨60, [54, 48, 46, 48], by decide +kernel⟩
  add _ _ := .finite ⟨1787332260, [49, 55, 56, 55, 51, 51, 50, 50, 54, 48, 46, 48], by decide +kernel⟩

def sampleNow : Stamp := ⟨63922928400000000, some 0⟩

/-- A catalog with the A2A adapter validated. -/
def sampleCatalog : FederationCatalog :=
  .ofDescriptors [adapter "a2a" .protocol ["agent.message"] .connectedValidated]

def sampleManifest (adapterId : Json) : Members :=
  let str (s : String) : Json := .str (py s)
  let obj (ms : List (String × Json)) : Json := .obj (ms.map fun m => (py m.1, m.2))
  [(py "schema_version", str "automation-os.adapter/1.0"), (py "adapter_id", adapterId),
   (py "adapter_version", str "1.0.0"),
   (py "adapter_type", str "remote"),
   (py "protocol", obj [("family", str "a2a"), ("version", str "1.0")]),
   (py "endpoint", str "https://a2a.example/api"),
   (py "authorization_state", str "authorized"),
   (py "trust_tier", str "COMPATIBLE_MODULE"),
   (py "discovery", obj [("agent_card_url", str "https://agent.example/card.json"),
     ("spec_release", str "1.0.0")]),
   (py "auth_profile", obj [("auth_type", str "oauth2"), ("credential_binding", str "issuer_bound"),
     ("storage_policy", str "external_secret_store"),
     ("requires_user_presence", .bool false), ("delegation_allowed", .bool false),
     ("scopes", .arr [str "invoke"])]),
   (py "session_state", obj [("state_id", str "a2a-state"),
     ("transport_semantics", str "task_state"), ("state_owner", str "remote_peer"),
     ("resumable", .bool true), ("protocol_state", obj [("task_ref", str "task-1")])]),
   (py "health_lease", obj [("lease_id", str "a2a-lease"), ("subject_id", str "a2a"),
     ("issued_at", str "2026-08-21T17:00:00+00:00"),
     ("expires_at", str "2026-08-21T17:10:00+00:00"), ("heartbeat_interval_s", .int 30),
     ("grace_s", .int 60), ("status", str "healthy"),
     ("last_seen_at", str "2026-08-21T17:00:00+00:00"), ("renewal_counter", .int 1)]),
   (py "capabilities", .arr [obj [("capability_id", str "a2a.invoke"),
     ("canonical_operation", str "agent.message"), ("protocol_operation", str "message/send"),
     ("required_scopes", .arr [str "invoke"]), ("side_effects", str "reversible"),
     ("verification", str "required"), ("timeout_ms", .int 30000),
     ("concurrency_limit", .int 4)]]),
   (py "artifact", obj [("sha256", .null), ("source", .null), ("license", .null)]),
   (py "metadata", obj [("discovery_is_authority", .bool false)])]

def raisesTypeError {α : Type} : Except PyErr α → Bool
  | .error .typeError => true
  | _ => false

theorem eq_typeError {α : Type} {r : Except PyErr α} (h : raisesTypeError r = true) :
    r = .error .typeError := by
  unfold raisesTypeError at h
  split at h
  · rfl
  · cases h

/-- A manifest whose adapter id is a number raises out of its validation, and takes the
routing of an eligible one with it. -/
theorem number_aborts_routing :
    validateManifestDict .sample (some sampleCatalog) sampleNow (sampleManifest (.int 5))
        = .error .typeError
      ∧ eligible .sample (some sampleCatalog) sampleNow (sampleManifest (.str (py "a2a"))) = true
      ∧ selectRoute .sample (some sampleCatalog) sampleNow (py "a2a.invoke")
          [sampleManifest (.int 5), sampleManifest (.str (py "a2a"))]
        = .error .typeError := by
  have hraises : validateManifestDict .sample (some sampleCatalog) sampleNow
      (sampleManifest (.int 5)) = .error .typeError := eq_typeError (by decide +kernel)
  refine ⟨hraises, by decide +kernel, ?_⟩
  rw [selectRoute, candidates, isRouteEligible, Option.getD_some, Option.getD_some, hraises]
  rfl

end Number

end Centinal26.Interop
