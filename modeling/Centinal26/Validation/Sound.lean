/-
The validator accepts exactly the valid bundles.
-/
import Centinal26.Validation.Records
import Mathlib.Data.List.Dedup

namespace Centinal26.Validation

open Py Check

variable {F : PyStr → Option DateTime} {now : Instant}

-- == roots

def EveryRecord (Valid : PyVal → Items → Prop) (values : List PyVal) : Prop :=
  ∀ value ∈ values, ∃ item, Valid value item

/-- The ids of a collection are different. -/
def DistinctIds (idField : String) (values : List PyVal) : Prop :=
  ((identified idField values).map Prod.fst).Nodup

/-- The arrays of a bundle. -/
structure Collections where
  authorizations : List PyVal
  evidence : List PyVal
  operations : List PyVal
  claims : List PyVal
  promotions : List PyVal
  terminalEvents : List PyVal

def Collections.authorizationIndex (c : Collections) : Index :=
  identified "authorization_id" c.authorizations

def Collections.evidenceIndex (c : Collections) : Index := identified "evidence_id" c.evidence

def Collections.operationIndex (c : Collections) : Index := identified "operation_id" c.operations

/-- A root has exactly the fields of a bundle, with these arrays. -/
structure RootOf (root : Items) (c : Collections) : Prop where
  record : RecordOf bundleSchema bundleFields (.dict root) root
  authorizations : itemOf root "authorizations" = .list c.authorizations
  evidence : itemOf root "evidence" = .list c.evidence
  operations : itemOf root "operations" = .list c.operations
  claims : itemOf root "claims" = .list c.claims
  promotions : itemOf root "promotions" = .list c.promotions
  terminalEvents : itemOf root "terminal_events" = .list c.terminalEvents

/-- No id occurs twice in a collection. -/
structure Collections.Distinct (c : Collections) : Prop where
  authorizations : DistinctIds "authorization_id" c.authorizations
  evidence : DistinctIds "evidence_id" c.evidence
  operations : DistinctIds "operation_id" c.operations
  claims : DistinctIds "claim_id" c.claims
  promotions : DistinctIds "promotion_id" c.promotions
  terminalEvents : DistinctIds "terminal_event_id" c.terminalEvents

/-- Every record is valid, with what it refers to. -/
structure Collections.Valid (F : PyStr → Option DateTime) (now : Instant) (c : Collections) :
    Prop where
  authorizations : EveryRecord (AuthorizationOf F now) c.authorizations
  evidence : EveryRecord (EvidenceOf F now) c.evidence
  operations : EveryRecord (OperationOf c.authorizationIndex c.evidenceIndex) c.operations
  claims : EveryRecord (ClaimOf c.evidenceIndex) c.claims
  promotions : EveryRecord (PromotionOf c.evidenceIndex c.operationIndex) c.promotions
  terminalEvents : EveryRecord (TerminalOf c.evidenceIndex c.operationIndex) c.terminalEvents

def ValidBundle (F : PyStr → Option DateTime) (now : Instant) (bundle : PyVal) : Prop :=
  ∃ root c, bundle = .dict root ∧ RootOf root c ∧ c.Distinct ∧ c.Valid F now

-- == checks

variable {root : Items} {values : List PyVal}

theorem clean_checkRoot :
    (checkRoot root).Clean () ↔ RecordOf bundleSchema bundleFields (.dict root) root := by
  unfold checkRoot
  simp only [clean_bind, clean_each_add fun _ => not_clean_add, clean_check, sortedNames_eq_nil,
    List.map_eq_nil_iff, missing_eq_nil, extra_eq_nil]
  constructor
  · rintro ⟨-, hcomplete, -, hclosed, hs⟩
    rw [has_field (by decide) hcomplete] at hs
    exact ⟨rfl, hcomplete, hclosed, PyVal.eq_str.mp hs⟩
  · intro h
    refine ⟨(), h.complete, (), h.closed, ?_⟩
    rw [PyVal.eq_str.mpr h.schema, Bool.or_true]

theorem clean_collection {name : String}
    (hroot : RecordOf bundleSchema bundleFields (.dict root) root) (hname : name ∈ bundleFields) :
    (collection root name).Clean values ↔ itemOf root name = .list values := by
  unfold collection
  split
  · next values' hv =>
    rw [clean_pure, PyVal.list?_eq.mp hv]
    exact PyVal.list.injEq .. ▸ Iff.rfl
  · next hv =>
    constructor
    · intro h
      obtain ⟨_, hcheck, -⟩ := clean_bind.mp h
      have hnot := clean_check.mp hcheck
      rw [has_field hname hroot.complete] at hnot
      cases hnot
    · intro hlist
      rw [PyVal.list?_eq.mpr hlist] at hv
      cases hv

theorem clean_every {f : Nat → PyVal → Check Unit} {V : PyVal → Items → Prop}
    (h : ∀ {index value}, (f index value).Clean () ↔ ∃ item, V value item)
    : (each f 0 values).Clean () ↔ EveryRecord V values :=
  clean_each (f := f) (P := fun value => ∃ item, V value item) fun _ _ => h

theorem clean_index {idField collection singular : String} {index : Index} :
    (indexUnique idField collection singular 0 [] values).Clean index
      ↔ index = identified idField values ∧ DistinctIds idField values := by
  have hnil : (([] : Index).map Prod.fst).Nodup := List.nodup_nil
  rw [clean_indexUnique hnil, List.nil_append]
  constructor
  · rintro ⟨rfl, honce⟩
    exact ⟨rfl, honce⟩
  · rintro ⟨rfl, honce⟩
    exact ⟨rfl, honce⟩

theorem allAuthorized {authorizations : List PyVal}
    (hvalid : EveryRecord (AuthorizationOf F now) authorizations)
    (hids : DistinctIds "authorization_id" authorizations) :
    AllAuthorized F now (identified "authorization_id" authorizations) := by
  intro id auth hget
  have hmem := (getItem?_eq_some hids).mp hget
  obtain ⟨value, hvalue, hsome⟩ := List.mem_filterMap.mp hmem
  obtain ⟨item, hitem⟩ := hvalid value hvalue
  refine ⟨value, ?_⟩
  obtain ⟨d, hd, hfound⟩ := Option.bind_eq_some_iff.mp hsome
  rw [PyVal.dict?_eq.mpr hitem.record.record] at hd
  cases hd
  obtain ⟨s, hs, hne⟩ := hitem.id
  rw [hs] at hfound
  cases s with
  | nil => exact absurd rfl hne
  | cons c s =>
    cases hfound
    exact hitem

theorem clean_checkBundle : (checkBundle F now root).Clean ()
      ↔ ∃ c, RootOf root c ∧ c.Distinct ∧ c.Valid F now := by
  unfold checkBundle
  rw [clean_bind]
  constructor
  · rintro ⟨_, hroot, h⟩
    have hrecord := clean_checkRoot.mp hroot
    obtain ⟨authorizations, hauthorizations, h⟩ := clean_bind.mp h
    obtain ⟨evidence, hevidence, h⟩ := clean_bind.mp h
    obtain ⟨operations, hoperations, h⟩ := clean_bind.mp h
    obtain ⟨claims, hclaims, h⟩ := clean_bind.mp h
    obtain ⟨promotions, hpromotions, h⟩ := clean_bind.mp h
    obtain ⟨terminalEvents, hterminalEvents, h⟩ := clean_bind.mp h
    obtain ⟨_, hvalidAuthorizations, h⟩ := clean_bind.mp h
    obtain ⟨_, hvalidEvidence, h⟩ := clean_bind.mp h
    obtain ⟨_, hindex, h⟩ := clean_bind.mp h
    obtain ⟨rfl, hauthorizationIds⟩ := clean_index.mp hindex
    obtain ⟨_, hindex', h⟩ := clean_bind.mp h
    obtain ⟨rfl, hevidenceIds⟩ := clean_index.mp hindex'
    obtain ⟨_, hvalidOperations, h⟩ := clean_bind.mp h
    obtain ⟨_, hindex'', h⟩ := clean_bind.mp h
    obtain ⟨rfl, hoperationIds⟩ := clean_index.mp hindex''
    obtain ⟨_, hvalidClaims, h⟩ := clean_bind.mp h
    obtain ⟨_, hclaimIds, h⟩ := clean_bind.mp h
    obtain ⟨_, hvalidPromotions, h⟩ := clean_bind.mp h
    obtain ⟨_, hpromotionIds, h⟩ := clean_bind.mp h
    obtain ⟨_, hvalidTerminalEvents, h⟩ := clean_bind.mp h
    obtain ⟨_, hterminalEventIds, -⟩ := clean_bind.mp h
    have hvalid :=
      (clean_every (f := checkAuthorization F now) clean_checkAuthorization).mp hvalidAuthorizations
    have hauth := allAuthorized hvalid hauthorizationIds
    refine ⟨⟨authorizations, evidence, operations, claims, promotions, terminalEvents⟩, ?_, ?_, ?_⟩
    · exact {
        record := hrecord
        authorizations := (clean_collection hrecord (by decide)).mp hauthorizations
        evidence := (clean_collection hrecord (by decide)).mp hevidence
        operations := (clean_collection hrecord (by decide)).mp hoperations
        claims := (clean_collection hrecord (by decide)).mp hclaims
        promotions := (clean_collection hrecord (by decide)).mp hpromotions
        terminalEvents := (clean_collection hrecord (by decide)).mp hterminalEvents }
    · exact {
        authorizations := hauthorizationIds
        evidence := hevidenceIds
        operations := hoperationIds
        claims := (clean_index.mp hclaimIds).2
        promotions := (clean_index.mp hpromotionIds).2
        terminalEvents := (clean_index.mp hterminalEventIds).2 }
    · exact {
        authorizations := hvalid
        evidence := (clean_every (f := checkEvidence F now) clean_checkEvidence).mp hvalidEvidence
        operations :=
          (clean_every (f := checkOperation _ _) (clean_checkOperation hauth)).mp hvalidOperations
        claims := (clean_every (f := checkClaim _) clean_checkClaim).mp hvalidClaims
        promotions := (clean_every (f := checkPromotion _ _) clean_checkPromotion).mp hvalidPromotions
        terminalEvents :=
          (clean_every (f := checkTerminal _ _) clean_checkTerminal).mp hvalidTerminalEvents }
  · rintro ⟨c, hroot, hids, hvalid⟩
    have hrecord := hroot.record
    have hauth := allAuthorized hvalid.authorizations hids.authorizations
    refine ⟨(), clean_checkRoot.mpr hrecord, ?_⟩
    refine clean_bind.mpr ⟨_, (clean_collection hrecord (by decide)).mpr hroot.authorizations, ?_⟩
    refine clean_bind.mpr ⟨_, (clean_collection hrecord (by decide)).mpr hroot.evidence, ?_⟩
    refine clean_bind.mpr ⟨_, (clean_collection hrecord (by decide)).mpr hroot.operations, ?_⟩
    refine clean_bind.mpr ⟨_, (clean_collection hrecord (by decide)).mpr hroot.claims, ?_⟩
    refine clean_bind.mpr ⟨_, (clean_collection hrecord (by decide)).mpr hroot.promotions, ?_⟩
    refine clean_bind.mpr ⟨_, (clean_collection hrecord (by decide)).mpr hroot.terminalEvents, ?_⟩
    refine clean_bind.mpr
      ⟨(), (clean_every (f := checkAuthorization F now) clean_checkAuthorization).mpr
      hvalid.authorizations, ?_⟩
    refine clean_bind.mpr ⟨(), (clean_every (f := checkEvidence F now) clean_checkEvidence).mpr
      hvalid.evidence, ?_⟩
    refine clean_bind.mpr ⟨_, clean_index.mpr ⟨rfl, hids.authorizations⟩, ?_⟩
    refine clean_bind.mpr ⟨_, clean_index.mpr ⟨rfl, hids.evidence⟩, ?_⟩
    refine clean_bind.mpr ⟨(), (clean_every (f := checkOperation _ _) (clean_checkOperation hauth)).mpr
      hvalid.operations, ?_⟩
    refine clean_bind.mpr ⟨_, clean_index.mpr ⟨rfl, hids.operations⟩, ?_⟩
    refine clean_bind.mpr ⟨(), (clean_every (f := checkClaim _) clean_checkClaim).mpr hvalid.claims, ?_⟩
    refine clean_bind.mpr ⟨_, clean_index.mpr ⟨rfl, hids.claims⟩, ?_⟩
    refine clean_bind.mpr ⟨(), (clean_every (f := checkPromotion _ _) clean_checkPromotion).mpr
      hvalid.promotions, ?_⟩
    refine clean_bind.mpr ⟨_, clean_index.mpr ⟨rfl, hids.promotions⟩, ?_⟩
    refine clean_bind.mpr ⟨(), (clean_every (f := checkTerminal _ _) clean_checkTerminal).mpr
      hvalid.terminalEvents, ?_⟩
    exact clean_bind.mpr ⟨_, clean_index.mpr ⟨rfl, hids.terminalEvents⟩, clean_pure.mpr rfl⟩

theorem sorted_eq_nil {violations : List Violation} :
    (violations.dedup.mergeSort fun v w => decide (v.Le w)) = [] ↔ violations = [] := by
  rw [← List.length_eq_zero_iff, List.length_mergeSort, List.length_eq_zero_iff, List.dedup_eq_nil]

/-- The validator accepts exactly the valid bundles, wherever it returns. -/
theorem validateBundle_accepts_iff (F : PyStr → Option DateTime) (bundle : PyVal) (now : Instant)
    (violations : List Violation) (h : validateBundle F bundle (.aware now) = .ok violations) :
    violations = [] ↔ ValidBundle F now bundle := by
  unfold validateBundle at h
  split at h
  · next hdict =>
    cases h
    refine iff_of_false (List.cons_ne_nil _ _) ?_
    rintro ⟨root, c, rfl, -⟩
    cases hdict
  · next root hdict =>
    have hroot := PyVal.dict?_eq.mp hdict
    subst hroot
    dsimp only at h
    obtain ⟨now', htime, hrest⟩ := of_bind_ok h
    have hsame := (astimezone_ok.mp htime).2.symm
    subst hsame
    obtain ⟨⟨u, found⟩, hcheck, hlist⟩ := of_bind_ok hrest
    cases hlist
    have hclean : (checkBundle F now root).Clean () ↔ found = [] := by
      unfold Clean
      rw [hcheck]
      constructor
      · intro heq
        exact (Prod.mk.inj (Except.ok.inj heq)).2
      · rintro rfl
        rfl
    rw [sorted_eq_nil, ← hclean, clean_checkBundle]
    constructor
    · rintro ⟨c, hc⟩
      exact ⟨root, c, rfl, hc⟩
    · rintro ⟨root', c, heq, hc⟩
      cases heq
      exact ⟨c, hc⟩

-- == an example

namespace Sample

def object (schema : String) (members : List (String × PyVal)) : PyVal :=
  .dict (("schema", PyVal.str (py schema)) :: members |>.map fun m => (.str (py m.1), m.2))

def name (c : Nat) : PyVal := .str [c]

def refs (cs : List Nat) : PyVal := .list (cs.map name)

/-- The one evidence, which is of the time 1. -/
def evidence : PyVal := object "centinal26-governance-evidence-v1"
  [("evidence_id", name 101), ("sha256", .str (List.replicate 64 48)),
    ("source_type", .str (py "SOURCE")), ("created_at", name 1), ("immutable", .bool true)]

/-- An authorization for the actor 97 by the issuer 98, from the time 1 to the time 3. -/
def authorization : PyVal := object "centinal26-authorization-v1"
  [("authorization_id", name 105), ("issuer", name 98), ("subject", name 97),
    ("capability", name 99), ("scope", .dict []), ("risk_class", .str (py "HIGH")),
    ("issued_at", name 1), ("expires_at", name 3), ("signature", name 115)]

/-- A destructive operation of the actor. -/
def operation : PyVal := object "centinal26-operation-v1"
  [("operation_id", name 111), ("actor", name 97), ("authorization_id", name 105),
    ("capability_id", name 99), ("scope", .dict []), ("risk_class", .str (py "LOW")),
    ("preconditions", .list []), ("postconditions", refs [112]), ("destructive", .bool true),
    ("preservation_evidence_refs", refs [101])]

def claim : PyVal := object "centinal26-claim-v1"
  [("claim_id", name 99), ("status", .str (py "VERIFIED")), ("proposition", name 112),
    ("evidence_refs", refs [101]), ("uncertainty", .none)]

def bundle : PyVal := object bundleSchema
  [("authorizations", .list [authorization]), ("evidence", .list [evidence]),
    ("operations", .list [operation]), ("claims", .list [claim]), ("promotions", .list []),
    ("terminal_events", .list [])]

def fromisoformat : PyStr → Option DateTime
  | [c] => some (.aware c)
  | _ => none

end Sample

/-- A bundle with an operation that is authorized and preserved, and a claim about it, is valid. -/
theorem validateBundle_accepts_sample : ValidBundle Sample.fromisoformat 2 Sample.bundle :=
  (validateBundle_accepts_iff _ _ _ [] (by decide +kernel)).mp rfl

end Centinal26.Validation
