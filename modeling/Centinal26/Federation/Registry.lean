/-
The registry of the federation: every check of `validate_registry`, in the order of its errors.
-/
import Centinal26.Lib.Cycle
import Centinal26.Py.Loads
import Centinal26.Py.Typed
import Mathlib.Data.List.Dedup
import Mathlib.Data.List.Sort

namespace Centinal26.Federation

open Py

-- == the graph

section

variable {α : Type} [DecidableEq α]

def neighbours (graph : List (α × List α)) (node : α) : List α := (getItem? graph node).getD []

def nodesOf (graph : List (α × List α)) : List α := graph.flatMap fun e => e.1 :: e.2

/-- `_dependency_cycle`: `visiting` has the nodes of the path. -/
def dependencyCycle (graph : List (α × List α)) : Option (Option (List α)) :=
  (Search.visitAll (Search.visit (neighbours graph) ((nodesOf graph).length + 1) [])
    (graph.map Prod.fst) []).map Prod.fst

theorem neighbours_subset (graph : List (α × List α)) (a : α) :
    neighbours graph a ⊆ nodesOf graph := by
  unfold neighbours nodesOf
  induction graph with
  | nil => exact List.nil_subset _
  | cons e graph ih =>
    rw [getItem?_cons, List.flatMap_cons]
    split
    · exact fun b hb => List.mem_append_left _ (List.mem_cons_of_mem _ hb)
    · exact fun b hb => List.mem_append_right _ (ih hb)

/-- The search ends, and finds a cycle just if there is one. -/
theorem dependencyCycle_spec (graph : List (α × List α)) : ∃ r, dependencyCycle graph = some r
      ∧ (r = none ↔ ∀ a, ¬ Relation.TransGen (Search.Edge (neighbours graph)) a a)
      ∧ ∀ c ∈ r, Search.IsCycle (neighbours graph) c := by
  obtain ⟨r, visited, hrun, hnone, hcycle⟩ := @Search.search_spec α _ (neighbours graph)
    (graph.map Prod.fst) (nodesOf graph)
    (fun a ha => by
      obtain ⟨e, he, rfl⟩ := List.mem_map.mp ha
      exact List.mem_flatMap.mpr ⟨e, he, List.mem_cons_self ..⟩)
    (fun a _ => neighbours_subset graph a)
    (fun a ha => by
      by_contra hmem
      exact ha (by rw [neighbours, getItem?_of_not_mem hmem]; rfl))
  exact ⟨r, by rw [dependencyCycle, hrun]; rfl, hnone, hcycle⟩

end

-- == values

/-- The texts of values, and `casefold`. -/
structure Texts where
  str : PyVal → PyStr
  repr : PyVal → PyStr
  casefold : PyStr → PyStr

def listMember (d : Items) (key : String) : Option (List PyVal) :=
  match getItem? d (.str (py key)) with
  | none => some []
  | some v => v.list?

def members (d : Items) (key : String) : List PyVal := (listMember d key).getD []

def PyKey.val : PyKey → PyVal
  | .none => .none
  | .bool b => .bool b
  | .int n => .int n
  | .float x => .float x
  | .str s => .str s
  | .object => .object

/-- What iterating over `d.get(key, [])` gives. -/
def iterate (d : Items) (key : String) : Except PyErr (List PyVal) :=
  match getItem? d (.str (py key)) with
  | none => .ok []
  | some (.list xs) => .ok xs
  | some (.str s) => .ok (s.map fun c => .str [c])
  | some (.dict ms) => .ok (ms.map fun m => PyKey.val m.1)
  | some _ => .error .typeError

/-- `hash(value)`: a list or a dictionary has none. -/
def hashed (v : PyVal) : Except PyErr PyVal :=
  match v with
  | .list _ => .error .typeError
  | .dict _ => .error .typeError
  | v => .ok v

/-- `len(values) == len(set(values))`. -/
def distinct (values : List PyVal) : Except PyErr Bool := do
  let vs ← values.mapM hashed
  .ok (decide (vs.Pairwise fun a b => a.eq b = false))

def isIn (names : List PyStr) (value : PyVal) : Except PyErr Bool := do
  let v ← hashed value
  .ok (names.any fun n => v.eq (.str n))

def errorUnless (condition : Bool) (error : PyStr) : List PyStr := if condition then [] else [error]

def sorted (names : List PyStr) : List PyStr := names.dedup.insertionSort (· ≤ ·)

def namesOf (ids : List PyVal) : List PyStr :=
  ids.filterMap fun v => v.text?.filter fun s => !s.isEmpty

def missing (required : List String) (names : List PyStr) (label : String) : List PyStr :=
  (sorted ((required.map py).filter fun r => !names.contains r)).map fun r => py label ++ r

def requiredProjects : List String :=
  ["automation", "agent_fabric", "cybersecurity", "provenance_recovery", "dedupe_organizer",
    "aaard", "conversation_intelligence", "epistemic_guard", "physics", "test_a_theory",
    "openquestrpg", "creative_canon", "productization"]

def requiredComponents : List String := ["C01", "C02", "C03", "C04", "C05"]

def requiredInvariants : List String :=
  ["no_information_bearing_transformation_without_provenance",
    "detection_and_mutation_are_separate_trust_domains",
    "host_evidence_never_substitutes_for_physical_device_evidence",
    "signatures_and_hashes_attest_integrity_not_semantic_truth",
    "projections_are_rebuildable_not_authoritative",
    "completion_claims_are_release_scoped_and_requalifiable",
    "every_account_goal_has_exactly_one_canonical_project_owner",
    "legacy_names_resolve_to_one_canonical_owner_without_recreating_duplicate_state"]

-- == projects

variable (L : Texts)

def idOf (d : Items) : PyVal := itemOf d "id"

/-- `f"{id}:{text}"`. -/
def about (d : Items) (text : PyStr) : PyStr := L.str (idOf d) ++ 58 :: text

def labelsOf (d : Items) : Except PyErr (List PyVal) := do
  let aliases ← iterate d "aliases"
  let legacy ← iterate d "related_legacy_names"
  .ok (idOf d :: itemOf d "name" :: aliases ++ legacy)

def isLabel (v : PyVal) : Bool := v.text?.any fun s => !(strStrip s).isEmpty

/-- What two labels have to have in common to be one. -/
def labelKey (v : PyVal) : Option PyStr := v.text?.map fun s => L.casefold (strStrip s)

def dependencyErrors (known : List PyStr) (d : Items) (dep : PyVal) :
    Except PyErr (List PyStr) := do
  let isKnown ← isIn known dep
  .ok (errorUnless isKnown (about L d (py "unknown_dependency:" ++ L.str dep))
    ++ errorUnless (!dep.eq (idOf d)) (about L d (py "self_dependency")))

def componentErrors (known : List PyStr) (d : Items) (cid : PyVal) : Except PyErr (List PyStr) := do
  let isKnown ← isIn known cid
  .ok (errorUnless isKnown (about L d (py "unknown_component:" ++ L.str cid)))

def listErrors (d : Items) (key : String) : List PyStr :=
  errorUnless (listMember d key).isSome (about L d (py (key ++ "_not_list")))

def projectErrors (projects components : List PyStr) (d : Items) : Except PyErr (List PyStr) := do
  let depErrors ← (members d "depends_on").mapM (dependencyErrors L projects d)
  let distinctComponents ← distinct (members d "component_ids")
  let cidErrors ← (members d "component_ids").mapM (componentErrors L components d)
  let distinctGoals ← distinct (members d "goal_ids")
  let labels ← labelsOf d
  .ok (errorUnless (itemOf d "name").truthy (about L d (py "missing_name"))
    ++ errorUnless (itemOf d "trust_domain").truthy (about L d (py "missing_trust_domain"))
    ++ errorUnless (itemOf d "state_authority").truthy (about L d (py "missing_state_authority"))
    ++ listErrors L d "depends_on" ++ depErrors.flatten
    ++ listErrors L d "component_ids"
    ++ errorUnless distinctComponents (about L d (py "duplicate_component_id")) ++ cidErrors.flatten
    ++ listErrors L d "goal_ids" ++ errorUnless distinctGoals (about L d (py "duplicate_goal_id"))
    ++ (members d "goal_ids").flatMap (fun g =>
      errorUnless g.text?.isSome (about L d (py "invalid_goal_id:" ++ L.repr g)))
    ++ labels.flatMap fun l => errorUnless (isLabel l) (about L d (py "invalid_project_label")))

def entryErrors (projects components : List PyStr) (entry : PyVal) : Except PyErr (List PyStr) :=
  match entry with
  | .dict d =>
    if (idOf d).truthy then projectErrors L projects components d
    else .ok [py "missing_project_id"]
  | _ => .ok [py "project_not_object"]

def sharedErrors (projects : List PyStr) (entry : PyVal) : Except PyErr (List PyStr) :=
  match entry with
  | .dict d =>
    if (idOf d).truthy then do
      let isKnown ← isIn projects (itemOf d "owner_project_id")
      .ok (errorUnless isKnown
          (about L d (py "unknown_owner_project:" ++ L.str (itemOf d "owner_project_id")))
        ++ errorUnless (itemOf d "purpose").truthy (about L d (py "missing_purpose")))
    else .ok [py "missing_component_id"]
  | _ => .ok [py "component_not_object"]

-- == owners

def projectsOf (entries : List PyVal) : List Items :=
  (entries.filterMap PyVal.dict?).filter fun d => (idOf d).truthy

def goalsOf (d : Items) : List PyStr := (members d "goal_ids").filterMap PyVal.text?
def dependenciesOf (d : Items) : List PyStr :=
  (members d "depends_on").filterMap PyVal.text?

def goalOwners (projects : List Items) (goal : PyStr) : List PyVal :=
  projects.flatMap fun d => ((goalsOf d).filter fun g => decide (g = goal)).map fun _ => idOf d

def addOwner (owners : List PyVal) (owner : PyVal) : List PyVal :=
  if owners.any fun o => o.eq owner then owners else owners ++ [owner]

def labelOwners (labelled : List (Items × List PyVal)) (key : PyStr) : List PyVal :=
  ((labelled.filter fun p => p.2.any fun l => isLabel l && decide (labelKey L l = some key)).map
    fun p => idOf p.1).foldl addOwner []

def joinOwners (owners : List PyVal) : Except PyErr PyStr :=
  match owners.mapM PyVal.text? with
  | some names =>
    .ok (joinWith (py ",") (names.insertionSort (· ≤ ·)))
  | none => .error .typeError

def labelErrors (labelled : List (Items × List PyVal)) (key : PyStr) : Except PyErr (List PyStr) :=
  if 1 < (labelOwners L labelled key).length then do
    .ok [py "ambiguous_project_label:" ++ key ++ 58 :: (← joinOwners (labelOwners L labelled key))]
  else .ok []

def goalErrors (projects : List Items) (goal : PyStr) : Except PyErr (List PyStr) :=
  match goalOwners projects goal with
  | [] => .ok [py "missing_goal_owner:" ++ goal]
  | [_] => .ok []
  | owners => do .ok [py "duplicate_goal_owner:" ++ goal ++ 58 :: (← joinOwners owners)]

/-- A node: a string, or where among the projects an identifier that is none is first. -/
abbrev Node := PyStr ⊕ Nat

def nodeOf (projects : List Items) (i : Nat) (d : Items) : Node :=
  match (idOf d).text? with
  | some id => .inl id
  | none => .inr (min i (projects.findIdx fun e => (idOf e).eq (idOf d)))

def graphOf (projects : List Items) : List (Node × List Node) :=
  dictOf (projects.mapIdx fun i d => (nodeOf projects i d, (dependenciesOf d).map .inl))

/-- The nodes of a cycle are strings: something depends on them. -/
def cycleErrors (graph : List (Node × List Node)) : List PyStr :=
  match dependencyCycle graph with
  | some (some c) => [py "dependency_cycle:" ++ joinWith (py "->") (c.filterMap Sum.getLeft?)]
  | _ => []

-- == the registry

/-- The goals of the ledger: the identifiers of its entries. -/
def ledgerIds (ledger : Items) : Except PyErr (List PyStr) := do
  .ok ((← iterate ledger "goals").filterMap fun g => g.dict?.bind fun d => (idOf d).text?)

/-- The ledger is the object that is read, or the text of what is raised and caught. -/
def ledgerGoals (ledger : Except PyStr Items) : Except PyErr (List PyStr × List PyStr) :=
  match ledger with
  | .error text => .ok ([], [py "cannot_load_goal_ledger:" ++ text])
  | .ok ledger => do
    let ids ← ledgerIds ledger
    .ok (ids, errorUnless (decide ids.Nodup) (py "duplicate_goal_id_in_ledger"))

def payloadList (payload : Items) (key : String) : List PyVal × List PyStr :=
  match listMember payload key with
  | some xs => (xs, [])
  | none => ([], [py (key ++ "_not_list")])

def idsOf (entries : List PyVal) : List PyVal := (entries.filterMap PyVal.dict?).map idOf

structure FederationResult where
  errors : List PyStr
  projectIds : List PyStr
  componentIds : List PyStr
  goalOwners : List (PyStr × PyVal)

def FederationResult.ok (r : FederationResult) : Bool := r.errors.isEmpty

def invariantErrors (payload : Items) : Except PyErr (List PyStr) := do
  let invariants ← (← iterate payload "shared_invariants").mapM hashed
  .ok (missing requiredInvariants (invariants.filterMap PyVal.text?) "missing_invariant:")

def validateRegistry (payload : Items) (ledger : Except PyStr Items) :
    Except PyErr FederationResult := do
  let (entries, entriesErrors) := payloadList payload "projects"
  let (shared, sharedListErrors) := payloadList payload "shared_components"
  let distinctIds ← distinct (idsOf entries)
  let known := namesOf (idsOf entries)
  let distinctComponents ← distinct (idsOf shared)
  let components := namesOf (idsOf shared)
  let componentErrors ← shared.mapM (sharedErrors L known)
  let projectErrors ← entries.mapM (entryErrors L known components)
  let projects := projectsOf entries
  let labelled ← projects.mapM fun d => do .ok (d, ← labelsOf d)
  let keys := labelled.flatMap fun p => (p.2.filter isLabel).filterMap (labelKey L)
  let labels ← (sorted keys).mapM (labelErrors L labelled)
  let (goals, ledgerErrors) ← ledgerGoals ledger
  let ownerErrors ← (sorted goals).mapM (goalErrors projects)
  let owned := sorted (projects.flatMap goalsOf)
  let invariants ← invariantErrors payload
  .ok {
    errors :=
      errorUnless ((itemOf payload "schema_version").eq (.int 2)) (py "unsupported_schema_version")
        ++ errorUnless (itemOf payload "portfolio_id").truthy (py "missing_portfolio_id")
        ++ errorUnless ((itemOf payload "canonical_control_plane").eq
          (.str (py "12ephods-source/centinal26"))) (py "unexpected_canonical_control_plane")
        ++ errorUnless ((itemOf payload "combination_model").eq
          (.str (py "federated_modules_with_single_goal_ownership")))
          (py "unexpected_combination_model")
        ++ entriesErrors ++ errorUnless distinctIds (py "duplicate_project_id")
        ++ missing requiredProjects known "missing_required_project:"
        ++ sharedListErrors ++ errorUnless distinctComponents (py "duplicate_component_id")
        ++ missing requiredComponents components "missing_required_component:"
        ++ componentErrors.flatten ++ projectErrors.flatten ++ cycleErrors (graphOf projects)
        ++ labels.flatten ++ ledgerErrors ++ ownerErrors.flatten
        ++ (owned.filter fun g => !goals.contains g).map (fun g => py "unknown_goal_id:" ++ g)
        ++ invariants
    projectIds := sorted known
    componentIds := sorted components
    goalOwners := (owned.filter fun g => goals.contains g).filterMap fun g =>
      match goalOwners projects g with
      | [owner] => some (g, owner)
      | _ => none }

-- == what is accepted

def DependsOn (entries : List PyVal) (a b : PyStr) : Prop :=
  ∃ d, .dict d ∈ entries ∧ idOf d = .str a ∧ b ∈ dependenciesOf d

def Owns (d : Items) (goal : PyStr) : Prop := goal ∈ goalsOf d

def HasLabel (d : Items) (key : PyStr) : Prop :=
  ∃ labels, labelsOf d = .ok labels ∧ ∃ l ∈ labels, labelKey L l = some key

/-- The projects of a registry, with the goals of a ledger. -/
structure Accepted (entries : List PyVal) (goals : List PyStr) : Prop where
  whole : ∀ e ∈ entries, ∃ d a, e = .dict d ∧ idOf d = .str a
  single : (idsOf entries).Nodup
  known : ∀ d, .dict d ∈ entries → ∃ deps, listMember d "depends_on" = some deps
    ∧ ∀ dep ∈ deps, ∃ e, .dict e ∈ entries ∧ idOf e = dep
  acyclic : ∀ a, ¬ Relation.TransGen (DependsOn entries) a a
  owned : ∀ goal ∈ goals, ∃ d, .dict d ∈ entries ∧ Owns d goal
    ∧ ∀ e, .dict e ∈ entries → Owns e goal → e = d
  inside : ∀ d, .dict d ∈ entries → ∃ owns, listMember d "goal_ids" = some owns
    ∧ ∀ goal ∈ owns, ∃ s ∈ goals, goal = .str s
  labelled : ∀ d, .dict d ∈ entries → ∃ labels, labelsOf d = .ok labels
    ∧ ∀ l ∈ labels, isLabel l = true
  labels : ∀ d e key, .dict d ∈ entries → .dict e ∈ entries → HasLabel L d key →
    HasLabel L e key → d = e

section

variable {L}

@[simp] theorem errorUnless_eq_nil {condition : Bool} {error : PyStr} :
    errorUnless condition error = [] ↔ condition = true := by
  cases condition <;> simp [errorUnless]

theorem mem_sorted {names : List PyStr} {name : PyStr} : name ∈ sorted names ↔ name ∈ names := by
  rw [sorted, List.mem_insertionSort, List.mem_dedup]

theorem mapM_clean {β γ : Type} {f : β → Except PyErr (List γ)} {xs : List β}
    {ys : List (List γ)} (h : xs.mapM f = .ok ys) (hys : ys.flatten = []) :
    ∀ x ∈ xs, f x = .ok [] := by
  induction xs generalizing ys with
  | nil => nofun
  | cons a xs ih =>
    rw [List.mapM_cons] at h
    obtain ⟨b, hb, h⟩ := of_bind_ok h
    obtain ⟨bs, hbs, h⟩ := of_bind_ok h
    cases h
    obtain ⟨rfl, hbs'⟩ := List.append_eq_nil_iff.mp hys
    exact List.forall_mem_cons.mpr ⟨hb, ih hbs hbs'⟩

theorem mapM_mem {β γ : Type} {f : β → Except PyErr γ} {xs : List β} {ys : List γ}
    (h : xs.mapM f = .ok ys) : ∀ x ∈ xs, ∃ y ∈ ys, f x = .ok y := by
  induction xs generalizing ys with
  | nil => nofun
  | cons a xs ih =>
    rw [List.mapM_cons] at h
    obtain ⟨b, hb, h⟩ := of_bind_ok h
    obtain ⟨bs, hbs, h⟩ := of_bind_ok h
    cases h
    refine List.forall_mem_cons.mpr ⟨⟨b, List.mem_cons_self .., hb⟩, fun x hx => ?_⟩
    obtain ⟨y, hy, heq⟩ := ih hbs x hx
    exact ⟨y, List.mem_cons_of_mem _ hy, heq⟩

-- == owners

theorem mem_addOwners (xs : List PyVal) {s : PyStr} : ∀ {owners : List PyVal},
    .str s ∈ owners ∨ .str s ∈ xs → .str s ∈ xs.foldl addOwner owners := by
  induction xs with
  | nil => exact fun h => h.resolve_right List.not_mem_nil
  | cons x xs ih =>
    intro owners h
    refine ih ?_
    rcases h with h | h
    · refine .inl ?_
      unfold addOwner
      split_ifs
      · exact h
      · exact List.mem_append_left _ h
    · rcases List.mem_cons.mp h with rfl | h
      · refine .inl ?_
        unfold addOwner
        split_ifs with hany
        · obtain ⟨o, ho, heq⟩ := List.any_eq_true.mp hany
          exact PyVal.eq_str.mp heq ▸ ho
        · exact List.mem_append_right _ (List.mem_singleton_self _)
      · exact .inr h

variable {projects : List Items} {d payload : Items} {goal : PyStr} {v : PyVal}
  {ledger : Except PyStr Items}

theorem mem_goalOwners (hd : d ∈ projects) (h : Owns d goal) : idOf d ∈ goalOwners projects goal :=
  List.mem_flatMap.mpr ⟨d, hd, List.mem_map.mpr
    ⟨goal, List.mem_filter.mpr ⟨h, decide_eq_true rfl⟩, rfl⟩⟩

theorem of_mem_goalOwners
    (h : v ∈ goalOwners projects goal) : ∃ d ∈ projects, Owns d goal ∧ idOf d = v := by
  obtain ⟨d, hd, hv⟩ := List.mem_flatMap.mp h
  obtain ⟨g, hg, rfl⟩ := List.mem_map.mp hv
  obtain ⟨hg, heq⟩ := List.mem_filter.mp hg
  exact ⟨d, hd, of_decide_eq_true heq ▸ hg, rfl⟩

theorem goalErrors_clean
    (h : goalErrors projects goal = .ok []) : ∃ v, goalOwners projects goal = [v] := by
  unfold goalErrors at h
  split at h
  · cases h
  · next v heq => exact ⟨v, heq⟩
  · obtain ⟨joined, -, h⟩ := of_bind_ok h
    cases h

theorem labelErrors_clean {labelled : List (Items × List PyVal)} {key : PyStr}
    (h : labelErrors L labelled key = .ok []) : (labelOwners L labelled key).length ≤ 1 := by
  unfold labelErrors at h
  split_ifs at h with hlt
  · obtain ⟨joined, -, h⟩ := of_bind_ok h
    cases h
  · omega

-- == entries

theorem isIn_true {names : List PyStr} (h : isIn names v = .ok true) : ∃ n ∈ names, v = .str n := by
  obtain ⟨w, hw, h⟩ := of_bind_ok h
  have hv : w = v := by
    cases v <;> cases hw <;> rfl
  obtain ⟨n, hn, heq⟩ := List.any_eq_true.mp (Except.ok.inj h)
  exact ⟨n, hn, hv ▸ PyVal.eq_str.mp heq⟩

theorem mapM_hashed {vs ws : List PyVal} (h : vs.mapM hashed = .ok ws) : ws = vs := by
  induction vs generalizing ws with
  | nil =>
    cases h
    rfl
  | cons v vs ih =>
    rw [List.mapM_cons] at h
    obtain ⟨w, hw, h⟩ := of_bind_ok h
    obtain ⟨ws', hws, h⟩ := of_bind_ok h
    cases h
    rw [ih hws]
    cases v <;> cases hw <;> rfl

theorem distinct_nodup {vs : List PyVal} (h : distinct vs = .ok true)
    (hstr : ∀ v ∈ vs, ∃ s, v = .str s) : vs.Nodup := by
  obtain ⟨ws, hws, h⟩ := of_bind_ok h
  rw [mapM_hashed hws] at h
  refine (of_decide_eq_true (Except.ok.inj h)).imp_of_mem fun {a b} ha _ hab heq => ?_
  obtain ⟨s, rfl⟩ := hstr a ha
  rw [← heq, PyVal.eq_str.mpr rfl] at hab
  cases hab

theorem isLabel_text (h : isLabel v = true) : ∃ s, v = .str s := by
  unfold isLabel at h
  cases hv : v.text? with
  | none =>
    rw [hv] at h
    cases h
  | some s => exact ⟨s, PyVal.text?_eq.mp hv⟩

structure Clean (known : List PyStr) (d : Items) : Prop where
  deps : ∃ deps, listMember d "depends_on" = some deps ∧ ∀ dep ∈ deps, ∃ n ∈ known, dep = .str n
  goals : ∃ owns, listMember d "goal_ids" = some owns ∧ ∀ goal ∈ owns, ∃ s, goal = .str s
  labels : ∃ labels, labelsOf d = .ok labels ∧ ∀ l ∈ labels, isLabel l = true

theorem projectErrors_clean {known components : List PyStr}
    (h : projectErrors L known components d = .ok []) : Clean known d := by
  obtain ⟨depErrors, hdeps, h⟩ := of_bind_ok h
  obtain ⟨distinctComponents, -, h⟩ := of_bind_ok h
  obtain ⟨cidErrors, -, h⟩ := of_bind_ok h
  obtain ⟨distinctGoals, -, h⟩ := of_bind_ok h
  obtain ⟨labels, hlabels, h⟩ := of_bind_ok h
  simp only [Except.ok.injEq, List.append_eq_nil_iff, errorUnless_eq_nil, listErrors,
    List.flatMap_eq_nil_iff, Option.isSome_iff_exists] at h
  obtain ⟨⟨⟨⟨⟨⟨⟨⟨⟨-, ⟨deps, hlist⟩⟩, hdeps'⟩, -⟩, -⟩, -⟩, ⟨owns, howns⟩⟩, -⟩, hgoals⟩, hlabel⟩ := h
  rw [members, hlist, Option.getD_some] at hdeps
  rw [members, howns, Option.getD_some] at hgoals
  refine ⟨⟨deps, hlist, fun dep hdep => ?_⟩, ⟨owns, howns, fun goal hgoal => ?_⟩,
    labels, hlabels, hlabel⟩
  · obtain ⟨isKnown, hknown, hdep⟩ := of_bind_ok (mapM_clean hdeps hdeps' dep hdep)
    simp only [Except.ok.injEq, List.append_eq_nil_iff, errorUnless_eq_nil] at hdep
    exact isIn_true (hdep.1 ▸ hknown)
  · obtain ⟨s, hs⟩ := hgoals goal hgoal
    exact ⟨s, PyVal.text?_eq.mp hs⟩

theorem entryErrors_clean {known components : List PyStr} {e : PyVal}
    (h : entryErrors L known components e = .ok []) :
    ∃ d a, e = .dict d ∧ idOf d = .str a ∧ (idOf d).truthy = true ∧ Clean known d := by
  unfold entryErrors at h
  split at h
  · next d =>
    split_ifs at h with hid
    swap
    · cases h
    have hclean := projectErrors_clean h
    obtain ⟨labels, hlabels, hall⟩ := hclean.labels
    obtain ⟨aliases, -, hlabels⟩ := of_bind_ok hlabels
    obtain ⟨legacy, -, hlabels⟩ := of_bind_ok hlabels
    cases hlabels
    obtain ⟨a, ha⟩ := isLabel_text (hall _ (List.mem_cons_self ..))
    exact ⟨d, a, rfl, ha, hid, hclean⟩
  · cases h

theorem payloadList_clean {key : String} (h : (payloadList payload key).2 = []) :
    listMember payload key = some (payloadList payload key).1 := by
  unfold payloadList at h ⊢
  split at h
  · next xs heq => rw [heq]
  · cases h

theorem ledgerGoals_clean {goals : List PyStr}
    (h : ledgerGoals ledger = .ok (goals, [])) : ∃ l, ledger = .ok l ∧ ledgerIds l = .ok goals := by
  unfold ledgerGoals at h
  split at h
  · cases h
  · next l =>
    obtain ⟨ids, hids, h⟩ := of_bind_ok h
    obtain ⟨rfl, -⟩ := Prod.mk.inj (Except.ok.inj h)
    exact ⟨l, rfl, hids⟩

theorem validateRegistry_clean
    {r : FederationResult} (h : validateRegistry L payload ledger = .ok r) (hok : r.ok = true) :
    ∃ entries l goals labelled, listMember payload "projects" = some entries ∧ ledger = .ok l
      ∧ ledgerIds l = .ok goals ∧ distinct (idsOf entries) = .ok true
      ∧ (∃ components, ∀ e ∈ entries, entryErrors L (namesOf (idsOf entries)) components e = .ok [])
      ∧ cycleErrors (graphOf (projectsOf entries)) = []
      ∧ (projectsOf entries).mapM (fun d => do .ok (d, ← labelsOf d)) = .ok labelled
      ∧ (∀ key ∈ labelled.flatMap fun p => (p.2.filter isLabel).filterMap (labelKey L),
        labelErrors L labelled key = .ok [])
      ∧ (∀ goal ∈ goals, goalErrors (projectsOf entries) goal = .ok [])
      ∧ ∀ goal ∈ (projectsOf entries).flatMap goalsOf, goal ∈ goals := by
  unfold validateRegistry at h
  dsimp only at h
  obtain ⟨distinctIds, hdistinct, h⟩ := of_bind_ok h
  obtain ⟨distinctComponents, -, h⟩ := of_bind_ok h
  obtain ⟨componentErrors, -, h⟩ := of_bind_ok h
  obtain ⟨projectErrors, hprojects, h⟩ := of_bind_ok h
  obtain ⟨labelled, hlabelled, h⟩ := of_bind_ok h
  obtain ⟨labels, hlabels, h⟩ := of_bind_ok h
  obtain ⟨⟨goals, ledgerErrors⟩, hledger, h⟩ := of_bind_ok h
  obtain ⟨ownerErrors, howners, h⟩ := of_bind_ok h
  obtain ⟨invariants, -, h⟩ := of_bind_ok h
  rw [← Except.ok.inj h] at hok
  simp only [FederationResult.ok, List.isEmpty_iff, List.append_eq_nil_iff,
    errorUnless_eq_nil, List.map_eq_nil_iff, List.filter_eq_nil_iff] at hok
  obtain ⟨⟨⟨⟨⟨⟨⟨⟨⟨⟨⟨⟨⟨⟨-, hlist⟩, rfl⟩, -⟩, -⟩, -⟩, -⟩, -⟩, hclean⟩, hcycle⟩, hlabel⟩, rfl⟩,
    howner⟩, hinside⟩, -⟩ := hok
  obtain ⟨l, hl, hgoals⟩ := ledgerGoals_clean hledger
  refine ⟨_, l, goals, labelled, payloadList_clean hlist, hl, hgoals, hdistinct,
    ⟨_, mapM_clean hprojects hclean⟩, hcycle, hlabelled, fun key hkey => ?_, fun goal hgoal => ?_,
    fun goal hgoal => ?_⟩
  · exact mapM_clean hlabels hlabel key (mem_sorted.mpr hkey)
  · exact mapM_clean howners howner goal (mem_sorted.mpr hgoal)
  · have hmem := hinside goal (mem_sorted.mpr hgoal)
    simpa using hmem

-- == the graph of projects with names

theorem mem_neighbours (hnames : ∀ d ∈ projects, ∃ a, idOf d = .str a)
    (hids : (projects.map idOf).Nodup) (hd : d ∈ projects) {a b : PyStr}
    (ha : idOf d = .str a) (hb : b ∈ dependenciesOf d) :
    Sum.inl b ∈ neighbours (graphOf projects) (Sum.inl a : Node) := by
  set nodes := projects.mapIdx fun i d =>
    ((nodeOf projects i d, (dependenciesOf d).map .inl) : Node × List Node) with hnodes
  have hnode : ∀ i, ∀ e ∈ projects, ∃ s, idOf e = .str s ∧ nodeOf projects i e = .inl s := by
    intro i e he
    obtain ⟨s, hs⟩ := hnames e he
    exact ⟨s, hs, by rw [nodeOf, hs]; rfl⟩
  have hkeys : (nodes.map Prod.fst).Nodup := by
    refine List.Nodup.of_map (Sum.elim PyVal.str fun _ => .none) ?_
    convert hids using 1
    refine List.ext_getElem (by simp [hnodes]) fun i hi hi' => ?_
    rw [List.length_map] at hi'
    obtain ⟨s, hs, hnode⟩ := hnode i projects[i] (List.getElem_mem hi')
    simp [hnodes, hnode, hs]
  have hmem : ((Sum.inl a, (dependenciesOf d).map Sum.inl) : Node × List Node) ∈ nodes := by
    obtain ⟨i, hi, rfl⟩ := List.getElem_of_mem hd
    obtain ⟨s, hs, hnode⟩ := hnode i projects[i] (List.getElem_mem hi)
    rw [ha] at hs
    cases hs
    refine List.mem_mapIdx.mpr ⟨i, hi, ?_⟩
    rw [hnode]
  unfold neighbours graphOf
  rw [← hnodes, dictOf_eq hkeys, (getItem?_eq_some hkeys).mpr hmem, Option.getD_some]
  exact List.mem_map_of_mem hb

theorem cycleErrors_clean {graph : List (Node × List Node)} (h : cycleErrors graph = []) :
    ∀ a, ¬ Relation.TransGen (Search.Edge (neighbours graph)) a a := by
  obtain ⟨r, hr, hnone, -⟩ := dependencyCycle_spec graph
  refine hnone.mp ?_
  unfold cycleErrors at h
  rw [hr] at h
  cases r with
  | none => rfl
  | some c => cases h

-- == projects

theorem mem_projectsOf {entries : List PyVal} :
    d ∈ projectsOf entries ↔ .dict d ∈ entries ∧ (idOf d).truthy = true := by
  unfold projectsOf
  rw [List.mem_filter, List.mem_filterMap]
  refine and_congr_left fun _ => ⟨?_, fun h => ⟨_, h, rfl⟩⟩
  rintro ⟨v, hv, hd⟩
  exact PyVal.dict?_eq.mp hd ▸ hv

theorem mem_namesOf {entries : List PyVal} {a : PyStr} (h : a ∈ namesOf (idsOf entries)) :
    ∃ d, .dict d ∈ entries ∧ idOf d = .str a := by
  obtain ⟨v, hv, ha⟩ := List.mem_filterMap.mp h
  obtain ⟨d, hd, rfl⟩ := List.mem_map.mp hv
  obtain ⟨e, he, hed⟩ := List.mem_filterMap.mp hd
  exact ⟨d, PyVal.dict?_eq.mp hed ▸ he, PyVal.text?_eq.mp (Option.filter_eq_some_iff.mp ha).1⟩

theorem label_unique (hids : (projects.map idOf).Nodup)
    (hnames : ∀ d ∈ projects, ∃ a, idOf d = .str a) {labelled : List (Items × List PyVal)}
    (hlabelled : projects.mapM (fun d => do .ok (d, ← labelsOf d)) = .ok labelled)
    (hall : ∀ d ∈ projects, ∃ labels, labelsOf d = .ok labels ∧ ∀ l ∈ labels, isLabel l = true)
    (hclean : ∀ key ∈ labelled.flatMap fun p => (p.2.filter isLabel).filterMap (labelKey L),
      labelErrors L labelled key = .ok []) {e : Items} {key : PyStr} (hd : d ∈ projects)
    (he : e ∈ projects) (hdkey : HasLabel L d key) (hekey : HasLabel L e key) : d = e := by
  -- an entry for each project with the label
  have hentry : ∀ c ∈ projects, HasLabel L c key → ∃ p ∈ labelled, p.1 = c ∧
      ∃ l ∈ p.2, isLabel l = true ∧ labelKey L l = some key := by
    rintro c hc ⟨labels, hlabels, l, hl, hkey⟩
    obtain ⟨labels', hlabels', hall⟩ := hall c hc
    obtain ⟨p, hp, hok⟩ := mapM_mem hlabelled c hc
    rw [hlabels] at hlabels' hok
    cases hlabels'
    cases hok
    exact ⟨(c, labels), hp, rfl, l, hl, hall l hl, hkey⟩
  have howner : ∀ c ∈ projects, HasLabel L c key → idOf c ∈ labelOwners L labelled key := by
    intro c hc hkey
    obtain ⟨p, hp, rfl, l, hl, hlabel, hlkey⟩ := hentry c hc hkey
    obtain ⟨a, ha⟩ := hnames p.1 hc
    rw [ha]
    refine mem_addOwners _ (.inr (List.mem_map.mpr ⟨p, List.mem_filter.mpr ⟨hp, ?_⟩, ha⟩))
    exact List.any_eq_true.mpr ⟨l, hl, by rw [hlabel, hlkey]; simp⟩
  obtain ⟨p, hp, -, l, hl, hlabel, hlkey⟩ := hentry d hd hdkey
  have hlength := labelErrors_clean (hclean key (List.mem_flatMap.mpr ⟨p, hp,
    List.mem_filterMap.mpr ⟨l, List.mem_filter.mpr ⟨hl, hlabel⟩, hlkey⟩⟩))
  have hdowner := howner d hd hdkey
  have heowner := howner e he hekey
  have hsame : idOf d = idOf e := by
    match hxs : labelOwners L labelled key with
    | [] => exact absurd (hxs ▸ hdowner) List.not_mem_nil
    | [x] =>
      rw [hxs] at hdowner heowner
      rw [List.mem_singleton.mp hdowner, List.mem_singleton.mp heowner]
    | x :: y :: rest =>
      rw [hxs] at hlength
      exact absurd hlength (by simp)
  exact List.inj_on_of_nodup_map hids hd he hsame

/-- Without errors, each goal has one owner and no project leads back to itself. -/
theorem accepted_of_clean {r : FederationResult}
    (h : validateRegistry L payload ledger = .ok r) (hok : r.ok = true) :
    ∃ entries l goals, listMember payload "projects" = some entries ∧ ledger = .ok l
      ∧ ledgerIds l = .ok goals ∧ Accepted L entries goals := by
  obtain ⟨entries, l, goals, labelled, hentries, hl, hgoals, hdistinct, ⟨components, hclean⟩,
    hcycle, hlabelled, hlabels, howners, hinside⟩ := validateRegistry_clean h hok
  have hwhole : ∀ e ∈ entries, ∃ d a, e = .dict d ∧ idOf d = .str a ∧ (idOf d).truthy = true
      ∧ Clean (namesOf (idsOf entries)) d := fun e he => entryErrors_clean (hclean e he)
  have hproject : ∀ d, .dict d ∈ entries → d ∈ projectsOf entries
      ∧ (∃ a, idOf d = .str a) ∧ Clean (namesOf (idsOf entries)) d := by
    intro d hd
    obtain ⟨d', a, heq, ha, htruthy, hd'⟩ := hwhole _ hd
    cases heq
    exact ⟨mem_projectsOf.mpr ⟨hd, htruthy⟩, ⟨a, ha⟩, hd'⟩
  have hmem : ∀ d ∈ projectsOf entries, .dict d ∈ entries := fun d hd => (mem_projectsOf.mp hd).1
  have hnames : ∀ d ∈ projectsOf entries, ∃ a, idOf d = .str a := fun d hd =>
    (hproject d (hmem d hd)).2.1
  have hsingle : (idsOf entries).Nodup := by
    refine distinct_nodup hdistinct fun v hv => ?_
    obtain ⟨d, hd, rfl⟩ := List.mem_map.mp hv
    obtain ⟨e, he, hed⟩ := List.mem_filterMap.mp hd
    exact (hproject d (PyVal.dict?_eq.mp hed ▸ he)).2.1
  have hids : ((projectsOf entries).map idOf).Nodup :=
    hsingle.sublist (List.filter_sublist.map idOf)
  refine ⟨entries, l, goals, hentries, hl, hgoals, ⟨fun e he => ?_, hsingle, fun d hd => ?_,
    fun a hcycled => ?_, fun goal hgoal => ?_, fun d hd => ?_, fun d hd => ?_,
    fun d e key hd he => ?_⟩⟩
  · obtain ⟨d, a, heq, ha, -, -⟩ := hwhole e he
    exact ⟨d, a, heq, ha⟩
  · obtain ⟨deps, hlist, hdeps⟩ := (hproject d hd).2.2.deps
    refine ⟨deps, hlist, fun dep hdep => ?_⟩
    obtain ⟨n, hn, rfl⟩ := hdeps dep hdep
    exact mem_namesOf hn
  · refine cycleErrors_clean hcycle (.inl a) (hcycled.lift Sum.inl fun b c hbc => ?_)
    obtain ⟨d, hd, hb, hc⟩ := hbc
    exact mem_neighbours hnames hids (hproject d hd).1 hb hc
  · obtain ⟨v, hv⟩ := goalErrors_clean (howners goal hgoal)
    obtain ⟨d, hd, howns, rfl⟩ := of_mem_goalOwners (hv ▸ List.mem_singleton_self v)
    refine ⟨d, hmem d hd, howns, fun e he heowns => ?_⟩
    have howner := mem_goalOwners (hproject e he).1 heowns
    rw [hv] at howner
    exact List.inj_on_of_nodup_map hids (hproject e he).1 hd (List.mem_singleton.mp howner)
  · obtain ⟨owns, hlist, hall⟩ := (hproject d hd).2.2.goals
    refine ⟨owns, hlist, fun goal hgoal => ?_⟩
    obtain ⟨s, rfl⟩ := hall goal hgoal
    refine ⟨s, hinside s (List.mem_flatMap.mpr ⟨d, (hproject d hd).1, ?_⟩), rfl⟩
    refine List.mem_filterMap.mpr ⟨.str s, ?_, rfl⟩
    rw [members, hlist]
    exact hgoal
  · exact (hproject d hd).2.2.labels
  · exact label_unique hids hnames hlabelled (fun c hc => (hproject c (hmem c hc)).2.2.labels)
      hlabels (hproject d hd).1 (hproject e he).1

end

/-- A registry that is accepted has single owners and no cycles, and the search for a cycle in any
graph ends, and finds one just if there is one. -/
theorem validateRegistry_accepts :
    (∀ (L : Texts) (payload : Items) (ledger : Except PyStr Items) (r : FederationResult),
      validateRegistry L payload ledger = .ok r → r.ok = true →
        ∃ entries l goals, listMember payload "projects" = some entries ∧ ledger = .ok l
          ∧ ledgerIds l = .ok goals ∧ Accepted L entries goals)
    ∧ ∀ {α : Type} [DecidableEq α] (graph : List (α × List α)), ∃ r, dependencyCycle graph = some r
        ∧ (r = none ↔ ∀ a, ¬ Relation.TransGen (Search.Edge (neighbours graph)) a a)
        ∧ ∀ c ∈ r, Search.IsCycle (neighbours graph) c :=
  ⟨fun _ _ _ _ h hok => accepted_of_clean h hok, fun graph => dependencyCycle_spec graph⟩

-- == a registry

def plainTexts : Texts := ⟨fun _ => [], fun _ => [], fun s => s⟩

def project (name : String) (deps goals : List String) : PyVal :=
  .dict [item "id" (.str (py name)), item "name" (.str (py name)),
    item "trust_domain" (.str (py "a")), item "state_authority" (.str (py "b")),
    item "depends_on" (.list (deps.map fun d => .str (py d))),
    item "goal_ids" (.list (goals.map fun g => .str (py g)))]

def registry : Items :=
  [item "schema_version" (.int 2), item "portfolio_id" (.str (py "p")),
    item "canonical_control_plane" (.str (py "12ephods-source/centinal26")),
    item "combination_model" (.str (py "federated_modules_with_single_goal_ownership")),
    item "projects" (.list (project "automation" ["physics"] ["G1"]
      :: (requiredProjects.drop 1).map fun name => project name [] [])),
    item "shared_components" (.list (requiredComponents.map fun name =>
      .dict [item "id" (.str (py name)), item "owner_project_id" (.str (py "physics")),
        item "purpose" (.str (py "q"))])),
    item "shared_invariants" (.list ((requiredInvariants.map py).map PyVal.str))]

def goalLedger : Items := [item "goals" (.list [.dict [item "id" (.str (py "G1"))]])]

theorem mapM_hashed_str (names : List PyStr) :
    (names.map PyVal.str).mapM hashed = .ok (names.map PyVal.str) := by
  induction names with
  | nil => rfl
  | cons name names ih =>
    rw [List.map_cons, List.mapM_cons, ih]
    rfl

theorem filterMap_text (names : List PyStr) :
    (names.map PyVal.str).filterMap PyVal.text? = names := by
  induction names with
  | nil => rfl
  | cons name names ih => exact congrArg (name :: ·) ih

theorem missing_self (required : List String) (label : String) :
    missing required (required.map py) label = [] := by
  have hnone : (required.map py).filter (fun r => !(required.map py).contains r) = [] :=
    List.filter_eq_nil_iff.mpr fun r hr => by
      rw [List.contains_iff_mem.mpr hr]
      exact Bool.false_ne_true
  rw [missing, hnone]
  rfl

theorem registry_invariants : invariantErrors registry = .ok [] := by
  have hnames : iterate registry "shared_invariants"
      = .ok ((requiredInvariants.map py).map PyVal.str) := by rfl
  rw [invariantErrors, hnames, bind_ok_eq, mapM_hashed_str, bind_ok_eq, filterMap_text,
    missing_self]

theorem registry_accepted : ((validateRegistry plainTexts registry (.ok goalLedger)).toOption.map
    FederationResult.ok) = some true := by
  rw [validateRegistry, registry_invariants]
  decide +kernel

/-- A registry whose first project depends on another and owns the goal. -/
theorem validateRegistry_accepts_registry :
    ∃ entries l goals, listMember registry "projects" = some entries
      ∧ (Except.ok goalLedger : Except PyStr Items) = .ok l ∧ ledgerIds l = .ok goals
      ∧ Accepted plainTexts entries goals := by
  have h := registry_accepted
  cases hr : validateRegistry plainTexts registry (.ok goalLedger) with
  | error x =>
    rw [hr] at h
    cases h
  | ok r =>
    rw [hr] at h
    exact validateRegistry_accepts.1 _ _ _ r hr (Option.some.inj h)

end Centinal26.Federation
