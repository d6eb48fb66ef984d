/-
The creative canon: branches that inherit from a parent, facts about an attribute of an entity,
and the view a branch has of them, with what is resolved and what is contradictory.
-/
import Centinal26.Reconcile.Diff
import Mathlib.Data.List.Dedup
import Mathlib.Data.List.Sort
import Mathlib.Logic.Relation

namespace Centinal26.Creative

open Py Reconcile

-- == records

inductive CanonError : Type
  | valueError (message : PyStr)
  | typeError (message : PyStr)
  | keyError (key : PyStr)
  | diverges
deriving DecidableEq

def requireId (name : String) (value : PyStr) : Except CanonError Unit :=
  if isBlank value then .error (.valueError (py (name ++ " must be non-empty"))) else .ok ()

def requireRefs (refs : List PyStr) : Except CanonError Unit :=
  if refs.isEmpty || refs.any isBlank then
    .error (.valueError (py "canon records require non-empty provenance_refs"))
  else .ok ()

def canonicalValue (value : Doc) : Except CanonError PyStr :=
  match dumps (loads value.json) with
  | .ok d => .ok (d.text .canonical)
  | .error _ => .error (.typeError (py "canon value must be JSON-serializable"))

structure CanonBranch where
  branchId : PyStr
  parentBranchId : Option PyStr
  provenanceRefs : List PyStr
deriving DecidableEq

def CanonBranch.postInit (b : CanonBranch) : Except CanonError Unit := do
  requireId "branch_id" b.branchId
  match b.parentBranchId with
  | none => requireRefs b.provenanceRefs
  | some p =>
    requireId "parent_branch_id" p
    if p = b.branchId then .error (.valueError (py "branch cannot parent itself"))
    else requireRefs b.provenanceRefs

structure CanonFact where
  factId : PyStr
  branchId : PyStr
  entityId : PyStr
  attributeName : PyStr
  value : Doc
  provenanceRefs : List PyStr
  supersedesFactId : Option PyStr

namespace CanonFact

def postInit (f : CanonFact) : Except CanonError Unit := do
  requireId "fact_id" f.factId
  requireId "branch_id" f.branchId
  requireId "entity_id" f.entityId
  requireId "attribute" f.attributeName
  requireRefs f.provenanceRefs
  let _ ← canonicalValue f.value
  match f.supersedesFactId with
  | none => .ok ()
  | some s =>
    requireId "supersedes_fact_id" s
    if s = f.factId then .error (.valueError (py "fact cannot supersede itself")) else .ok ()

def key (f : CanonFact) : PyStr × PyStr := (f.entityId, f.attributeName)

def eq (a b : CanonFact) : Bool :=
  decide (a.factId = b.factId) && decide (a.branchId = b.branchId)
    && decide (a.entityId = b.entityId) && decide (a.attributeName = b.attributeName)
    && pyEq a.value.json b.value.json && decide (a.provenanceRefs = b.provenanceRefs)
    && decide (a.supersedesFactId = b.supersedesFactId)

end CanonFact

-- == canon

/-- The two registries, in insertion order. -/
structure CreativeCanon where
  branches : List CanonBranch
  facts : List CanonFact

def branch? (branches : List CanonBranch) (branchId : PyStr) : Option CanonBranch :=
  branches.find? fun b => decide (b.branchId = branchId)

def fact? (facts : List CanonFact) (factId : PyStr) : Option CanonFact :=
  facts.find? fun f => decide (f.factId = factId)

def walk (branches : List CanonBranch) : Nat → PyStr → Except CanonError (List PyStr)
  | 0, _ => .error .diverges
  | fuel + 1, current =>
    match branch? branches current with
    | none => .error (.keyError current)
    | some b =>
      match b.parentBranchId with
      | none => .ok [current]
      | some p => (walk branches fuel p).map (current :: ·)

namespace CreativeCanon

def empty : CreativeCanon := ⟨[], []⟩

def lineage (c : CreativeCanon) (branchId : PyStr) : Except CanonError (List PyStr) :=
  if (branch? c.branches branchId).isNone then
    .error (.valueError (py "unknown branch: " ++ branchId))
  else (walk c.branches c.branches.length branchId).map List.reverse

def addBranch (c : CreativeCanon) (branch : CanonBranch) : Except CanonError CreativeCanon :=
  match branch? c.branches branch.branchId with
  | some prior =>
    if prior = branch then .ok c
    else .error (.valueError (py "conflicting branch identity: " ++ branch.branchId))
  | none =>
    match branch.parentBranchId with
    | none => .ok { c with branches := c.branches ++ [branch] }
    | some p =>
      if (branch? c.branches p).isNone then
        .error (.valueError (py "unknown parent branch: " ++ p))
      else .ok { c with branches := c.branches ++ [branch] }

def addFact (c : CreativeCanon) (fact : CanonFact) : Except CanonError CreativeCanon :=
  match fact? c.facts fact.factId with
  | some prior =>
    if prior.eq fact then .ok c
    else .error (.valueError (py "conflicting fact identity: " ++ fact.factId))
  | none =>
    if (branch? c.branches fact.branchId).isNone then
      .error (.valueError (py "unknown branch: " ++ fact.branchId))
    else
      match fact.supersedesFactId with
      | none => .ok { c with facts := c.facts ++ [fact] }
      | some s =>
        match fact? c.facts s with
        | none => .error (.valueError (py "unknown superseded fact: " ++ s))
        | some superseded =>
          if superseded.key ≠ fact.key then
            .error (.valueError (py "supersession must preserve entity and attribute"))
          else
            match c.lineage fact.branchId with
            | .error e => .error e
            | .ok lineage =>
              if superseded.branchId ∈ lineage then
                .ok { c with facts := c.facts ++ [fact] }
              else .error (.valueError (py "cannot supersede a fact outside the branch lineage"))

end CreativeCanon

-- == view

structure CanonView where
  branchId : PyStr
  resolved : Dict PyStr (Dict PyStr Doc)
  contradictions : Dict PyStr (List PyStr)

/-- `resolved[entity_id][attribute]`. -/
def CanonView.value? (v : CanonView) (k : PyStr × PyStr) : Option Doc :=
  (v.resolved.get? k.1).bind (·.get? k.2)

/-- `f"{entity_id}.{attribute}"`. -/
def joined (k : PyStr × PyStr) : PyStr := k.1 ++ 46 :: k.2

/-- The facts of the lineage that none of them supersedes. -/
def activeFacts (facts : List CanonFact) (lineage : List PyStr) : List CanonFact :=
  let visible := facts.filter fun f => decide (f.branchId ∈ lineage)
  let supersededIds := visible.filterMap CanonFact.supersedesFactId
  visible.filter fun f => decide (f.factId ∉ supersededIds)

/-- `grouped.setdefault(fact.key, []).append(fact)`. -/
def addToGroup (grouped : Dict (PyStr × PyStr) (List CanonFact)) (f : CanonFact) :
    Dict (PyStr × PyStr) (List CanonFact) :=
  grouped.set f.key ((grouped.get? f.key).getD [] ++ [f])

def keyLe (a b : PyStr × PyStr) : Bool :=
  decide (a.1 < b.1) || decide (a.1 = b.1) && decide (a.2 ≤ b.2)

/-- `sorted(grouped.items())`. -/
def groupsOf (active : List CanonFact) : List ((PyStr × PyStr) × List CanonFact) :=
  (active.foldl addToGroup .empty).items.insertionSort fun x y => keyLe x.1 y.1 = true

def canonicalValues : List CanonFact → Except CanonError (List PyStr)
  | [] => .ok []
  | f :: rest => do .ok ((← canonicalValue f.value) :: (← canonicalValues rest))

/-- `min(facts, key=lambda fact: fact.fact_id)`, from the first one on. -/
def chosen (best : CanonFact) : List CanonFact → CanonFact
  | [] => best
  | f :: rest => chosen (if f.factId < best.factId then f else best) rest

def sortedIds (facts : List CanonFact) : List PyStr :=
  (facts.map CanonFact.factId).insertionSort (· ≤ ·)

def CanonView.contradict (v : CanonView) (k : PyStr × PyStr) (facts : List CanonFact) : CanonView :=
  { v with contradictions := v.contradictions.set (joined k) (sortedIds facts) }

def CanonView.resolve (v : CanonView) (k : PyStr × PyStr) (value : Doc) : CanonView :=
  { v with resolved :=
      v.resolved.set k.1 (((v.resolved.get? k.1).getD .empty).set k.2 value) }

def report : List ((PyStr × PyStr) × List CanonFact) → CanonView → Except CanonError CanonView
  | [], v => .ok v
  | (k, facts) :: rest, v =>
    match canonicalValues facts with
    | .error e => .error e
    | .ok values =>
      if 1 < values.dedup.length then report rest (v.contradict k facts)
      else
        match facts with
        | [] => .error (.valueError (py "min() iterable argument is empty"))
        | f :: others => report rest (v.resolve k (chosen f others).value)

def CreativeCanon.view (c : CreativeCanon) (branchId : PyStr) : Except CanonError CanonView :=
  match c.lineage branchId with
  | .error e => .error e
  | .ok lineage => report (groupsOf (activeFacts c.facts lineage)) ⟨branchId, .empty, .empty⟩

-- == runs

/-- A record is made and added. -/
inductive Call : Type
  | branch (b : CanonBranch)
  | fact (f : CanonFact)

def Call.run (c : CreativeCanon) : Call → Except CanonError CreativeCanon
  | .branch b => b.postInit.bind fun _ => c.addBranch b
  | .fact f => f.postInit.bind fun _ => c.addFact f

def attempt (c : CreativeCanon) (call : Call) : CreativeCanon :=
  match call.run c with
  | .ok c' => c'
  | .error _ => c

def build (calls : List Call) : CreativeCanon := calls.foldl attempt .empty

-- == growth

/-- Every branch has its parent before it. -/
inductive Rooted : List CanonBranch → Prop
  | nil : Rooted []
  | snoc {bs : List CanonBranch} {b : CanonBranch} : Rooted bs →
      (∀ x ∈ bs, x.branchId ≠ b.branchId) →
      (∀ p, b.parentBranchId = some p → ∃ x ∈ bs, x.branchId = p) → Rooted (bs ++ [b])

/-- Every superseding fact has what it supersedes before it. -/
inductive Founded : List CanonFact → Prop
  | nil : Founded []
  | snoc {fs : List CanonFact} {f : CanonFact} : Founded fs →
      (∀ x ∈ fs, x.factId ≠ f.factId) → (∃ t, canonicalValue f.value = .ok t) →
      (∀ s, f.supersedesFactId = some s → ∃ x ∈ fs, x.factId = s ∧ x.key = f.key) →
      Founded (fs ++ [f])

structure Grown (c : CreativeCanon) : Prop where
  branches : Rooted c.branches
  facts : Founded c.facts

variable {bs : List CanonBranch} {i : PyStr} {b : CanonBranch} {f : CanonFact} {c : CreativeCanon}

theorem branch?_some (h : branch? bs i = some b) : b ∈ bs ∧ b.branchId = i :=
  ⟨List.mem_of_find?_eq_some h, by simpa using List.find?_some h⟩

theorem branch?_none (h : branch? bs i = none) : ∀ x ∈ bs, x.branchId ≠ i := by
  intro x hx heq
  exact List.find?_eq_none.mp h x hx (decide_eq_true heq)

variable {fs : List CanonFact} {c' : CreativeCanon}

theorem fact?_some (h : fact? fs i = some f) : f ∈ fs ∧ f.factId = i :=
  ⟨List.mem_of_find?_eq_some h, by simpa using List.find?_some h⟩

theorem fact?_none (h : fact? fs i = none) : ∀ x ∈ fs, x.factId ≠ i := by
  intro x hx heq
  exact List.find?_eq_none.mp h x hx (decide_eq_true heq)

theorem addBranch_cases (h : c.addBranch b = .ok c') :
    c' = c ∨ c' = { c with branches := c.branches ++ [b] }
      ∧ (∀ x ∈ c.branches, x.branchId ≠ b.branchId)
      ∧ ∀ p, b.parentBranchId = some p → ∃ x ∈ c.branches, x.branchId = p := by
  unfold CreativeCanon.addBranch at h
  split at h
  · split at h
    · exact Or.inl (Except.ok.inj h).symm
    · cases h
  · next hnew =>
    split at h
    · next hparent =>
      refine Or.inr ⟨(Except.ok.inj h).symm, branch?_none hnew, fun p hp => ?_⟩
      rw [hparent] at hp
      cases hp
    · next p hparent =>
      split at h
      · cases h
      · next hknown =>
        refine Or.inr ⟨(Except.ok.inj h).symm, branch?_none hnew, fun q hq => ?_⟩
        rw [hparent] at hq
        cases hq
        cases hx : branch? c.branches p with
        | none => simp [hx] at hknown
        | some x => exact ⟨x, branch?_some hx⟩

theorem addFact_cases (h : c.addFact f = .ok c') :
    c' = c ∨ c' = { c with facts := c.facts ++ [f] } ∧ (∀ x ∈ c.facts, x.factId ≠ f.factId)
      ∧ ∀ s, f.supersedesFactId = some s → ∃ x ∈ c.facts, x.factId = s ∧ x.key = f.key := by
  unfold CreativeCanon.addFact at h
  split at h
  · split at h
    · exact Or.inl (Except.ok.inj h).symm
    · cases h
  · next hnew =>
    split at h
    · cases h
    · split at h
      · next hnone =>
        refine Or.inr ⟨(Except.ok.inj h).symm, fact?_none hnew, fun s hs => ?_⟩
        rw [hnone] at hs
        cases hs
      · next s hsome =>
        split at h
        · cases h
        · next superseded hfound =>
          split at h
          · cases h
          · next hkey =>
            split at h
            · cases h
            · split at h
              · refine Or.inr ⟨(Except.ok.inj h).symm, fact?_none hnew, fun s' hs => ?_⟩
                rw [hsome] at hs
                cases hs
                obtain ⟨hmem, hid⟩ := fact?_some hfound
                exact ⟨superseded, hmem, hid, not_not.mp hkey⟩
              · cases h

theorem postInit_value (h : f.postInit = .ok ()) : ∃ t, canonicalValue f.value = .ok t := by
  unfold CanonFact.postInit at h
  iterate 5 obtain ⟨-, -, h⟩ := of_bind_ok h
  obtain ⟨t, ht, -⟩ := of_bind_ok h
  exact ⟨t, ht⟩

theorem Grown.attempt (h : Grown c) (call : Call) : Grown (attempt c call) := by
  unfold Creative.attempt
  cases hrun : call.run c with
  | error e => exact h
  | ok c' =>
    cases call with
    | branch b =>
      obtain ⟨-, -, hadd⟩ := of_bind_ok hrun
      obtain rfl | ⟨rfl, hnew, hparent⟩ := addBranch_cases hadd
      · exact h
      · exact ⟨h.branches.snoc hnew hparent, h.facts⟩
    | fact f =>
      obtain ⟨_, hinit, hadd⟩ := of_bind_ok hrun
      obtain rfl | ⟨rfl, hnew, hsupersedes⟩ := addFact_cases hadd
      · exact h
      · exact ⟨h.branches, h.facts.snoc hnew (postInit_value hinit) hsupersedes⟩

theorem grown_build (calls : List Call) : Grown (build calls) := by
  have hall : ∀ (calls : List Call) (c : CreativeCanon), Grown c →
      Grown (calls.foldl Creative.attempt c) := by
    intro calls
    induction calls with
    | nil => exact fun c h => h
    | cons call rest ih => exact fun c h => ih _ (h.attempt call)
  exact hall calls _ ⟨.nil, .nil⟩

-- == lineage

def IsParent (branches : List CanonBranch) (branchId parentId : PyStr) : Prop :=
  ∃ b, branch? branches branchId = some b ∧ b.parentBranchId = some parentId

/-- The branch itself or one of its ancestors. -/
def Inherits (branches : List CanonBranch) : PyStr → PyStr → Prop :=
  Relation.ReflTransGen (IsParent branches)

theorem Rooted.branch? (h : Rooted bs) (hb : b ∈ bs) : branch? bs b.branchId = some b := by
  induction h with
  | nil => cases hb
  | @snoc bs last _ hnew _ ih =>
    rw [Creative.branch?, List.find?_append]
    rcases List.mem_append.mp hb with hb | hb
    · rw [show bs.find? _ = some b from ih hb]
      rfl
    · rw [List.mem_singleton.mp hb]
      have hnone : bs.find? (fun x => decide (x.branchId = last.branchId)) = none :=
        List.find?_eq_none.mpr fun x hx => by simpa using hnew x hx
      rw [hnone]
      simp

theorem Rooted.walk {all : List CanonBranch} (h : Rooted bs)
    (hall : ∀ x ∈ bs, Creative.branch? all x.branchId = some x) :
    ∀ b ∈ bs, ∀ fuel, bs.length ≤ fuel → ∃ l, Creative.walk all fuel b.branchId = .ok l
      ∧ ∀ a, a ∈ l ↔ Inherits all b.branchId a := by
  induction h with
  | nil =>
    intro b hb
    cases hb
  | @snoc bs last _ _ hparent ih =>
    have hbefore := ih fun x hx => hall x (List.mem_append_left _ hx)
    intro b hb fuel hfuel
    rw [List.length_append, List.length_singleton] at hfuel
    rcases List.mem_append.mp hb with hb | hb
    · exact hbefore b hb fuel (by omega)
    · rw [List.mem_singleton.mp hb]
      have hlast := hall last (List.mem_append_right _ (List.mem_singleton_self _))
      obtain ⟨n, rfl⟩ : ∃ n, fuel = n + 1 := ⟨fuel - 1, by omega⟩
      cases hp : last.parentBranchId with
      | none =>
        refine ⟨[last.branchId], by simp [Creative.walk, hlast, hp], fun a => ?_⟩
        rw [List.mem_singleton]
        constructor
        · rintro rfl
          exact Relation.ReflTransGen.refl
        · intro hinherits
          rcases hinherits.cases_head with heq | ⟨m, ⟨x, hx, hxp⟩, -⟩
          · exact heq.symm
          · rw [hlast] at hx
            cases hx
            rw [hp] at hxp
            cases hxp
      | some p =>
        obtain ⟨x, hx, rfl⟩ := hparent p hp
        obtain ⟨l, hl, hmem⟩ := hbefore x hx n (by omega)
        refine ⟨last.branchId :: l, by simp [Creative.walk, hlast, hp, hl, Except.map], ?_⟩
        intro a
        rw [List.mem_cons, hmem a]
        constructor
        · rintro (rfl | hinherits)
          · exact Relation.ReflTransGen.refl
          · exact Relation.ReflTransGen.head ⟨last, hlast, hp⟩ hinherits
        · intro hinherits
          rcases hinherits.cases_head with heq | ⟨m, ⟨y, hy, hyp⟩, hrest⟩
          · exact Or.inl heq.symm
          · rw [hlast] at hy
            cases hy
            rw [hp] at hyp
            cases hyp
            exact Or.inr hrest

theorem Grown.lineage (h : Grown c) {branchId : PyStr}
    (hb : (branch? c.branches branchId).isSome = true) :
    ∃ l, c.lineage branchId = .ok l ∧ ∀ a, a ∈ l ↔ Inherits c.branches branchId a := by
  obtain ⟨b, hb⟩ := Option.isSome_iff_exists.mp hb
  obtain ⟨hmem, rfl⟩ := branch?_some hb
  obtain ⟨l, hl, hiff⟩ := h.branches.walk (fun x hx => h.branches.branch? hx) b hmem _ le_rfl
  refine ⟨l.reverse, ?_, fun a => by rw [List.mem_reverse, hiff]⟩
  rw [CreativeCanon.lineage, hb, hl]
  rfl

-- == active

section Facts

variable (c : CreativeCanon) (branchId : PyStr)

/-- A fact of the branch or of one of its ancestors. -/
def Visible (f : CanonFact) : Prop := f ∈ c.facts ∧ Inherits c.branches branchId f.branchId

/-- A visible fact that no visible fact supersedes. -/
def Active (f : CanonFact) : Prop :=
  Visible c branchId f ∧ ∀ g, Visible c branchId g → g.supersedesFactId ≠ some f.factId

/-- The active facts of the pair have one canonical value. -/
def Agree (k : PyStr × PyStr) : Prop :=
  ∀ f g, Active c branchId f → Active c branchId g → f.key = k → g.key = k →
    canonicalValue f.value = canonicalValue g.value

/-- Where two pairs with active facts have one joined string, they are no contradiction. -/
def Clear : Prop :=
  ∀ f g, Active c branchId f → Active c branchId g → f.key ≠ g.key →
    joined f.key = joined g.key → Agree c branchId f.key

end Facts

theorem mem_activeFacts {c : CreativeCanon} {branchId : PyStr} {l : List PyStr}
    (hl : ∀ a, a ∈ l ↔ Inherits c.branches branchId a) {f : CanonFact} :
    f ∈ activeFacts c.facts l ↔ Active c branchId f := by
  have hvisible : ∀ g, g ∈ c.facts.filter (fun g => decide (g.branchId ∈ l))
      ↔ Visible c branchId g := by
    intro g
    rw [List.mem_filter, decide_eq_true_eq, hl]
    rfl
  rw [activeFacts, List.mem_filter, decide_eq_true_eq, hvisible, List.mem_filterMap]
  refine and_congr_right fun _ => ?_
  constructor
  · intro hnone g hg heq
    exact hnone ⟨g, (hvisible g).mpr hg, heq⟩
  · rintro hnone ⟨g, hg, heq⟩
    exact hnone g ((hvisible g).mp hg) heq

variable {fs : List CanonFact} {k : PyStr × PyStr}

theorem Founded.value (h : Founded fs) {f : CanonFact} (hf : f ∈ fs) :
    ∃ t, canonicalValue f.value = .ok t := by
  induction h with
  | nil => cases hf
  | snoc _ _ hvalue _ ih =>
    rcases List.mem_append.mp hf with hf | hf
    · exact ih hf
    · rw [List.mem_singleton.mp hf]
      exact hvalue

theorem Founded.unique (h : Founded fs) {f g : CanonFact} (hf : f ∈ fs)
    (hg : g ∈ fs) (heq : f.factId = g.factId) : f = g := by
  induction h with
  | nil => cases hf
  | snoc _ hnew _ _ ih =>
    rcases List.mem_append.mp hf with hf | hf <;> rcases List.mem_append.mp hg with hg | hg
    · exact ih hf hg
    · rw [List.mem_singleton.mp hg] at heq
      exact absurd heq (hnew f hf)
    · rw [List.mem_singleton.mp hf] at heq
      exact absurd heq.symm (hnew g hg)
    · rw [List.mem_singleton.mp hf, List.mem_singleton.mp hg]

theorem Founded.superseded {fs : List CanonFact} (h : Founded fs) {g : CanonFact} (hg : g ∈ fs)
    {s : PyStr} (hs : g.supersedesFactId = some s) : ∃ x ∈ fs, x.factId = s ∧ x.key = g.key := by
  induction h with
  | nil => cases hg
  | snoc _ _ _ hbefore ih =>
    rcases List.mem_append.mp hg with hg | hg
    · obtain ⟨x, hx, hid⟩ := ih hg
      exact ⟨x, List.mem_append_left _ hx, hid⟩
    · rw [List.mem_singleton.mp hg] at hs ⊢
      obtain ⟨x, hx, hid⟩ := hbefore s hs
      exact ⟨x, List.mem_append_left _ hx, hid⟩

theorem Founded.exists_active (h : Founded fs) {P : CanonFact → Prop}
    {f : CanonFact} (hf : f ∈ fs) (hPf : P f) :
    ∃ g ∈ fs, P g ∧ g.key = f.key ∧ ∀ x ∈ fs, P x → x.supersedesFactId ≠ some g.factId := by
  induction h with
  | nil => cases hf
  | @snoc fs last hfs hnew hvalue hbefore ih =>
    have hwhole := Founded.snoc hfs hnew hvalue hbefore
    have hlast : last ∈ fs ++ [last] := List.mem_append_right _ (List.mem_singleton_self _)
    by_cases hit : P last ∧ last.key = f.key
    · refine ⟨last, hlast, hit.1, hit.2, fun x hx _ hs => ?_⟩
      have hearlier : ∃ y ∈ fs, y.factId = last.factId := by
        rcases List.mem_append.mp hx with hx | hx
        · obtain ⟨y, hy, hid, -⟩ := hfs.superseded hx hs
          exact ⟨y, hy, hid⟩
        · rw [List.mem_singleton.mp hx] at hs
          obtain ⟨y, hy, hid, -⟩ := hbefore _ hs
          exact ⟨y, hy, hid⟩
      obtain ⟨y, hy, hid⟩ := hearlier
      exact hnew y hy hid
    · have hbeforeLast : f ∈ fs := by
        rcases List.mem_append.mp hf with hf | hf
        · exact hf
        · rw [List.mem_singleton.mp hf] at hPf hit
          exact absurd ⟨hPf, rfl⟩ hit
      obtain ⟨g, hg, hPg, hkey, hnone⟩ := ih hbeforeLast
      refine ⟨g, List.mem_append_left _ hg, hPg, hkey, fun x hx hPx hs => ?_⟩
      rcases List.mem_append.mp hx with hx | hx
      · exact hnone x hx hPx hs
      · rw [List.mem_singleton.mp hx] at hPx hs
        obtain ⟨y, hy, hid, hykey⟩ := hwhole.superseded hlast hs
        have hsame : y = g := hwhole.unique hy (List.mem_append_left _ hg) hid
        rw [hsame, hkey] at hykey
        exact hit ⟨hPx, hykey.symm⟩

-- == groups

theorem get?_foldl_addToGroup (fs : List CanonFact) (k : PyStr × PyStr) :
    ∀ d : Dict (PyStr × PyStr) (List CanonFact), (fs.foldl addToGroup d).get? k
      = if fs.filter (fun f => decide (f.key = k)) = [] then d.get? k
        else some ((d.get? k).getD [] ++ fs.filter fun f => decide (f.key = k)) := by
  induction fs with
  | nil => exact fun d => rfl
  | cons f rest ih =>
    intro d
    rw [List.foldl_cons, ih, addToGroup, Dict.get?_set]
    by_cases hk : f.key = k
    · subst hk
      rw [if_pos rfl, List.filter_cons_of_pos (by simp), if_neg (List.cons_ne_nil _ _)]
      by_cases hrest : rest.filter (fun g => decide (g.key = f.key)) = []
      · rw [if_pos hrest, hrest]
      · rw [if_neg hrest, Option.getD_some, List.append_assoc, List.singleton_append]
    · rw [if_neg (Ne.symm hk), List.filter_cons_of_neg (by simpa using hk)]

theorem mem_groupsOf {active : List CanonFact} {facts : List CanonFact} :
    (k, facts) ∈ groupsOf active
      ↔ facts ≠ [] ∧ facts = active.filter fun f => decide (f.key = k) := by
  rw [groupsOf, List.mem_insertionSort, Dict.mem_items, get?_foldl_addToGroup]
  split
  · next hnone =>
    rw [hnone]
    constructor
    · intro h
      cases h
    · rintro ⟨hne, heq⟩
      exact absurd heq hne
  · next hsome =>
    rw [Dict.get?_empty, Option.getD_none, List.nil_append, Option.some_inj]
    constructor
    · rintro rfl
      exact ⟨hsome, rfl⟩
    · exact fun h => h.2.symm

theorem canonicalValues_ok {facts : List CanonFact}
    (h : ∀ f ∈ facts, ∃ t, canonicalValue f.value = .ok t) :
    ∃ values, canonicalValues facts = .ok values
      ∧ ∀ t, t ∈ values ↔ ∃ f ∈ facts, canonicalValue f.value = .ok t := by
  induction facts with
  | nil => exact ⟨[], rfl, fun t => by simp⟩
  | cons f rest ih =>
    obtain ⟨t, ht⟩ := h f (List.mem_cons_self ..)
    obtain ⟨values, hvalues, hmem⟩ := ih fun g hg => h g (List.mem_cons_of_mem _ hg)
    refine ⟨t :: values, by rw [canonicalValues, ht, hvalues]; rfl, fun u => ?_⟩
    rw [List.mem_cons, hmem, List.exists_mem_cons_iff, ht, Except.ok.injEq, eq_comm]

theorem dedup_length {values : List PyStr} :
    1 < values.dedup.length ↔ ∃ t ∈ values, ∃ u ∈ values, t ≠ u := by
  constructor
  · intro h
    obtain ⟨t, u, rest, heq⟩ : ∃ t u rest, values.dedup = t :: u :: rest := by
      rcases hd : values.dedup with _ | ⟨t, _ | ⟨u, rest⟩⟩
      · simp [hd] at h
      · simp [hd] at h
      · exact ⟨t, u, rest, rfl⟩
    have hnodup := values.nodup_dedup
    rw [heq] at hnodup
    refine ⟨t, List.mem_dedup.mp (by simp [heq]), u, List.mem_dedup.mp (by simp [heq]), ?_⟩
    rintro rfl
    exact (List.nodup_cons.mp hnodup).1 (List.mem_cons_self ..)
  · rintro ⟨t, ht, u, hu, hne⟩
    by_contra hle
    have ht' := List.mem_dedup.mpr ht
    have hu' := List.mem_dedup.mpr hu
    rcases hd : values.dedup with _ | ⟨x, _ | ⟨y, rest⟩⟩
    · simp [hd] at ht'
    · rw [hd, List.mem_singleton] at ht' hu'
      exact hne (ht'.trans hu'.symm)
    · simp [hd] at hle

theorem chosen_mem (f : CanonFact) (others : List CanonFact) : chosen f others ∈ f :: others := by
  induction others generalizing f with
  | nil => exact List.mem_cons_self ..
  | cons g rest ih =>
    rw [chosen]
    split
    · exact List.mem_cons_of_mem _ (ih g)
    · rcases List.mem_cons.mp (ih f) with h | h
      · rw [h]
        exact List.mem_cons_self ..
      · exact List.mem_cons_of_mem _ (List.mem_cons_of_mem _ h)

theorem mem_sortedIds {facts : List CanonFact} {i : PyStr} :
    i ∈ sortedIds facts ↔ ∃ f ∈ facts, f.factId = i := by
  rw [sortedIds, List.mem_insertionSort, List.mem_map]

-- == report

def Same (facts : List CanonFact) : Prop :=
  ∀ f ∈ facts, ∀ g ∈ facts, canonicalValue f.value = canonicalValue g.value

@[simp] theorem value?_resolve (v : CanonView) (k j : PyStr × PyStr) (x : Doc) :
    (v.resolve k x).value? j = if j = k then some x else v.value? j := by
  obtain ⟨k₁, k₂⟩ := k
  obtain ⟨j₁, j₂⟩ := j
  rw [CanonView.value?, CanonView.resolve, Dict.get?_set, CanonView.value?]
  by_cases h₁ : j₁ = k₁
  · subst h₁
    by_cases h₂ : j₂ = k₂
    · simp [h₂]
    · cases hd : v.resolved.get? j₁ with
      | none => simp [h₂]
      | some d => simp [h₂]
  · simp [h₁]

/-- What the loop leaves of a view. -/
structure Reported (groups : List ((PyStr × PyStr) × List CanonFact)) (v v' : CanonView) :
    Prop where
  resolved : ∀ k, (∃ facts, (k, facts) ∈ groups ∧ Same facts
      ∧ ∃ f ∈ facts, v'.value? k = some f.value)
    ∨ (∀ facts, (k, facts) ∈ groups → ¬ Same facts) ∧ v'.value? k = v.value? k
  /-- An entry is that of a group with this joined string, or was there. -/
  contradictions : ∀ s, (∃ k facts, (k, facts) ∈ groups ∧ joined k = s ∧ ¬ Same facts
      ∧ v'.contradictions.get? s = some (sortedIds facts))
    ∨ (∀ k facts, (k, facts) ∈ groups → joined k = s → Same facts)
      ∧ v'.contradictions.get? s = v.contradictions.get? s
  /-- No entity is without an attribute. -/
  entities : (∀ e d, v.resolved.get? e = some d → ∃ a x, d.get? a = some x) →
    ∀ e d, v'.resolved.get? e = some d → ∃ a x, d.get? a = some x

theorem entities_resolve {v : CanonView} {x : Doc}
    (h : ∀ e d, v.resolved.get? e = some d → ∃ a x, d.get? a = some x) :
    ∀ e d, (v.resolve k x).resolved.get? e = some d → ∃ a x, d.get? a = some x := by
  intro e d hd
  rw [CanonView.resolve, Dict.get?_set] at hd
  split at hd
  · cases hd
    exact ⟨k.2, x, by rw [Dict.get?_set, if_pos rfl]⟩
  · exact h e d hd

theorem report_ok {groups : List ((PyStr × PyStr) × List CanonFact)}
    (h : ∀ k facts, (k, facts) ∈ groups → facts ≠ []
      ∧ ∀ f ∈ facts, ∃ t, canonicalValue f.value = .ok t) :
    ∀ v, ∃ v', report groups v = .ok v' ∧ Reported groups v v' := by
  induction groups with
  | nil =>
    intro v
    exact ⟨v, rfl, fun k => Or.inr ⟨nofun, rfl⟩, fun s => Or.inr ⟨nofun, rfl⟩, id⟩
  | cons group rest ih =>
    obtain ⟨k, facts⟩ := group
    intro v
    obtain ⟨hne, hfacts⟩ := h k facts (List.mem_cons_self ..)
    obtain ⟨values, hvalues, hmem⟩ := canonicalValues_ok hfacts
    have hrest := ih fun k facts hm => h k facts (List.mem_cons_of_mem _ hm)
    -- several values are a disagreement
    have hseveral : 1 < values.dedup.length ↔ ¬ Same facts := by
      rw [dedup_length]
      constructor
      · rintro ⟨t, ht, u, hu, htu⟩ hsame
        obtain ⟨f, hf, hft⟩ := (hmem t).mp ht
        obtain ⟨g, hg, hgu⟩ := (hmem u).mp hu
        have heq := hsame f hf g hg
        rw [hft, hgu, Except.ok.injEq] at heq
        exact htu heq
      · intro hnot
        by_contra hnone
        refine hnot fun f hf g hg => ?_
        obtain ⟨t, ht⟩ := hfacts f hf
        obtain ⟨u, hu⟩ := hfacts g hg
        rw [ht, hu]
        by_contra hne
        exact hnone ⟨t, (hmem t).mpr ⟨f, hf, ht⟩, u, (hmem u).mpr ⟨g, hg, hu⟩,
          fun heq => hne (congrArg _ heq)⟩
    by_cases hsame : Same facts
    · obtain ⟨f, others, rfl⟩ := List.exists_cons_of_ne_nil hne
      obtain ⟨v', hv', hreported⟩ := hrest (v.resolve k (chosen f others).value)
      refine ⟨v', ?_, fun j => ?_, fun s => ?_, fun hv => ?_⟩
      · rw [report, hvalues]
        dsimp only
        rw [if_neg fun hlt => hseveral.mp hlt hsame, hv']
      · rcases hreported.resolved j with ⟨facts, hm, hs⟩ | ⟨hnone, heq⟩
        · exact Or.inl ⟨facts, List.mem_cons_of_mem _ hm, hs⟩
        · rw [value?_resolve] at heq
          by_cases hj : j = k
          · subst hj
            rw [if_pos rfl] at heq
            exact Or.inl ⟨f :: others, List.mem_cons_self .., hsame, _, chosen_mem f others, heq⟩
          · rw [if_neg hj] at heq
            refine Or.inr ⟨fun facts hm => ?_, heq⟩
            rcases List.mem_cons.mp hm with hm | hm
            · cases hm
              exact absurd rfl hj
            · exact hnone facts hm
      · rcases hreported.contradictions s with ⟨j, facts, hm, hs⟩ | ⟨hnone, heq⟩
        · exact Or.inl ⟨j, facts, List.mem_cons_of_mem _ hm, hs⟩
        · refine Or.inr ⟨fun j facts hm hj => ?_, heq⟩
          rcases List.mem_cons.mp hm with hm | hm
          · cases hm
            exact hsame
          · exact hnone j facts hm hj
      · exact hreported.entities (entities_resolve hv)
    · obtain ⟨v', hv', hreported⟩ := hrest (v.contradict k facts)
      refine ⟨v', ?_, fun j => ?_, fun s => ?_, hreported.entities⟩
      · unfold report
        rw [hvalues]
        dsimp only
        rw [if_pos (hseveral.mpr hsame), hv']
      · rcases hreported.resolved j with ⟨facts, hm, hs⟩ | ⟨hnone, heq⟩
        · exact Or.inl ⟨facts, List.mem_cons_of_mem _ hm, hs⟩
        · refine Or.inr ⟨fun facts' hm => ?_, heq⟩
          rcases List.mem_cons.mp hm with hm | hm
          · cases hm
            exact hsame
          · exact hnone facts' hm
      · rcases hreported.contradictions s with ⟨j, facts', hm, hs⟩ | ⟨hnone, heq⟩
        · exact Or.inl ⟨j, facts', List.mem_cons_of_mem _ hm, hs⟩
        · rw [CanonView.contradict, Dict.get?_set] at heq
          by_cases hs : s = joined k
          · rw [if_pos hs] at heq
            exact Or.inl ⟨k, facts, List.mem_cons_self .., hs.symm, hsame, heq⟩
          · rw [if_neg hs] at heq
            refine Or.inr ⟨fun j facts' hm hj => ?_, heq⟩
            rcases List.mem_cons.mp hm with hm | hm
            · cases hm
              exact absurd hj.symm hs
            · exact hnone j facts' hm hj

-- == result

/-- A view accounts for every pair with an active fact in exactly one way, and for nothing else;
and facts of other branches do not change it. -/
structure Exact (c : CreativeCanon) (branchId : PyStr) (v : CanonView) : Prop where
  resolved : ∀ f, Active c branchId f → Agree c branchId f.key → (∃ x, v.value? f.key = some x
      ∧ ∀ g, Active c branchId g → g.key = f.key → canonicalValue g.value = canonicalValue x)
    ∧ v.contradictions.get? (joined f.key) = none
  contradictory : ∀ f, Active c branchId f → ¬ Agree c branchId f.key →
    (∃ ids, v.contradictions.get? (joined f.key) = some ids
      ∧ ∀ i, i ∈ ids ↔ ∃ g, Active c branchId g ∧ g.key = f.key ∧ g.factId = i)
    ∧ v.value? f.key = none
  inhabited : ∀ f, Visible c branchId f → ∃ g, Active c branchId g ∧ g.key = f.key
  resolvedOnly : ∀ e d, v.resolved.get? e = some d → (∃ a x, d.get? a = some x)
    ∧ ∀ a x, d.get? a = some x → ∃ f, Active c branchId f ∧ f.key = (e, a)
  contradictoryOnly : ∀ s ids, v.contradictions.get? s = some ids →
    ∃ f, Active c branchId f ∧ joined f.key = s ∧ ¬ Agree c branchId f.key
  framed : ∀ f c', f.postInit = .ok () → c.addFact f = .ok c' →
    ¬ Inherits c.branches branchId f.branchId → c'.view branchId = .ok v

section Viewed

variable {c : CreativeCanon} (h : Grown c) {branchId : PyStr}

include h in
theorem view_reported (hb : (branch? c.branches branchId).isSome = true) :
    ∃ groups v, c.view branchId = .ok v ∧ Reported groups ⟨branchId, .empty, .empty⟩ v
      ∧ (∀ f, Active c branchId f → ∃ facts, (f.key, facts) ∈ groups)
      ∧ ∀ k facts, (k, facts) ∈ groups → (∃ f, Active c branchId f ∧ f.key = k)
        ∧ (∀ f, f ∈ facts ↔ Active c branchId f ∧ f.key = k)
        ∧ (Same facts ↔ Agree c branchId k) := by
  obtain ⟨l, hl, hmem⟩ := h.lineage hb
  have hgroup : ∀ k facts, (k, facts) ∈ groupsOf (activeFacts c.facts l) →
      ∀ f, f ∈ facts ↔ Active c branchId f ∧ f.key = k := by
    intro k facts hm f
    rw [(mem_groupsOf.mp hm).2, List.mem_filter, mem_activeFacts hmem, decide_eq_true_eq]
  have hvalues : ∀ k facts, (k, facts) ∈ groupsOf (activeFacts c.facts l) → facts ≠ []
      ∧ ∀ f ∈ facts, ∃ t, canonicalValue f.value = .ok t := by
    intro k facts hm
    refine ⟨(mem_groupsOf.mp hm).1, fun f hf => ?_⟩
    exact h.facts.value ((hgroup k facts hm f).mp hf).1.1.1
  obtain ⟨v, hv, hreported⟩ := report_ok hvalues ⟨branchId, .empty, .empty⟩
  refine ⟨_, v, by rw [CreativeCanon.view, hl]; exact hv, hreported, fun f hf => ?_,
    fun k facts hm => ⟨?_, hgroup k facts hm, ?_⟩⟩
  · refine ⟨_, mem_groupsOf.mpr ⟨?_, rfl⟩⟩
    exact List.ne_nil_of_mem (List.mem_filter.mpr
      ⟨(mem_activeFacts hmem).mpr hf, decide_eq_true rfl⟩)
  · obtain ⟨f, hf⟩ := List.exists_mem_of_ne_nil _ (mem_groupsOf.mp hm).1
    exact ⟨f, (hgroup k facts hm f).mp hf⟩
  · constructor
    · intro hsame f g hf hg hfk hgk
      exact hsame f ((hgroup k facts hm f).mpr ⟨hf, hfk⟩) g ((hgroup k facts hm g).mpr ⟨hg, hgk⟩)
    · intro hagree f hf g hg
      obtain ⟨hf, hfk⟩ := (hgroup k facts hm f).mp hf
      obtain ⟨hg, hgk⟩ := (hgroup k facts hm g).mp hg
      exact hagree f g hf hg hfk hgk

theorem view_addFact {c' : CreativeCanon} {f : CanonFact} (hadd : c.addFact f = .ok c')
    (hgrown : Grown c) (hb : (branch? c.branches branchId).isSome = true)
    (hnot : ¬ Inherits c.branches branchId f.branchId) : c'.view branchId = c.view branchId := by
  obtain rfl | ⟨rfl, -⟩ := addFact_cases hadd
  · rfl
  · obtain ⟨l, hl, hmem⟩ := hgrown.lineage hb
    have hl' : CreativeCanon.lineage { c with facts := c.facts ++ [f] } branchId = .ok l := hl
    rw [CreativeCanon.view, CreativeCanon.view, hl, hl']
    dsimp only
    have hhidden : f.branchId ∉ l := fun hin => hnot ((hmem _).mp hin)
    have hnone : [f].filter (fun g => decide (g.branchId ∈ l)) = [] := by simp [hhidden]
    rw [activeFacts, activeFacts, List.filter_append, hnone, List.append_nil]

include h in
theorem clear_of_exact {v : CanonView} (hexact : Exact c branchId v) : Clear c branchId := by
  intro f g hf hg hkeys hjoined
  by_contra hf'
  obtain ⟨⟨ids, hids, hmem⟩, -⟩ := hexact.contradictory f hf hf'
  by_cases hg' : Agree c branchId g.key
  · have hnone := (hexact.resolved g hg hg').2
    rw [← hjoined, hids] at hnone
    cases hnone
  · -- the ids of both pairs are in one entry
    obtain ⟨⟨ids', hids', hmem'⟩, -⟩ := hexact.contradictory g hg hg'
    rw [← hjoined, hids] at hids'
    cases hids'
    obtain ⟨x, hx, hkey, hid⟩ := (hmem' f.factId).mp ((hmem f.factId).mpr ⟨f, hf, rfl, rfl⟩)
    have hsame : x = f := h.facts.unique hx.1.1 hf.1.1 hid
    rw [hsame] at hkey
    exact hkeys hkey

include h in
theorem exact_of_clear (hb : (branch? c.branches branchId).isSome = true)
    (hclear : Clear c branchId) : ∃ v, c.view branchId = .ok v ∧ Exact c branchId v := by
  obtain ⟨groups, v, hv, hreported, hcovered, hgroup⟩ := view_reported h hb
  -- an active pair that agrees shares its joined string with no contradiction
  have hagreeing : ∀ f, Active c branchId f → Agree c branchId f.key →
      ∀ k facts, (k, facts) ∈ groups → joined k = joined f.key → Same facts := by
    intro f hf hagree k facts hm hjoined
    obtain ⟨⟨g, hg, rfl⟩, -, hsame⟩ := hgroup k facts hm
    rw [hsame]
    by_cases hkeys : g.key = f.key
    · rwa [hkeys]
    · exact hclear g f hg hf hkeys hjoined
  refine ⟨v, hv, ?_, ?_, ?_, ?_, ?_, ?_⟩
  · intro f hf hagree
    obtain ⟨facts, hm⟩ := hcovered f hf
    have hsame := hagreeing f hf hagree _ facts hm rfl
    constructor
    · rcases hreported.resolved f.key with ⟨facts', hm', -, x, hx, hvalue⟩ | ⟨hnone, -⟩
      · obtain ⟨hactive, hkey⟩ := ((hgroup _ _ hm').2.1 x).mp hx
        exact ⟨x.value, hvalue, fun g hg hgkey => hagree g x hg hactive hgkey hkey⟩
      · exact absurd hsame (hnone facts hm)
    · rcases hreported.contradictions (joined f.key) with ⟨k, facts', hm', hk, hnot, -⟩ | ⟨-, heq⟩
      · exact absurd (hagreeing f hf hagree k facts' hm' hk) hnot
      · rw [heq]
        rfl
  · intro f hf hnot
    obtain ⟨facts, hm⟩ := hcovered f hf
    constructor
    · rcases hreported.contradictions (joined f.key)
        with ⟨k, facts', hm', hk, hnot', heq⟩ | ⟨hall, -⟩
      · obtain ⟨⟨g, hg, rfl⟩, hmem, hsame⟩ := hgroup k facts' hm'
        have hkeys : g.key = f.key := by
          by_contra hne
          exact hnot' (hsame.mpr (hclear g f hg hf hne hk))
        refine ⟨_, heq, fun i => ?_⟩
        rw [mem_sortedIds]
        simp only [hmem, hkeys, and_assoc]
      · exact absurd ((hgroup _ _ hm).2.2.mp (hall _ facts hm rfl)) hnot
    · rcases hreported.resolved f.key with ⟨facts', hm', hsame, -⟩ | ⟨-, heq⟩
      · exact absurd ((hgroup _ _ hm').2.2.mp hsame) hnot
      · rw [heq]
        rfl
  · rintro f ⟨hf, hinherits⟩
    obtain ⟨g, hg, hgin, hkey, hnone⟩ := h.facts.exists_active
      (P := fun g => Inherits c.branches branchId g.branchId) hf hinherits
    exact ⟨g, ⟨⟨hg, hgin⟩, fun x hx => hnone x hx.1 hx.2⟩, hkey⟩
  · intro e d hd
    refine ⟨hreported.entities nofun e d hd, fun a x hx => ?_⟩
    have hvalue : v.value? (e, a) = some x := by
      rw [CanonView.value?, hd]
      exact hx
    rcases hreported.resolved (e, a) with ⟨facts, hm, -⟩ | ⟨-, heq⟩
    · exact (hgroup _ _ hm).1
    · rw [heq] at hvalue
      cases hvalue
  · intro s ids hids
    rcases hreported.contradictions s with ⟨k, facts, hm, hk, hnot, -⟩ | ⟨-, heq⟩
    · obtain ⟨⟨f, hf, rfl⟩, -, hsame⟩ := hgroup k facts hm
      exact ⟨f, hf, hk, fun hagree => hnot (hsame.mpr hagree)⟩
    · rw [heq] at hids
      cases hids
  · intro f c' _ hadd hnot
    rw [view_addFact hadd h hb hnot, hv]

end Viewed

/-- The view of a branch accounts for every pair just if no contradictory pair shares its joined
string with another pair that has an active fact. -/
theorem view_iff (calls : List Call) {branchId : PyStr}
    (hb : (branch? (build calls).branches branchId).isSome = true) :
    (∃ v, (build calls).view branchId = .ok v ∧ Exact (build calls) branchId v)
      ↔ Clear (build calls) branchId := by
  constructor
  · rintro ⟨v, -, hexact⟩
    exact clear_of_exact (grown_build calls) hexact
  · exact exact_of_clear (grown_build calls) hb

-- == colliding pairs

namespace Sample

def doc (b : Bool) : Doc := ⟨.bool b, rfl⟩

def fact (factId entityId attributeName : PyStr) (b : Bool) : CanonFact :=
  ⟨factId, [109], entityId, attributeName, doc b, [[112]], none⟩

/-- The branch, and facts about (a, c), which are contradictory. -/
def calls : List Call := [ .branch ⟨[109], none, [[112]]⟩, .fact (fact [49] [97] [99] true),
  .fact (fact [50] [97] [99] false)]

/-- Facts about (a.b, c), which has one value, and (a, b.c), which has two. -/
def colliding : List Call := [
  .branch ⟨[109], none, [[112]]⟩, .fact (fact [49] [97, 46, 98] [99] true),
  .fact (fact [50] [97] [98, 46, 99] true), .fact (fact [51] [97] [98, 46, 99] false)]

theorem facts_colliding : (build colliding).facts
    = [fact [49] [97, 46, 98] [99] true, fact [50] [97] [98, 46, 99] true,
      fact [51] [97] [98, 46, 99] false] := rfl

theorem facts_calls : (build calls).facts
    = [fact [49] [97] [99] true, fact [50] [97] [99] false] := rfl

theorem active_colliding {f : CanonFact} (hf : f ∈ (build colliding).facts) :
    Active (build colliding) [109] f := by
  have hfacts : ∀ g ∈ (build colliding).facts, g.branchId = [109] ∧ g.supersedesFactId = none := by
    rw [facts_colliding]
    simp [fact]
  refine ⟨⟨hf, (hfacts f hf).1 ▸ Relation.ReflTransGen.refl⟩, fun g hg hs => ?_⟩
  rw [(hfacts g hg.1).2] at hs
  cases hs

end Sample

theorem view_exact : ∃ v, (build Sample.calls).view [109] = .ok v
    ∧ Exact (build Sample.calls) [109] v := by
  refine (view_iff Sample.calls rfl).mpr fun f g hf hg hkeys _ => ?_
  have hkey : ∀ x, Active (build Sample.calls) [109] x → x.key = ([97], [99]) := by
    intro x hx
    have hmem := hx.1.1
    rw [Sample.facts_calls] at hmem
    rcases List.mem_cons.mp hmem with rfl | hmem
    · rfl
    · rw [List.mem_singleton.mp hmem]
      rfl
  exact absurd ((hkey f hf).trans (hkey g hg).symm) hkeys

/-- A pair with one value is reported as a contradiction, under the joined string of another. -/
theorem view_colliding : ¬ ∀ (calls : List Call) (branchId : PyStr),
    (branch? (build calls).branches branchId).isSome = true →
    ∃ v, (build calls).view branchId = .ok v ∧ Exact (build calls) branchId v := by
  intro hall
  obtain ⟨v, -, hexact⟩ := hall Sample.colliding [109] rfl
  have hclear := clear_of_exact (grown_build _) hexact
  have hagree : Agree (build Sample.colliding) [109] ([97], [98, 46, 99]) :=
    hclear (Sample.fact [50] [97] [98, 46, 99] true) (Sample.fact [49] [97, 46, 98] [99] true)
      (Sample.active_colliding (by simp [Sample.facts_colliding]))
      (Sample.active_colliding (by simp [Sample.facts_colliding]))
      (by decide) rfl
  have hvalue := hagree (Sample.fact [50] [97] [98, 46, 99] true)
    (Sample.fact [51] [97] [98, 46, 99] false)
    (Sample.active_colliding (by simp [Sample.facts_colliding]))
    (Sample.active_colliding (by simp [Sample.facts_colliding])) rfl rfl
  exact absurd hvalue (by decide)

end Centinal26.Creative
