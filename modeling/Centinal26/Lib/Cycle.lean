/-
Depth-first search for a cycle, with the path to the node that is visited and the nodes that are
done with.
-/
import Mathlib.Data.List.Chain
import Mathlib.Data.List.Perm.Subperm
import Mathlib.Logic.Relation

namespace Search

variable {α : Type} [DecidableEq α]

/-- What a search finds: a cycle, or the nodes done with. -/
abbrev Found (α : Type) := Option (Option (List α) × List α)

/-- Visit the nodes of a list, until a cycle is found. -/
def visitAll (visit : α → List α → Found α) : List α → List α → Found α
  | [], visited => some (none, visited)
  | node :: rest, visited =>
    match visit node visited with
    | some (none, visited) => visitAll visit rest visited
    | found => found

/-- Visit a node, at the end of a path. -/
def visit (next : α → List α) : Nat → List α → α → List α → Found α
  | 0, _, _, _ => none
  | fuel + 1, path, node, visited =>
    if node ∈ path then some (some (path.dropWhile (fun a => decide (a ≠ node)) ++ [node]), visited)
    else if node ∈ visited then some (none, visited)
    else
      match visitAll (visit next fuel (path ++ [node])) (next node) visited with
      | some (none, visited) => some (none, node :: visited)
      | found => found

variable {next : α → List α}

def Edge (next : α → List α) (a b : α) : Prop := b ∈ next a

/-- A way from a node back to it. -/
def IsCycle (next : α → List α) (c : List α) : Prop :=
  ∃ a way, c = a :: way ++ [a] ∧ c.IsChain (Edge next)

structure Done (next : α → List α) (path visited : List α) : Prop where
  closed : ∀ a ∈ visited, ∀ b ∈ next a, b ∈ visited
  acyclic : ∀ a ∈ visited, ¬ Relation.TransGen (Edge next) a a
  apart : ∀ a ∈ visited, a ∉ path

/-- What a search may find, that has these nodes to visit. -/
def Finds (next : α → List α) (path nodes visited : List α) : Found α → Prop
  | none => True
  | some (some c, _) => IsCycle next c
  | some (none, after) => Done next path after ∧ visited ⊆ after ∧ nodes ⊆ after

omit [DecidableEq α] in
theorem reaches_closed {visited : List α} (h : ∀ a ∈ visited, ∀ b ∈ next a, b ∈ visited) {a b : α}
    (hab : Relation.ReflTransGen (Edge next) a b) (ha : a ∈ visited) : b ∈ visited := by
  induction hab with
  | refl => exact ha
  | tail _ hedge ih => exact h _ ih _ hedge

omit [DecidableEq α] in
theorem visitAll_finds {f : α → List α → Found α} {path : List α} (nodes : List α)
    (hf : ∀ node ∈ nodes, ∀ visited, Done next path visited →
      Finds next path [node] visited (f node visited)) :
    ∀ {visited : List α}, Done next path visited →
      Finds next path nodes visited (visitAll f nodes visited) := by
  induction nodes with
  | nil => exact fun h => ⟨h, fun _ ha => ha, List.nil_subset _⟩
  | cons node nodes ih =>
    intro visited h
    obtain ⟨hnode, hnodes⟩ := List.forall_mem_cons.mp hf
    have hfirst := hnode visited h
    rw [visitAll]
    split
    · next after hafter =>
      rw [hafter] at hfirst
      obtain ⟨hdone, hsub, hmem⟩ := hfirst
      have hrest := ih hnodes hdone
      revert hrest
      cases hall : visitAll f nodes after with
      | none => exact fun _ => trivial
      | some found =>
        obtain ⟨cycle, last⟩ := found
        cases cycle with
        | some c => exact id
        | none =>
          rintro ⟨hlast, hsub', hmem'⟩
          exact ⟨hlast, fun _ ha => hsub' (hsub ha), List.cons_subset.mpr
            ⟨hsub' (hmem (List.mem_singleton_self _)), hmem'⟩⟩
    · next hother =>
      revert hfirst
      cases hvisit : f node visited with
      | none => exact fun _ => trivial
      | some found =>
        obtain ⟨cycle, last⟩ := found
        cases cycle with
        | some c => exact id
        | none => exact absurd hvisit (hother last)

theorem isCycle_of_mem {path : List α} {node : α} (hchain : (path ++ [node]).IsChain (Edge next))
    (h : node ∈ path) : IsCycle next (path.dropWhile (fun a => decide (a ≠ node)) ++ [node]) := by
  have hcons : ∃ way, path.dropWhile (fun a => decide (a ≠ node)) = node :: way := by
    clear hchain
    induction path with
    | nil => cases h
    | cons a path ih =>
      by_cases ha : a = node
      · exact ⟨path, by rw [List.dropWhile_cons_of_neg (by simpa using ha), ha]⟩
      · rw [List.dropWhile_cons_of_pos (by simpa using ha)]
        exact ih ((List.mem_cons.mp h).resolve_left fun heq => ha heq.symm)
  obtain ⟨way, hway⟩ := hcons
  refine ⟨node, way, by rw [hway], ?_⟩
  obtain ⟨front, hfront⟩ := List.dropWhile_suffix (l := path) fun a => decide (a ≠ node)
  exact hchain.suffix ⟨front, by rw [← List.append_assoc, hfront]⟩

theorem visit_finds (fuel : Nat) : ∀ {path : List α} {node : α} {visited : List α},
    (path ++ [node]).IsChain (Edge next) → Done next path visited →
      Finds next path [node] visited (visit next fuel path node visited) := by
  induction fuel with
  | zero => exact fun _ _ => trivial
  | succ fuel ih =>
    intro path node visited hchain h
    rw [visit]
    split_ifs with hpath hvisited
    · exact isCycle_of_mem hchain hpath
    · exact ⟨h, fun _ ha => ha, fun a ha => List.mem_singleton.mp ha ▸ hvisited⟩
    · have hdone : Done next (path ++ [node]) visited := by
        refine ⟨h.closed, h.acyclic, fun a ha hmem => ?_⟩
        rcases List.mem_append.mp hmem with hmem | hmem
        · exact h.apart a ha hmem
        · exact hvisited (List.mem_singleton.mp hmem ▸ ha)
      have hall := visitAll_finds (f := visit next fuel (path ++ [node])) (next node)
        (fun dep hdep v hv => ih (hchain.append (.singleton dep) fun a ha b hb => by
          rw [List.getLast?_concat] at ha
          cases ha
          cases hb
          exact hdep) hv) hdone
      revert hall
      cases visitAll (visit next fuel (path ++ [node])) (next node) visited with
      | none => exact fun _ => trivial
      | some found =>
        obtain ⟨cycle, after⟩ := found
        cases cycle with
        | some c => exact id
        | none =>
          rintro ⟨hafter, hsub, hnext⟩
          refine ⟨⟨fun a ha b hb => ?_, fun a ha hcycle => ?_, fun a ha hmem => ?_⟩,
            fun a ha => List.mem_cons_of_mem _ (hsub ha),
            fun a ha => List.mem_singleton.mp ha ▸ List.mem_cons_self ..⟩
          · rcases List.mem_cons.mp ha with rfl | ha
            · exact List.mem_cons_of_mem _ (hnext hb)
            · exact List.mem_cons_of_mem _ (hafter.closed a ha b hb)
          · rcases List.mem_cons.mp ha with rfl | ha
            · -- a way back would lead through nodes that are done with
              obtain ⟨b, hb, hway⟩ := Relation.TransGen.head'_iff.mp hcycle
              have hself := reaches_closed hafter.closed hway (hnext hb)
              exact hafter.apart a hself (List.mem_append_right _ (List.mem_singleton_self _))
            · exact hafter.acyclic a ha hcycle
          · rcases List.mem_cons.mp ha with rfl | ha
            · exact hpath hmem
            · exact hafter.apart a ha (List.mem_append_left _ hmem)

-- == fuel

omit [DecidableEq α] in
theorem visitAll_isSome {f : α → List α → Found α} (nodes : List α)
    (hf : ∀ node ∈ nodes, ∀ visited, (f node visited).isSome = true) :
    ∀ visited, (visitAll f nodes visited).isSome = true := by
  induction nodes with
  | nil => exact fun _ => rfl
  | cons node nodes ih =>
    intro visited
    obtain ⟨hnode, hnodes⟩ := List.forall_mem_cons.mp hf
    rw [visitAll]
    split
    · exact ih hnodes _
    · exact hnode visited

/-- A path is no longer than there are nodes, so that much fuel is enough. -/
theorem visit_isSome {nodes : List α} (hnext : ∀ a ∈ nodes, next a ⊆ nodes) (fuel : Nat) :
    ∀ {path : List α} {node : α} {visited : List α}, path.Nodup → path ⊆ nodes → node ∈ nodes →
      nodes.length < path.length + fuel → (visit next fuel path node visited).isSome = true := by
  induction fuel with
  | zero =>
    intro path node visited hnodup hsub _ hlt
    have hle := (List.subperm_of_subset hnodup hsub).length_le
    omega
  | succ fuel ih =>
    intro path node visited hnodup hsub hnode hlt
    rw [visit]
    split_ifs with hpath hvisited
    · rfl
    · rfl
    · have hpath' : (path ++ [node]).Nodup := by
        refine List.nodup_append.mpr ⟨hnodup, List.pairwise_singleton _ _, fun a ha b hb => ?_⟩
        rw [List.mem_singleton.mp hb]
        exact fun heq => hpath (heq ▸ ha)
      have hall := visitAll_isSome (f := visit next fuel (path ++ [node])) (next node)
        (fun dep hdep v => ih hpath' (List.append_subset.mpr
          ⟨hsub, fun a ha => List.mem_singleton.mp ha ▸ hnode⟩) (hnext node hnode hdep) (by
            rw [List.length_append, List.length_singleton]
            omega)) visited
      split
      · rfl
      · exact hall

-- == cycles

omit [DecidableEq α] in
theorem reaches_of_chain {way : List α} : ∀ {a b : α}, (a :: way ++ [b]).IsChain (Edge next) →
    Relation.TransGen (Edge next) a b := by
  induction way with
  | nil =>
    intro a b h
    exact .single (List.isChain_cons_cons.mp h).1
  | cons c way ih =>
    intro a b h
    obtain ⟨hac, hrest⟩ := List.isChain_cons_cons.mp h
    exact .head hac (ih hrest)

/-- The search of all nodes that have edges finds a cycle just if there is one. -/
theorem search_spec {roots nodes : List α} (hroots : roots ⊆ nodes)
    (hnext : ∀ a ∈ nodes, next a ⊆ nodes) (hedges : ∀ a, next a ≠ [] → a ∈ roots) :
    ∃ r visited, visitAll (visit next (nodes.length + 1) []) roots [] = some (r, visited)
      ∧ (r = none ↔ ∀ a, ¬ Relation.TransGen (Edge next) a a) ∧ ∀ c ∈ r, IsCycle next c := by
  have hsome := visitAll_isSome (f := visit next (nodes.length + 1) []) roots
    (fun node hnode v => visit_isSome hnext _ List.nodup_nil (List.nil_subset _) (hroots hnode)
      (by rw [List.length_nil]; omega)) []
  have hfinds : Finds next [] roots [] (visitAll (visit next (nodes.length + 1) []) roots []) :=
    visitAll_finds roots (fun node _ v hv => visit_finds _ (.singleton node) hv)
      ⟨nofun, nofun, nofun⟩
  obtain ⟨⟨r, visited⟩, hrun⟩ := Option.isSome_iff_exists.mp hsome
  rw [hrun] at hfinds
  refine ⟨r, visited, hrun, ?_⟩
  cases r with
  | some c =>
    refine ⟨iff_of_false nofun fun hacyclic => ?_, fun d hd => Option.some.inj hd ▸ hfinds⟩
    obtain ⟨a, way, rfl, hchain⟩ := hfinds
    exact hacyclic a (reaches_of_chain hchain)
  | none =>
    obtain ⟨hdone, -, hmem⟩ := hfinds
    refine ⟨iff_of_true rfl fun a hcycle => ?_, nofun⟩
    obtain ⟨b, hb, -⟩ := Relation.TransGen.head'_iff.mp hcycle
    exact hdone.acyclic a (hmem (hedges a (List.ne_nil_of_mem hb))) hcycle

end Search
