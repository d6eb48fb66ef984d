/-
The selected branch of an exported conversation: `_node_path_to_current` walks from the current
node up the parents, and `_messages_from_conversation` reads the messages of the nodes it
comes back with.
-/
import Centinal26.Ingest.Extract

namespace Centinal26.Chat

open Py
open Ingest (Formats pyStr)

-- == nodes

/-- `isinstance(node, dict)`. -/
def asNode : Json → Option Members
  | .obj node => some node
  | _ => none

def node? (mapping : Members) (nodeId : PyStr) : Option Members :=
  (getItem? mapping nodeId).bind asNode

/-- `parent if isinstance(parent, str) and parent else None`. -/
def parent (node : Members) : Option PyStr :=
  match field node "parent" with
  | .str p => if p = [] then none else some p
  | _ => none

theorem parent_ne_nil {node : Members} {p : PyStr} (h : parent node = some p) : p ≠ [] := by
  unfold parent at h
  split at h
  · split at h
    · cases h
    · next hne =>
      cases h
      exact hne
  · cases h

def unseen (mapping : Members) (seen : List PyStr) : Members :=
  mapping.filter fun m => decide (m.1 ∉ seen)

theorem unseen_cons {mapping : Members} {seen : List PyStr} {nodeId : PyStr} {node : Members}
    (hnode : node? mapping nodeId = some node) (hnew : nodeId ∉ seen) :
    (unseen mapping (nodeId :: seen)).length < (unseen mapping seen).length := by
  have hmem : ∃ m ∈ mapping, m.1 = nodeId := by
    by_contra hnone
    have hnot : nodeId ∉ mapping.map Prod.fst := by
      intro h
      obtain ⟨m, hm, hid⟩ := List.mem_map.mp h
      exact hnone ⟨m, hm, hid⟩
    unfold node? at hnode
    rw [getItem?_of_not_mem hnot] at hnode
    cases hnode
  obtain ⟨m, hm, rfl⟩ := hmem
  have hsub : unseen mapping (m.1 :: seen)
      = (unseen mapping seen).filter fun n => decide (n.1 ≠ m.1) := by
    unfold unseen
    rw [List.filter_filter]
    refine List.filter_congr fun n _ => ?_
    simp only [List.mem_cons, not_or, Bool.decide_and]
  rw [hsub]
  refine List.length_filter_lt_length_iff_exists.mpr ⟨m, List.mem_filter.mpr ⟨hm, ?_⟩, ?_⟩
  · exact decide_eq_true hnew
  · simp

-- == walk

/-- The loop of `_node_path_to_current`, with what follows it. -/
def walk (mapping : Members) (nodeId : Option PyStr) (seen : List PyStr) (path : List Members) :
    List Members :=
  match nodeId with
  | none => path.reverse
  | some id =>
    if id ∈ seen then []
    else if id = [] then path.reverse
    else
      match _hnode : node? mapping id with
      | none => []
      | some node => walk mapping (parent node) (id :: seen) (path ++ [node])
termination_by (unseen mapping seen).length
decreasing_by exact unseen_cons _hnode ‹_›

def nodePathToCurrent (conversation : Members) : List Members :=
  match field conversation "mapping", field conversation "current_node" with
  | .obj mapping, .str currentNode => walk mapping (some currentNode) [] []
  | _, _ => []

-- == messages

structure Message where
  role : PyStr
  text : PyStr
  createTime : Json
  messageId : Json

def partText : Json → Option PyStr
  | .str s => some s
  | .obj part =>
    match field part "text" with
    | .str s => some s
    | _ => (field part "content").str?
  | _ => none

def extractTextFromMessage (message : Members) : PyStr :=
  match field message "content" with
  | .obj content =>
    match field content "parts" with
    | .arr parts =>
      strStrip (joinWith (py "\n") ((parts.filterMap partText).filter fun s => !s.isEmpty))
    | _ => []
  | _ => []

/-- `str(author.get("role") or "unknown")`. -/
def roleOf (F : Formats) (message : Members) : PyStr :=
  match field message "author" with
  | .obj author =>
    if (field author "role").truthy then pyStr F (field author "role") else py "unknown"
  | _ => py "unknown"

/-- What a node is imported as, if it bears text. -/
def messageOf (F : Formats) (node : Members) : Option Message :=
  match field node "message" with
  | .obj message =>
    let text := extractTextFromMessage message
    if text = [] then none
    else some ⟨roleOf F message, text, field message "create_time", field message "id"⟩
  | _ => none

/-- A key to sort messages by: those without a time come last. -/
structure SortKey where
  untimed : Nat
  created : Py.Num
  messageId : PyStr

def SortKey.lt (a b : SortKey) : Bool :=
  if a.untimed ≠ b.untimed then decide (a.untimed < b.untimed)
  else if a.created.eq b.created then decide (a.messageId < b.messageId)
  else a.created.lt b.created

def messageSortKey (F : Formats) (float : Int → Except PyErr Py.Num) (item : Message) :
    Except PyErr SortKey :=
  let messageId := if item.messageId.truthy then pyStr F item.messageId else []
  match item.createTime with
  | .int n => do .ok ⟨0, ← float n, messageId⟩
  | .bool b => .ok ⟨0, boolNum b, messageId⟩
  | .float x => .ok ⟨0, x.num, messageId⟩
  | _ => .ok ⟨1, .finite 0, messageId⟩

def sortMessages (F : Formats) (float : Int → Except PyErr Py.Num) (messages : List Message) :
    Except PyErr (List Message) := do
  let keyed ← messages.mapM fun m => do .ok ((← messageSortKey F float m), m)
  .ok ((keyed.mergeSort fun a b => !b.1.lt a.1).map Prod.snd)

def messagesFromConversation (F : Formats) (float : Int → Except PyErr Py.Num)
    (conversation : Members) : Except PyErr (List Message) :=
  match field conversation "mapping" with
  | .obj mapping =>
    let selectedNodes := nodePathToCurrent conversation
    if selectedNodes ≠ [] then .ok (selectedNodes.filterMap (messageOf F))
    else sortMessages F float ((mapping.filterMap fun m => asNode m.2).filterMap (messageOf F))
  | _ => .ok []

-- == trails

section Trails

variable (mapping : Members) (current : PyStr)

/-- The nodes between the current one and the one to look at next, the last seen first. -/
inductive Trail : List (PyStr × Members) → Option PyStr → Prop
  | start : Trail [] (some current)
  | step {visited : List (PyStr × Members)} {id : PyStr} {node : Members}
      (behind : Trail visited (some id)) (new : id ∉ visited.map Prod.fst)
      (named : id ≠ []) (found : node? mapping id = some node) :
      Trail ((id, node) :: visited) (parent node)

/-- The nodes of the selected branch, root first. -/
structure Branch where
  nodes : List (PyStr × Members)
  found : ∀ n ∈ nodes, node? mapping n.1 = some n.2
  /-- nobody above the root -/
  root : ∀ n ∈ nodes.head?, parent n.2 = none
  /-- each is the parent of the next -/
  linked : nodes.IsChain fun a b => parent b.2 = some a.1
  ends : nodes.getLast?.map Prod.fst = some current
  nodup : (nodes.map Prod.fst).Nodup

/-- The node `k` generations above the current one. -/
def ancestor : Nat → Option PyStr
  | 0 => some current
  | k + 1 => ((ancestor k).bind (node? mapping)).bind parent

def MeetsMissing : Prop := ∃ k id, ancestor mapping current k = some id ∧ node? mapping id = none

def RunsIntoCycle : Prop :=
  ∃ i j id, i < j ∧ ancestor mapping current i = some id ∧ ancestor mapping current j = some id

end Trails

section Walks

variable {mapping : Members} {current : PyStr} {visited : List (PyStr × Members)}
  {next : Option PyStr}

theorem walk_trail (htrail : Trail mapping current visited next)
    (hnext : next = some [] → visited = []) : (∃ nodes, Trail mapping current nodes none
        ∧ walk mapping next (visited.map Prod.fst) (visited.map Prod.snd).reverse
          = nodes.map Prod.snd)
      ∨ walk mapping next (visited.map Prod.fst) (visited.map Prod.snd).reverse = []
        ∧ ∃ nodes id, Trail mapping current nodes (some id)
          ∧ (id = [] ∨ id ∈ nodes.map Prod.fst ∨ node? mapping id = none) := by
  induction hn : (unseen mapping (visited.map Prod.fst)).length using Nat.strong_induction_on
    generalizing visited next with
  | _ n ih =>
  unfold walk
  cases next with
  | none => exact Or.inl ⟨visited, htrail, List.reverse_reverse _⟩
  | some id =>
    dsimp only
    by_cases hseen : id ∈ visited.map Prod.fst
    · rw [if_pos hseen]
      exact Or.inr ⟨rfl, visited, id, htrail, Or.inr (Or.inl hseen)⟩
    rw [if_neg hseen]
    by_cases hblank : id = []
    · rw [if_pos hblank, hnext (congrArg some hblank)]
      exact Or.inr ⟨rfl, visited, id, htrail, Or.inl hblank⟩
    rw [if_neg hblank]
    split
    · next hnode => exact Or.inr ⟨rfl, visited, id, htrail, Or.inr (Or.inr hnode)⟩
    · next node hnode =>
      have hstep := ih _ (hn ▸ unseen_cons hnode hseen)
        (Trail.step htrail hseen hblank hnode) (fun h => absurd rfl (parent_ne_nil h)) rfl
      rwa [List.map_cons, List.map_cons, List.reverse_cons] at hstep

theorem Trail.nodup (h : Trail mapping current visited next) : (visited.map Prod.fst).Nodup := by
  induction h with
  | start => exact List.nodup_nil
  | step behind new named found ih => exact List.nodup_cons.mpr ⟨new, ih⟩

theorem Trail.found (h : Trail mapping current visited next) :
    ∀ n ∈ visited, node? mapping n.1 = some n.2 := by
  induction h with
  | start =>
    intro n hn
    cases hn
  | step behind new named found ih => exact List.forall_mem_cons.mpr ⟨found, ih⟩

theorem Trail.next_eq (h : Trail mapping current visited next) {n : PyStr × Members}
    (hn : n ∈ visited.head?) : next = parent n.2 := by
  cases h with
  | start => cases hn
  | step behind new named found =>
    cases hn
    rfl

theorem Trail.linked (h : Trail mapping current visited next) :
    visited.IsChain fun a b => parent b.2 = some a.1 := by
  induction h with
  | start => exact List.IsChain.nil
  | @step visited id node behind new named found ih =>
    cases visited with
    | nil => exact List.IsChain.singleton _
    | cons n rest => exact List.IsChain.cons_cons (behind.next_eq rfl).symm ih

theorem Trail.ends (h : Trail mapping current visited next) (hne : visited ≠ []) :
    visited.getLast?.map Prod.fst = some current := by
  induction h with
  | start => exact absurd rfl hne
  | @step visited id node behind new named found ih =>
    cases visited with
    | nil =>
      cases behind
      rfl
    | cons n rest =>
      rw [List.getLast?_cons_cons]
      exact ih (List.cons_ne_nil _ _)

def Trail.branch (h : Trail mapping current visited none) : Branch mapping current where
  nodes := visited
  found := h.found
  root n hn := (h.next_eq hn).symm
  linked := h.linked
  ends := h.ends (by
    rintro rfl
    cases h)
  nodup := h.nodup

-- == ancestors

theorem Trail.ancestor_eq (h : Trail mapping current visited next) :
    ancestor mapping current visited.length = next := by
  induction h with
  | start => rfl
  | step behind new named found ih =>
    rw [List.length_cons, ancestor, ih]
    show (node? mapping _).bind parent = _
    rw [found]
    rfl

variable {id : PyStr} {k : Nat}

theorem Trail.ancestor_of_mem (h : Trail mapping current visited next)
    (hid : id ∈ visited.map Prod.fst) :
    ∃ k < visited.length, ancestor mapping current k = some id := by
  induction h with
  | start => cases hid
  | step behind new named found ih =>
    rcases List.mem_cons.mp hid with rfl | hid
    · exact ⟨_, Nat.lt_succ_self _, behind.ancestor_eq⟩
    · obtain ⟨k, hk, hanc⟩ := ih hid
      exact ⟨k, Nat.lt_succ_of_lt hk, hanc⟩

theorem Trail.mem_of_ancestor (h : Trail mapping current visited next) (hk : k < visited.length) :
    ∃ id ∈ visited.map Prod.fst, ancestor mapping current k = some id := by
  induction h with
  | start => cases hk
  | @step visited id node behind new named found ih =>
    rcases Nat.lt_succ_iff_lt_or_eq.mp hk with hk | rfl
    · obtain ⟨id', hmem, hanc⟩ := ih hk
      exact ⟨id', List.mem_cons_of_mem _ hmem, hanc⟩
    · exact ⟨id, List.mem_cons_self, behind.ancestor_eq⟩

theorem Trail.ancestor_inj (h : Trail mapping current visited next) {i j : Nat}
    (hij : i < j) (hj : j < visited.length) (hi : ancestor mapping current i = some id) :
    ancestor mapping current j ≠ some id := by
  induction h with
  | start => cases hj
  | @step visited id' node behind new named found ih =>
    rcases Nat.lt_succ_iff_lt_or_eq.mp hj with hj | rfl
    · exact ih hj
    · rw [behind.ancestor_eq]
      intro heq
      cases heq
      obtain ⟨id, hmem, hanc⟩ := behind.mem_of_ancestor hij
      rw [hanc] at hi
      cases hi
      exact new hmem

theorem ancestor_none (h : ancestor mapping current k = none) (n : Nat) :
    ancestor mapping current (k + n) = none := by
  induction n with
  | zero => exact h
  | succ n ih =>
    show ((ancestor mapping current (k + n)).bind (node? mapping)).bind parent = none
    rw [ih]
    rfl

theorem Trail.sound (h : Trail mapping current visited none) :
    current ≠ [] ∧ ¬ MeetsMissing mapping current ∧ ¬ RunsIntoCycle mapping current := by
  have hshort : ∀ {k id}, ancestor mapping current k = some id → k < visited.length := by
    intro k id hk
    by_contra hle
    obtain ⟨n, rfl⟩ := Nat.exists_eq_add_of_le (Nat.not_lt.mp hle)
    rw [ancestor_none h.ancestor_eq n] at hk
    cases hk
  refine ⟨?_, ?_, ?_⟩
  · have hnamed : ∀ {visited next}, Trail mapping current visited next → visited ≠ [] →
        current ≠ [] := by
      intro visited next h hne
      induction h with
      | start => exact absurd rfl hne
      | @step visited id node behind new named found ih =>
        cases visited with
        | nil =>
          cases behind
          exact named
        | cons n rest => exact ih (List.cons_ne_nil _ _)
    refine hnamed h ?_
    rintro rfl
    cases h
  · rintro ⟨k, id, hk, hmissing⟩
    obtain ⟨id', hmem, hanc⟩ := h.mem_of_ancestor (hshort hk)
    rw [hk] at hanc
    cases hanc
    obtain ⟨n, hn, rfl⟩ := List.mem_map.mp hmem
    rw [h.found n hn] at hmissing
    cases hmissing
  · rintro ⟨i, j, id, hij, hi, hj⟩
    exact h.ancestor_inj hij (hshort hj) hi hj

theorem Trail.stuck (h : Trail mapping current visited (some id))
    (hstuck : id = [] ∨ id ∈ visited.map Prod.fst ∨ node? mapping id = none) :
    current = [] ∨ MeetsMissing mapping current ∨ RunsIntoCycle mapping current := by
  rcases hstuck with rfl | hseen | hmissing
  · cases visited with
    | nil =>
      cases h
      exact Or.inl rfl
    | cons n rest => exact absurd rfl (parent_ne_nil (h.next_eq rfl).symm)
  · obtain ⟨k, hk, hanc⟩ := h.ancestor_of_mem hseen
    exact Or.inr (Or.inr ⟨k, _, id, hk, hanc, h.ancestor_eq⟩)
  · exact Or.inr (Or.inl ⟨_, id, h.ancestor_eq, hmissing⟩)

end Walks

-- == branch

/-- The selected branch: all of it or nothing, and its messages are the ones imported. -/
theorem selected_branch (F : Formats) (float : Int → Except PyErr Py.Num) (conversation : Members)
    (mapping : Members) (hmapping : field conversation "mapping" = .obj mapping) :
    (nodePathToCurrent conversation = []
      ↔ ∀ current, field conversation "current_node" = .str current →
        current = [] ∨ MeetsMissing mapping current ∨ RunsIntoCycle mapping current)
    ∧ (nodePathToCurrent conversation ≠ [] →
      ∃ current, field conversation "current_node" = .str current
        ∧ ∃ branch : Branch mapping current,
          nodePathToCurrent conversation = branch.nodes.map Prod.snd
          ∧ messagesFromConversation F float conversation
            = .ok (branch.nodes.filterMap fun n => messageOf F n.2)) := by
  have hpath : ∀ current, field conversation "current_node" = .str current →
      nodePathToCurrent conversation = walk mapping (some current) [] [] := by
    intro current hcurrent
    unfold nodePathToCurrent
    rw [hmapping, hcurrent]
  by_cases hstr : ∃ current, field conversation "current_node" = .str current
  · obtain ⟨current, hcurrent⟩ := hstr
    rw [hpath current hcurrent]
    have hstart : Trail mapping current [] (some current) := .start
    rcases walk_trail hstart (fun _ => rfl)
      with ⟨nodes, htrail, hwalk⟩ | ⟨hwalk, nodes, id, htrail, hstuck⟩
    · have hne : walk mapping (some current) [] [] ≠ [] := by
        intro hnil
        rw [List.map_nil, List.map_nil, List.reverse_nil] at hwalk
        rw [hwalk, List.map_eq_nil_iff] at hnil
        subst hnil
        cases htrail
      obtain ⟨hblank, hmissing, hcycle⟩ := htrail.sound
      refine ⟨iff_of_false hne fun h => ?_, fun _ => ⟨current, hcurrent, htrail.branch, hwalk, ?_⟩⟩
      · rcases h current hcurrent with h | h | h
        · exact hblank h
        · exact hmissing h
        · exact hcycle h
      · unfold messagesFromConversation
        rw [hmapping]
        dsimp only
        rw [hpath current hcurrent, if_pos hne]
        change walk mapping (some current) [] [] = _ at hwalk
        rw [hwalk, List.filterMap_map]
        rfl
    · refine ⟨iff_of_true hwalk fun current' h => ?_, fun hne => absurd hwalk hne⟩
      rw [hcurrent] at h
      cases h
      exact htrail.stuck hstuck
  · have hnil : nodePathToCurrent conversation = [] := by
      unfold nodePathToCurrent
      split
      · next _ current _ hcurrent => exact absurd ⟨current, hcurrent⟩ hstr
      · rfl
    exact ⟨iff_of_true hnil fun current h => absurd ⟨current, h⟩ hstr, fun hne => absurd hnil hne⟩

namespace Sample

/-- A conversation of two branches, the second of which is selected. -/
def forked : Members :=
  [(py "a", .obj []), (py "b", .obj [(py "parent", .str (py "a"))]),
    (py "c", .obj [(py "parent", .str (py "a"))])]

def conversation : Members :=
  [(py "mapping", .obj forked), (py "current_node", .str (py "c"))]

/-- A machine that counts bytes for a digest, and reads no JSON. -/
def formats : Formats where
  sha256 content := Text.lit (toString content.length)
  jsonLoads _ := .error (.valueError "Expecting value")
  containerStr _ := []

/-- `float` of an integer it holds exactly. -/
def float (n : Int) : Except PyErr Py.Num := .ok (.finite n)

end Sample

theorem selected_branch_forked : field Sample.conversation "mapping" = .obj Sample.forked
      ∧ (nodePathToCurrent Sample.conversation = []
        ↔ ∀ current, field Sample.conversation "current_node" = .str current →
          current = [] ∨ MeetsMissing Sample.forked current
            ∨ RunsIntoCycle Sample.forked current) :=
  ⟨rfl, (selected_branch Sample.formats Sample.float Sample.conversation Sample.forked rfl).1⟩

end Centinal26.Chat
