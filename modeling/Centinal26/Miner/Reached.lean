/-
What a clean report of the miner has classified: the files and the members that the search reaches.
-/
import Centinal26.Miner.Scan

namespace Centinal26.Miner

open Py

variable (B : Bounds) (Q : Query)

-- == reached

mutual

/-- The members that are reached in what may be an archive of this name. -/
def Content.reached (source name : PyStr) (depth : Nat) : Content → List Item
  | .plain _ => []
  | .archive data members =>
    if depth ≤ B.maxDepth ∧ looksLikeZip Q name data = true then members.reached source depth
    else []

def Members.reached (source : PyStr) (depth : Nat) : Members → List Item
  | .nil => []
  | .cons info content rest =>
    (if info.isDir then []
      else ⟨source, some info.filename, content.data⟩
        :: content.reached (source ++ py "!" ++ info.filename) info.filename (depth + 1))
      ++ rest.reached source depth

end

def PathFile.reached (f : PathFile) : List Item :=
  ⟨f.path, none, f.content.data⟩ :: f.content.reached B Q f.path f.name 1

def Root.reached : Root → List Item
  | .file f => f.reached B Q
  | .dir files => files.flatMap fun f => f.reached B Q
  | .missing _ => []

-- == steps

/-- Nothing was left out, as far as the report says. -/
structure Counters.Clean (c : Counters) : Prop where
  truncated : c.truncated = false
  warnings : c.warnings = []
  skipped : c.skipped = 0

/-- A step keeps within the bytes, and if it ends cleanly it began so and has classified the
items. -/
structure Adds (c c' : Counters) (items : List Item) : Prop where
  bytes : c.bytesRead ≤ B.maxTotalBytes → c'.bytesRead ≤ B.maxTotalBytes
  clean : c'.Clean → c.Clean ∧ c'.classified = c.classified ++ items

variable {B Q}

theorem Adds.refl (c : Counters) : Adds B c c [] := by
  refine ⟨id, fun h => ⟨h, ?_⟩⟩
  rw [List.append_nil]

theorem Adds.trans {c c₁ c₂ : Counters} {xs ys : List Item} (h : Adds B c c₁ xs)
    (h' : Adds B c₁ c₂ ys) : Adds B c c₂ (xs ++ ys) := by
  refine ⟨fun hc => h'.bytes (h.bytes hc), fun hclean => ?_⟩
  obtain ⟨hclean₁, hys⟩ := h'.clean hclean
  obtain ⟨hclean₀, hxs⟩ := h.clean hclean₁
  exact ⟨hclean₀, by rw [hys, hxs, List.append_assoc]⟩

theorem Adds.of_dirty {c c' : Counters} {items : List Item}
    (hbytes : c.bytesRead ≤ B.maxTotalBytes → c'.bytesRead ≤ B.maxTotalBytes)
    (h : ¬ c'.Clean) : Adds B c c' items := ⟨hbytes, fun hclean => absurd hclean h⟩

theorem not_clean_warn (c : Counters) (warning : PyStr) : ¬ (c.warn warning).Clean := by
  intro h
  have hwarnings := h.warnings
  simp [Counters.warn] at hwarnings

theorem Adds.warn (c : Counters) (warning : PyStr) (items : List Item) :
    Adds B c (c.warn warning) items := .of_dirty id (not_clean_warn c warning)

theorem Adds.of_truncated {c : Counters} (h : c.truncated = true) (items : List Item) :
    Adds B c c items :=
  .of_dirty id fun hclean => by
    have hfalse := hclean.truncated
    rw [h] at hfalse
    cases hfalse

theorem adds_consume (c : Counters) (item : Item) :
    (∃ c', consume B item.data.length c = (false, c') ∧ ∀ items, Adds B c c' items)
      ∨ ∃ c', consume B item.data.length c = (true, c') ∧ Adds B c (c'.classify item) [item] := by
  unfold consume
  split
  · exact .inl ⟨_, rfl, fun items => .of_dirty id (not_clean_warn _ _)⟩
  · next hbound =>
    refine .inr ⟨_, rfl, fun _ => not_lt.mp hbound, fun h => ?_⟩
    exact ⟨⟨h.truncated, h.warnings, h.skipped⟩, rfl⟩

theorem examine_cases (source : PyStr) (info : Info) (data : PyStr) (c : Counters) :
    (examine B source info data c = .skip c ∧ info.isDir = true)
    ∨ (∃ c', (examine B source info data c = .skip c' ∨ examine B source info data c = .stop c')
      ∧ ∀ items, Adds B c c' items)
    ∨ (info.isDir = false ∧ ∃ c', examine B source info data c = .read c'
      ∧ Adds B c c' [⟨source, some info.filename, data⟩]) := by
  unfold examine
  split
  · next h => exact .inr (.inl ⟨c, .inr rfl, Adds.of_truncated h.1⟩)
  · split
    · next hdir => exact .inl ⟨rfl, hdir⟩
    · next hdir =>
      split
      · refine .inr (.inl ⟨_, .inl rfl, fun items => .of_dirty id fun h => ?_⟩)
        exact absurd h.skipped (Nat.succ_ne_zero c.skipped)
      · split
        · exact .inr (.inl ⟨_, .inl rfl, Adds.warn c _⟩)
        · split
          · exact .inr (.inl ⟨_, .inl rfl, Adds.warn c _⟩)
          · rcases adds_consume (B := B) c ⟨source, some info.filename, data⟩ with
              ⟨c', heq, hadds⟩ | ⟨c', heq, hadds⟩
            · exact .inr (.inl ⟨c', .inr (by rw [heq]), hadds⟩)
            · exact .inr (.inr ⟨by simpa using hdir, _, by rw [heq], hadds⟩)

theorem Content.reached_of_not {content : Content} {source name : PyStr} {depth : Nat}
    (h : ¬ looksLikeZip Q name content.data = true) :
    content.reached B Q source name depth = [] := by
  cases content with
  | plain data => rfl
  | archive data members =>
    rw [Content.reached, if_neg]
    exact fun hopen => h hopen.2

mutual

theorem adds_scanZip : ∀ (content : Content) (source name : PyStr) (depth : Nat) (c : Counters),
    looksLikeZip Q name content.data = true →
    Adds B c (scanZip B Q source depth c content) (content.reached B Q source name depth)
  | .plain data, source, name, depth, c, _ => by
    rw [scanZip]
    split
    · exact Adds.refl c
    · exact Adds.warn ..
  | .archive data members, source, name, depth, c, hname => by
    rw [scanZip, Content.reached]
    split
    · next hskip =>
      rcases hskip with hdepth | htruncated
      · rw [if_neg fun h => absurd h.1 (not_le.mpr hdepth)]
        exact Adds.refl c
      · exact Adds.of_truncated htruncated _
    · next hopen =>
      have hdepth : depth ≤ B.maxDepth := not_lt.mp fun h => hopen (.inl h)
      rw [if_pos ⟨hdepth, hname⟩]
      have harchives : Adds B c { c with archives := c.archives + 1 } [] :=
        ⟨id, fun h => ⟨⟨h.truncated, h.warnings, h.skipped⟩, (List.append_nil _).symm⟩⟩
      have hmembers := adds_scanMembers members source depth
      dsimp only
      split
      · -- more members than are looked at: the warning stays to the end
        refine .of_dirty (fun hbytes => ?_) fun hclean => ?_
        · exact (hmembers _ B.maxMembers).1.choose_spec.bytes hbytes
        · exact not_clean_warn _ _ ((hmembers _ B.maxMembers).1.choose_spec.clean hclean).1
      · next hlength =>
        exact harchives.trans ((hmembers _ _).2 (not_lt.mp hlength))

theorem adds_scanMembers : ∀ (members : Members) (source : PyStr) (depth : Nat) (c : Counters)
    (n : Nat), (∃ items, Adds B c (scanMembers B Q source depth c n members) items)
      ∧ (members.length ≤ n → Adds B c (scanMembers B Q source depth c n members)
        (members.reached B Q source depth))
  | .nil, source, depth, c, n => by
    have hnil : scanMembers B Q source depth c n .nil = c := by cases n <;> rfl
    rw [hnil, Members.reached]
    exact ⟨⟨[], Adds.refl c⟩, fun _ => Adds.refl c⟩
  | .cons info content rest, source, depth, c, 0 => by
    rw [scanMembers]
    exact ⟨⟨[], Adds.refl c⟩, fun h => absurd h (Nat.not_succ_le_zero _)⟩
  | .cons info content rest, source, depth, c, n + 1 => by
    have hrest := adds_scanMembers rest source depth
    have hlength : (Members.cons info content rest).length ≤ n + 1 → rest.length ≤ n :=
      Nat.le_of_succ_le_succ
    rw [scanMembers, Members.reached]
    rcases examine_cases (B := B) source info content.data c with
      ⟨heq, hdir⟩ | ⟨c', heq | heq, hany⟩ | ⟨hfile, c', heq, hadds⟩
    · rw [heq, if_pos hdir]
      exact ⟨(hrest c n).1, fun h => (hrest c n).2 (hlength h)⟩
    · rw [heq]
      obtain ⟨items, hitems⟩ := (hrest c' n).1
      exact ⟨⟨[] ++ items, (hany []).trans hitems⟩,
        fun h => (hany _).trans ((hrest c' n).2 (hlength h))⟩
    · rw [heq]
      exact ⟨⟨[], hany []⟩, fun _ => hany _⟩
    · have hinside : Adds B c' (if looksLikeZip Q info.filename content.data then
          scanZip B Q (source ++ py "!" ++ info.filename) (depth + 1) c' content else c')
          (content.reached B Q (source ++ py "!" ++ info.filename) info.filename (depth + 1)) := by
        split
        · next hname => exact adds_scanZip content _ _ _ c' hname
        · next hname =>
          rw [Content.reached_of_not hname]
          exact Adds.refl c'
      have hread := hadds.trans hinside
      rw [heq, if_neg (by rw [hfile]; exact Bool.false_ne_true)]
      obtain ⟨items, hitems⟩ := (hrest _ n).1
      exact ⟨⟨_, hread.trans hitems⟩, fun h => hread.trans ((hrest _ n).2 (hlength h))⟩

end

end Centinal26.Miner
