/-
When a clean report of the miner means a complete search: when every archive is recognised and lies
within the depth, and no entry of a directory has data.
-/
import Centinal26.Miner.Reached

namespace Centinal26.Miner

open Py

variable {B : Bounds} {Q : Query}

-- == scans

theorem adds_scanPath (f : PathFile) (c : Counters) :
    Adds B c (scanPath B Q f c) (f.reached B Q) := by
  unfold scanPath
  split
  · exact Adds.warn ..
  · split
    · exact Adds.warn ..
    · split
      · exact Adds.warn ..
      · rcases adds_consume (B := B) c ⟨f.path, none, f.content.data⟩ with
          ⟨c', heq, hadds⟩ | ⟨c', heq, hadds⟩
        · rw [heq]
          exact hadds _
        · rw [heq]
          dsimp only
          unfold PathFile.reached
          rw [← List.singleton_append]
          split
          · next hname => exact hadds.trans (adds_scanZip _ _ _ _ _ hname)
          · next hname =>
            rw [Content.reached_of_not hname]
            exact hadds

theorem adds_scanFiles (files : List PathFile) (c : Counters) :
    Adds B c (scanFiles B Q files c) (files.flatMap fun f => f.reached B Q) := by
  induction files generalizing c with
  | nil => exact Adds.refl c
  | cons f rest ih =>
    rw [scanFiles, List.flatMap_cons]
    split
    · next htruncated => exact Adds.of_truncated htruncated _
    · exact (adds_scanPath f c).trans (ih _)

theorem adds_scanRoots (roots : List Root) (c : Counters) :
    Adds B c (scanRoots B Q roots c) (roots.flatMap fun r => r.reached B Q) := by
  induction roots generalizing c with
  | nil => exact Adds.refl c
  | cons root rest ih =>
    unfold scanRoots
    rw [List.flatMap_cons]
    split
    · next htruncated => exact Adds.of_truncated htruncated _
    · refine Adds.trans ?_ (ih _)
      cases root with
      | file f => exact adds_scanPath f c
      | dir files => exact adds_scanFiles files c
      | missing path => exact Adds.warn ..

-- == items

mutual

/-- What is in an archive, at every level of nesting. -/
def Content.items (source : PyStr) : Content → List Item
  | .plain _ => []
  | .archive _ members => members.items source

def Members.items (source : PyStr) : Members → List Item
  | .nil => []
  | .cons info content rest =>
    (if info.isDir = true ∧ content.data = [] then []
      else [⟨source, some info.filename, content.data⟩])
      ++ content.items (source ++ py "!" ++ info.filename) ++ rest.items source

end

def PathFile.items (f : PathFile) : List Item :=
  ⟨f.path, none, f.content.data⟩ :: f.content.items f.path

def Root.items : Root → List Item
  | .file f => f.items
  | .dir files => files.flatMap PathFile.items
  | .missing _ => []

mutual

/-- Every archive that has something in it is recognised by its name or its bytes and within the
depth, and no entry of a directory has data. -/
def Content.Open (B : Bounds) (Q : Query) (source name : PyStr) (depth : Nat) : Content → Prop
  | .plain _ => True
  | .archive data members =>
    if depth ≤ B.maxDepth ∧ looksLikeZip Q name data = true then members.Open B Q source depth
    else members.items source = []

def Members.Open (B : Bounds) (Q : Query) (source : PyStr) (depth : Nat) : Members → Prop
  | .nil => True
  | .cons info content rest =>
    (if info.isDir then
      content.data = [] ∧ content.items (source ++ py "!" ++ info.filename) = []
    else content.Open B Q (source ++ py "!" ++ info.filename) info.filename (depth + 1))
      ∧ rest.Open B Q source depth

end

def PathFile.Open (B : Bounds) (Q : Query) (f : PathFile) : Prop :=
  f.content.Open B Q f.path f.name 1

def Root.Open (B : Bounds) (Q : Query) : Root → Prop
  | .file f => f.Open B Q
  | .dir files => ∀ f ∈ files, f.Open B Q
  | .missing _ => True

/-- What is reached is part of what is there, and all of it if everything is open. -/
structure Reaches (reached items : List Item) (opened : Prop) : Prop where
  sublist : reached.Sublist items
  all_iff : reached = items ↔ opened

variable {xs ys : List Item} {p q : Prop}

theorem Reaches.append {xs' ys' : List Item} (h : Reaches xs xs' p)
    (h' : Reaches ys ys' q) : Reaches (xs ++ ys) (xs' ++ ys') (p ∧ q) := by
  refine ⟨h.sublist.append h'.sublist, fun heq => ?_, fun hboth => ?_⟩
  · have hlength := congrArg List.length heq
    rw [List.length_append, List.length_append] at hlength
    have hx := h.sublist.length_le
    have hy := h'.sublist.length_le
    exact ⟨h.all_iff.mp (h.sublist.eq_of_length (by omega)),
      h'.all_iff.mp (h'.sublist.eq_of_length (by omega))⟩
  · rw [h.all_iff.mpr hboth.1, h'.all_iff.mpr hboth.2]

theorem Reaches.none (items : List Item) : Reaches [] items (items = []) :=
  ⟨List.nil_sublist items, eq_comm⟩

theorem Reaches.congr (h : Reaches xs ys p) (hpq : p ↔ q) :
    Reaches xs ys q := ⟨h.sublist, h.all_iff.trans hpq⟩

theorem Reaches.cons (item : Item) (h : Reaches xs ys p) : Reaches (item :: xs) (item :: ys) p :=
  ⟨h.sublist.cons_cons item, by rw [← h.all_iff, List.cons_inj_right]⟩

mutual

theorem reaches_content : ∀ (content : Content) (source name : PyStr) (depth : Nat),
    Reaches (content.reached B Q source name depth) (content.items source)
      (content.Open B Q source name depth)
  | .plain _, _, _, _ => ⟨List.Sublist.refl [], iff_of_true rfl trivial⟩
  | .archive data members, source, name, depth => by
    rw [Content.reached, Content.items, Content.Open]
    by_cases hopen : depth ≤ B.maxDepth ∧ looksLikeZip Q name data = true
    · rw [if_pos hopen, if_pos hopen]
      exact reaches_members members source depth
    · rw [if_neg hopen, if_neg hopen]
      exact Reaches.none _

theorem reaches_members : ∀ (members : Members) (source : PyStr) (depth : Nat),
    Reaches (members.reached B Q source depth) (members.items source)
      (members.Open B Q source depth)
  | .nil, _, _ => ⟨List.Sublist.refl [], iff_of_true rfl trivial⟩
  | .cons info content rest, source, depth => by
    rw [Members.reached, Members.items, Members.Open]
    refine Reaches.append ?_ (reaches_members rest source depth)
    by_cases hdir : info.isDir = true
    · rw [if_pos hdir, if_pos hdir]
      refine (Reaches.none _).congr ?_
      rw [List.append_eq_nil_iff]
      refine and_congr_left fun _ => ?_
      by_cases hdata : content.data = []
      · rw [if_pos ⟨hdir, hdata⟩]
        exact iff_of_true rfl hdata
      · rw [if_neg fun h => hdata h.2]
        exact iff_of_false (List.cons_ne_nil _ _) hdata
    · rw [if_neg hdir, if_neg hdir, if_neg fun h => hdir h.1]
      exact (reaches_content content _ _ _).cons _

end

theorem reaches_path (f : PathFile) : Reaches (f.reached B Q) f.items (f.Open B Q) :=
  (reaches_content f.content f.path f.name 1).cons _

theorem reaches_flatMap {α : Type} {reached items : α → List Item} {opened : α → Prop}
    (h : ∀ a, Reaches (reached a) (items a) (opened a)) (as : List α) :
    Reaches (as.flatMap reached) (as.flatMap items) (∀ a ∈ as, opened a) := by
  induction as with
  | nil => exact ⟨List.Sublist.refl [], iff_of_true rfl fun _ ha => (List.not_mem_nil ha).elim⟩
  | cons a rest ih =>
    rw [List.flatMap_cons, List.flatMap_cons]
    exact ((h a).append ih).congr (by rw [List.forall_mem_cons])

theorem reaches_root (root : Root) : Reaches (root.reached B Q) root.items (root.Open B Q) := by
  cases root with
  | file f => exact reaches_path f
  | dir files => exact reaches_flatMap reaches_path files
  | missing path => exact ⟨List.Sublist.refl [], iff_of_true rfl trivial⟩

-- == report

/-- The report has nothing to say of what was left out. -/
def Report.Clean (r : Report) : Prop :=
  r.truncated = false ∧ r.warnings = [] ∧ r.skippedUnsafeMembers = 0

/-- Every file and every member has been classified, and what is expected and there was found. -/
def Complete (B : Bounds) (Q : Query) (roots : List Root) : Prop :=
  (scan B Q roots).2.classified = roots.flatMap Root.items
    ∧ ∀ item ∈ roots.flatMap Root.items, Expected Q item →
      ∃ finding ∈ (scan B Q roots).1.findings, finding.sha256 = Q.sha256 item.data
        ∧ finding.strength = .hashMatch

theorem classify_expected {item : Item} (h : Expected Q item) : ∃ finding,
    classify Q item = some finding ∧ finding.sha256 = Q.sha256 item.data
      ∧ finding.strength = .hashMatch := by
  unfold classify
  simp only [if_pos h]
  rw [if_neg (by simp)]
  exact ⟨_, rfl, rfl, rfl⟩

/-- No more bytes are read than are allowed; and a clean report is one of a complete search exactly
if every archive can be reached. -/
theorem clean_complete (B : Bounds) (Q : Query) (roots : List Root) :
    (scan B Q roots).2.bytesRead ≤ B.maxTotalBytes
      ∧ ((scan B Q roots).1.Clean → (Complete B Q roots ↔ ∀ root ∈ roots, root.Open B Q)) := by
  have hadds := adds_scanRoots (B := B) (Q := Q) roots {}
  refine ⟨hadds.bytes (Nat.zero_le _), fun hclean => ?_⟩
  have hclassified : (scan B Q roots).2.classified = roots.flatMap fun r => r.reached B Q :=
    (hadds.clean ⟨hclean.1, hclean.2.1, hclean.2.2⟩).2
  have hreaches := reaches_flatMap (reaches_root (B := B) (Q := Q)) roots
  constructor
  · intro hcomplete
    exact hreaches.all_iff.mp (hclassified.symm.trans hcomplete.1)
  · intro hopen
    have hitems : (scan B Q roots).2.classified = roots.flatMap Root.items :=
      hclassified.trans (hreaches.all_iff.mpr hopen)
    refine ⟨hitems, fun item hitem hexpected => ?_⟩
    obtain ⟨finding, hfinding, hsha, hstrength⟩ := classify_expected hexpected
    refine ⟨finding, ?_, hsha, hstrength⟩
    show finding ∈ List.insertionSort _ _
    rw [List.mem_insertionSort]
    exact List.mem_filterMap.mpr ⟨item, hitems ▸ hitem, hfinding⟩

-- == an example

namespace Sample

/-- The bounds of a miner that is given none. -/
def bounds : Bounds := ⟨3, 10000, 16 * 1024 * 1024, 256 * 1024 * 1024⟩

def header : PyStr := [80, 75, 3, 4]

def zipOf (name : String) (content : Content) : Content :=
  .archive header (.cons ⟨py name, content.data.length, none⟩ content .nil)

/-- A file in four archives, one in the other. -/
def nested : PathFile where
  path := py "/a.zip"
  name := py "a.zip"
  statError := none
  readError := none
  content := zipOf "b.zip" (zipOf "c.zip" (zipOf "d.zip" (zipOf "e" (.plain [1, 2, 3]))))

/-- The file in the archives is expected. -/
def query : Query where
  expectedSha256 := [[1, 2, 3]]
  filenameTerms := []
  textTerms := []
  sha256 data := data
  lower s := s
  decode s := s

def roots : List Root := [.file nested]

theorem clean : (scan bounds query roots).1.Clean := by
  refine ⟨?_, ?_, ?_⟩
  all_goals decide +kernel

end Sample

/-- A report is clean and without findings, and what is expected is there. -/
theorem not_complete : (scan Sample.bounds Sample.query Sample.roots).1.Clean
    ∧ (scan Sample.bounds Sample.query Sample.roots).1.findings.length = 0
    ∧ (∃ item ∈ Sample.roots.flatMap Root.items, Expected Sample.query item)
    ∧ ¬ Complete Sample.bounds Sample.query Sample.roots := by
  refine ⟨Sample.clean, by decide +kernel, by decide +kernel, fun hcomplete => ?_⟩
  have hclassified : (scan Sample.bounds Sample.query Sample.roots).2.classified
      ≠ Sample.roots.flatMap Root.items := by decide +kernel
  exact hclassified hcomplete.1

end Centinal26.Miner
