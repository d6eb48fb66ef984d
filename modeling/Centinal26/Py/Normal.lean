/-
JSON values as `json.loads` gives them to the program: of equal names in an
object the last one counts, and nothing depends on the order of the others. So
an object is modelled by its members in the order of their names, which is
also the order `sort_keys=True` writes them in.
-/
import Centinal26.Py.Records
import Mathlib.Data.List.Nodup
import Mathlib.Data.List.Induction

namespace Py

-- == order

def Ordered {α : Type} (ms : List (PyStr × α)) : Prop :=
  (ms.map Prod.fst).Pairwise (· < ·)

instance {α : Type} (ms : List (PyStr × α)) : Decidable (Ordered ms) :=
  inferInstanceAs (Decidable ((ms.map Prod.fst).Pairwise (· < ·)))

variable {α : Type} {m n : PyStr × α} {ms : List (PyStr × α)}

theorem mem_insertByName : n ∈ insertByName m ms ↔ n = m ∨ n ∈ ms := by
  induction ms with
  | nil => exact List.mem_cons
  | cons k rest ih =>
    unfold insertByName
    split
    · exact List.mem_cons
    · rw [List.mem_cons, ih, List.mem_cons]
      tauto

theorem mem_sortByName : n ∈ sortByName ms ↔ n ∈ ms := by
  induction ms with
  | nil => exact Iff.rfl
  | cons m rest ih =>
    unfold sortByName
    rw [mem_insertByName, ih, List.mem_cons]

theorem ordered_insertByName
    (h : Ordered ms) (hnew : m.1 ∉ ms.map Prod.fst) : Ordered (insertByName m ms) := by
  induction ms with
  | nil => exact List.pairwise_singleton _ _
  | cons k rest ih =>
    obtain ⟨hk, hrest⟩ := List.pairwise_cons.mp h
    unfold insertByName
    split
    · next hlt =>
      refine List.pairwise_cons.mpr ⟨fun n hn => ?_, h⟩
      rcases List.mem_cons.mp hn with rfl | hn
      · exact hlt
      · exact lt_trans hlt (hk n hn)
    · next hge =>
      rw [List.map_cons, List.mem_cons, not_or] at hnew
      have hlt : k.1 < m.1 := lt_of_le_of_ne (not_lt.mp hge) (Ne.symm hnew.1)
      refine List.pairwise_cons.mpr ⟨fun n hn => ?_, ih hrest hnew.2⟩
      obtain ⟨x, hx, rfl⟩ := List.mem_map.mp hn
      rcases mem_insertByName.mp hx with rfl | hx
      · exact hlt
      · exact hk _ (List.mem_map_of_mem hx)

theorem ordered_sortByName (h : (ms.map Prod.fst).Nodup) : Ordered (sortByName ms) := by
  induction ms with
  | nil => exact List.Pairwise.nil
  | cons m rest ih =>
    rw [List.map_cons, List.nodup_cons] at h
    refine ordered_insertByName (ih h.2) fun hmem => h.1 ?_
    obtain ⟨x, hx, hname⟩ := List.mem_map.mp hmem
    exact hname ▸ List.mem_map_of_mem (mem_sortByName.mp hx)

-- == dictionaries

section Dictionaries

variable {α β : Type} [DecidableEq α]

theorem mem_setItem {d : List (α × β)} {k : α} {v : β} {m : α × β}
    (h : m ∈ setItem d k v) : m = (k, v) ∨ m ∈ d := by
  induction d with
  | nil => exact Or.inl (List.mem_singleton.mp h)
  | cons n rest ih =>
    unfold setItem at h
    split at h
    · exact (List.mem_cons.mp h).imp_right (List.mem_cons_of_mem _)
    · rcases List.mem_cons.mp h with rfl | h
      · exact Or.inr (List.mem_cons_self ..)
      · exact (ih h).imp_right (List.mem_cons_of_mem _)

theorem nodup_setItem {d : List (α × β)} (k : α) (v : β)
    (h : (d.map Prod.fst).Nodup) : ((setItem d k v).map Prod.fst).Nodup := by
  induction d with
  | nil => exact List.nodup_singleton _
  | cons n rest ih =>
    obtain ⟨hn, hrest⟩ := List.nodup_cons.mp h
    unfold setItem
    split
    · next hk =>
      rw [hk] at hn
      exact List.nodup_cons.mpr ⟨hn, hrest⟩
    · next hk =>
      refine List.nodup_cons.mpr ⟨fun hmem => ?_, ih hrest⟩
      obtain ⟨m, hm, hname⟩ := List.mem_map.mp hmem
      rcases mem_setItem hm with rfl | hm
      · exact hk hname.symm
      · exact hn (hname ▸ List.mem_map_of_mem hm)

theorem dictOf_spec (pairs : List (α × β)) :
    ((dictOf pairs).map Prod.fst).Nodup ∧ ∀ m ∈ dictOf pairs, m ∈ pairs := by
  induction pairs using List.reverseRecOn with
  | nil => exact ⟨List.nodup_nil, fun _ h => h⟩
  | append_singleton pairs m ih =>
    have hlast : dictOf (pairs ++ [m]) = setItem (dictOf pairs) m.1 m.2 := by
      unfold dictOf
      rw [List.foldl_append]
      rfl
    rw [hlast]
    refine ⟨nodup_setItem _ _ ih.1, fun n hn => ?_⟩
    rcases mem_setItem hn with rfl | hn
    · exact List.mem_append_right _ (List.mem_singleton_self _)
    · exact List.mem_append_left _ (ih.2 n hn)

end Dictionaries

-- == normal values

mutual

/-- Every object of the value has its names distinct and in order. -/
def Json.isNormal : Json → Bool
  | .arr xs => allNormal xs
  | .obj ms => decide (Ordered ms) && allNormalMembers ms
  | _ => true

def allNormal : List Json → Bool
  | [] => true
  | x :: xs => x.isNormal && allNormal xs

def allNormalMembers : List (PyStr × Json) → Bool
  | [] => true
  | (_, v) :: rest => v.isNormal && allNormalMembers rest

end

mutual

/-- The value `json.loads` makes of a document. -/
def Json.normalise : Json → Json
  | .arr xs => .arr (normaliseAll xs)
  | .obj ms => .obj (sortByName (dictOf (normaliseMembers ms)))
  | d => d

def normaliseAll : List Json → List Json
  | [] => []
  | x :: xs => x.normalise :: normaliseAll xs

def normaliseMembers : List (PyStr × Json) → List (PyStr × Json)
  | [] => []
  | (k, v) :: rest => (k, v.normalise) :: normaliseMembers rest

end

theorem allNormalMembers_eq (ms : List (PyStr × Json)) :
    allNormalMembers ms = ms.all fun m => m.2.isNormal := by
  induction ms with
  | nil => rfl
  | cons m rest ih => rw [allNormalMembers, List.all_cons, ih]

mutual

theorem isNormal_normalise : ∀ d : Json, d.normalise.isNormal = true
  | .null => rfl
  | .bool _ => rfl
  | .int _ => rfl
  | .float _ => rfl
  | .str _ => rfl
  | .arr xs => by
    rw [Json.normalise, Json.isNormal]
    exact allNormal_normaliseAll xs
  | .obj ms => by
    obtain ⟨hnodup, hmem⟩ := dictOf_spec (normaliseMembers ms)
    rw [Json.normalise, Json.isNormal, decide_eq_true (ordered_sortByName hnodup),
      Bool.true_and, allNormalMembers_eq, List.all_eq_true]
    intro m hm
    exact normal_normaliseMembers ms m (hmem m (mem_sortByName.mp hm))

theorem allNormal_normaliseAll : ∀ xs : List Json, allNormal (normaliseAll xs) = true
  | [] => rfl
  | x :: xs => by
    rw [normaliseAll, allNormal, isNormal_normalise x, allNormal_normaliseAll xs]
    rfl

theorem normal_normaliseMembers : ∀ ms : List (PyStr × Json),
    ∀ m ∈ normaliseMembers ms, m.2.isNormal = true
  | [], m, hm => by cases hm
  | (k, v) :: rest, m, hm => by
    rcases List.mem_cons.mp hm with hm | hm
    · rw [hm]
      exact isNormal_normalise v
    · exact normal_normaliseMembers rest m hm

end

-- == values

/-- What `json.loads` returns. -/
structure Doc where
  json : Json
  normal : json.isNormal = true

/-- A dictionary `json.loads` returns. -/
structure Fields where
  members : List (PyStr × Json)
  normal : (Json.obj members).isNormal = true

theorem Doc.ext {d d' : Doc} (h : d.json = d'.json) : d = d' := by
  cases d
  cases d'
  cases h
  rfl

theorem Fields.ext {d d' : Fields} (h : d.members = d'.members) : d = d' := by
  cases d
  cases d'
  cases h
  rfl

def Json.load (d : Json) : Doc := ⟨d.normalise, isNormal_normalise d⟩

namespace Fields

/-- `{}`. -/
def empty : Fields := ⟨[], rfl⟩

def doc (d : Fields) : Doc := ⟨.obj d.members, d.normal⟩

def get? (d : Fields) (key : PyStr) : Option Json :=
  (d.members.find? fun m => decide (m.1 = key)).map Prod.snd

end Fields

/-- `value if isinstance(value, dict)`. -/
def Doc.fields? (d : Doc) : Option Fields :=
  match d with
  | ⟨.obj ms, h⟩ => some ⟨ms, h⟩
  | _ => none

theorem Fields.fields?_doc (d : Fields) : d.doc.fields? = some d := rfl

theorem Doc.doc_of_fields? {d : Doc} {p : Fields} (h : d.fields? = some p) : p.doc = d := by
  unfold Doc.fields? at h
  split at h
  · cases h
    rfl
  · cases h

/-- `bool(value)` of a value read from JSON. -/
def Json.truthy : Json → Bool
  | .null => false
  | .bool b => b
  | .int n => decide (n ≠ 0)
  | .float x => !x.num.eq (.finite 0)
  | .str s => !s.isEmpty
  | .arr xs => !xs.isEmpty
  | .obj ms => !ms.isEmpty

/-- `value if isinstance(value, str)`. -/
def Json.str? : Json → Option PyStr
  | .str s => some s
  | _ => none

-- == strict

mutual

/-- No float of the value, keys included, is NaN or infinite. -/
def PyVal.isFinite : PyVal → Bool
  | .float (.finite _) => true
  | .float _ => false
  | .list xs => allValuesFinite xs
  | .tuple xs => allValuesFinite xs
  | .dict items => allItemsFinite items
  | _ => true

def allValuesFinite : List PyVal → Bool
  | [] => true
  | x :: xs => x.isFinite && allValuesFinite xs

def allItemsFinite : List (PyKey × PyVal) → Bool
  | [] => true
  | (k, v) :: rest =>
    (match k with
      | .float (.finite _) => true
      | .float _ => false
      | _ => true) && v.isFinite && allItemsFinite rest

end

def notCompliant : PyErr :=
  .valueError "Out of range float values are not JSON compliant"

/-- `json.dumps(value, sort_keys=True, allow_nan=False)`. -/
def dumpsStrict (v : PyVal) : Except PyErr Json := do
  let doc ← dumps v
  if v.isFinite then .ok doc else .error notCompliant

end Py
