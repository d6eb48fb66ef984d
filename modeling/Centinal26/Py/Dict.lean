/-
Dictionaries: the pairs of a Python `dict` in insertion order, with the proof
that no key is there twice. Nothing below looks at the pairs again: a reader
has `get?` and its equation under `set`.
-/
import Centinal26.Py.Normal

namespace Py

variable {α β : Type} [DecidableEq α]

-- == pairs

def getItem? (d : List (α × β)) (k : α) : Option β :=
  (d.find? fun m => decide (m.1 = k)).map Prod.snd

theorem getItem?_cons (m : α × β) (d : List (α × β)) (k : α) :
    getItem? (m :: d) k = if m.1 = k then some m.2 else getItem? d k := by
  unfold getItem?
  rw [List.find?_cons]
  split <;> simp_all

theorem getItem?_setItem (d : List (α × β)) (k : α) (v : β) (j : α) :
    getItem? (setItem d k v) j = if j = k then some v else getItem? d j := by
  induction d with
  | nil =>
    rw [setItem, getItem?_cons]
    simp only [eq_comm]
  | cons m rest ih =>
    unfold setItem
    split
    · next hk =>
      rw [getItem?_cons, getItem?_cons, hk]
      by_cases hj : j = k
      · simp [hj]
      · simp [hj, Ne.symm hj]
    · next hk =>
      rw [getItem?_cons, getItem?_cons, ih]
      by_cases hm : m.1 = j
      · rw [if_pos hm, if_pos hm, if_neg (hm ▸ hk)]
      · rw [if_neg hm, if_neg hm]

theorem setItem_new {d : List (α × β)} {k : α} {v : β} (h : getItem? d k = none) :
    setItem d k v = d ++ [(k, v)] := by
  induction d with
  | nil => rfl
  | cons m rest ih =>
    rw [getItem?_cons] at h
    split at h
    · cases h
    · next hk =>
      rw [setItem, if_neg hk, ih h]
      rfl

theorem getItem?_of_not_mem {d : List (α × β)} {k : α} (h : k ∉ d.map Prod.fst) :
    getItem? d k = none := by
  induction d with
  | nil => rfl
  | cons m rest ih =>
    rw [List.map_cons, List.mem_cons, not_or] at h
    rw [getItem?_cons, if_neg (Ne.symm h.1), ih h.2]

-- == dictionaries

structure Dict (α β : Type) where
  items : List (α × β)
  nodup : (items.map Prod.fst).Nodup

namespace Dict

/-- `{}`. -/
def empty : Dict α β := ⟨[], List.nodup_nil⟩

def get? (d : Dict α β) (k : α) : Option β := getItem? d.items k

def set (d : Dict α β) (k : α) (v : β) : Dict α β :=
  ⟨setItem d.items k v, nodup_setItem k v d.nodup⟩

def contains (d : Dict α β) (k : α) : Bool := (d.get? k).isSome

@[simp] theorem get?_empty (k : α) : (empty : Dict α β).get? k = none := rfl

@[simp] theorem get?_set (d : Dict α β) (k : α) (v : β) (j : α) :
    (d.set k v).get? j = if j = k then some v else d.get? j :=
  getItem?_setItem d.items k v j

theorem mem_items {d : Dict α β} {k : α} {v : β} : (k, v) ∈ d.items ↔ d.get? k = some v := by
  obtain ⟨items, hnodup⟩ := d
  show (k, v) ∈ items ↔ getItem? items k = some v
  induction items with
  | nil => simp [getItem?]
  | cons m rest ih =>
    obtain ⟨hm, hrest⟩ := List.nodup_cons.mp hnodup
    rw [getItem?_cons, List.mem_cons, ih hrest]
    by_cases hk : m.1 = k
    · rw [if_pos hk]
      constructor
      · rintro (rfl | hmem)
        · rfl
        · have hitem : (k, v) ∈ rest := (ih hrest).mpr hmem
          exact absurd (hk ▸ List.mem_map_of_mem hitem) hm
      · intro hv
        cases hv
        exact Or.inl (by rw [← hk])
    · rw [if_neg hk]
      constructor
      · rintro (rfl | hmem)
        · exact absurd rfl hk
        · exact hmem
      · exact Or.inr

end Dict

end Py

/-
What the code does with a value it has read from JSON: members by name, and the strings in it.
-/

namespace Py

abbrev Members := List (PyStr × Json)

def field (d : Members) (key : String) : Json := (getItem? d (py key)).getD .null

def Json.isStr (value : Json) (s : PyStr) : Bool :=
  match value with
  | .str t => decide (t = s)
  | _ => false

@[simp] theorem Json.isStr_str (t s : PyStr) : (Json.str t).isStr s = decide (t = s) := rfl

def strStrip (s : PyStr) : PyStr :=
  ((s.dropWhile isSpace).reverse.dropWhile isSpace).reverse

end Py
