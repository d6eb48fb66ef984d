/-
Records: dictionaries whose keys are strings, which is what the repository
files and what `json.loads` gives back. Their keys can always be sorted and
written, so a record is rejected by `dumps` only for one of its values.
-/
import Centinal26.Py.Json

namespace Py

def strItems {α : Type} (ms : List (PyStr × α)) : List (PyKey × α) :=
  ms.map fun m => (.str m.1, m.2)

-- == sorting

def insertByName {α : Type} (m : PyStr × α) : List (PyStr × α) → List (PyStr × α)
  | [] => [m]
  | n :: rest => if m.1 < n.1 then m :: n :: rest else n :: insertByName m rest

/-- The members in the order of their names. -/
def sortByName {α : Type} : List (PyStr × α) → List (PyStr × α)
  | [] => []
  | m :: rest => insertByName m (sortByName rest)

theorem insertMember_strItems (m : PyStr × Json) (ms : List (PyStr × Json)) :
    insertMember (.str m.1, m.2) (strItems ms) = .ok (strItems (insertByName m ms)) := by
  induction ms with
  | nil => rfl
  | cons n rest ih =>
    have hlt : PyKey.lt (.str m.1) (.str n.1) = .ok (decide (m.1 < n.1)) := rfl
    show insertMember (.str m.1, m.2) ((.str n.1, n.2) :: strItems rest) = _
    unfold insertMember
    simp only [hlt]
    unfold insertByName
    by_cases h : m.1 < n.1
    · rw [if_pos h, decide_eq_true h]
      rfl
    · rw [if_neg h, decide_eq_false h]
      show (do .ok ((PyKey.str n.1, n.2) :: (← insertMember (.str m.1, m.2) (strItems rest)))) = _
      rw [ih]
      rfl

theorem sortMembers_strItems (ms : List (PyStr × Json)) :
    sortMembers (strItems ms) = .ok (strItems (sortByName ms)) := by
  induction ms with
  | nil => rfl
  | cons m rest ih =>
    show (do insertMember (.str m.1, m.2) (← sortMembers (strItems rest))) = _
    rw [ih]
    exact insertMember_strItems m (sortByName rest)

theorem writeKeys_strItems (ms : List (PyStr × Json)) : writeKeys (strItems ms) = .ok ms := by
  induction ms with
  | nil => rfl
  | cons m rest ih =>
    show (do .ok ((← keyText (PyKey.str m.1), m.2) :: (← writeKeys (strItems rest)))) = _
    rw [ih]
    rfl

-- == dumps

/-- The values of a record, each as its document. -/
def dumpsFields (f : PyVal → Except PyErr Json) :
    List (PyStr × PyVal) → Except PyErr (List (PyStr × Json))
  | [] => .ok []
  | (k, v) :: rest => do .ok ((k, ← f v) :: (← dumpsFields f rest))

theorem dumpsFields_cons (f : PyVal → Except PyErr Json) (m : PyStr × PyVal)
    (rest : List (PyStr × PyVal)) :
    dumpsFields f (m :: rest) = (do .ok ((m.1, ← f m.2) :: (← dumpsFields f rest))) := rfl

theorem dumpsItems_strItems (ms : List (PyStr × PyVal)) :
    dumpsItems (strItems ms) = (dumpsFields dumps ms).map strItems := by
  induction ms with
  | nil => rw [strItems, List.map_nil, dumpsItems]; rfl
  | cons m rest ih =>
    show dumpsItems ((.str m.1, m.2) :: strItems rest) = _
    rw [dumpsItems, ih, dumpsFields_cons]
    cases dumps m.2 with
    | error e => rfl
    | ok doc => cases dumpsFields dumps rest <;> rfl

theorem dumpsPlainItems_strItems (ms : List (PyStr × PyVal)) :
    dumpsPlainItems (strItems ms) = (dumpsFields dumpsPlain ms).map strItems := by
  induction ms with
  | nil => rw [strItems, List.map_nil, dumpsPlainItems]; rfl
  | cons m rest ih =>
    show dumpsPlainItems ((.str m.1, m.2) :: strItems rest) = _
    rw [dumpsPlainItems, ih, dumpsFields_cons]
    cases dumpsPlain m.2 with
    | error e => rfl
    | ok doc => cases dumpsFields dumpsPlain rest <;> rfl

theorem dumps_strItems (ms : List (PyStr × PyVal)) : dumps (.dict (strItems ms))
      = (dumpsFields dumps ms).map fun fields => .obj (sortByName fields) := by
  rw [dumps, dumpsItems_strItems]
  cases dumpsFields dumps ms with
  | error e => rfl
  | ok fields =>
    show (do .ok (Json.obj (← writeKeys (← sortMembers (strItems fields))))) = _
    rw [sortMembers_strItems]
    show (do .ok (Json.obj (← writeKeys (strItems (sortByName fields))))) = _
    rw [writeKeys_strItems]
    rfl

theorem dumpsPlain_strItems (ms : List (PyStr × PyVal)) : dumpsPlain (.dict (strItems ms))
      = (dumpsFields dumpsPlain ms).map Json.obj := by
  rw [dumpsPlain, dumpsPlainItems_strItems]
  cases dumpsFields dumpsPlain ms with
  | error e => rfl
  | ok fields =>
    show (do .ok (Json.obj (← writeKeys (strItems fields)))) = _
    rw [writeKeys_strItems]
    rfl

variable {ms : List (PyStr × PyVal)}

theorem dumpsFields_isOk {f : PyVal → Except PyErr Json} :
    (dumpsFields f ms).isOk = true ↔ ∀ m ∈ ms, (f m.2).isOk = true := by
  induction ms with
  | nil => exact ⟨nofun, fun _ => rfl⟩
  | cons m rest ih =>
    rw [List.forall_mem_cons, ← ih, dumpsFields_cons]
    cases f m.2 with
    | error e => exact ⟨nofun, fun h => (by cases h.1)⟩
    | ok doc =>
      cases dumpsFields f rest with
      | error e => exact ⟨nofun, fun h => (by cases h.2)⟩
      | ok fields => exact ⟨fun _ => ⟨rfl, rfl⟩, fun _ => rfl⟩

theorem isOk_map {α β : Type} (f : α → β) (r : Except PyErr α) : (r.map f).isOk = r.isOk := by
  cases r <;> rfl

theorem dumps_record_isOk : (dumps (.dict (strItems ms))).isOk = true
      ↔ ∀ m ∈ ms, (dumps m.2).isOk = true := by
  rw [dumps_strItems, isOk_map]
  exact dumpsFields_isOk

theorem dumpsPlain_record_isOk :
    (dumpsPlain (.dict (strItems ms))).isOk = true ↔ ∀ m ∈ ms, (dumpsPlain m.2).isOk = true := by
  rw [dumpsPlain_strItems, isOk_map]
  exact dumpsFields_isOk

end Py
