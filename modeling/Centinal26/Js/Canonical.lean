/-
JSON values as JavaScript has them, and the canonical text that is hashed of them: the names of
an object in the order of their UTF-16 units, everything else as `JSON.stringify` writes it.
-/
import Centinal26.Py.JsonText
import Centinal26.Py.Typed
import Mathlib.Data.List.Sort

namespace Js

open Py

-- == canonical text

def units (s : PyStr) : List Nat :=
  s.flatMap fun c =>
    if c < 0x10000 then [c]
    else [0xD800 + (c - 0x10000) / 0x400, 0xDC00 + (c - 0x10000) % 0x400]

/-- One member's name is not after the other's. -/
def KeyLe {α : Type} (m n : PyStr × α) : Prop := units m.1 ≤ units n.1

instance {α : Type} : DecidableRel (@KeyLe α) := fun m n =>
  inferInstanceAs (Decidable (units m.1 ≤ units n.1))

/-- The members of an object in the order of `Object.keys(value).sort()`. -/
def sortKeys {α : Type} (ms : List (PyStr × α)) : List (PyStr × α) := ms.insertionSort KeyLe

/-- A number as it is written: infinities are not, and zero has no sign. -/
def number : PyFloat → Json
  | .finite lit => if lit.value = 0 then .int 0 else .float (.finite lit)
  | _ => .null

mutual

def canon : Json → Json
  | .float x => number x
  | .arr xs => .arr (canonAll xs)
  | .obj ms => .obj (sortKeys (canonMembers ms))
  | d => d

def canonAll : List Json → List Json
  | [] => []
  | x :: xs => canon x :: canonAll xs

def canonMembers : List (PyStr × Json) → List (PyStr × Json)
  | [] => []
  | (k, v) :: rest => (k, canon v) :: canonMembers rest

end

def canonical (v : Json) : PyStr := (canon v).text .canonical

theorem canonMembers_eq (ms : List (PyStr × Json)) :
    canonMembers ms = ms.map fun m => (m.1, canon m.2) := by
  induction ms with
  | nil => rfl
  | cons m rest ih =>
    rw [List.map_cons, ← ih]
    rfl

theorem mem_sortKeys {α : Type} {m : PyStr × α} {ms : List (PyStr × α)} :
    m ∈ sortKeys ms ↔ m ∈ ms := List.mem_insertionSort _

theorem canonical_inj {v w : Json} : canonical v = canonical w ↔ canon v = canon w := by
  constructor
  · intro h
    exact text_injective h
  · intro h
    rw [canonical, h, canonical]

-- == objects

/-- A property of a value: nothing if it is undefined. -/
def prop (v : Json) (key : String) : Option Json :=
  match v with
  | .obj ms => getItem? ms (py key)
  | _ => none

/-- The members of an object literal, some of which may be undefined. -/
abbrev Literal := List (String × Option Json)

/-- `{...literal}`, written to a file and read back. -/
def Literal.json (o : Literal) : Json :=
  .obj (o.filterMap fun m => m.2.map fun v => (py m.1, v))

/-- A member in the canonical text of a literal. -/
def literalText (m : PyStr × Option Json) : PyStr :=
  stringLiteral false m.1 ++ 58 :: m.2.elim (py "undefined") canonical

def Literal.canonical (o : Literal) : PyStr :=
  123 :: joinWith (py ",") ((sortKeys (o.map fun m => (py m.1, m.2))).map literalText) ++ [125]

/-- `value === "…"`. -/
def is (v : Option Json) (s : PyStr) : Bool := v.any fun v => v.isStr s

theorem is_iff {v : Option Json} {s : PyStr} : is v s = true ↔ v = some (.str s) := by
  cases v with
  | none => simp [is]
  | some v => cases v <;> simp [is, Json.isStr]

/-- The members of a literal none of which is undefined. -/
def defined (ms : List (String × Json)) : Literal := ms.map fun m => (m.1, some m.2)

theorem json_defined (ms : List (String × Json)) :
    (defined ms).json = .obj (ms.map fun m => (py m.1, m.2)) := by
  unfold Literal.json defined
  rw [List.filterMap_map]
  show Json.obj (ms.filterMap fun m => some (py m.1, m.2)) = _
  rw [List.filterMap_eq_map']

theorem sortKeys_map {α β : Type} (f : α → β) (ms : List (PyStr × α)) :
    sortKeys (ms.map fun m => (m.1, f m.2)) = (sortKeys ms).map fun m => (m.1, f m.2) := by
  unfold sortKeys
  rw [List.map_insertionSort KeyLe KeyLe]
  exact fun _ _ _ _ => Iff.rfl

theorem canonical_obj (ms : List (PyStr × Json)) : canonical (.obj ms)
    = 123 :: joinWith (py ",") ((sortKeys (ms.map fun m => (m.1, some m.2))).map literalText)
      ++ [125] := by
  have hsorted : sortKeys (canonMembers ms) = (sortKeys ms).map fun m => (m.1, canon m.2) := by
    rw [canonMembers_eq, sortKeys_map]
  rw [canonical, canon, hsorted, Json.text, memberTexts_eq, sortKeys_map, List.map_map,
    List.map_map]
  rfl

theorem canonical_defined (ms : List (String × Json)) :
    (defined ms).canonical = canonical (defined ms).json := by
  rw [json_defined, canonical_obj, Literal.canonical, defined, List.map_map, List.map_map]
  rfl

end Js

/-
What the programs check of a text and of a value, and what they throw where it does not hold.
-/

namespace Js

open Py

-- == texts

/-- What `trim` takes away. -/
def isTrimmed (c : Nat) : Bool :=
  (9 ≤ c && c ≤ 13) || c == 32 || c == 0xA0 || c == 0x1680 || (0x2000 ≤ c && c ≤ 0x200A)
    || c == 0x2028 || c == 0x2029 || c == 0x202F || c == 0x205F || c == 0x3000 || c == 0xFEFF

def trim (s : PyStr) : PyStr :=
  ((s.dropWhile isTrimmed).reverse.dropWhile isTrimmed).reverse

/-- `typeof value === 'string' && value.trim()`. -/
def nonEmpty? : Option Json → Option PyStr
  | some (.str s) => if s.all isTrimmed then none else some s
  | _ => none

def bytes (s : PyStr) : Nat :=
  (s.map fun c => if c < 0x80 then 1 else if c < 0x800 then 2 else if c < 0x10000 then 3
    else 4).sum

/-- The text that is encoded: a surrogate without its pair is replaced. -/
def wellFormed (s : PyStr) : PyStr := s.map fun c => if isScalar c then c else 0xFFFD

/-- The text has the form of another, where a zero is any digit. -/
def hasForm (form s : PyStr) : Bool :=
  decide (s.length = form.length)
    && (s.zip form).all fun m => if m.2 = 48 then decide (48 ≤ m.1 ∧ m.1 ≤ 57) else m.1 == m.2

def isZone (s : PyStr) : Bool :=
  s == py "Z" || hasForm (py "+00:00") s || hasForm (py "-00:00") s

def isInstant (s : PyStr) : Bool :=
  hasForm (py "0000-00-00T00:00:00") (s.take 19) && (isZone (s.drop 19) || match s.drop 19 with
        | 46 :: rest =>
          let digits := rest.takeWhile fun c => decide (48 ≤ c ∧ c ≤ 57)
          decide (1 ≤ digits.length ∧ digits.length ≤ 9) && isZone (rest.drop digits.length)
        | _ => false)

def isSha40 (s : PyStr) : Bool :=
  decide (s.length = 40) && s.all fun c => decide (48 ≤ c ∧ c ≤ 57 ∨ 97 ≤ c ∧ c ≤ 102)

-- == values

/-- `Boolean(value)`. -/
def truthy : Option Json → Bool
  | none => false
  | some .null => false
  | some (.bool b) => b
  | some (.int n) => decide (n ≠ 0)
  | some (.float x) => match x.num with
      | .nan => false
      | y => !y.eq (.finite 0)
  | some (.str s) => !s.isEmpty
  | some (.arr _) => true
  | some (.obj _) => true

def numeric : Json → Option Py.Num
  | .int n => some (.finite n)
  | .float x => some x.num
  | _ => none

/-- `v === w`, for values that are read at different places: no two objects are the same. -/
def same : Option Json → Option Json → Bool
  | none, none => true
  | some .null, some .null => true
  | some (.bool a), some (.bool b) => a == b
  | some (.str s), some (.str t) => decide (s = t)
  | some v, some w => match numeric v, numeric w with
      | some x, some y => x.eq y
      | _, _ => false
  | _, _ => false

theorem same_str {v : Option Json} {s : PyStr} :
    same v (some (.str s)) = true ↔ v = some (.str s) := by
  cases v with
  | none => simp [same]
  | some v => cases v <;> simp [same, numeric]

def read (v : Option Json) (key : String) : Option Json := v.bind fun v => prop v key

/-- `value ?? undefined`. -/
def nullish : Option Json → Option Json
  | some .null => none
  | v => v

-- == errors

/-- What is thrown: its name and its message. -/
structure Thrown where
  name : String
  message : String
deriving DecidableEq

/-- `throw new Error(…)`. -/
def thrown {α : Type} (message : String) : Except Thrown α := .error ⟨"Error", message⟩

def typeError {α : Type} : Except Thrown α := .error ⟨"TypeError", ""⟩

def demand (condition : Bool) (message : String) : Except Thrown Unit :=
  if condition then .ok () else thrown message

variable {condition : Bool} {α : Type} {f : Unit → Except Thrown α}

@[simp] theorem demand_ok {message : String} {u : Unit} :
    demand condition message = .ok u ↔ condition = true := by
  cases condition <;> simp [demand, thrown]

theorem demand_bind_ok {message : String} {a : α} :
    (demand condition message >>= f) = .ok a ↔ condition = true ∧ f () = .ok a := by
  cases condition with
  | true => exact ⟨fun h => ⟨rfl, h⟩, fun h => h.2⟩
  | false => exact ⟨nofun, fun h => (by cases h.1)⟩

theorem demand_true {message : String}
    (h : condition = true) : (demand condition message >>= f) = f () := by
  rw [h]
  rfl

-- == records

/-- An object none of whose members is undefined. -/
def record (ms : List (String × Json)) : Json := .obj (ms.map fun m => (py m.1, m.2))

theorem prop_nil (key : String) : prop (Literal.json []) key = none := rfl

theorem prop_cons (k key : String) (v : Json) (rest : Literal) :
    prop (Literal.json ((k, some v) :: rest)) key
      = if k = key then some v else prop (Literal.json rest) key := by
  show getItem? ((py k, v) :: _) (py key) = _
  rw [getItem?_cons]
  simp only [py_inj]
  rfl

theorem prop_record_cons (k key : String) (v : Json) (rest : List (String × Json)) :
    prop (record ((k, v) :: rest)) key = if k = key then some v else prop (record rest) key := by
  show getItem? ((py k, v) :: _) (py key) = _
  rw [getItem?_cons]
  simp only [py_inj]
  rfl

end Js
