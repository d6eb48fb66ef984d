/-
The Python values the repository passes around, as far as it looks at them:
strings, numbers, lists, tuples and dictionaries, and `object` for anything
`json` has no encoding for (a datetime, a set, a class instance).
-/
import Mathlib.Algebra.Group.Int.Defs
import Mathlib.Algebra.GroupWithZero.Nat
import Mathlib.Data.List.Infix
import Mathlib.Data.List.Lex
import Mathlib.Data.Rat.Defs

namespace Py

-- == strings

/-- A Python `str`, as its code points. -/
abbrev PyStr := List Nat

def py (s : String) : PyStr := s.toList.map Char.toNat

-- named, so that every definition has the same instance
instance PyStr.lawfulBEq : LawfulBEq PyStr := List.instLawfulBEq
instance PyStr.lawfulBEq_prod : LawfulBEq (PyStr × PyStr) := Prod.instLawfulBEq

def isOneOf (s : PyStr) (names : List PyStr) : Bool := decide (s ∈ names)

/-- A code point UTF-8 has an encoding for. -/
def isScalar (c : Nat) : Bool := decide (c < 0xD800 ∨ 0xDFFF < c ∧ c < 0x110000)

def Encodable (s : PyStr) : Prop := ∀ c ∈ s, isScalar c = true

instance (s : PyStr) : Decidable (Encodable s) :=
  inferInstanceAs (Decidable (∀ c ∈ s, isScalar c = true))

def Ascii (s : PyStr) : Prop := ∀ c ∈ s, c < 128

variable {s : PyStr} {ε α β : Type} {b : β} {r : Except ε α}

theorem Ascii.encodable (h : Ascii s) : Encodable s := by
  intro c hc
  have := h c hc
  simp only [isScalar, decide_eq_true_eq]
  omega

theorem encodable_nil : Encodable [] := by
  intro c hc
  cases hc

variable {t : PyStr} {f : α → Except ε β}

theorem encodable_append : Encodable (s ++ t) ↔ Encodable s ∧ Encodable t := by
  simp only [Encodable, List.mem_append, or_imp, forall_and]

theorem ascii_nil : Ascii [] := by
  intro c hc
  cases hc

theorem ascii_append : Ascii (s ++ t) ↔ Ascii s ∧ Ascii t := by
  simp only [Ascii, List.mem_append, or_imp, forall_and]

theorem encodable_py (s : String) : Encodable (py s) := by
  intro c hc
  obtain ⟨ch, -, rfl⟩ := List.mem_map.mp hc
  have hv := ch.valid
  simp only [isScalar, decide_eq_true_eq]
  simp only [UInt32.isValidChar, Nat.isValidChar] at hv
  show ch.val.toNat < 0xD800 ∨ _
  rcases hv with h | ⟨h1, h2⟩
  · exact Or.inl h
  · exact Or.inr ⟨h1, h2⟩

/-- A string that encodes: what a `TEXT` column holds. -/
structure Text where
  str : PyStr
  encodable : Encodable str
deriving DecidableEq

theorem Text.ext {s t : Text} (h : s.str = t.str) : s = t := by
  cases s
  cases t
  cases h
  rfl

def Text.lit (s : String) : Text := ⟨py s, encodable_py s⟩

/-- `str.isspace` on one code point. -/
def isSpace (c : Nat) : Bool :=
  (9 ≤ c && c ≤ 13) || (28 ≤ c && c ≤ 32) || c == 0x85 || c == 0xA0
    || c == 0x1680 || (0x2000 ≤ c && c ≤ 0x200A) || c == 0x2028
    || c == 0x2029 || c == 0x202F || c == 0x205F || c == 0x3000

def isBlank (s : PyStr) : Bool := s.all isSpace

-- == exceptions

/-- The built-in exceptions the repository's code can meet, with the part of
them that is read again: none of these is ever inspected beyond its class. -/
inductive PyErr : Type
  | typeError
  | valueError (message : String)
  | keyError (key : PyStr)
  | overflowError
  | unicodeEncodeError
  | unicodeDecodeError
  | fileExistsError
  | permissionError (message : String)
  | runtimeError (message : String)
  | integrityError
  | operationalError (message : String)
  | assertionError
  | recursionError
deriving DecidableEq

theorem exists_ok (h : r.isOk = true) : ∃ a, r = .ok a := by
  cases r with
  | ok a => exact ⟨a, rfl⟩
  | error e => cases h

theorem of_bind_ok (h : (r >>= f) = .ok b) : ∃ a, r = .ok a ∧ f a = .ok b := by
  cases r with
  | ok a => exact ⟨a, rfl, h⟩
  | error e => cases h

theorem bind_ok_iff : (r >>= f) = .ok b ↔ ∃ a, r = .ok a ∧ f a = .ok b := by
  constructor
  · exact of_bind_ok
  · rintro ⟨a, rfl, h⟩
    exact h

theorem of_map_ok {f : α → β} (h : r.map f = .ok b) : ∃ a, r = .ok a ∧ f a = b := by
  cases r with
  | ok a => exact ⟨a, rfl, Except.ok.inj h⟩
  | error d => cases h

theorem of_mapError_ok {ε' : Type} {f : ε → ε'} {a : α} (h : r.mapError f = .ok a) : r = .ok a := by
  cases r with
  | ok a' => exact congrArg Except.ok (Except.ok.inj h)
  | error e => cases h

theorem bind_ok_eq (a : α) (f : α → Except ε β) : (Except.ok a >>= f) = f a := rfl

/-- `s.encode("utf-8")`, or binding `s` as a statement parameter. -/
def encode (s : PyStr) : Except PyErr Text :=
  if h : Encodable s then .ok ⟨s, h⟩ else .error .unicodeEncodeError

theorem encode_eq_ok {t : Text} : encode s = .ok t ↔ t.str = s := by
  unfold encode
  split
  · next h =>
    constructor
    · intro heq
      injection heq with heq
      exact heq ▸ rfl
    · rintro rfl
      rfl
  · next h =>
    constructor
    · intro heq
      cases heq
    · rintro rfl
      exact absurd t.encodable h

@[simp] theorem encode_str (t : Text) : encode t.str = .ok t :=
  encode_eq_ok.mpr rfl

-- == numbers

def numberChar (c : Nat) : Bool :=
  (48 ≤ c && c ≤ 57) || c == 43 || c == 45 || c == 46 || c == 101

/-- The number some decimal digits spell. -/
def digitsValue (s : PyStr) : Nat := s.foldl (fun n c => 10 * n + (c - 48)) 0

/-- A decimal number shifted by a power of ten. -/
def shifted (n : Nat) (places : Int) : Rat :=
  if places < 0 then n / (10 ^ places.natAbs : Nat) else n * (10 ^ places.natAbs : Nat)

/-- `2 ^ e`. -/
def twoPower (e : Int) : Rat := if e < 0 then 1 / (2 ^ e.natAbs : Nat) else (2 ^ e.natAbs : Nat)

/-- The nearest integer, of two the even one. -/
def roundEven (q : Rat) : Int :=
  let below := q.floor
  if q - below < 1 / 2 ∨ q - below = 1 / 2 ∧ below % 2 = 0 then below else below + 1

/-- The exponent of the last of the 53 places a double has for a number that is not negative. -/
def lastPlace (q : Rat) : Int :=
  let e : Int := (Nat.log2 q.num.natAbs : Int) - Nat.log2 q.den
  max ((if q < twoPower e then e - 1 else e) - 52) (-1074)

/-- The double nearest to a number that is not negative. -/
def binary64 (q : Rat) : Rat := roundEven (q / twoPower (lastPlace q)) * twoPower (lastPlace q)

/-- The value of a float literal, digits with a point or an exponent: the nearest double. -/
def readFloat (s : PyStr) : Option Rat :=
  if s.all numberChar && s.any (fun c => c == 46 || c == 101) then
    let body := s.dropWhile (· == 45)
    let mantissa := body.takeWhile (· != 101)
    let exponent := (body.dropWhile (· != 101)).tail
    let whole := mantissa.takeWhile (· != 46)
    let fraction := (mantissa.dropWhile (· != 46)).tail
    let power : Int :=
      if exponent.head? = some 45 then -digitsValue exponent.tail
      else digitsValue (exponent.dropWhile (· == 43))
    let size := binary64 (shifted (digitsValue (whole ++ fraction)) (power - fraction.length))
    if size < twoPower 1024 then some (if s.head? = some 45 then -size else size) else none
  else none

instance ascii_neZero : NeZero (128 : Nat) := ⟨by decide⟩

/-- A finite float: its value, which is a double, and the literal it is written as. -/
structure FloatLit where
  value : Rat
  repr : List (Fin 128)
  spelled : readFloat (repr.map Fin.val) = some value
deriving DecidableEq

theorem readFloat_zero : readFloat (([48, 46, 48] : List (Fin 128)).map Fin.val) = some 0 := by
  decide +kernel

theorem FloatLit.ext {x y : FloatLit} (h : x.repr = y.repr) : x = y := by
  obtain ⟨v, r, hv⟩ := x
  obtain ⟨v', r', hv'⟩ := y
  cases h
  rw [hv] at hv'
  cases hv'
  rfl

inductive PyFloat : Type
  | nan
  | infinity
  | negInfinity
  | finite (lit : FloatLit)
deriving DecidableEq

/-- The value of a number, for comparisons. -/
inductive Num : Type
  | nan
  | infinity
  | negInfinity
  | finite (value : Rat)

def PyFloat.num : PyFloat → Num
  | .nan => .nan
  | .infinity => .infinity
  | .negInfinity => .negInfinity
  | .finite lit => .finite lit.value

def boolNum (b : Bool) : Num := .finite (if b then 1 else 0)

/-- `a == b` on numbers. -/
def Num.eq : Num → Num → Bool
  | .infinity, .infinity => true
  | .negInfinity, .negInfinity => true
  | .finite a, .finite b => decide (a = b)
  | _, _ => false

/-- `a < b` on numbers. -/
def Num.lt : Num → Num → Bool
  | .nan, _ => false
  | _, .nan => false
  | .infinity, _ => false
  | _, .negInfinity => false
  | .negInfinity, _ => true
  | .finite _, .infinity => true
  | .finite a, .finite b => decide (a < b)

-- == values

inductive PyKey : Type
  | none
  | bool (b : Bool)
  | int (n : Int)
  | float (x : PyFloat)
  | str (s : PyStr)
  | object
deriving DecidableEq

/-- A Python value. -/
inductive PyVal : Type
  | none
  | bool (b : Bool)
  | int (n : Int)
  | float (x : PyFloat)
  | str (s : PyStr)
  | list (items : List PyVal)
  | tuple (items : List PyVal)
  | dict (items : List (PyKey × PyVal))
  | object

namespace PyKey

def num? : PyKey → Option Num
  | bool b => some (boolNum b)
  | int n => some (.finite n)
  | float x => some x.num
  | _ => Option.none

def eq (a b : PyKey) : Bool :=
  match a.num?, b.num? with
  | some x, some y => x.eq y
  | _, _ =>
    match a, b with
    | .none, .none => true
    | .str s, .str t => decide (s = t)
    | _, _ => false

/-- `a < b` on keys; comparing keys of different kinds raises. -/
def lt (a b : PyKey) : Except PyErr Bool :=
  match a.num?, b.num? with
  | some x, some y => .ok (x.lt y)
  | _, _ =>
    match a, b with
    | .str s, .str t => .ok (decide (s < t))
    | _, _ => .error .typeError

end PyKey

namespace PyVal

def truthy : PyVal → Bool
  | .none => false
  | .bool b => b
  | .int n => decide (n ≠ 0)
  | .float x => !x.num.eq (.finite 0)
  | .str s => !s.isEmpty
  | .list items => !items.isEmpty
  | .tuple items => !items.isEmpty
  | .dict items => !items.isEmpty
  | .object => true

mutual

/-- How deep a value nests: a container is one deeper than what it has. -/
def nesting : PyVal → Nat
  | .list items => 1 + nestingList items
  | .tuple items => 1 + nestingList items
  | .dict items => 1 + nestingItems items
  | _ => 0

def nestingList : List PyVal → Nat
  | [] => 0
  | x :: xs => max (nesting x) (nestingList xs)

def nestingItems : List (PyKey × PyVal) → Nat
  | [] => 0
  | (_, v) :: rest => max (nesting v) (nestingItems rest)

end

/-- `value or {}`. -/
def orEmpty (v : PyVal) : PyVal := if v.truthy then v else .dict []

def isNone : PyVal → Bool
  | none => true
  | _ => false

def num? : PyVal → Option Num
  | bool b => some (boolNum b)
  | int n => some (.finite n)
  | float x => some x.num
  | _ => Option.none

mutual

/-- `a == b`. -/
def eq : PyVal → PyVal → Bool
  | none, none => true
  | str s, str t => decide (s = t)
  | list xs, list ys => eqList xs ys
  | tuple xs, tuple ys => eqList xs ys
  | dict xs, dict ys => xs.length == ys.length && eqItems xs ys
  | a, b =>
    match a.num?, b.num? with
    | some x, some y => x.eq y
    | _, _ => false

def eqList : List PyVal → List PyVal → Bool
  | [], [] => true
  | x :: xs, y :: ys => eq x y && eqList xs ys
  | _, _ => false

/-- Every item of the first dictionary is one of the second. -/
def eqItems : List (PyKey × PyVal) → List (PyKey × PyVal) → Bool
  | [], _ => true
  | (k, v) :: rest, ys =>
    (match ys.find? fun item => item.1.eq k with
      | some item => eq v item.2
      | Option.none => false) && eqItems rest ys

end

end PyVal

-- == dictionaries

/-- `d[k] = v`: a key that is there keeps its place. -/
def setItem {α β : Type} [DecidableEq α] (d : List (α × β)) (k : α) (v : β) : List (α × β) :=
  match d with
  | [] => [(k, v)]
  | (k', v') :: rest =>
    if k' = k then (k, v) :: rest else (k', v') :: setItem rest k v

def dictOf {α β : Type} [DecidableEq α] (pairs : List (α × β)) : List (α × β) :=
  pairs.foldl (fun d m => setItem d m.1 m.2) []

end Py
