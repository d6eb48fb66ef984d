/-
What is read back of a value that was written by `JSON.stringify`: an infinity has become `null`,
and the canonical text has not changed. Values are equal if they differ in the order of names only.
-/
import Centinal26.Js.Canonical

namespace Js

open Py

mutual

/-- `JSON.parse(JSON.stringify(value))`. -/
def written : Json → Json
  | .float x => number x
  | .arr xs => .arr (writtenAll xs)
  | .obj ms => .obj (writtenMembers ms)
  | d => d

def writtenAll : List Json → List Json
  | [] => []
  | x :: xs => written x :: writtenAll xs

def writtenMembers : List (PyStr × Json) → List (PyStr × Json)
  | [] => []
  | (k, v) :: rest => (k, written v) :: writtenMembers rest

end

theorem number_number (x : PyFloat) : canon (number x) = number x := by
  unfold number
  split
  · split
    · rfl
    · next lit hlit => rw [canon, number, if_neg hlit]
  · rfl

theorem writtenMembers_eq (ms : List (PyStr × Json)) :
    writtenMembers ms = ms.map fun m => (m.1, written m.2) := by
  induction ms with
  | nil => rfl
  | cons m rest ih =>
    rw [List.map_cons, ← ih]
    rfl

mutual

theorem canon_written : ∀ v : Json, canon (written v) = canon v
  | .null => rfl
  | .bool _ => rfl
  | .int _ => rfl
  | .str _ => rfl
  | .float x => number_number x
  | .arr xs => by rw [written, canon, canon, canonAll_written xs]
  | .obj ms => by rw [written, canon, canon, canonMembers_written ms]

theorem canonAll_written : ∀ xs : List Json, canonAll (writtenAll xs) = canonAll xs
  | [] => rfl
  | x :: xs => by rw [writtenAll, canonAll, canonAll, canon_written x, canonAll_written xs]

theorem canonMembers_written : ∀ ms : List (PyStr × Json),
    canonMembers (writtenMembers ms) = canonMembers ms
  | [] => rfl
  | (k, v) :: rest => by
    rw [writtenMembers, canonMembers, canonMembers, canon_written v, canonMembers_written rest]

end

theorem canonical_written (v : Json) : canonical (written v) = canonical v := by
  rw [canonical, canonical, canon_written]

-- == equality

def unsigned : PyFloat → Json
  | .finite lit => if lit.value = 0 then .int 0 else .float (.finite lit)
  | x => .float x

mutual

def normal : Json → Json
  | .float x => unsigned x
  | .arr xs => .arr (normalAll xs)
  | .obj ms => .obj (sortKeys (normalMembers ms))
  | d => d

def normalAll : List Json → List Json
  | [] => []
  | x :: xs => normal x :: normalAll xs

def normalMembers : List (PyStr × Json) → List (PyStr × Json)
  | [] => []
  | (k, v) :: rest => (k, normal v) :: normalMembers rest

end

/-- Values that are equal as JSON values. -/
def SameValue (v w : Json) : Prop := normal v = normal w

mutual

theorem canon_eq_normal : ∀ v : Json, v.isFinite = true → canon v = normal v
  | .null, _ => rfl
  | .bool _, _ => rfl
  | .int _, _ => rfl
  | .str _, _ => rfl
  | .float x, h => by
    cases x with
    | finite lit => rfl
    | _ => cases h
  | .arr xs, h => by rw [canon, normal, canonAll_eq_normalAll xs h]
  | .obj ms, h => by rw [canon, normal, canonMembers_eq_normalMembers ms h]

theorem canonAll_eq_normalAll : ∀ xs : List Json, allFinite xs = true → canonAll xs = normalAll xs
  | [], _ => rfl
  | x :: xs, h => by
    rw [allFinite, Bool.and_eq_true] at h
    rw [canonAll, normalAll, canon_eq_normal x h.1, canonAll_eq_normalAll xs h.2]

theorem canonMembers_eq_normalMembers : ∀ ms : List (PyStr × Json), allFiniteMembers ms = true →
    canonMembers ms = normalMembers ms
  | [], _ => rfl
  | (k, v) :: rest, h => by
    rw [allFiniteMembers, Bool.and_eq_true] at h
    rw [canonMembers, normalMembers, canon_eq_normal v h.1, canonMembers_eq_normalMembers rest h.2]

end

theorem canonical_eq_iff {v w : Json} (hv : v.isFinite = true) (hw : w.isFinite = true) :
    canonical v = canonical w ↔ SameValue v w := by
  rw [canonical_inj, canon_eq_normal v hv, canon_eq_normal w hw, SameValue]

end Js
