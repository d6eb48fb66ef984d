/-
The part of `re` the repository's patterns are written in: a matcher that
tries alternatives in the order they are written and repetitions longest first
(`many`) or shortest first (`few`), and backs up where the rest does not match.
-/
import Centinal26.Py.Value

namespace Py

/-- A pattern. -/
inductive Regex : Type
  | empty
  | one (p : Nat → Bool)
  | seq (r s : Regex)
  | alt (r s : Regex)
  | many (p : Nat → Bool)
  | few (p : Nat → Bool)
  | group (n : Nat) (r : Regex)
  | ends

/-- The texts of the groups, latest first. -/
abbrev Groups := List (Nat × PyStr)

def Groups.get? (g : Groups) (n : Nat) : Option PyStr :=
  (g.find? fun m => decide (m.1 = n)).map Prod.snd

/-- `p*`, longest first. -/
def runMany (p : Nat → Bool) {β : Type} (k : PyStr → Option β) : PyStr → Option β
  | [] => k []
  | c :: cs => if p c then (runMany p k cs).or (k (c :: cs)) else k (c :: cs)

/-- `p*?`, shortest first. -/
def runFew (p : Nat → Bool) {β : Type} (k : PyStr → Option β) : PyStr → Option β
  | [] => k []
  | c :: cs => (k (c :: cs)).or (if p c then runFew p k cs else none)

namespace Regex

/-- Match the pattern at the front, and the rest with `k`. -/
def run {β : Type} : Regex → PyStr → Groups → (PyStr → Groups → Option β) → Option β
  | empty, s, g, k => k s g
  | one _, [], _, _ => none
  | one p, c :: cs, g, k => if p c then k cs g else none
  | seq r t, s, g, k => r.run s g fun s g => t.run s g k
  | alt r t, s, g, k => (r.run s g k).or (t.run s g k)
  | many p, s, g, k => runMany p (fun s => k s g) s
  | few p, s, g, k => runFew p (fun s => k s g) s
  | group n r, s, g, k =>
    r.run s g fun s' g => k s' ((n, s.take (s.length - s'.length)) :: g)
  | ends, [], g, k => k [] g
  | ends, _ :: _, _, _ => none

def match? (r : Regex) (s : PyStr) : Option Groups :=
  r.run s [] fun _ g => some g

def opt (r : Regex) : Regex := alt r empty

def plus (p : Nat → Bool) : Regex := seq (one p) (many p)

def plusFew (p : Nat → Bool) : Regex := seq (one p) (few p)

def all : List Regex → Regex
  | [] => empty
  | [r] => r
  | r :: rs => seq r (all rs)

def char (c : Char) : Regex := one fun n => n == c.toNat

/-- `\s`. -/
def space : Nat → Bool := isSpace

/-- What an upper-case ASCII letter matches under `IGNORECASE`. -/
def sameLetter (upper : Nat) (c : Nat) : Bool :=
  c == upper || c == upper + 32 || (upper == 73 && (c == 0x130 || c == 0x131))
    || (upper == 83 && c == 0x17F)
    || (upper == 75 && c == 0x212A)

/-- An upper-case word under `IGNORECASE`. -/
def word (s : String) : Regex :=
  all (s.toList.map fun c => one (sameLetter c.toNat))

end Regex

end Py
