/-
`json.loads` on a text: which texts it reads, and as which documents.
-/
import Centinal26.Py.Json

namespace Py

/-- What `json.loads` raises. -/
inductive LoadsError : Type
  /-- `JSONDecodeError` -/
  | decode
  /-- the `ValueError` of an integer with too many digits -/
  | tooManyDigits
deriving DecidableEq

-- == strings

def hexDigitValue (c : Nat) : Option Nat :=
  if 48 ≤ c ∧ c ≤ 57 then some (c - 48)
  else if 97 ≤ c ∧ c ≤ 102 then some (c - 87)
  else if 65 ≤ c ∧ c ≤ 70 then some (c - 55)
  else none

/-- The character a backslash makes of one. -/
def simpleEscape (c : Nat) : Option Nat :=
  if c = 34 ∨ c = 92 ∨ c = 47 then some c
  else if c = 98 then some 8
  else if c = 102 then some 12
  else if c = 110 then some 10
  else if c = 114 then some 13
  else if c = 116 then some 9
  else none

/-- Where in a string literal the reading is. -/
inductive StringMode : Type
  | plain
  | escape
  /-- inside a `\u` escape, with so many digits to come after the next -/
  | unicode (missing : Nat) (value : Nat)

/-- A character of a literal, and whether a `\u` escape spells it. -/
abbrev Unit16 := Bool × Nat

def push (u : Unit16) (r : Option (List Unit16 × PyStr)) : Option (List Unit16 × PyStr) :=
  r.map fun p => (u :: p.1, p.2)

/-- A literal up to its closing quote, and what follows. -/
def scanUnits : StringMode → PyStr → Option (List Unit16 × PyStr)
  | _, [] => none
  | .plain, c :: r =>
    if c = 34 then some ([], r)
    else if c = 92 then scanUnits .escape r
    else if c < 32 then none
    else push (false, c) (scanUnits .plain r)
  | .escape, c :: r =>
    if c = 117 then scanUnits (.unicode 3 0) r
    else match simpleEscape c with
      | some d => push (false, d) (scanUnits .plain r)
      | none => none
  | .unicode missing value, c :: r =>
    match hexDigitValue c with
    | none => none
    | some d =>
      match missing with
      | 0 => push (true, value * 16 + d) (scanUnits .plain r)
      | k + 1 => scanUnits (.unicode k (value * 16 + d)) r

/-- Escaped surrogates that make a pair are one character. -/
def joinPairs : List Unit16 → PyStr
  | (true, high) :: (true, low) :: rest =>
    if 0xD800 ≤ high ∧ high ≤ 0xDBFF ∧ 0xDC00 ≤ low ∧ low ≤ 0xDFFF then
      (0x10000 + (high - 0xD800) * 0x400 + (low - 0xDC00)) :: joinPairs rest
    else high :: joinPairs ((true, low) :: rest)
  | (_, c) :: rest => c :: joinPairs rest
  | [] => []

/-- A string literal, after its opening quote. -/
def scanString (s : PyStr) : Except LoadsError (PyStr × PyStr) :=
  match scanUnits .plain s with
  | some (us, rest) => .ok (joinPairs us, rest)
  | none => .error .decode

-- == numbers

def isDigit (c : Nat) : Bool := decide (48 ≤ c ∧ c ≤ 57)

def isNumeric (c : Nat) : Bool :=
  isDigit c || c == 43 || c == 45 || c == 46 || c == 69 || c == 101

/-- The digits before the point: a zero stands alone. -/
def scanWhole : PyStr → Option (PyStr × PyStr)
  | [] => none
  | c :: r =>
    if c = 48 then some ([48], r)
    else if isDigit c then some (c :: r.takeWhile isDigit, r.dropWhile isDigit)
    else none

/-- The point and the digits after it, if there are any. -/
def scanFraction (s : PyStr) : PyStr × PyStr :=
  match s with
  | [] => ([], [])
  | c :: r =>
    if c = 46 ∧ r.takeWhile isDigit ≠ [] then (46 :: r.takeWhile isDigit, r.dropWhile isDigit)
    else ([], s)

def scanExponent (s : PyStr) : PyStr × PyStr :=
  match s with
  | [] => ([], [])
  | e :: r =>
    let sign := (r.take 1).filter fun c => c == 43 || c == 45
    let digits := (r.drop sign.length).takeWhile isDigit
    if (e = 69 ∨ e = 101) ∧ digits ≠ [] then
      (e :: sign ++ digits, (r.drop sign.length).dropWhile isDigit)
    else ([], s)

/-- A number at the front of such a stretch, and what is left over. -/
def scanNumber (toFloat : PyStr → PyFloat) (s : PyStr) : Except LoadsError (Json × PyStr) :=
  let negative := s.head? == some 45
  match scanWhole (if negative then s.tail else s) with
  | none => .error .decode
  | some (whole, r) =>
    let fraction := scanFraction r
    let exponent := scanExponent fraction.2
    if fraction.1 = [] ∧ exponent.1 = [] then
      if whole.length ≤ 4300 then
        .ok (.int (if negative then -digitsValue whole else digitsValue whole), r)
      else .error .tooManyDigits
    else
      .ok (.float (toFloat ((if negative then [45] else []) ++ whole ++ fraction.1
        ++ exponent.1)), exponent.2)

-- == values

/-- The words of JSON, and Python's for what has no literal. -/
def literals : List (PyStr × Json) :=
  [(py "null", .null), (py "true", .bool true), (py "false", .bool false),
    (py "NaN", .float .nan), (py "Infinity", .float .infinity),
    (py "-Infinity", .float .negInfinity)]

def skip (s : PyStr) : PyStr :=
  s.dropWhile fun c => c == 32 || c == 9 || c == 10 || c == 13

def expect (c : Nat) : PyStr → Except LoadsError PyStr
  | [] => .error .decode
  | d :: r => if d = c then .ok r else .error .decode

section Values

variable (toFloat : PyStr → PyFloat)

def scanScalar (s : PyStr) : Except LoadsError (Json × PyStr) :=
  match scanNumber toFloat (s.takeWhile isNumeric) with
  | .ok (v, left) => .ok (v, left ++ s.dropWhile isNumeric)
  | .error .tooManyDigits => .error .tooManyDigits
  | .error .decode =>
    match literals.find? fun l => l.1.isPrefixOf s with
    | some l => .ok (l.2, s.drop l.1.length)
    | none => .error .decode

mutual

/-- A value at the front of a text, and what follows. -/
def scanValue : Nat → PyStr → Except LoadsError (Json × PyStr)
  | 0, _ => .error .decode
  | _ + 1, [] => .error .decode
  | n + 1, c :: r =>
    if c = 34 then do
      let p ← scanString r
      .ok (.str p.1, p.2)
    else if c = 91 then
      if (skip r).head? = some 93 then .ok (.arr [], (skip r).tail)
      else do
        let p ← scanItems n (skip r)
        .ok (.arr p.1, p.2)
    else if c = 123 then
      if (skip r).head? = some 125 then .ok (.obj [], (skip r).tail)
      else do
        let p ← scanMembers n (skip r)
        .ok (.obj (dictOf p.1), p.2)
    else scanScalar toFloat (c :: r)

def scanItems : Nat → PyStr → Except LoadsError (List Json × PyStr)
  | 0, _ => .error .decode
  | n + 1, s => do
    let x ← scanValue n s
    match skip x.2 with
    | [] => .error .decode
    | c :: rest =>
      if c = 93 then .ok ([x.1], rest)
      else if c = 44 then do
        let p ← scanItems n (skip rest)
        .ok (x.1 :: p.1, p.2)
      else .error .decode

/-- The members of an object, to its end. -/
def scanMembers : Nat → PyStr → Except LoadsError (List (PyStr × Json) × PyStr)
  | 0, _ => .error .decode
  | n + 1, s => do
    let r ← expect 34 s
    let k ← scanString r
    let r ← expect 58 (skip k.2)
    let v ← scanValue n (skip r)
    match skip v.2 with
    | [] => .error .decode
    | c :: rest =>
      if c = 125 then .ok ([(k.1, v.1)], rest)
      else if c = 44 then do
        let p ← scanMembers n (skip rest)
        .ok ((k.1, v.1) :: p.1, p.2)
      else .error .decode

end

def loadsText (s : PyStr) : Except LoadsError Json := do
  if s.head? = some 0xFEFF then .error .decode
  else do
    let p ← scanValue toFloat (2 * s.length + 2) (skip s)
    if skip p.2 = [] then .ok p.1 else .error .decode

end Values

end Py
