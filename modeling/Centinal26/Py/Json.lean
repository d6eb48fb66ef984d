/-
The `json` module as the repository uses it: `dumps` with `sort_keys=True`
(which values it accepts, and the document it writes), the text of a document
under a choice of separators and `ensure_ascii`, and `loads`.
-/
import Centinal26.Py.Value

namespace Py

/-- What a JSON text denotes. -/
inductive Json : Type
  | null
  | bool (b : Bool)
  | int (n : Int)
  | float (x : PyFloat)
  | str (s : PyStr)
  | arr (items : List Json)
  | obj (members : List (PyStr × Json))

-- == dumps

/-- `int.__repr__` gives up above 4300 digits. -/
def checkDigits (n : Int) : Except PyErr Unit :=
  if n.natAbs < 10 ^ 4300 then .ok ()
  else .error (.valueError "Exceeds the limit (4300 digits) for integer string conversion")

def intRepr (n : Int) : PyStr :=
  (if n < 0 then [45] else []) ++ (Nat.toDigits 10 n.natAbs).map Char.toNat

/-- `float.__repr__`, or `json`'s names for what it has no literal for. -/
def floatRepr : PyFloat → PyStr
  | .nan => py "NaN"
  | .infinity => py "Infinity"
  | .negInfinity => py "-Infinity"
  | .finite lit => lit.repr.map Fin.val

def keyText : PyKey → Except PyErr PyStr
  | .none => .ok (py "null")
  | .bool b => .ok (py (if b then "true" else "false"))
  | .int n => do checkDigits n; .ok (intRepr n)
  | .float x => .ok (floatRepr x)
  | .str s => .ok s
  | .object => .error .typeError

/-- Insert a member by key, comparing as `sorted` would. -/
def insertMember (m : PyKey × Json) : List (PyKey × Json) → Except PyErr (List (PyKey × Json))
  | [] => .ok [m]
  | n :: rest => do
    if ← m.1.lt n.1 then .ok (m :: n :: rest)
    else .ok (n :: (← insertMember m rest))

def sortMembers : List (PyKey × Json) → Except PyErr (List (PyKey × Json))
  | [] => .ok []
  | m :: rest => do insertMember m (← sortMembers rest)

def writeKeys : List (PyKey × Json) → Except PyErr (List (PyStr × Json))
  | [] => .ok []
  | (k, v) :: rest => do .ok ((← keyText k, v) :: (← writeKeys rest))

mutual

/-- `json.dumps(value, sort_keys=True)`, as the document it writes. -/
def dumps : PyVal → Except PyErr Json
  | .none => .ok .null
  | .bool b => .ok (.bool b)
  | .int n => do checkDigits n; .ok (.int n)
  | .float x => .ok (.float x)
  | .str s => .ok (.str s)
  | .list xs => do .ok (.arr (← dumpsList xs))
  | .tuple xs => do .ok (.arr (← dumpsList xs))
  | .dict items => do
    .ok (.obj (← writeKeys (← sortMembers (← dumpsItems items))))
  | .object => .error .typeError

def dumpsList : List PyVal → Except PyErr (List Json)
  | [] => .ok []
  | x :: xs => do .ok ((← dumps x) :: (← dumpsList xs))

def dumpsItems : List (PyKey × PyVal) → Except PyErr (List (PyKey × Json))
  | [] => .ok []
  | (k, v) :: rest => do .ok ((k, ← dumps v) :: (← dumpsItems rest))

end

mutual

/-- `json.dumps(value)`: the keys stay in their order. -/
def dumpsPlain : PyVal → Except PyErr Json
  | .none => .ok .null
  | .bool b => .ok (.bool b)
  | .int n => do checkDigits n; .ok (.int n)
  | .float x => .ok (.float x)
  | .str s => .ok (.str s)
  | .list xs => do .ok (.arr (← dumpsPlainList xs))
  | .tuple xs => do .ok (.arr (← dumpsPlainList xs))
  | .dict items => do .ok (.obj (← writeKeys (← dumpsPlainItems items)))
  | .object => .error .typeError

def dumpsPlainList : List PyVal → Except PyErr (List Json)
  | [] => .ok []
  | x :: xs => do .ok ((← dumpsPlain x) :: (← dumpsPlainList xs))

def dumpsPlainItems : List (PyKey × PyVal) → Except PyErr (List (PyKey × Json))
  | [] => .ok []
  | (k, v) :: rest => do .ok ((k, ← dumpsPlain v) :: (← dumpsPlainItems rest))

end

mutual

/-- `json.loads`, on the document of the text. -/
def loads : Json → PyVal
  | .null => .none
  | .bool b => .bool b
  | .int n => .int n
  | .float x => .float x
  | .str s => .str s
  | .arr xs => .list (loadsList xs)
  | .obj ms => .dict (dictOf (loadsMembers ms))

def loadsList : List Json → List PyVal
  | [] => []
  | x :: xs => loads x :: loadsList xs

def loadsMembers : List (PyStr × Json) → List (PyKey × PyVal)
  | [] => []
  | (k, v) :: rest => (.str k, loads v) :: loadsMembers rest

end

/-- `json.loads(json.dumps(value, sort_keys=True))`. -/
def roundTrip (v : PyVal) : Except PyErr PyVal := do .ok (loads (← dumps v))

-- == text

/-- The arguments of `dumps` that decide how a document is spelled. -/
structure Style where
  ensureAscii : Bool
  itemSeparator : PyStr
  keySeparator : PyStr

/-- `json.dumps` without further arguments. -/
def Style.default : Style := ⟨true, py ", ", py ": "⟩

/-- The text is ASCII, whatever the document holds. -/
def Style.IsAscii (b : Style) : Prop :=
  b.ensureAscii = true ∧ Ascii b.itemSeparator ∧ Ascii b.keySeparator

/-- `separators=(",", ":"), ensure_ascii=False`. -/
def Style.canonical : Style := ⟨false, py ",", py ":"⟩

/-- The lower-case hexadecimal digit of a number below sixteen. -/
def hexDigit (n : Nat) : Nat := if n < 10 then 48 + n else 87 + n

/-- A `\u` escape of one sixteen-bit unit. -/
def unicodeEscape (c : Nat) : PyStr :=
  [92, 117, hexDigit (c / 4096 % 16), hexDigit (c / 256 % 16),
    hexDigit (c / 16 % 16), hexDigit (c % 16)]

def escapeChar (ensureAscii : Bool) (c : Nat) : PyStr :=
  if c = 34 then [92, 34]
  else if c = 92 then [92, 92]
  else if c = 8 then [92, 98]
  else if c = 9 then [92, 116]
  else if c = 10 then [92, 110]
  else if c = 12 then [92, 102]
  else if c = 13 then [92, 114]
  else if c < 32 then unicodeEscape c
  else if ensureAscii && decide (126 < c) then
    if c < 0x10000 then unicodeEscape c
    -- a character outside the basic plane is written as a surrogate pair
    else unicodeEscape (0xD800 + (c - 0x10000) / 0x400)
      ++ unicodeEscape (0xDC00 + (c - 0x10000) % 0x400)
  else [c]

def stringLiteral (ensureAscii : Bool) (s : PyStr) : PyStr :=
  34 :: s.flatMap (escapeChar ensureAscii) ++ [34]

def joinWith (separator : PyStr) : List PyStr → PyStr
  | [] => []
  | [x] => x
  | x :: y :: rest => x ++ separator ++ joinWith separator (y :: rest)

mutual

def Json.text (style : Style) : Json → PyStr
  | .null => py "null"
  | .bool b => py (if b then "true" else "false")
  | .int n => intRepr n
  | .float x => floatRepr x
  | .str s => stringLiteral style.ensureAscii s
  | .arr xs => 91 :: joinWith style.itemSeparator (itemTexts style xs) ++ [93]
  | .obj ms =>
    123 :: joinWith style.itemSeparator (memberTexts style ms) ++ [125]

def itemTexts (style : Style) : List Json → List PyStr
  | [] => []
  | x :: xs => x.text style :: itemTexts style xs

def memberTexts (style : Style) : List (PyStr × Json) → List PyStr
  | [] => []
  | (k, v) :: rest =>
    (stringLiteral style.ensureAscii k ++ style.keySeparator
      ++ v.text style) :: memberTexts style rest

end

/-- The canonical text of a value, encoded: what the repository hashes. -/
def canonicalText (v : PyVal) : Except PyErr Text := do
  encode ((← dumps v).text .canonical)

-- == what the text contains

theorem ascii_py_of {s : String} (h : (py s).all (fun c => decide (c < 128)) = true) :
    Ascii (py s) := by
  intro c hc
  exact of_decide_eq_true (List.all_eq_true.mp h c hc)

theorem hexDigit_lt {n : Nat} (h : n < 16) : hexDigit n < 128 := by
  unfold hexDigit
  split <;> omega

theorem ascii_unicodeEscape (c : Nat) : Ascii (unicodeEscape c) := by
  intro d hd
  have h₀ := hexDigit_lt (n := c / 4096 % 16) (by omega)
  have h₁ := hexDigit_lt (n := c / 256 % 16) (by omega)
  have h₂ := hexDigit_lt (n := c / 16 % 16) (by omega)
  have h₃ := hexDigit_lt (n := c % 16) (by omega)
  simp only [unicodeEscape, List.mem_cons, List.not_mem_nil, or_false] at hd
  omega

theorem ascii_intRepr (n : Int) : Ascii (intRepr n) := by
  refine ascii_append.mpr ⟨?_, ?_⟩
  · intro c hc
    split at hc
    · rw [List.mem_singleton] at hc
      omega
    · cases hc
  · intro c hc
    obtain ⟨ch, hch, rfl⟩ := List.mem_map.mp hc
    have hdigit := Nat.isDigit_of_mem_toDigits (by decide) (by decide) hch
    simp only [Char.isDigit, Bool.and_eq_true, decide_eq_true_eq] at hdigit
    have hle : ch.val.toNat ≤ 57 := hdigit.2
    show ch.val.toNat < 128
    omega

theorem ascii_floatRepr (x : PyFloat) : Ascii (floatRepr x) := by
  cases x with
  | nan => exact ascii_py_of (by decide)
  | infinity => exact ascii_py_of (by decide)
  | negInfinity => exact ascii_py_of (by decide)
  | finite lit =>
    intro c hc
    obtain ⟨d, -, rfl⟩ := List.mem_map.mp hc
    exact d.isLt

variable {s separator : PyStr} {b : Style} {c : Nat}

/-- What a character is written as: an escape of two characters, one or two of six, or itself. -/
theorem escapeChar_cases {P : PyStr → Prop} {b : Bool} (hshort : ∀ d < 128, P [92, d])
    (hcontrol : P (unicodeEscape c))
    (hhigh : b = true → P (if c < 0x10000 then unicodeEscape c
      else unicodeEscape (0xD800 + (c - 0x10000) / 0x400)
        ++ unicodeEscape (0xDC00 + (c - 0x10000) % 0x400)))
    (hself : ¬(b && decide (126 < c)) = true → P [c]) : P (escapeChar b c) := by
  unfold escapeChar
  iterate 7 refine iteInduction (fun _ => hshort _ (by decide)) fun _ => ?_
  refine iteInduction (fun _ => hcontrol) fun _ => ?_
  exact iteInduction (fun h => hhigh (Bool.and_eq_true _ _ ▸ h).1) hself

theorem ascii_pair {d : Nat} (h : d < 128) : Ascii [92, d] := by
  intro e he
  rcases List.mem_cons.mp he with rfl | he
  · decide
  · rw [List.mem_singleton.mp he]
    exact h

theorem ascii_escapeChar (c : Nat) : Ascii (escapeChar true c) := by
  refine escapeChar_cases (fun _ => ascii_pair) (ascii_unicodeEscape c) (fun _ => ?_) fun hlow => ?_
  · split
    · exact ascii_unicodeEscape c
    · exact ascii_append.mpr ⟨ascii_unicodeEscape _, ascii_unicodeEscape _⟩
  · intro d hd
    rw [List.mem_singleton] at hd
    simp only [Bool.true_and, decide_eq_true_eq] at hlow
    omega

theorem encodable_escapeChar {b : Bool} (h : isScalar c = true) : Encodable (escapeChar b c) := by
  cases b with
  | true => exact (ascii_escapeChar c).encodable
  | false =>
    refine escapeChar_cases (fun _ hd => (ascii_pair hd).encodable)
      (ascii_unicodeEscape c).encodable nofun fun _ d hd => ?_
    rw [List.mem_singleton] at hd
    exact hd ▸ h

theorem ascii_stringLiteral (s : PyStr) : Ascii (stringLiteral true s) := by
  have hquote : Ascii [34] := by
    intro c hc
    rw [List.mem_singleton] at hc
    omega
  refine ascii_append (s := [34] ++ s.flatMap (escapeChar true)).mpr
    ⟨ascii_append.mpr ⟨hquote, ?_⟩, hquote⟩
  intro c hc
  obtain ⟨d, -, hd⟩ := List.mem_flatMap.mp hc
  exact ascii_escapeChar d c hd

theorem encodable_stringLiteral {b : Bool} (h : Encodable s) : Encodable (stringLiteral b s) := by
  have hquote : Encodable [34] := by
    intro c hc
    rw [List.mem_singleton] at hc
    subst hc
    decide
  refine encodable_append (s := [34] ++ s.flatMap (escapeChar b)).mpr
    ⟨encodable_append.mpr ⟨hquote, ?_⟩, hquote⟩
  intro c hc
  obtain ⟨d, hds, hd⟩ := List.mem_flatMap.mp hc
  exact encodable_escapeChar (h d hds) c hd

theorem ascii_joinWith (hsep : Ascii separator) :
    ∀ {parts : List PyStr}, (∀ p ∈ parts, Ascii p) → Ascii (joinWith separator parts)
  | [], _ => ascii_nil
  | [x], h => h x (List.mem_singleton_self x)
  | x :: y :: rest, h => by
    refine ascii_append.mpr ⟨ascii_append.mpr ⟨h x (List.mem_cons_self ..), hsep⟩, ?_⟩
    exact ascii_joinWith hsep fun p hp => h p (List.mem_cons_of_mem _ hp)

theorem encodable_joinWith (hsep : Encodable separator) :
    ∀ {parts : List PyStr}, (∀ p ∈ parts, Encodable p) → Encodable (joinWith separator parts)
  | [], _ => encodable_nil
  | [x], h => h x (List.mem_singleton_self x)
  | x :: y :: rest, h => by
    refine encodable_append.mpr ⟨encodable_append.mpr ⟨h x (List.mem_cons_self ..), hsep⟩, ?_⟩
    exact encodable_joinWith hsep fun p hp =>
      h p (List.mem_cons_of_mem _ hp)

theorem ascii_bracket {a b : Nat} (ha : a < 128) (hb : b < 128)
    (hs : Ascii s) : Ascii (a :: s ++ [b]) := by
  intro c hc
  simp only [List.cons_append, List.mem_cons, List.mem_append, List.not_mem_nil, or_false] at hc
  rcases hc with rfl | hc | rfl
  · exact ha
  · exact hs c hc
  · exact hb

theorem isAscii_default : Style.default.IsAscii :=
  ⟨rfl, ascii_py_of (by decide), ascii_py_of (by decide)⟩

theorem ascii_literal (hb : b.IsAscii) (s : PyStr) : Ascii (stringLiteral b.ensureAscii s) := by
  rw [hb.1]
  exact ascii_stringLiteral s

mutual

theorem ascii_text (hb : b.IsAscii) : ∀ d : Json, Ascii (d.text b)
  | .null => ascii_py_of (by decide)
  | .bool v => by cases v <;> exact ascii_py_of (by decide)
  | .int n => ascii_intRepr n
  | .float x => ascii_floatRepr x
  | .str s => ascii_literal hb s
  | .arr xs => ascii_bracket (by decide) (by decide) (ascii_joinWith hb.2.1 (ascii_itemTexts hb xs))
  | .obj ms => ascii_bracket (by decide) (by decide)
      (ascii_joinWith hb.2.1 (ascii_memberTexts hb ms))

theorem ascii_itemTexts (hb : b.IsAscii) : ∀ xs : List Json, ∀ p ∈ itemTexts b xs, Ascii p
  | [], p, hp => by cases hp
  | x :: xs, p, hp => by
    rcases List.mem_cons.mp hp with rfl | hp
    · exact ascii_text hb x
    · exact ascii_itemTexts hb xs p hp

theorem ascii_memberTexts (hb : b.IsAscii) :
    ∀ ms : List (PyStr × Json), ∀ p ∈ memberTexts b ms, Ascii p
  | [], p, hp => by cases hp
  | (k, v) :: rest, p, hp => by
    rcases List.mem_cons.mp hp with rfl | hp
    · exact ascii_append.mpr ⟨ascii_append.mpr ⟨ascii_literal hb k, hb.2.2⟩, ascii_text hb v⟩
    · exact ascii_memberTexts hb rest p hp

end

def Json.column (d : Json) : Text :=
  ⟨d.text .default, (ascii_text isAscii_default d).encodable⟩

theorem encodable_text_record {b : Style} (hi : Encodable b.itemSeparator)
    (hk : Encodable b.keySeparator) {ms : List (PyStr × Json)} (hkeys : ∀ m ∈ ms, Encodable m.1)
    (hvals : ∀ m ∈ ms, Encodable (m.2.text b)) : Encodable ((Json.obj ms).text b) := by
  have hparts : ∀ p ∈ memberTexts b ms, Encodable p := by
    induction ms with
    | nil =>
      intro p hp
      cases hp
    | cons m rest ih =>
      obtain ⟨k, v⟩ := m
      intro p hp
      rcases List.mem_cons.mp hp with rfl | hp
      · exact encodable_append.mpr ⟨encodable_append.mpr
          ⟨encodable_stringLiteral (hkeys _ (List.mem_cons_self ..)), hk⟩,
          hvals _ (List.mem_cons_self ..)⟩
      · exact ih (fun m hm => hkeys m (List.mem_cons_of_mem _ hm))
          (fun m hm => hvals m (List.mem_cons_of_mem _ hm)) p hp
  have hbrace : ∀ c < 128, Encodable [c] := fun c hc =>
    Ascii.encodable fun d hd => by
      rw [List.mem_singleton] at hd
      omega
  refine encodable_append (s := [123] ++ joinWith b.itemSeparator
    (memberTexts b ms)).mpr ⟨encodable_append.mpr
      ⟨hbrace 123 (by decide), encodable_joinWith hi hparts⟩,
      hbrace 125 (by decide)⟩

end Py
