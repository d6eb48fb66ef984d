/-
The canonical text of a JSON document determines the document: what is hashed is
what is meant.
-/
import Centinal26.Lib.Codes
import Centinal26.Py.Json

namespace Py

open Codes

-- == finite

mutual

/-- No float of the document is NaN or infinite. -/
def Json.isFinite : Json → Bool
  | .float (.finite _) => true
  | .float _ => false
  | .arr xs => allFinite xs
  | .obj ms => allFiniteMembers ms
  | _ => true

def allFinite : List Json → Bool
  | [] => true
  | x :: xs => x.isFinite && allFinite xs

def allFiniteMembers : List (PyStr × Json) → Bool
  | [] => true
  | (_, v) :: rest => v.isFinite && allFiniteMembers rest

end

theorem allFiniteMembers_eq (ms : List (PyStr × Json)) :
    allFiniteMembers ms = ms.all fun m => m.2.isFinite := by
  induction ms with
  | nil => rfl
  | cons m rest ih => rw [allFiniteMembers, List.all_cons, ih]

-- == strings

/-- The value of a lower-case hexadecimal digit. -/
def hexValue (c : Nat) : Nat := if c < 58 then c - 48 else c - 87

variable {n c : Nat} {d d' : Json} {s t : PyStr}

theorem hexValue_hexDigit (h : n < 16) : hexValue (hexDigit n) = n := by
  unfold hexValue hexDigit
  split
  · next hlow =>
    rw [if_pos (by omega)]
    omega
  · next hhigh =>
    rw [if_neg (by omega)]
    omega

/-- The character a two-character escape stands for. -/
def unescape (c : Nat) : Nat :=
  if c = 98 then 8
  else if c = 116 then 9
  else if c = 110 then 10
  else if c = 102 then 12
  else if c = 114 then 13
  else c

/-- The first character of a literal's text, and what follows it. -/
def readChar : PyStr → Option (Nat × PyStr)
  | 92 :: 117 :: a :: b :: c :: d :: r =>
    some (((hexValue a * 16 + hexValue b) * 16 + hexValue c) * 16 + hexValue d, r)
  | 92 :: c :: r => some (unescape c, r)
  | c :: r => some (c, r)
  | [] => none

theorem readChar_unicodeEscape (h : c < 65536) (r : PyStr) :
    readChar (unicodeEscape c ++ r) = some (c, r) := by
  have h₀ := @hexValue_hexDigit (c / 4096 % 16) (by omega)
  have h₁ := @hexValue_hexDigit (c / 256 % 16) (by omega)
  have h₂ := @hexValue_hexDigit (c / 16 % 16) (by omega)
  have h₃ := @hexValue_hexDigit (c % 16) (by omega)
  simp only [unicodeEscape, List.cons_append, List.nil_append, readChar, h₀, h₁,
    h₂, h₃, Option.some.injEq, Prod.mk.injEq, and_true]
  omega

theorem readChar_escapeChar (c : Nat) (r : PyStr) :
    readChar (escapeChar false c ++ r) = some (c, r) := by
  unfold escapeChar
  let read : PyStr → Prop := fun s => readChar (s ++ r) = some (c, r)
  change read _
  refine iteInduction (fun h => by subst h; rfl) fun _ => ?_
  refine iteInduction (fun h => by subst h; rfl) fun hbackslash => ?_
  iterate 5 refine iteInduction (fun h => by subst h; rfl) fun _ => ?_
  refine iteInduction (fun hlt => readChar_unicodeEscape (by omega) r) fun _ => ?_
  refine iteInduction nofun fun _ => ?_
  change readChar (c :: r) = some (c, r)
  unfold readChar
  split
  · next heq => exact absurd (List.cons.inj heq).1 hbackslash
  · next heq => exact absurd (List.cons.inj heq).1 hbackslash
  · next heq => cases heq; rfl
  · next heq => cases heq

theorem escapeChar_split {d : Nat}
    (h : escapeChar false c ++ s = escapeChar false d ++ t) : c = d ∧ s = t := by
  have hread := readChar_escapeChar c s
  rw [h, readChar_escapeChar] at hread
  cases hread
  exact ⟨rfl, rfl⟩

theorem escapeChar_starts (c : Nat) : Starts (· ≠ 34) (escapeChar false c) := by
  have hread := readChar_escapeChar c []
  cases hcode : escapeChar false c with
  | nil =>
    rw [hcode] at hread
    cases hread
  | cons d r =>
    refine ⟨d, r, rfl, fun hd => ?_⟩
    -- only the quote itself would read as a quote, and it is escaped
    subst hd
    rw [hcode] at hread
    have hc : c = 34 := by
      simp only [List.append_nil, readChar, Option.some.injEq, Prod.mk.injEq] at hread
      exact hread.1.symm
    subst hc
    cases hcode

theorem literal_split {u v : PyStr}
    (h : stringLiteral false s ++ u = stringLiteral false t ++ v) : s = t ∧ u = v := by
  simp only [stringLiteral, List.cons_append, List.append_assoc, List.nil_append,
    List.cons.injEq, true_and] at h
  exact terminated_split (P := fun _ => True) (fun c _ => escapeChar_starts c)
    (fun _ _ _ _ _ _ => escapeChar_split) (fun _ _ => trivial)
    (fun _ _ => trivial) h

-- == numbers

theorem mem_digits (h : c ∈ (Nat.toDigits 10 n).map Char.toNat) : 48 ≤ c ∧ c ≤ 57 := by
  obtain ⟨ch, hch, rfl⟩ := List.mem_map.mp h
  have hdigit := Nat.isDigit_of_mem_toDigits (by decide) (by decide) hch
  simp only [Char.isDigit, Bool.and_eq_true, decide_eq_true_eq] at hdigit
  exact hdigit

theorem mem_intRepr {n : Int} (h : c ∈ intRepr n) : c = 45 ∨ 48 ≤ c ∧ c ≤ 57 := by
  rcases List.mem_append.mp h with h | h
  · split at h
    · exact Or.inl (List.mem_singleton.mp h)
    · cases h
  · exact Or.inr (mem_digits h)

theorem numberChar_intRepr {n : Int} (h : c ∈ intRepr n) : numberChar c = true := by
  simp only [numberChar, Bool.or_eq_true, Bool.and_eq_true, decide_eq_true_eq, beq_iff_eq]
  rcases mem_intRepr h with h | h
  · exact Or.inl (Or.inl (Or.inr h))
  · exact Or.inl (Or.inl (Or.inl (Or.inl h)))

theorem digits_injective {m : Nat}
    (h : (Nat.toDigits 10 m).map Char.toNat = (Nat.toDigits 10 n).map Char.toNat) : m = n := by
  have hchars := List.map_injective_iff.mpr (fun _ _ => Char.toNat_inj.mp) h
  have hvalue := congrArg (fun ds => Nat.ofDigitChars 10 ds 0) hchars
  simpa only [Nat.ofDigitChars_ten_toDigits] using hvalue

theorem minus_digits : 45 :: s ≠ (Nat.toDigits 10 n).map Char.toNat := by
  intro h
  have hmem : 45 ∈ (Nat.toDigits 10 n).map Char.toNat := h ▸ List.mem_cons_self ..
  have := mem_digits hmem
  omega

theorem intRepr_injective {m n : Int} (h : intRepr m = intRepr n) : m = n := by
  unfold intRepr at h
  split at h
  · split at h
    · have := digits_injective (List.cons.inj h).2
      omega
    · exact absurd h minus_digits
  · split at h
    · exact absurd h.symm minus_digits
    · have := digits_injective h
      omega

theorem readFloat_spec {q : Rat} (h : readFloat s = some q) :
    (∀ c ∈ s, numberChar c = true) ∧ ∃ c ∈ s, c = 46 ∨ c = 101 := by
  unfold readFloat at h
  split at h
  · next hs =>
    obtain ⟨hall, hany⟩ := Bool.and_eq_true_iff.mp hs
    refine ⟨List.all_eq_true.mp hall, ?_⟩
    obtain ⟨c, hc, hmark⟩ := List.any_eq_true.mp hany
    exact ⟨c, hc, by simpa using hmark⟩
  · cases h

-- == documents

/-- What ends a number: a comma, a bracket or a brace. -/
def isStop (c : Nat) : Prop := c = 44 ∨ c = 93 ∨ c = 125

theorem stop_comma : isStop 44 := Or.inl rfl

theorem stop_bracket : isStop 93 := Or.inr (Or.inl rfl)

theorem stop_brace : isStop 125 := Or.inr (Or.inr rfl)

/-- The kinds of documents that begin differently. -/
def kind : Json → Nat
  | .null => 0
  | .bool _ => 1
  | .int _ => 2
  | .float _ => 2
  | .str _ => 3
  | .arr _ => 4
  | .obj _ => 5

/-- The kind of document a character begins. -/
def charKind (c : Nat) : Nat :=
  if c = 110 then 0
  else if c = 116 ∨ c = 102 then 1
  else if c = 34 then 3
  else if c = 91 then 4
  else if c = 123 then 5
  else if numberChar c ∨ c = 78 ∨ c = 73 then 2
  else 6

theorem charKind_number (h : numberChar c = true) : charKind c = 2 := by
  have hrange : (48 ≤ c ∧ c ≤ 57) ∨ c = 43 ∨ c = 45 ∨ c = 46 ∨ c = 101 := by
    simpa [numberChar, or_assoc] using h
  unfold charKind
  rw [if_neg (by omega), if_neg (by omega), if_neg (by omega), if_neg (by omega),
    if_neg (by omega), if_pos (.inl h)]

theorem starts_number (hne : s ≠ [])
    (h : ∀ c ∈ s, numberChar c = true) : Starts (charKind · = 2) s := by
  cases s with
  | nil => exact absurd rfl hne
  | cons c r => exact ⟨c, r, rfl, charKind_number (h c (List.mem_cons_self ..))⟩

theorem intRepr_ne_nil (n : Int) : intRepr n ≠ [] := by
  unfold intRepr
  simp only [ne_eq, List.append_eq_nil_iff, List.map_eq_nil_iff,
    Nat.toDigits_ne_nil, and_false, not_false_eq_true]

theorem text_starts (d : Json) : Starts (charKind · = kind d) (d.text .canonical) := by
  cases d with
  | null => exact ⟨110, _, rfl, rfl⟩
  | bool b =>
    cases b with
    | true => exact ⟨116, _, rfl, rfl⟩
    | false => exact ⟨102, _, rfl, rfl⟩
  | int n => exact starts_number (intRepr_ne_nil n) fun _ => numberChar_intRepr
  | float x =>
    cases x with
    | finite lit =>
      obtain ⟨hall, c, hc, -⟩ := readFloat_spec lit.spelled
      exact starts_number (List.ne_nil_of_mem hc) hall
    | nan => exact ⟨78, _, rfl, rfl⟩
    | infinity => exact ⟨73, _, rfl, rfl⟩
    | negInfinity => exact ⟨45, _, rfl, rfl⟩
  | str s => exact ⟨34, _, rfl, rfl⟩
  | arr xs => exact ⟨91, _, rfl, rfl⟩
  | obj ms => exact ⟨123, _, rfl, rfl⟩

def memberText (m : PyStr × Json) : PyStr :=
  stringLiteral false m.1 ++ 58 :: m.2.text .canonical

theorem joinWith_separated {α : Type} (f : α → PyStr) (xs : List α) :
    joinWith (py ",") (xs.map f) = separated 44 f xs := by
  induction xs with
  | nil => rfl
  | cons x xs ih =>
    cases xs with
    | nil => exact (List.append_nil _).symm
    | cons y ys =>
      show f x ++ py "," ++ joinWith (py ",") ((y :: ys).map f) = _
      rw [ih, List.append_assoc]
      rfl

theorem itemTexts_eq (xs : List Json) :
    itemTexts .canonical xs = xs.map (Json.text .canonical) := by
  induction xs with
  | nil => rfl
  | cons x xs ih => rw [itemTexts, ih, List.map_cons]

theorem memberTexts_eq (ms : List (PyStr × Json)) :
    memberTexts .canonical ms = ms.map memberText := by
  induction ms with
  | nil => rfl
  | cons m rest ih =>
    rw [memberTexts, ih, List.map_cons, List.append_assoc]
    rfl

theorem text_arr (xs : List Json) (s : PyStr) : (Json.arr xs).text .canonical ++ s
      = 91 :: (separated 44 (Json.text .canonical) xs ++ 93 :: s) := by
  have htext : (Json.arr xs).text .canonical
      = 91 :: joinWith (py ",") (xs.map (Json.text .canonical)) ++ [93] := by
    rw [Json.text, itemTexts_eq]
    rfl
  rw [htext, joinWith_separated]
  simp only [List.cons_append, List.append_assoc, List.nil_append]

theorem text_obj (ms : List (PyStr × Json)) (s : PyStr) : (Json.obj ms).text .canonical ++ s
      = 123 :: (separated 44 memberText ms ++ 125 :: s) := by
  have htext : (Json.obj ms).text .canonical
      = 123 :: joinWith (py ",") (ms.map memberText) ++ [125] := by
    rw [Json.text, memberTexts_eq]
    rfl
  rw [htext, joinWith_separated]
  simp only [List.cons_append, List.append_assoc, List.nil_append]

theorem text_starts_ne (d : Json) : Starts (· ≠ 93) (d.text .canonical) := by
  refine (text_starts d).imp fun c hc => ?_
  rintro rfl
  cases d <;> cases hc

theorem kind_eq (heq : d.text .canonical ++ s = d'.text .canonical ++ t) : kind d = kind d' := by
  by_contra hne
  exact ((text_starts d).append s).ne ((text_starts d').append t)
    (fun c hc hc' => hne (hc.symm.trans hc')) heq

/-- A character of a number, or of the words that are written for what is not finite. -/
def wordChar (c : Nat) : Bool :=
  numberChar c || [78, 97, 73, 110, 102, 105, 116, 121].contains c

theorem not_wordChar_of_stop (h : isStop c) : ¬ wordChar c = true := by
  rcases h with rfl | rfl | rfl <;> decide

theorem number_split {u v : PyStr} (hu : ∀ c ∈ u, wordChar c = true)
    (hv : ∀ c ∈ v, wordChar c = true) (hs : Stops isStop s)
    (ht : Stops isStop t) (h : u ++ s = v ++ t) : u = v ∧ s = t :=
  span_split hu hv (fun c r hc => not_wordChar_of_stop (hs c r hc))
    (fun c r hc => not_wordChar_of_stop (ht c r hc)) h

theorem intRepr_ne_float {n : Int} {lit : FloatLit} : intRepr n ≠ lit.repr.map Fin.val := by
  intro h
  obtain ⟨-, c, hc, hmark⟩ := readFloat_spec lit.spelled
  rw [← h] at hc
  have := mem_intRepr hc
  omega

/-- The number a document of this kind is: its text is in the characters of numbers, unless it is
not finite. -/
theorem number_text (hk : kind d = 2) : (∀ c ∈ d.text .canonical, numberChar c = true)
      ∨ d = .float .nan ∨ d = .float .infinity ∨ d = .float .negInfinity := by
  cases d with
  | int n => exact .inl fun _ => numberChar_intRepr
  | float x =>
    cases x with
    | finite lit => exact .inl (readFloat_spec lit.spelled).1
    | nan => exact .inr (.inl rfl)
    | infinity => exact .inr (.inr (.inl rfl))
    | negInfinity => exact .inr (.inr (.inr rfl))
  | _ => cases hk

theorem wordChar_number (hk : kind d = 2) : ∀ c ∈ d.text .canonical, wordChar c = true := by
  rcases number_text hk with h | rfl | rfl | rfl
  · exact fun c hc => by rw [wordChar, h c hc, Bool.true_or]
  all_goals decide

theorem number_text_inj (hk : kind d = 2) (hk' : kind d' = 2)
    (h : d.text .canonical = d'.text .canonical) : d = d' := by
  -- a word for what is not finite is not a number
  have hword : ∀ {e e' : Json}, kind e = 2 → e.text .canonical = e'.text .canonical →
      (e' = .float .nan ∨ e' = .float .infinity ∨ e' = .float .negInfinity) → e = e' := by
    intro e e' he heq hnot
    rcases number_text he with hchars | rfl | rfl | rfl
    · rw [heq] at hchars
      rcases hnot with rfl | rfl | rfl <;> exact absurd hchars (by decide)
    all_goals
      rcases hnot with rfl | rfl | rfl <;> first | rfl | exact absurd heq (by decide)
  have hnumber : (∃ n, d' = .int n) ∨ (∃ lit, d' = .float (.finite lit))
      ∨ d' = .float .nan ∨ d' = .float .infinity ∨ d' = .float .negInfinity := by
    cases d' with
    | int n => exact .inl ⟨n, rfl⟩
    | float x => cases x <;> simp
    | _ => cases hk'
  cases d with
  | int n =>
    rcases hnumber with ⟨m, rfl⟩ | ⟨lit, rfl⟩ | hnot
    · rw [intRepr_injective (m := n) (n := m) h]
    · exact absurd h intRepr_ne_float
    · exact hword hk h hnot
  | float x =>
    cases x with
    | finite lit =>
      rcases hnumber with ⟨m, rfl⟩ | ⟨lit', rfl⟩ | hnot
      · exact absurd h.symm intRepr_ne_float
      · have hrepr := List.map_injective_iff.mpr (fun _ _ => Fin.ext) h
        rw [FloatLit.ext hrepr]
      · exact hword hk h hnot
    | nan => exact (hword hk' h.symm (.inl rfl)).symm
    | infinity => exact (hword hk' h.symm (.inr (.inl rfl))).symm
    | negInfinity => exact (hword hk' h.symm (.inr (.inr rfl))).symm
  | _ => cases hk

theorem memberText_starts (m : PyStr × Json) : Starts (· ≠ 125) (memberText m) :=
  ⟨34, _, rfl, by decide⟩

theorem number_splits (hk : kind d = 2) (hk' : kind d' = 2)
    (hs : Stops isStop s) (ht : Stops isStop t)
    (h : d.text .canonical ++ s = d'.text .canonical ++ t) : d = d' ∧ s = t := by
  obtain ⟨heq, hst⟩ := number_split (wordChar_number hk) (wordChar_number hk') hs ht h
  exact ⟨number_text_inj hk hk' heq, hst⟩

mutual

theorem text_splits : ∀ d : Json, Splits isStop (Json.text .canonical) (fun _ => True) d
  | .null, d', _, s, t, _, _, h => by
    have hk := kind_eq h
    cases d' with
    | null => exact ⟨rfl, List.append_cancel_left h⟩
    | _ => cases hk
  | .bool b, d', _, s, t, _, _, h => by
    have hk := kind_eq h
    cases d' with
    | bool b' =>
      cases b <;> cases b'
      · exact ⟨rfl, List.append_cancel_left h⟩
      · exact absurd (List.cons.inj h).1 (by decide)
      · exact absurd (List.cons.inj h).1 (by decide)
      · exact ⟨rfl, List.append_cancel_left h⟩
    | _ => cases hk
  | .int n, d', _, s, t, hs, ht, h => number_splits rfl (kind_eq h).symm hs ht h
  | .float x, d', _, s, t, hs, ht, h => number_splits rfl (kind_eq h).symm hs ht h
  | .str u, d', _, s, t, _, _, h => by
    have hk := kind_eq h
    cases d' with
    | str v =>
      obtain ⟨rfl, hst⟩ := literal_split h
      exact ⟨rfl, hst⟩
    | _ => cases hk
  | .arr xs, d', _, s, t, _, _, h => by
    have hk := kind_eq h
    cases d' with
    | arr ys =>
      rw [text_arr, text_arr] at h
      obtain ⟨rfl, hst⟩ := separated_split stop_comma stop_bracket (by decide)
        (fun d _ => text_starts_ne d) (fun _ _ => trivial) (fun _ _ => trivial)
        (item_splits xs) (List.cons.inj h).2
      exact ⟨rfl, hst⟩
    | _ => cases hk
  | .obj ms, d', _, s, t, _, _, h => by
    have hk := kind_eq h
    cases d' with
    | obj ms' =>
      rw [text_obj, text_obj] at h
      obtain ⟨rfl, hst⟩ := separated_split stop_comma stop_brace (by decide)
        (fun m _ => memberText_starts m) (fun _ _ => trivial) (fun _ _ => trivial)
        (member_splits ms) (List.cons.inj h).2
      exact ⟨rfl, hst⟩
    | _ => cases hk

theorem item_splits : ∀ xs : List Json, ∀ x ∈ xs,
    Splits isStop (Json.text .canonical) (fun _ => True) x
  | [], x, hx => by cases hx
  | y :: ys, x, hx => by
    rcases List.mem_cons.mp hx with hx | hx
    · rw [hx]
      exact text_splits y
    · exact item_splits ys x hx

theorem member_splits : ∀ ms : List (PyStr × Json), ∀ m ∈ ms,
    Splits isStop memberText (fun _ => True) m
  | [], m, hm => by cases hm
  | (k, v) :: rest, m, hm => by
    rcases List.mem_cons.mp hm with hm | hm
    · rw [hm]
      intro m' _ s t hs ht h
      obtain ⟨k', v'⟩ := m'
      simp only [memberText, List.append_assoc] at h
      obtain ⟨rfl, hvalue⟩ := literal_split h
      obtain ⟨rfl, hst⟩ := text_splits v v' trivial s t hs ht (List.cons.inj hvalue).2
      exact ⟨rfl, hst⟩
    · exact member_splits rest m hm

end

theorem text_injective {d d' : Json} (h : d.text .canonical = d'.text .canonical) : d = d' :=
  (text_splits d d' trivial [] [] stops_nil stops_nil (by rw [h])).1

end Py

/-
Which documents have a canonical text that can be stored: those whose strings,
names included, all encode. Everything the text adds around them is ASCII.
-/

namespace Py

mutual

/-- Every string of the document encodes. -/
def Json.isEncodable : Json → Bool
  | .str s => decide (Encodable s)
  | .arr xs => allEncodable xs
  | .obj ms => allEncodableMembers ms
  | _ => true

def allEncodable : List Json → Bool
  | [] => true
  | x :: xs => x.isEncodable && allEncodable xs

def allEncodableMembers : List (PyStr × Json) → Bool
  | [] => true
  | (k, v) :: rest =>
    decide (Encodable k) && v.isEncodable && allEncodableMembers rest

end

theorem allEncodableMembers_eq (ms : List (PyStr × Json)) : allEncodableMembers ms
      = ms.all fun m => decide (Encodable m.1) && m.2.isEncodable := by
  induction ms with
  | nil => rfl
  | cons m rest ih => rw [allEncodableMembers, List.all_cons, ih]

-- == parts

theorem encodable_escapeChar_iff {c : Nat} :
    Encodable (escapeChar false c) ↔ isScalar c = true := by
  refine ⟨fun h => ?_, encodable_escapeChar⟩
  by_cases hc : c < 128
  · simp only [isScalar, decide_eq_true_eq]
    omega
  · have hself : escapeChar false c = [c] := by
      simp only [escapeChar, Bool.false_and, Bool.false_eq_true, if_false]
      repeat rw [if_neg (by omega)]
    exact h c (by rw [hself]; exact List.mem_singleton_self c)

theorem encodable_stringLiteral_iff {s : PyStr} :
    Encodable (stringLiteral false s) ↔ Encodable s := by
  refine ⟨fun h c hc => encodable_escapeChar_iff.mp fun d hd => ?_, encodable_stringLiteral⟩
  refine h d (List.mem_append_left _ (List.mem_cons_of_mem _ ?_))
  exact List.mem_flatMap.mpr ⟨c, hc, hd⟩

theorem encodable_joinWith_iff {separator : PyStr} (hsep : Encodable separator) :
    ∀ {parts : List PyStr}, Encodable (joinWith separator parts) ↔ ∀ p ∈ parts, Encodable p
  | [] => ⟨nofun, fun _ => encodable_nil⟩
  | [x] => by rw [joinWith, List.forall_mem_singleton]
  | x :: y :: rest => by
    rw [joinWith, encodable_append, encodable_append,
      encodable_joinWith_iff hsep, List.forall_mem_cons (a := x)]
    tauto

theorem encodable_bracket {a b : Nat} {s : PyStr} (ha : a < 128) (hb : b < 128) :
    Encodable (a :: s ++ [b]) ↔ Encodable s := by
  have hone : ∀ c : Nat, c < 128 → Encodable [c] := fun c hc =>
    Ascii.encodable fun d hd => List.mem_singleton.mp hd ▸ hc
  show Encodable ([a] ++ s ++ [b]) ↔ _
  rw [encodable_append, encodable_append]
  exact ⟨fun h => h.1.2, fun h => ⟨⟨hone a ha, h⟩, hone b hb⟩⟩

-- == texts

theorem encodable_comma : Encodable (py ",") := encodable_py ","

theorem encodable_colon : Encodable (py ":") := encodable_py ":"

mutual

theorem encodable_text : ∀ d : Json, Encodable (d.text .canonical) ↔ d.isEncodable = true
  | .null => iff_of_true (encodable_py _) rfl
  | .bool _ => iff_of_true (encodable_py _) rfl
  | .int n => iff_of_true (ascii_intRepr n).encodable rfl
  | .float x => iff_of_true (ascii_floatRepr x).encodable rfl
  | .str s => by
    rw [Json.isEncodable, decide_eq_true_eq]
    exact encodable_stringLiteral_iff
  | .arr xs => by
    rw [Json.isEncodable, Json.text, encodable_bracket (by decide) (by decide)]
    exact (encodable_joinWith_iff encodable_comma).trans (encodable_itemTexts xs)
  | .obj ms => by
    rw [Json.isEncodable, Json.text, encodable_bracket (by decide) (by decide)]
    exact (encodable_joinWith_iff encodable_comma).trans (encodable_memberTexts ms)

theorem encodable_itemTexts : ∀ xs : List Json,
    (∀ p ∈ itemTexts .canonical xs, Encodable p) ↔ allEncodable xs = true
  | [] => iff_of_true (nofun) rfl
  | x :: xs => by
    rw [itemTexts, List.forall_mem_cons, allEncodable, Bool.and_eq_true,
      encodable_text x, encodable_itemTexts xs]

theorem encodable_memberTexts : ∀ ms : List (PyStr × Json),
    (∀ p ∈ memberTexts .canonical ms, Encodable p) ↔ allEncodableMembers ms = true
  | [] => iff_of_true (nofun) rfl
  | (k, v) :: rest => by
    rw [memberTexts, List.forall_mem_cons, allEncodableMembers, Bool.and_eq_true,
      Bool.and_eq_true, decide_eq_true_eq, encodable_memberTexts rest,
      encodable_append, encodable_append, encodable_text v]
    have hk : Encodable (stringLiteral Style.canonical.ensureAscii k)
        ↔ Encodable k := encodable_stringLiteral_iff
    have hsep : Encodable Style.canonical.keySeparator := encodable_colon
    tauto

end

end Py
