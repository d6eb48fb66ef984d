/-
`json.loads` reads the text of a document back, and does not read a text that was cut
off.
-/
import Centinal26.Py.Loads
import Centinal26.Py.Scan
import Mathlib.Data.List.TakeWhile

namespace Py

open Codes

-- == strings

variable {u rest s t : PyStr} {us : List Unit16} {n c : Nat}

theorem push_eq_some {u : Unit16} {r : Option (List Unit16 × PyStr)}
    : push u r = some (us, rest) ↔ ∃ us', us = u :: us' ∧ r = some (us', rest) := by
  cases r with
  | none => exact ⟨nofun, fun ⟨us', _, h⟩ => (by cases h)⟩
  | some p =>
    constructor
    · intro h
      cases h
      exact ⟨p.1, rfl, rfl⟩
    · intro h
      obtain ⟨us', rfl, h⟩ := h
      cases h
      rfl

theorem scanUnits_append {mode : StringMode}
    (h : scanUnits mode s = some (us, rest)) : scanUnits mode (s ++ t) = some (us, rest ++ t) := by
  induction s generalizing mode us with
  | nil => cases mode <;> cases h
  | cons c r ih =>
    rw [List.cons_append]
    cases mode with
    | plain =>
      unfold scanUnits at h ⊢
      split at h
      · next hc =>
        cases h
        rw [if_pos hc]
      · next hquote =>
        rw [if_neg hquote]
        split at h
        · next hc =>
          rw [if_pos hc]
          exact ih h
        · next hback =>
          rw [if_neg hback]
          split at h
          · cases h
          · next hlow =>
            rw [if_neg hlow]
            obtain ⟨us', rfl, hr⟩ := push_eq_some.mp h
            exact push_eq_some.mpr ⟨us', rfl, ih hr⟩
    | escape =>
      unfold scanUnits at h ⊢
      split at h
      · next hc =>
        rw [if_pos hc]
        exact ih h
      · next hc =>
        rw [if_neg hc]
        split at h
        · next d _ =>
          obtain ⟨us', rfl, hr⟩ := push_eq_some.mp h
          exact push_eq_some.mpr ⟨us', rfl, ih hr⟩
        · cases h
    | unicode missing value =>
      unfold scanUnits at h ⊢
      cases hd : hexDigitValue c with
      | none =>
        rw [hd] at h
        cases h
      | some d =>
        rw [hd] at h
        cases missing with
        | zero =>
          obtain ⟨us', rfl, hr⟩ := push_eq_some.mp h
          exact push_eq_some.mpr ⟨us', rfl, ih hr⟩
        | succ k => exact ih h

theorem scanString_append {x : PyStr} (h : scanString s = .ok (x, rest)) :
    scanString (s ++ t) = .ok (x, rest ++ t) := by
  unfold scanString at h ⊢
  split at h
  · next us rest' hs =>
    cases h
    rw [scanUnits_append hs]
  · cases h

theorem hexDigitValue_hexDigit (h : n < 16) : hexDigitValue (hexDigit n) = some n := by
  unfold hexDigitValue hexDigit
  by_cases hlow : n < 10
  · rw [if_pos hlow, if_pos (by omega)]
    simp
  · rw [if_neg hlow, if_neg (by omega), if_pos (by omega)]
    simp only [Option.some.injEq]
    omega

theorem scanUnits_unicodeEscape (h : c < 65536) (r : PyStr) :
    scanUnits .plain (unicodeEscape c ++ r) = push (true, c) (scanUnits .plain r) := by
  have h₀ := @hexDigitValue_hexDigit (c / 4096 % 16) (by omega)
  have h₁ := @hexDigitValue_hexDigit (c / 256 % 16) (by omega)
  have h₂ := @hexDigitValue_hexDigit (c / 16 % 16) (by omega)
  have h₃ := @hexDigitValue_hexDigit (c % 16) (by omega)
  have hvalue : (((0 * 16 + c / 4096 % 16) * 16 + c / 256 % 16) * 16 + c / 16 % 16) * 16
      + c % 16 = c := by omega
  simp only [unicodeEscape, List.cons_append, List.nil_append, scanUnits, h₀, h₁, h₂, h₃,
    hvalue, Nat.reduceEqDiff, if_true, if_false]

theorem scanUnits_escapeChar (c : Nat) (r : PyStr) :
    ∃ b, scanUnits .plain (escapeChar false c ++ r) = push (b, c) (scanUnits .plain r)
      ∧ (b = true → c < 32) := by
  unfold escapeChar
  let scanned : PyStr → Prop := fun s => ∃ b,
    scanUnits .plain (s ++ r) = push (b, c) (scanUnits .plain r) ∧ (b = true → c < 32)
  change scanned _
  refine iteInduction (fun h => by subst h; exact ⟨false, rfl, nofun⟩) fun hquote => ?_
  refine iteInduction (fun h => by subst h; exact ⟨false, rfl, nofun⟩) fun hback => ?_
  iterate 5 refine iteInduction (fun h => by subst h; exact ⟨false, rfl, nofun⟩) fun _ => ?_
  refine iteInduction (fun h => ⟨true, scanUnits_unicodeEscape (by omega) r, fun _ => h⟩)
    fun hlow => ?_
  refine iteInduction nofun fun _ => ⟨false, ?_, nofun⟩
  change scanUnits .plain (c :: r) = _
  rw [scanUnits, if_neg hquote, if_neg hback, if_neg hlow]

theorem joinPairs_eq (h : ∀ u ∈ us, u.1 = true → u.2 < 32) : joinPairs us = us.map Prod.snd := by
  induction us with
  | nil => rfl
  | cons u rest ih =>
    have hrest := ih fun v hv => h v (List.mem_cons_of_mem _ hv)
    have hu := h u (List.mem_cons_self ..)
    obtain ⟨b, c⟩ := u
    unfold joinPairs
    split
    · next heq =>
      cases heq
      have := hu rfl
      rw [if_neg (by omega), hrest]
      rfl
    · next heq =>
      cases heq
      rw [hrest, List.map_cons]
    · next heq => cases heq

theorem scanString_literal (s r : PyStr) :
    scanString (s.flatMap (escapeChar false) ++ 34 :: r) = .ok (s, r) := by
  have hunits : ∃ us, scanUnits .plain (s.flatMap (escapeChar false) ++ 34 :: r)
      = some (us, r) ∧ us.map Prod.snd = s ∧ ∀ u ∈ us, u.1 = true → u.2 < 32 := by
    induction s with
    | nil => exact ⟨[], rfl, rfl, nofun⟩
    | cons c s ih =>
      obtain ⟨us, hscan, hmap, hlow⟩ := ih
      rw [List.flatMap_cons, List.append_assoc]
      obtain ⟨b, hchar, hb⟩ := scanUnits_escapeChar c (s.flatMap (escapeChar false) ++ 34 :: r)
      refine ⟨(b, c) :: us, ?_, by rw [List.map_cons, hmap], fun u hu => ?_⟩
      · rw [hchar, hscan]
        rfl
      · rcases List.mem_cons.mp hu with rfl | hu
        · exact hb
        · exact hlow u hu
  obtain ⟨us, hscan, hmap, hlow⟩ := hunits
  unfold scanString
  rw [hscan]
  show Except.ok (joinPairs us, r) = _
  rw [joinPairs_eq hlow, hmap]

-- == numbers

/-- A text that no number goes on with: it is empty, or begins with something else. -/
abbrev Ends (s : PyStr) : Prop := Stops (fun c => isNumeric c = false) s

/-- Another character than a number's comes first. -/
def Settled (s : PyStr) : Prop := Starts (fun c => isNumeric c = false) s

theorem takeWhile_append_ends (hu : ∀ c ∈ u, isNumeric c = true) (hs : Ends s) :
    (u ++ s).takeWhile isNumeric = u ∧ (u ++ s).dropWhile isNumeric = s := by
  induction u with
  | nil =>
    cases s with
    | nil => exact ⟨rfl, rfl⟩
    | cons c r =>
      have hc := hs c r rfl
      simp [hc]
  | cons c u ih =>
    have hc := hu c (List.mem_cons_self ..)
    obtain ⟨h₁, h₂⟩ := ih fun d hd => hu d (List.mem_cons_of_mem _ hd)
    simp [hc, h₁, h₂]

theorem takeWhile_append_settled (h : s.dropWhile isNumeric ≠ []) :
    (s ++ t).takeWhile isNumeric = s.takeWhile isNumeric
      ∧ (s ++ t).dropWhile isNumeric = s.dropWhile isNumeric ++ t := by
  induction s with
  | nil => exact absurd rfl h
  | cons c r ih =>
    by_cases hc : isNumeric c = true
    · have hr : r.dropWhile isNumeric ≠ [] := by simpa [hc] using h
      obtain ⟨h₁, h₂⟩ := ih hr
      simp [hc, h₁, h₂]
    · simp [hc]

theorem isDigit_of_mem (h : c ∈ (Nat.toDigits 10 n).map Char.toNat) :
    isDigit c = true := decide_eq_true (mem_digits h)

theorem digitsValue_digits (n : Nat) : digitsValue ((Nat.toDigits 10 n).map Char.toNat) = n := by
  have hvalue := Nat.ofDigitChars_ten_toDigits (n := n)
  rw [Nat.ofDigitChars_eq_foldl] at hvalue
  unfold digitsValue
  rw [List.foldl_map]
  exact hvalue

theorem digits_shape (n : Nat) : (Nat.toDigits 10 n).map Char.toNat = [48]
      ∨ ∃ c r, (Nat.toDigits 10 n).map Char.toNat = c :: r ∧ c ≠ 48 := by
  induction n using Nat.strongRecOn with
  | ind n ih =>
    by_cases hn : n < 10
    · rw [Nat.toDigits_of_lt_base hn]
      rcases Nat.eq_zero_or_pos n with rfl | hpos
      · exact Or.inl rfl
      · refine Or.inr ⟨_, [], rfl, ?_⟩
        have h48 := Nat.toNat_digitChar_sub_48_of_lt_ten hn
        omega
    · rw [Nat.toDigits_of_base_le (by omega) (by omega), List.map_append]
      rcases ih (n / 10) (by omega) with h | ⟨c, r, h, hc⟩
      · have hvalue := digitsValue_digits (n / 10)
        rw [h] at hvalue
        have : n / 10 = 0 := hvalue.symm.trans (by decide)
        omega
      · exact Or.inr ⟨c, _, by rw [h]; rfl, hc⟩

theorem takeWhile_digits (hu : ∀ c ∈ u, isDigit c = true) :
    u.takeWhile isDigit = u ∧ u.dropWhile isDigit = [] :=
  ⟨List.takeWhile_eq_self_iff.mpr hu, List.dropWhile_eq_nil_iff.mpr hu⟩

theorem scanWhole_digits (n : Nat) : scanWhole ((Nat.toDigits 10 n).map Char.toNat)
      = some ((Nat.toDigits 10 n).map Char.toNat, []) := by
  rcases digits_shape n with h | ⟨c, r, h, hc⟩
  · rw [h]
    rfl
  · have hall : ∀ d ∈ c :: r, isDigit d = true := fun d hd => isDigit_of_mem (h ▸ hd)
    obtain ⟨h₁, h₂⟩ := takeWhile_digits fun d hd => hall d (List.mem_cons_of_mem _ hd)
    rw [h, scanWhole, if_neg hc, if_pos (hall c (List.mem_cons_self ..)), h₁, h₂]

theorem length_digits {k : Nat} (hk : 0 < k) (h : n < 10 ^ k) :
    ((Nat.toDigits 10 n).map Char.toNat).length ≤ k := by
  rw [List.length_map]
  exact (Nat.length_toDigits_le_iff (by omega) hk).mpr h

section Numbers

variable (toFloat : PyStr → PyFloat)

theorem digits_length_of_short {n : Int} (h : (checkDigits n).isOk = true) :
    ((Nat.toDigits 10 n.natAbs).map Char.toNat).length ≤ 4300 := by
  unfold checkDigits at h
  split at h
  · next hshort => exact length_digits (k := 4300) (by omega) hshort
  · cases h

theorem scanNumber_intRepr {n : Int} (h : (checkDigits n).isOk = true) :
    scanNumber toFloat (intRepr n) = .ok (.int n, []) := by
  have hlength := digits_length_of_short h
  clear h
  have hwhole := scanWhole_digits n.natAbs
  have hvalue := digitsValue_digits n.natAbs
  unfold scanNumber intRepr
  by_cases hn : n < 0
  · have hsign : -(n.natAbs : Int) = n := by omega
    simp only [hn, if_true, List.cons_append, List.nil_append, List.head?_cons,
      beq_self_eq_true, List.tail_cons, hwhole, scanFraction, scanExponent, and_self, hlength,
      hvalue, hsign]
  · have hsign : (n.natAbs : Int) = n := by omega
    have hhead : (((Nat.toDigits 10 n.natAbs).map Char.toNat).head? == some 45) = false := by
      rcases digits_shape n.natAbs with hs | ⟨c, r, hs, -⟩
      · rw [hs]
        rfl
      · have hc := mem_digits (n := n.natAbs) (hs ▸ List.mem_cons_self ..)
        rw [hs]
        simp
        omega
    simp only [hn, if_false, List.nil_append, hhead, Bool.false_eq_true, hwhole, scanFraction,
      scanExponent, and_self, if_true, hlength, hvalue, hsign]

def ReadsFloat : PyFloat → Prop
  | .finite lit => scanNumber toFloat (lit.repr.map Fin.val) = .ok (.float (.finite lit), [])
  | _ => True

theorem numeric_of_numberChar {c : Nat} (h : numberChar c = true) : isNumeric c = true := by
  simp only [numberChar, Bool.or_eq_true, Bool.and_eq_true, decide_eq_true_eq, beq_iff_eq] at h
  simp only [isNumeric, isDigit, Bool.or_eq_true, decide_eq_true_eq, beq_iff_eq]
  omega

theorem scanScalar_number {u s : PyStr} {v : Json}
    (hu : ∀ c ∈ u, numberChar c = true) (h : scanNumber toFloat u = .ok (v, []))
    (hs : Ends s) : scanScalar toFloat (u ++ s) = .ok (v, s) := by
  obtain ⟨h₁, h₂⟩ := takeWhile_append_ends (fun c hc => numeric_of_numberChar (hu c hc)) hs
  unfold scanScalar
  rw [h₁, h₂, h]
  rfl

theorem scanScalar_literal {k : PyStr} {v : Json} (h : (k, v) ∈ literals) (r : PyStr) :
    scanScalar toFloat (k ++ r) = .ok (v, r) := by
  simp only [literals, List.mem_cons, List.not_mem_nil, or_false, Prod.mk.injEq] at h
  rcases h with ⟨rfl, rfl⟩ | ⟨rfl, rfl⟩ | ⟨rfl, rfl⟩ | ⟨rfl, rfl⟩ | ⟨rfl, rfl⟩ | ⟨rfl, rfl⟩ <;> rfl

-- == values

mutual

/-- Every float of the document is one that `float` reads from its literal. -/
def Json.ReadsFloats : Json → Prop
  | .float x => ReadsFloat toFloat x
  | .arr xs => AllReadFloats xs
  | .obj ms => MembersReadFloats ms
  | _ => True

def AllReadFloats : List Json → Prop
  | [] => True
  | x :: xs => x.ReadsFloats ∧ AllReadFloats xs

def MembersReadFloats : List (PyStr × Json) → Prop
  | [] => True
  | (_, v) :: rest => v.ReadsFloats ∧ MembersReadFloats rest

end

/-- What a document has to be for its text to read back: no name twice, integers that
`int` reads, floats that `float` does. -/
structure Json.Scannable (d : Json) : Prop where
  normal : d.isNormal = true
  short : d.isShort = true
  floats : d.ReadsFloats toFloat

end Numbers

variable {s r t : PyStr} {c : Nat}

theorem skip_of_head (h : s = c :: r)
    (hc : (c == 32 || c == 9 || c == 10 || c == 13) = false) : skip s = s := by
  rw [h, skip, List.dropWhile_cons, hc]
  rfl

theorem skip_append (h : skip s ≠ []) : skip (s ++ t) = skip s ++ t := by
  induction s with
  | nil => exact absurd rfl h
  | cons c r ih =>
    unfold skip at h ih ⊢
    rw [List.cons_append, List.dropWhile_cons, List.dropWhile_cons] at *
    split
    · next hc =>
      rw [if_pos hc] at h
      exact ih h
    · rfl

theorem settled_of_skip (h : skip s = c :: r) (hc : isNumeric c = false) : Settled s := by
  cases s with
  | nil => cases h
  | cons d s =>
    refine ⟨d, s, rfl, ?_⟩
    unfold skip at h
    rw [List.dropWhile_cons] at h
    split at h
    · next hspace =>
      simp only [Bool.or_eq_true, beq_iff_eq] at hspace
      rcases hspace with ((rfl | rfl) | rfl) | rfl <;> rfl
    · cases h
      exact hc

theorem expect_append (h : expect c s = .ok r) : expect c (s ++ t) = .ok (r ++ t) := by
  cases s with
  | nil => cases h
  | cons d s =>
    by_cases hd : d = c
    · rw [expect, if_pos hd] at h
      cases h
      rw [List.cons_append, expect, if_pos hd]
    · rw [expect, if_neg hd] at h
      cases h

section Reading

variable (toFloat : PyStr → PyFloat)

variable {n : Nat} {s : PyStr} {v : Json}

theorem scanValue_ne_nil {p : Json × PyStr} (h : scanValue toFloat n s = .ok p) : s ≠ [] := by
  intro hnil
  rw [hnil] at h
  cases n <;> cases h

theorem scanItems_ne_nil {p : List Json × PyStr} (h : scanItems toFloat n s = .ok p) : s ≠ [] := by
  cases n with
  | zero => cases h
  | succ n =>
    rw [scanItems] at h
    obtain ⟨x, hx, -⟩ := of_bind_ok h
    exact scanValue_ne_nil toFloat hx

theorem scanMembers_ne_nil {p : List (PyStr × Json) × PyStr}
    (h : scanMembers toFloat n s = .ok p) : s ≠ [] := by
  cases n with
  | zero => cases h
  | succ n =>
    rw [scanMembers] at h
    obtain ⟨r, hr, -⟩ := of_bind_ok h
    intro hnil
    rw [hnil] at hr
    cases hr

/-- A value that ends by itself, whatever follows. -/
def Json.closed : Json → Bool
  | .int _ => false
  | .float _ => false
  | _ => true

theorem scanWhole_subset {w r : PyStr} (h : scanWhole s = some (w, r)) : r ⊆ s := by
  cases s with
  | nil => cases h
  | cons c s =>
    rw [scanWhole] at h
    split at h
    · cases h
      exact List.subset_cons_self _ _
    · split at h
      · cases h
        exact List.Subset.trans (List.dropWhile_subset _) (List.subset_cons_self _ _)
      · cases h

theorem scanFraction_subset (s : PyStr) : (scanFraction s).2 ⊆ s := by
  cases s with
  | nil => exact List.Subset.refl _
  | cons c s =>
    rw [scanFraction]
    split
    · exact List.Subset.trans (List.dropWhile_subset _) (List.subset_cons_self _ _)
    · exact List.Subset.refl _

theorem scanExponent_subset (s : PyStr) : (scanExponent s).2 ⊆ s := by
  cases s with
  | nil => exact List.Subset.refl _
  | cons c s =>
    rw [scanExponent]
    split
    · exact List.Subset.trans (List.dropWhile_subset _)
        (List.Subset.trans (List.drop_subset _ _) (List.subset_cons_self _ _))
    · exact List.Subset.refl _

theorem scanNumber_spec {left : PyStr}
    (h : scanNumber toFloat s = .ok (v, left)) : v.closed = false ∧ left ⊆ s := by
  have htail : (if (s.head? == some 45) = true then s.tail else s) ⊆ s := by
    split
    · exact fun c hc => List.mem_of_mem_tail hc
    · exact List.Subset.refl _
  unfold scanNumber at h
  dsimp only at h
  split at h
  · cases h
  · next whole r hw =>
    have hr := List.Subset.trans (scanWhole_subset hw) htail
    split at h
    · split at h
      · cases h
        exact ⟨rfl, hr⟩
      · cases h
    · cases h
      exact ⟨rfl, List.Subset.trans (List.Subset.trans (scanExponent_subset _)
        (scanFraction_subset _)) hr⟩

theorem scanScalar_append {rest t : PyStr}
    (h : scanScalar toFloat s = .ok (v, rest)) (hrest : v.closed = true ∨ Settled rest) :
    scanScalar toFloat (s ++ t) = .ok (v, rest ++ t) := by
  have hsame : s.dropWhile isNumeric ≠ [] → scanNumber toFloat ((s ++ t).takeWhile isNumeric)
        = scanNumber toFloat (s.takeWhile isNumeric) := fun hne => by
    rw [(takeWhile_append_settled hne).1]
  unfold scanScalar at h
  split at h
  · next v' left hnum =>
    cases h
    obtain ⟨hopen, hsubset⟩ := scanNumber_spec toFloat hnum
    have hleft : ∀ c ∈ left, isNumeric c = true := fun c hc =>
      List.mem_takeWhile_imp (hsubset hc)
    have hsettled : Settled (left ++ s.dropWhile isNumeric) :=
      hrest.resolve_left fun hclosed => by
        rw [hopen] at hclosed
        cases hclosed
    have hne : s.dropWhile isNumeric ≠ [] := by
      intro hnil
      obtain ⟨c, r, heq, hc⟩ := hsettled
      rw [hnil, List.append_nil] at heq
      rw [hleft c (heq ▸ List.mem_cons_self ..)] at hc
      cases hc
    unfold scanScalar
    rw [hsame hne, hnum, (takeWhile_append_settled hne).2]
    simp only [List.append_assoc]
  · cases h
  · split at h
    · next l hl =>
      cases h
      have hfront : l.1.isPrefixOf s = true := by simpa using List.find?_some hl
      obtain ⟨r, rfl⟩ := List.isPrefixOf_iff_prefix.mp hfront
      rw [List.drop_left, List.append_assoc]
      exact scanScalar_literal toFloat (List.mem_of_find?_eq_some hl) _
    · cases h

mutual

/-- A value is read in the same way with more text behind, unless it is a number that
goes on with it. -/
theorem scanValue_append : ∀ {n m : Nat} {s rest t : PyStr} {v : Json}, n ≤ m →
    scanValue toFloat n s = .ok (v, rest) → v.closed = true ∨ Settled rest →
    scanValue toFloat m (s ++ t) = .ok (v, rest ++ t)
  | 0, _, _, _, _, _, _, h, _ => by
    rw [scanValue] at h
    cases h
  | n + 1, m, [], _, _, _, _, h, _ => by
    rw [scanValue] at h
    cases h
  | n + 1, 0, _ :: _, _, _, _, hm, _, _ => absurd hm (by omega)
  | n + 1, m + 1, c :: r, rest, t, v, hm, h, hrest => by
    rw [List.cons_append]
    rw [scanValue] at h ⊢
    by_cases hquote : c = 34
    · rw [if_pos hquote] at h ⊢
      obtain ⟨p, hp, h⟩ := of_bind_ok h
      cases h
      rw [scanString_append hp]
      rfl
    rw [if_neg hquote] at h ⊢
    by_cases harr : c = 91
    · rw [if_pos harr] at h ⊢
      by_cases hempty : (skip r).head? = some 93
      · rw [if_pos hempty] at h
        cases h
        have hne : skip r ≠ [] := by
          intro hnil
          rw [hnil] at hempty
          cases hempty
        rw [skip_append hne, List.head?_append_of_ne_nil _ hne, if_pos hempty,
          List.tail_append_of_ne_nil hne]
      · rw [if_neg hempty] at h
        obtain ⟨p, hp, h⟩ := of_bind_ok h
        cases h
        have hne := scanItems_ne_nil toFloat hp
        rw [skip_append hne, List.head?_append_of_ne_nil _ hne, if_neg hempty,
          scanItems_append (by omega) hp]
        rfl
    rw [if_neg harr] at h ⊢
    by_cases hobj : c = 123
    · rw [if_pos hobj] at h ⊢
      by_cases hempty : (skip r).head? = some 125
      · rw [if_pos hempty] at h
        cases h
        have hne : skip r ≠ [] := by
          intro hnil
          rw [hnil] at hempty
          cases hempty
        rw [skip_append hne, List.head?_append_of_ne_nil _ hne, if_pos hempty,
          List.tail_append_of_ne_nil hne]
      · rw [if_neg hempty] at h
        obtain ⟨p, hp, h⟩ := of_bind_ok h
        cases h
        have hne := scanMembers_ne_nil toFloat hp
        rw [skip_append hne, List.head?_append_of_ne_nil _ hne, if_neg hempty,
          scanMembers_append (by omega) hp]
        rfl
    rw [if_neg hobj] at h ⊢
    exact scanScalar_append toFloat h hrest

theorem scanItems_append : ∀ {n m : Nat} {s rest t : PyStr} {vs : List Json}, n ≤ m →
    scanItems toFloat n s = .ok (vs, rest) →
    scanItems toFloat m (s ++ t) = .ok (vs, rest ++ t)
  | 0, _, _, _, _, _, _, h => by
    rw [scanItems] at h
    cases h
  | n + 1, 0, _, _, _, _, hm, _ => absurd hm (by omega)
  | n + 1, m + 1, s, rest, t, vs, hm, h => by
    rw [scanItems] at h ⊢
    obtain ⟨x, hx, h⟩ := of_bind_ok h
    split at h
    · cases h
    · next c r hskip =>
      have hsettled : isNumeric c = false := by
        by_cases h93 : c = 93
        · rw [h93]; rfl
        · by_cases h44 : c = 44
          · rw [h44]; rfl
          · rw [if_neg h93, if_neg h44] at h
            cases h
      rw [scanValue_append (by omega) hx (Or.inr (settled_of_skip hskip hsettled)),
        bind_ok_eq, skip_append (by rw [hskip]; exact List.cons_ne_nil _ _), hskip,
        List.cons_append]
      simp only
      split at h
      · next hend =>
        cases h
        rw [if_pos hend]
      · next hend =>
        rw [if_neg hend]
        split at h
        · next hcomma =>
          rw [if_pos hcomma]
          obtain ⟨p, hp, h⟩ := of_bind_ok h
          cases h
          rw [skip_append (scanItems_ne_nil toFloat hp), scanItems_append (by omega) hp]
          rfl
        · cases h

theorem scanMembers_append : ∀ {n m : Nat} {s rest t : PyStr} {ms : List (PyStr × Json)},
    n ≤ m → scanMembers toFloat n s = .ok (ms, rest) →
    scanMembers toFloat m (s ++ t) = .ok (ms, rest ++ t)
  | 0, _, _, _, _, _, _, h => by
    rw [scanMembers] at h
    cases h
  | n + 1, 0, _, _, _, _, hm, _ => absurd hm (by omega)
  | n + 1, m + 1, s, rest, t, ms, hm, h => by
    rw [scanMembers] at h ⊢
    obtain ⟨r₁, hr₁, h⟩ := of_bind_ok h
    obtain ⟨k, hk, h⟩ := of_bind_ok h
    obtain ⟨r₂, hr₂, h⟩ := of_bind_ok h
    obtain ⟨v, hv, h⟩ := of_bind_ok h
    have hcolon : skip k.2 ≠ [] := by
      intro hnil
      rw [hnil] at hr₂
      cases hr₂
    split at h
    · cases h
    · next c r hskip =>
      have hsettled : isNumeric c = false := by
        by_cases h125 : c = 125
        · rw [h125]; rfl
        · by_cases h44 : c = 44
          · rw [h44]; rfl
          · rw [if_neg h125, if_neg h44] at h
            cases h
      have hvalue := scanValue_append (t := t) (show n ≤ m by omega) hv
        (Or.inr (settled_of_skip hskip hsettled))
      rw [expect_append hr₁, bind_ok_eq, scanString_append hk, bind_ok_eq,
        skip_append hcolon, expect_append hr₂, bind_ok_eq,
        skip_append (scanValue_ne_nil toFloat hv), hvalue, bind_ok_eq,
        skip_append (by rw [hskip]; exact List.cons_ne_nil _ _), hskip, List.cons_append]
      simp only
      split at h
      · next hend =>
        cases h
        rw [if_pos hend]
      · next hend =>
        rw [if_neg hend]
        split at h
        · next hcomma =>
          rw [if_pos hcomma]
          obtain ⟨p, hp, h⟩ := of_bind_ok h
          cases h
          rw [skip_append (scanMembers_ne_nil toFloat hp), scanMembers_append (by omega) hp]
          rfl
        · cases h

end

-- == reading back

variable {c n : Nat} {v : Json}

theorem skip_stop (h : isStop c) (r : PyStr) : skip (c :: r) = c :: r := by
  rcases h with rfl | rfl | rfl <;> rfl

theorem ends_stop (h : isStop c) (r : PyStr) : Ends (c :: r) :=
  stops_cons (by rcases h with rfl | rfl | rfl <;> rfl)

theorem text_head (d : Json) : ∃ c r, d.text .canonical = c :: r
    ∧ (c == 32 || c == 9 || c == 10 || c == 13) = false ∧ c ≠ 93 ∧ c ≠ 125 := by
  have hnumber : ∀ u : PyStr, u ≠ [] → (∀ c ∈ u, numberChar c = true) → ∃ c r, u = c :: r
      ∧ (c == 32 || c == 9 || c == 10 || c == 13) = false ∧ c ≠ 93 ∧ c ≠ 125 := by
    intro u hne hu
    cases u with
    | nil => exact absurd rfl hne
    | cons c r =>
      have hc := hu c (List.mem_cons_self ..)
      simp only [numberChar, Bool.or_eq_true, Bool.and_eq_true, decide_eq_true_eq, beq_iff_eq] at hc
      refine ⟨c, r, rfl, ?_, by omega, by omega⟩
      simp only [Bool.or_eq_false_iff, beq_eq_false_iff_ne]
      omega
  cases d with
  | null => exact ⟨110, _, rfl, by decide, by decide, by decide⟩
  | bool b =>
    cases b with
    | true => exact ⟨116, _, rfl, by decide, by decide, by decide⟩
    | false => exact ⟨102, _, rfl, by decide, by decide, by decide⟩
  | int n => exact hnumber _ (intRepr_ne_nil n) fun c hc => numberChar_intRepr hc
  | float x =>
    cases x with
    | nan => exact ⟨78, _, rfl, by decide, by decide, by decide⟩
    | infinity => exact ⟨73, _, rfl, by decide, by decide, by decide⟩
    | negInfinity => exact ⟨45, _, rfl, by decide, by decide, by decide⟩
    | finite lit =>
      obtain ⟨hall, c, hc, -⟩ := readFloat_spec lit.spelled
      exact hnumber _ (List.ne_nil_of_mem hc) hall
  | str s => exact ⟨34, _, rfl, by decide, by decide, by decide⟩
  | arr xs => exact ⟨91, _, rfl, by decide, by decide, by decide⟩
  | obj ms => exact ⟨123, _, rfl, by decide, by decide, by decide⟩

theorem skip_text (d : Json) (s : PyStr) :
    skip (d.text .canonical ++ s) = d.text .canonical ++ s := by
  obtain ⟨c, r, h, hspace, -, -⟩ := text_head d
  exact skip_of_head (by rw [h]; rfl) hspace

theorem scanValue_scalar {r : PyStr} (h₁ : c ≠ 34) (h₂ : c ≠ 91)
    (h₃ : c ≠ 123) : scanValue toFloat (n + 1) (c :: r) = scanScalar toFloat (c :: r) := by
  rw [scanValue, if_neg h₁, if_neg h₂, if_neg h₃]

theorem scanValue_number {u s : PyStr} (hne : u ≠ [])
    (hu : ∀ c ∈ u, numberChar c = true) (h : scanNumber toFloat u = .ok (v, []))
    (hs : Ends s) : scanValue toFloat (n + 1) (u ++ s) = .ok (v, s) := by
  rw [← scanScalar_number toFloat hu h hs]
  cases u with
  | nil => exact absurd rfl hne
  | cons c r =>
    have hc := hu c (List.mem_cons_self ..)
    simp only [numberChar, Bool.or_eq_true, Bool.and_eq_true, decide_eq_true_eq, beq_iff_eq] at hc
    exact scanValue_scalar toFloat (by omega) (by omega) (by omega)

theorem scanValue_literal {k : PyStr} (h : (k, v) ∈ literals)
    (s : PyStr) : scanValue toFloat (n + 1) (k ++ s) = .ok (v, s) := by
  rw [← scanScalar_literal toFloat h s]
  simp only [literals, List.mem_cons, List.not_mem_nil, or_false, Prod.mk.injEq] at h
  rcases h with ⟨rfl, rfl⟩ | ⟨rfl, rfl⟩ | ⟨rfl, rfl⟩ | ⟨rfl, rfl⟩ | ⟨rfl, rfl⟩ | ⟨rfl, rfl⟩ <;>
    exact scanValue_scalar toFloat (by decide) (by decide) (by decide)

def itemsText (xs : List Json) : PyStr := joinWith (py ",") (itemTexts .canonical xs)

def membersText (ms : List (PyStr × Json)) : PyStr :=
  joinWith (py ",") (memberTexts .canonical ms)

mutual

theorem scanValue_text : ∀ (d : Json) (n : Nat) (s : PyStr), d.isNormal = true →
    d.isShort = true → d.ReadsFloats toFloat → 2 * (d.text .canonical).length ≤ n → Ends s →
    scanValue toFloat n (d.text .canonical ++ s) = .ok (d, s)
  | d, 0 => by
    intro s _ _ _ hn _
    obtain ⟨c, r, h, -⟩ := text_head d
    rw [h, List.length_cons] at hn
    omega
  | .null, n + 1 => fun s _ _ _ _ _ =>
    scanValue_literal toFloat (k := py "null") (v := .null) (by simp [literals]) s
  | .bool true, n + 1 => fun s _ _ _ _ _ =>
    scanValue_literal toFloat (k := py "true") (v := .bool true) (by simp [literals]) s
  | .bool false, n + 1 => fun s _ _ _ _ _ =>
    scanValue_literal toFloat (k := py "false") (v := .bool false) (by simp [literals]) s
  | .int i, n + 1 => by
    intro s _ hshort _ _ hs
    exact scanValue_number toFloat (intRepr_ne_nil i) (fun _ hc => numberChar_intRepr hc)
      (scanNumber_intRepr toFloat hshort) hs
  | .float .nan, n + 1 => fun s _ _ _ _ _ =>
    scanValue_literal toFloat (k := py "NaN") (v := .float .nan) (by simp [literals]) s
  | .float .infinity, n + 1 => fun s _ _ _ _ _ =>
    scanValue_literal toFloat (k := py "Infinity") (v := .float .infinity) (by simp [literals]) s
  | .float .negInfinity, n + 1 => fun s _ _ _ _ _ =>
    scanValue_literal toFloat (k := py "-Infinity") (v := .float .negInfinity) (by simp [literals]) s
  | .float (.finite lit), n + 1 => by
    intro s _ _ hreads _ hs
    obtain ⟨hall, c, hc, -⟩ := readFloat_spec lit.spelled
    exact scanValue_number toFloat (List.ne_nil_of_mem hc) hall hreads hs
  | .str t, n + 1 => by
    intro s _ _ _ _ _
    have hliteral := scanString_literal t s
    show scanValue toFloat (n + 1) (34 :: (t.flatMap (escapeChar false) ++ [34]) ++ s) = _
    rw [List.cons_append, List.append_assoc, scanValue, if_pos rfl]
    show (scanString (t.flatMap (escapeChar false) ++ 34 :: s) >>= _) = _
    rw [hliteral]
    rfl
  | .arr [], n + 1 => fun _ _ _ _ _ _ => rfl
  | .arr (x :: xs), n + 1 => by
    intro s hnormal hshort hreads hn _
    have hlength : 2 * (itemsText (x :: xs)).length + 1 ≤ n := by
      have : ((Json.arr (x :: xs)).text .canonical).length = (itemsText (x :: xs)).length + 2 := by
        show (91 :: (itemsText (x :: xs) ++ [93])).length = _
        simp
      omega
    obtain ⟨c, r, hc, -, hbracket, -⟩ := text_head x
    have hhead : ∃ r', itemsText (x :: xs) ++ 93 :: s = c :: r' := by
      cases xs with
      | nil => exact ⟨r ++ 93 :: s, by rw [itemsText, itemTexts, hc]; rfl⟩
      | cons y ys =>
        exact ⟨_, by rw [itemsText, itemTexts, itemTexts, joinWith, hc]; rfl⟩
    obtain ⟨r', hr'⟩ := hhead
    have hskip : skip (itemsText (x :: xs) ++ 93 :: s) = itemsText (x :: xs) ++ 93 :: s := by
      cases xs with
      | nil =>
        show skip (x.text .canonical ++ 93 :: s) = _
        rw [skip_text]
        rfl
      | cons y ys =>
        have hassoc : itemsText (x :: y :: ys) ++ 93 :: s
            = x.text .canonical ++ (py "," ++ itemsText (y :: ys) ++ 93 :: s) := by
          rw [itemsText, itemTexts, itemTexts, joinWith]
          simp only [List.append_assoc]
          rfl
        rw [hassoc, skip_text]
    have hitems := scanItems_text (x :: xs) (List.cons_ne_nil _ _) hnormal hshort hreads
      hlength (s := s)
    show scanValue toFloat (n + 1) (91 :: (itemsText (x :: xs) ++ [93]) ++ s) = _
    have hnot : (itemsText (x :: xs) ++ 93 :: s).head? ≠ some 93 := by
      rw [hr']
      simpa using hbracket
    rw [List.cons_append, List.append_assoc, List.singleton_append, scanValue,
      if_neg (by decide), if_pos rfl, hskip, if_neg hnot, hitems]
    rfl
  | .obj [], n + 1 => fun _ _ _ _ _ _ => rfl
  | .obj (m :: ms), n + 1 => by
    intro s hnormal hshort hreads hn _
    have hlength : 2 * (membersText (m :: ms)).length + 1 ≤ n := by
      have : ((Json.obj (m :: ms)).text .canonical).length
          = (membersText (m :: ms)).length + 2 := by
        show (123 :: (membersText (m :: ms) ++ [125])).length = _
        simp
      omega
    rw [Json.isNormal, Bool.and_eq_true, decide_eq_true_eq] at hnormal
    have hhead : ∃ r', membersText (m :: ms) ++ 125 :: s = 34 :: r' := by
      cases ms with
      | nil => exact ⟨_, rfl⟩
      | cons y ys => exact ⟨_, rfl⟩
    obtain ⟨r', hr'⟩ := hhead
    have hmembers := scanMembers_text (m :: ms) (List.cons_ne_nil _ _) hnormal.2 hshort
      hreads hlength (s := s)
    show scanValue toFloat (n + 1) (123 :: (membersText (m :: ms) ++ [125]) ++ s) = _
    have hskip : skip (membersText (m :: ms) ++ 125 :: s) = membersText (m :: ms) ++ 125 :: s := by
      rw [hr']
      rfl
    have hnot : (membersText (m :: ms) ++ 125 :: s).head? ≠ some 125 := by
      rw [hr']
      simp
    rw [List.cons_append, List.append_assoc, List.singleton_append, scanValue,
      if_neg (by decide), if_neg (by decide), if_pos rfl, hskip, if_neg hnot, hmembers,
      bind_ok_eq, dictOf_eq hnormal.1.nodup]

theorem scanItems_text : ∀ (xs : List Json) {n : Nat} {s : PyStr}, xs ≠ [] →
    allNormal xs = true → allShort xs = true → AllReadFloats toFloat xs →
    2 * (itemsText xs).length + 1 ≤ n →
    scanItems toFloat n (itemsText xs ++ 93 :: s) = .ok (xs, s)
  | [], _, _, h, _, _, _, _ => absurd rfl h
  | _ :: _, 0, _, _, _, _, _, hn => absurd hn (by omega)
  | [x], n + 1, s, _, hnormal, hshort, hreads, hn => by
    rw [allNormal, Bool.and_eq_true] at hnormal
    rw [allShort, Bool.and_eq_true] at hshort
    have hx := scanValue_text x n _ hnormal.1 hshort.1 hreads.1
      (by show 2 * (itemsText [x]).length ≤ n; omega)
      (ends_stop stop_bracket s)
    show scanItems toFloat (n + 1) (x.text .canonical ++ 93 :: s) = _
    rw [scanItems, hx, bind_ok_eq]
    rfl
  | x :: y :: ys, n + 1, s, _, hnormal, hshort, hreads, hn => by
    rw [allNormal, Bool.and_eq_true] at hnormal
    rw [allShort, Bool.and_eq_true] at hshort
    have hassoc : itemsText (x :: y :: ys) ++ 93 :: s
        = x.text .canonical ++ 44 :: (itemsText (y :: ys) ++ 93 :: s) := by
      rw [itemsText, itemTexts, itemTexts, joinWith]
      simp only [List.append_assoc]
      rfl
    have hlength : (itemsText (x :: y :: ys)).length
        = (x.text .canonical).length + 1 + (itemsText (y :: ys)).length := by
      have h := congrArg List.length hassoc
      simp only [List.length_append, List.length_cons] at h
      omega
    have hx := scanValue_text x n _ hnormal.1 hshort.1 hreads.1 (by omega)
      (ends_stop stop_comma (itemsText (y :: ys) ++ 93 :: s))
    have hskip : skip (itemsText (y :: ys) ++ 93 :: s) = itemsText (y :: ys) ++ 93 :: s := by
      cases ys with
      | nil =>
        show skip (y.text .canonical ++ 93 :: s) = _
        rw [skip_text]
        rfl
      | cons z zs =>
        have hrest : itemsText (y :: z :: zs) ++ 93 :: s
            = y.text .canonical ++ (py "," ++ itemsText (z :: zs) ++ 93 :: s) := by
          rw [itemsText, itemTexts, itemTexts, joinWith]
          simp only [List.append_assoc]
          rfl
        rw [hrest, skip_text]
    have hys := scanItems_text (y :: ys) (List.cons_ne_nil _ _) hnormal.2 hshort.2
      hreads.2 (n := n) (s := s) (by omega)
    rw [hassoc, scanItems, hx, bind_ok_eq, skip_stop stop_comma]
    simp only [Nat.reduceEqDiff, if_false, if_true, hskip, hys, bind_ok_eq]

theorem scanMembers_text : ∀ (ms : List (PyStr × Json)) {n : Nat} {s : PyStr}, ms ≠ [] →
    allNormalMembers ms = true → allShortMembers ms = true → MembersReadFloats toFloat ms →
    2 * (membersText ms).length + 1 ≤ n →
    scanMembers toFloat n (membersText ms ++ 125 :: s) = .ok (ms, s)
  | [], _, _, h, _, _, _, _ => absurd rfl h
  | _ :: _, 0, _, _, _, _, _, hn => absurd hn (by omega)
  | [(k, v)], n + 1, s, _, hnormal, hshort, hreads, hn => by
    rw [allNormalMembers, Bool.and_eq_true] at hnormal
    rw [allShortMembers, Bool.and_eq_true] at hshort
    have hassoc : membersText [(k, v)] ++ 125 :: s = 34 :: (k.flatMap (escapeChar false)
        ++ 34 :: 58 :: (v.text .canonical ++ 125 :: s)) := by
      show (34 :: k.flatMap (escapeChar false) ++ [34]) ++ [58] ++ v.text .canonical ++ 125 :: s = _
      simp only [List.append_assoc, List.cons_append, List.nil_append]
    have hlength : (v.text .canonical).length ≤ (membersText [(k, v)]).length := by
      have h := congrArg List.length hassoc
      simp only [List.length_append, List.length_cons] at h
      omega
    have hv := scanValue_text v n _ hnormal.1 hshort.1 hreads.1 (by omega) (ends_stop stop_brace s)
    have hkey := scanString_literal k (58 :: (v.text .canonical ++ 125 :: s))
    rw [hassoc, scanMembers]
    simp only [expect, if_true, bind_ok_eq, hkey]
    show (expect 58 (58 :: (v.text .canonical ++ 125 :: s)) >>= _) = _
    simp only [expect, if_true, bind_ok_eq, skip_text, hv, skip_stop stop_brace]
  | (k, v) :: m :: ms, n + 1, s, _, hnormal, hshort, hreads, hn => by
    rw [allNormalMembers, Bool.and_eq_true] at hnormal
    rw [allShortMembers, Bool.and_eq_true] at hshort
    have hassoc : membersText ((k, v) :: m :: ms) ++ 125 :: s
        = 34 :: (k.flatMap (escapeChar false) ++ 34 :: 58 :: (v.text .canonical
          ++ 44 :: (membersText (m :: ms) ++ 125 :: s))) := by
      show ((34 :: k.flatMap (escapeChar false) ++ [34]) ++ [58] ++ v.text .canonical)
        ++ [44] ++ membersText (m :: ms) ++ 125 :: s = _
      simp only [List.append_assoc, List.cons_append, List.nil_append]
    have hlength : (v.text .canonical).length + 1 + (membersText (m :: ms)).length
        ≤ (membersText ((k, v) :: m :: ms)).length := by
      have h := congrArg List.length hassoc
      simp only [List.length_append, List.length_cons] at h
      omega
    have hv := scanValue_text v n _ hnormal.1 hshort.1 hreads.1 (by omega)
      (ends_stop stop_comma (membersText (m :: ms) ++ 125 :: s))
    have hkey := scanString_literal k (58 :: (v.text .canonical
      ++ 44 :: (membersText (m :: ms) ++ 125 :: s)))
    have hskip : skip (membersText (m :: ms) ++ 125 :: s) = membersText (m :: ms) ++ 125 :: s := by
      cases ms <;> rfl
    have hms := scanMembers_text (m :: ms) (List.cons_ne_nil _ _) hnormal.2 hshort.2
      hreads.2 (n := n) (s := s) (by omega)
    rw [hassoc, scanMembers]
    simp only [expect, if_true, bind_ok_eq, hkey]
    show (expect 58 (58 :: (v.text .canonical
      ++ 44 :: (membersText (m :: ms) ++ 125 :: s))) >>= _) = _
    simp only [expect, if_true, bind_ok_eq, skip_text, hv, skip_stop stop_comma,
      Nat.reduceEqDiff, if_false, hskip, hms]

end

-- == texts

theorem loadsText_text {d : Json} (h : d.Scannable toFloat) {s : PyStr}
    (hs : s = [] ∨ s = [10]) : loadsText toFloat (d.text .canonical ++ s) = .ok d := by
  have hends : Ends s := by
    rcases hs with rfl | rfl
    · exact stops_nil
    · exact stops_cons rfl
  have hread := scanValue_text toFloat d (2 * (d.text .canonical ++ s).length + 2) s h.normal
    h.short h.floats (by rw [List.length_append]; omega) hends
  have hbom : (d.text .canonical ++ s).head? ≠ some 0xFEFF := by
    cases d with
    | bool b => cases b <;> exact fun hhead => absurd (Option.some.inj hhead) (by decide)
    | int n =>
      intro hhead
      obtain ⟨c, r, hc⟩ := List.exists_cons_of_ne_nil (intRepr_ne_nil n)
      have hdigit := mem_intRepr (n := n) (hc ▸ List.mem_cons_self ..)
      have hfirst : ((Json.int n).text .canonical ++ s).head? = some c := by
        show (intRepr n ++ s).head? = _
        rw [hc]
        rfl
      rw [hfirst] at hhead
      cases hhead
      omega
    | float x =>
      cases x with
      | finite lit =>
        intro hhead
        obtain ⟨hall, c, hc, -⟩ := readFloat_spec lit.spelled
        obtain ⟨c, r, hr⟩ := List.exists_cons_of_ne_nil (List.ne_nil_of_mem hc)
        have hdigit := hall c (hr ▸ List.mem_cons_self ..)
        have hfirst : ((Json.float (.finite lit)).text .canonical ++ s).head? = some c := by
          show (lit.repr.map Fin.val ++ s).head? = _
          rw [hr]
          rfl
        rw [hfirst] at hhead
        cases hhead
        simp [numberChar] at hdigit
      | _ => exact fun hhead => absurd (Option.some.inj hhead) (by decide)
    | _ => exact fun hhead => absurd (Option.some.inj hhead) (by decide)
  unfold loadsText
  rw [if_neg hbom, skip_text, hread, bind_ok_eq]
  rcases hs with rfl | rfl <;> rfl

theorem loadsText_cut {ms : List (PyStr × Json)} (h : (Json.obj ms).Scannable toFloat)
    {u t : PyStr} (hcut : u ++ t = (Json.obj ms).text .canonical) (hne : t ≠ []) (v : Json) :
    loadsText toFloat u ≠ .ok v := by
  intro hv
  cases u with
  | nil => cases hv
  | cons c u =>
  have hc : c = 123 := Option.some.inj (congrArg List.head? hcut)
  subst hc
  unfold loadsText at hv
  rw [if_neg (by simp)] at hv
  obtain ⟨p, hp, -⟩ := of_bind_ok hv
  change scanValue toFloat (2 * (123 :: u).length + 2) (123 :: u) = .ok p at hp
  have hclosed : p.1.closed = true := by
    rw [scanValue, if_neg (by decide), if_neg (by decide), if_pos rfl] at hp
    split at hp
    · cases hp
      rfl
    · obtain ⟨q, -, hp⟩ := of_bind_ok hp
      cases hp
      rfl
  -- with the rest behind it the value would be the whole text's, which leaves nothing
  have hmore := scanValue_append toFloat (t := t) (m := 2 * ((123 :: u) ++ t).length + 2)
    (by rw [List.length_append]; omega) hp (Or.inl hclosed)
  have hwhole := scanValue_text toFloat (.obj ms) (2 * ((123 :: u) ++ t).length + 2) []
    h.normal h.short h.floats (by rw [hcut]; omega) stops_nil
  rw [List.append_nil, ← hcut, hmore] at hwhole
  injection hwhole with hwhole
  injection hwhole with _ hrest
  exact hne (List.append_eq_nil_iff.mp hrest).2

end Reading

end Py
