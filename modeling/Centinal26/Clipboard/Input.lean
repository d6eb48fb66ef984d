/-
What the clipboard autorun takes from a clipboard text: the lines of a marked text without its
fence and its marker.
-/
import Centinal26.Ingest.Extract

namespace Centinal26.Clipboard

open Py
open Ingest (strip stripBy splitlines linesFrom isLineBreak)

-- == texts

/-- `raw.replace("\r\n", "\n").replace("\r", "\n")`. -/
def newlines : PyStr → PyStr
  | [] => []
  | 13 :: 10 :: cs => 10 :: newlines cs
  | 13 :: cs => 10 :: newlines cs
  | c :: cs => c :: newlines cs

def joinLines (lines : List PyStr) : PyStr := joinWith [10] lines

def stripNewlines (s : PyStr) : PyStr := stripBy (· == 10) s

def includes (part : PyStr) : PyStr → Bool
  | [] => part.isEmpty
  | c :: rest => part.isPrefixOf (c :: rest) || includes part rest

def MARKER : PyStr := py "# FROST-AUTORUN:1"

def fence : PyStr := py "```"

-- == input

/-- The text in a fence, if there is one around it. -/
def unfence (stripped : PyStr) : PyStr :=
  if fence.isPrefixOf stripped then
    let lines := splitlines stripped
    if 3 ≤ lines.length ∧ strip (lines.getLast?.getD []) = fence then
      stripNewlines (joinLines lines.tail.dropLast)
    else stripped
  else stripped

def isMarker (line : PyStr) : Bool :=
  strip line == MARKER || (MARKER ++ [32]).isPrefixOf (strip line)

def shellOf (marker : PyStr) : PyStr :=
  if includes (py "shell=python") marker || includes (py "lang=python") marker then py "python"
  else py "bash"

def bodyOf (lines : List PyStr) : PyStr := stripNewlines (joinLines lines) ++ [10]

/-- `canonical_input(raw)`: the interpreter and the body, or the message of the `ValueError`. -/
def canonicalInput (raw : PyStr) : Except String (PyStr × PyStr) :=
  let lines := splitlines (unfence (strip (newlines raw)))
  match lines.dropWhile isBlank with
  | [] => .error "clipboard is empty"
  | line :: rest =>
    if isMarker line then
      let body := bodyOf (lines.takeWhile isBlank ++ rest)
      if isBlank body then .error "marked clipboard contains no executable body"
      else if body.contains 0 then .error "NUL byte rejected"
      else .ok (shellOf (strip line), body)
    else .error "clipboard text is not marked for Frost autorun"

-- == lines

/-- A text whose lines end with newlines, whatever characters it has besides. -/
def OnlyNewlines (s : PyStr) : Prop := ∀ c ∈ s, isLineBreak c = true → c = 10

variable {c : Nat} {cs line : PyStr}

theorem OnlyNewlines.tail (h : OnlyNewlines (c :: cs)) : OnlyNewlines cs :=
  fun d hd => h d (List.mem_cons_of_mem c hd)

theorem linesFrom_newline (line cs : PyStr) :
    linesFrom line (10 :: cs) = line.reverse :: linesFrom [] cs := by
  rw [linesFrom]
  · rfl
  · intro _ h
    exact absurd h (by decide)

theorem linesFrom_other (h : isLineBreak c = false) (line cs : PyStr) :
    linesFrom line (c :: cs) = linesFrom (c :: line) cs := by
  rw [linesFrom]
  · rw [h]
    rfl
  · rintro _ rfl
    cases h

theorem linesFrom_ne_nil (h : line ≠ [] ∨ cs ≠ []) : linesFrom line cs ≠ [] := by
  fun_induction linesFrom line cs with
  | case1 line hempty =>
    rcases h with h | h
    · exact absurd (List.isEmpty_iff.mp hempty) h
    · exact absurd rfl h
  | case2 line hempty => exact List.cons_ne_nil _ _
  | case3 line cs ih => exact List.cons_ne_nil _ _
  | case4 line c cs hnot hbreak ih => exact List.cons_ne_nil _ _
  | case5 line c cs hnot hbreak ih => exact ih (.inl (List.cons_ne_nil _ _))

theorem joinWith_cons {sep x : PyStr} {rest : List PyStr} (h : rest ≠ []) :
    joinWith sep (x :: rest) = x ++ sep ++ joinWith sep rest := by
  cases rest with
  | nil => exact absurd rfl h
  | cons y rest => rfl

theorem joinLines_linesFrom (h : OnlyNewlines cs) (hlast : cs.getLast? ≠ some 10) :
    joinLines (linesFrom line cs) = line.reverse ++ cs := by
  induction cs generalizing line with
  | nil =>
    cases line with
    | nil => rfl
    | cons c line => simp [linesFrom, joinLines, joinWith]
  | cons c cs ih =>
    by_cases hc : c = 10
    · have hne : cs ≠ [] := by
        rintro rfl
        exact hlast (by rw [hc]; rfl)
      have hrest : cs.getLast? ≠ some 10 := by
        rwa [List.getLast?_cons, List.getLast?_eq_some_getLast hne] at *
      rw [hc, linesFrom_newline, joinLines, joinWith_cons (linesFrom_ne_nil (.inr hne)),
        ← joinLines, ih h.tail hrest]
      simp
    · have hbreak : isLineBreak c = false := by
        rw [← Bool.not_eq_true]
        exact fun hb => hc (h c List.mem_cons_self hb)
      rw [linesFrom_other hbreak]
      by_cases hne : cs = []
      · rw [hne]
        simp [linesFrom, joinLines, joinWith]
      · have hrest : cs.getLast? ≠ some 10 := by
          rwa [List.getLast?_cons, List.getLast?_eq_some_getLast hne] at *
        rw [ih h.tail hrest]
        simp

variable {l s t : PyStr} {p : Nat → Bool} {lines : List PyStr}

theorem newline_not_mem (hline : 10 ∉ line) (h : l ∈ linesFrom line cs) : 10 ∉ l := by
  fun_induction linesFrom line cs with
  | case1 line hempty => cases h
  | case2 line hempty =>
    rw [List.mem_singleton.mp h, List.mem_reverse]
    exact hline
  | case3 line cs ih =>
    rcases List.mem_cons.mp h with rfl | h
    · rwa [List.mem_reverse]
    · exact ih (by simp) h
  | case4 line c cs hnot hbreak ih =>
    rcases List.mem_cons.mp h with rfl | h
    · rwa [List.mem_reverse]
    · exact ih (by simp) h
  | case5 line c cs hnot hbreak ih =>
    refine ih (fun hmem => ?_) h
    rcases List.mem_cons.mp hmem with rfl | hmem
    · exact hbreak rfl
    · exact hline hmem

-- == cleaning

/-- The lines between a fence and its end. -/
def Fenced (t : PyStr) (lines : List PyStr) : Prop :=
  ∃ first last, t = joinLines (first :: lines ++ [last]) ∧ (∀ l ∈ first :: lines ++ [last], 10 ∉ l)
    ∧ fence.isPrefixOf t = true ∧ strip last = fence

/-- A text, or what is in the fence around it. -/
def Unfenced (t inner : PyStr) : Prop :=
  inner = t ∨ ∃ lines, Fenced t lines ∧ inner = stripNewlines (joinLines lines)

/-- The body of a clipboard text: it is marked in its first line that is not blank, and the body
is the text without that line and without the fence. -/
def Cleaned (raw body : PyStr) : Prop :=
  ∃ inner before marker rest, Unfenced (strip (newlines raw)) inner
    ∧ inner = joinLines (before ++ marker :: rest)
    ∧ (∀ l ∈ before ++ marker :: rest, 10 ∉ l)
    ∧ (∀ l ∈ before, isBlank l = true) ∧ isMarker marker = true
    ∧ body = stripNewlines (joinLines (before ++ rest)) ++ [10]

theorem mem_stripBy (h : c ∈ stripBy p s) : c ∈ s := by
  unfold stripBy at h
  rw [List.mem_reverse] at h
  have hfront := (List.dropWhile_sublist p).subset h
  rw [List.mem_reverse] at hfront
  exact (List.dropWhile_sublist p).subset hfront

theorem getLast?_stripBy (hc : p c = true) : (stripBy p s).getLast? ≠ some c := by
  intro h
  unfold stripBy at h
  rw [List.getLast?_reverse] at h
  have hnot := List.head?_dropWhile_not p (s.dropWhile p).reverse
  rw [h] at hnot
  have hfalse : p c = false := hnot
  rw [hc] at hfalse
  cases hfalse

theorem mem_joinLines (h : c ∈ joinLines lines) : c = 10 ∨ ∃ l ∈ lines, c ∈ l := by
  induction lines with
  | nil => cases h
  | cons l rest ih =>
    cases rest with
    | nil => exact .inr ⟨l, List.mem_singleton.mpr rfl, h⟩
    | cons m rest =>
      have hcons : joinLines (l :: m :: rest) = l ++ [10] ++ joinLines (m :: rest) := rfl
      rw [hcons] at h
      rcases List.mem_append.mp h with h | h
      · rcases List.mem_append.mp h with h | h
        · exact .inr ⟨l, List.mem_cons_self, h⟩
        · exact .inl (List.mem_singleton.mp h)
      · rcases ih h with h | ⟨l', hl', hc⟩
        · exact .inl h
        · exact .inr ⟨l', List.mem_cons_of_mem l hl', hc⟩

theorem mem_of_mem_line (h : l ∈ linesFrom line cs) (hc : c ∈ l) : c ∈ line ∨ c ∈ cs := by
  fun_induction linesFrom line cs with
  | case1 line hempty => cases h
  | case2 line hempty =>
    rw [List.mem_singleton.mp h, List.mem_reverse] at hc
    exact .inl hc
  | case3 line cs ih =>
    rcases List.mem_cons.mp h with rfl | h
    · exact .inl (List.mem_reverse.mp hc)
    · rcases ih h with hc | hc
      · cases hc
      · exact .inr (by simp [hc])
  | case4 line c' cs hnot hbreak ih =>
    rcases List.mem_cons.mp h with rfl | h
    · exact .inl (List.mem_reverse.mp hc)
    · rcases ih h with hc | hc
      · cases hc
      · exact .inr (by simp [hc])
  | case5 line c' cs hnot hbreak ih =>
    rcases ih h with hc | hc
    · rcases List.mem_cons.mp hc with rfl | hc
      · exact .inr List.mem_cons_self
      · exact .inl hc
    · exact .inr (List.mem_cons_of_mem c' hc)

theorem splitlines_eq (h : OnlyNewlines t) (hlast : t.getLast? ≠ some 10) :
    t = joinLines (splitlines t) ∧ ∀ l ∈ splitlines t, 10 ∉ l := by
  have hjoin : joinLines (linesFrom [] t) = [] ++ t := joinLines_linesFrom h hlast
  exact ⟨hjoin.symm, fun l hl => newline_not_mem List.not_mem_nil hl⟩

theorem ends_of_length (h : 2 ≤ lines.length) :
    ∃ first middle last, lines = first :: middle ++ [last] := by
  cases lines with
  | nil => cases h
  | cons first rest =>
    have hrest : rest ≠ [] := by
      rintro rfl
      simp at h
    exact ⟨first, rest.dropLast, rest.getLast hrest, by
      rw [List.cons_append, List.dropLast_concat_getLast]⟩

theorem unfence_spec (h : OnlyNewlines t) (hlast : t.getLast? ≠ some 10) :
    Unfenced t (unfence t) ∧ OnlyNewlines (unfence t) ∧ (unfence t).getLast? ≠ some 10 := by
  unfold unfence
  split
  · next hfence =>
    dsimp only
    split
    · next hlines =>
      obtain ⟨hlength, hend⟩ := hlines
      obtain ⟨hjoin, hnewline⟩ := splitlines_eq h hlast
      obtain ⟨first, lines, last, hparts⟩ := ends_of_length (by omega : 2 ≤ (splitlines t).length)
      rw [hparts] at hjoin hnewline hend ⊢
      have hmid : (first :: lines ++ [last]).tail.dropLast = lines := by simp
      have hlast' : (first :: lines ++ [last]).getLast?.getD [] = last := by
        rw [List.getLast?_concat]
        rfl
      rw [hmid]
      rw [hlast'] at hend
      refine ⟨.inr ⟨lines, ⟨first, last, hjoin, hnewline, hfence, hend⟩, rfl⟩, ?_,
        getLast?_stripBy (by decide)⟩
      intro c hc hbreak
      rcases mem_joinLines (mem_stripBy hc) with hc | ⟨l, hl, hc⟩
      · exact hc
      · have hmem : l ∈ splitlines t := by rw [hparts]; simp [hl]
        rcases mem_of_mem_line hmem hc with hc | hc
        · cases hc
        · exact h c hc hbreak
    · exact ⟨.inl rfl, h, hlast⟩
  · exact ⟨.inl rfl, h, hlast⟩

theorem canonicalInput_cleaned {raw shell body : PyStr} (h : OnlyNewlines (newlines raw))
    (hok : canonicalInput raw = .ok (shell, body)) : Cleaned raw body := by
  have hstripped : OnlyNewlines (strip (newlines raw)) := fun c hc => h c (mem_stripBy hc)
  obtain ⟨hunfenced, honly, hlast⟩ := unfence_spec hstripped (getLast?_stripBy (by decide))
  obtain ⟨hjoin, hnewline⟩ := splitlines_eq honly hlast
  unfold canonicalInput at hok
  dsimp only at hok
  split at hok
  · cases hok
  · next marker rest hdrop =>
    split at hok
    · next hmarker =>
      split at hok
      · cases hok
      · split at hok
        · cases hok
        · obtain ⟨-, rfl⟩ := Prod.mk.inj (Except.ok.inj hok)
          have hlines := List.takeWhile_append_dropWhile (p := isBlank)
            (l := splitlines (unfence (strip (newlines raw))))
          rw [hdrop] at hlines
          rw [← hlines] at hjoin hnewline
          exact ⟨_, _, marker, rest, hunfenced, hjoin, hnewline,
            List.all_eq_true.mp List.all_takeWhile, hmarker, rfl⟩
    · cases hok

end Centinal26.Clipboard
