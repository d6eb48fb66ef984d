/-
Codes that can be read back: from a text that begins with the code of a value,
the value and the rest of the text are determined.
-/
import Mathlib.Data.List.Basic

namespace Codes

variable {α β : Type}

/-- The rest of a text is empty or begins with a stop. -/
def Stops (stop : β → Prop) (s : List β) : Prop := ∀ c r, s = c :: r → stop c

/-- A text that begins with a character of a class. -/
def Starts (p : β → Prop) (s : List β) : Prop := ∃ c r, s = c :: r ∧ p c

/-- The value and the rest are determined by the text. -/
def Splits (stop : β → Prop) (f : α → List β) (P : α → Prop) (a : α) : Prop :=
  ∀ b, P b → ∀ s t, Stops stop s → Stops stop t → f a ++ s = f b ++ t → a = b ∧ s = t

variable {stop p q : β → Prop} {s t u : List β}

theorem stops_nil : Stops stop [] := by
  intro c r h
  cases h

theorem stops_cons {c : β} {r : List β} (h : stop c) : Stops stop (c :: r) := by
  intro d r' heq
  cases heq
  exact h

theorem Starts.imp (h : Starts p s) (hpq : ∀ c, p c → q c) : Starts q s := by
  obtain ⟨c, r, rfl, hc⟩ := h
  exact ⟨c, r, rfl, hpq c hc⟩

theorem Starts.append (h : Starts p s) (t : List β) : Starts p (s ++ t) := by
  obtain ⟨c, r, rfl, hc⟩ := h
  exact ⟨c, r ++ t, rfl, hc⟩

theorem Starts.ne (hs : Starts p s) (ht : Starts q t) (hpq : ∀ c, p c → ¬ q c) : s ≠ t := by
  obtain ⟨c, r, rfl, hc⟩ := hs
  obtain ⟨d, r', rfl, hd⟩ := ht
  intro heq
  cases heq
  exact hpq c hc hd

theorem Starts.append_ne {q : β} (h : Starts (· ≠ q) u) (s t : List β) : u ++ s ≠ q :: t :=
  (h.append s).ne ⟨q, t, rfl, rfl⟩ fun _ hne heq => hne heq.symm

theorem span_split {v : List β} (hu : ∀ c ∈ u, p c)
    (hv : ∀ c ∈ v, p c) (hs : Stops (fun c => ¬ p c) s)
    (ht : Stops (fun c => ¬ p c) t) (h : u ++ s = v ++ t) : u = v ∧ s = t := by
  induction u generalizing v with
  | nil =>
    cases v with
    | nil => exact ⟨rfl, h⟩
    | cons d v => exact absurd (hv d (List.mem_cons_self ..)) (hs d _ h)
  | cons c u ih =>
    cases v with
    | nil => exact absurd (hu c (List.mem_cons_self ..)) (ht c _ h.symm)
    | cons d v =>
      obtain ⟨hcd, htail⟩ := List.cons.inj h
      obtain ⟨huv, hst⟩ := ih (fun e he => hu e (List.mem_cons_of_mem _ he))
        (fun e he => hv e (List.mem_cons_of_mem _ he)) htail
      exact ⟨by rw [hcd, huv], hst⟩

theorem terminated_split {f : α → List β} {q : β} {P : α → Prop}
    (hstarts : ∀ a, P a → Starts (· ≠ q) (f a))
    (hf : ∀ a b s t, P a → P b → f a ++ s = f b ++ t → a = b ∧ s = t)
    {xs ys : List α} (hxs : ∀ x ∈ xs, P x) (hys : ∀ y ∈ ys, P y)
    (h : xs.flatMap f ++ q :: s = ys.flatMap f ++ q :: t) : xs = ys ∧ s = t := by
  induction xs generalizing ys with
  | nil =>
    cases ys with
    | nil => exact ⟨rfl, (List.cons.inj h).2⟩
    | cons y ys =>
      rw [List.flatMap_cons, List.append_assoc] at h
      exact absurd h.symm ((hstarts y (hys y (List.mem_cons_self ..))).append_ne _ _)
  | cons x xs ih =>
    cases ys with
    | nil =>
      rw [List.flatMap_cons, List.append_assoc] at h
      exact absurd h ((hstarts x (hxs x (List.mem_cons_self ..))).append_ne _ _)
    | cons y ys =>
      rw [List.flatMap_cons, List.flatMap_cons, List.append_assoc, List.append_assoc] at h
      obtain ⟨hxy, hrest⟩ := hf x y _ _ (hxs x (List.mem_cons_self ..))
        (hys y (List.mem_cons_self ..)) h
      obtain ⟨htail, hst⟩ := ih (fun z hz => hxs z (List.mem_cons_of_mem _ hz))
        (fun z hz => hys z (List.mem_cons_of_mem _ hz)) hrest
      exact ⟨by rw [hxy, htail], hst⟩

-- == separated sequences

/-- The codes of a sequence, with a separator between them. -/
def separated (sep : β) (f : α → List β) : List α → List β
  | [] => []
  | x :: xs => f x ++ xs.flatMap fun y => sep :: f y

section Separated

variable {stop : β → Prop} {f : α → List β} {P : α → Prop} {sep close : β}
  (hsep : stop sep) (hclose : stop close)

include hsep hclose

theorem stops_tail (xs : List α) (s : List β) :
    Stops stop ((xs.flatMap fun y => sep :: f y) ++ close :: s) := by
  cases xs with
  | nil => exact stops_cons hclose
  | cons x xs => exact stops_cons hsep

variable (hne : sep ≠ close)

include hne

variable {xs ys : List α} {s t : List β}

theorem tail_split (hxs : ∀ x ∈ xs, Splits stop f P x)
    (hys : ∀ y ∈ ys, P y) (h : (xs.flatMap fun y => sep :: f y) ++ close :: s
      = (ys.flatMap fun y => sep :: f y) ++ close :: t) : xs = ys ∧ s = t := by
  induction xs generalizing ys with
  | nil =>
    cases ys with
    | nil => exact ⟨rfl, (List.cons.inj h).2⟩
    | cons y ys => exact absurd (List.cons.inj h).1.symm hne
  | cons x xs ih =>
    cases ys with
    | nil => exact absurd (List.cons.inj h).1 hne
    | cons y ys =>
      simp only [List.flatMap_cons, List.cons_append, List.append_assoc,
        List.cons.injEq, true_and] at h
      obtain ⟨hxy, hrest⟩ := hxs x (List.mem_cons_self ..) y
        (hys y (List.mem_cons_self ..)) _ _ (stops_tail hsep hclose xs s)
        (stops_tail hsep hclose ys t) h
      obtain ⟨htail, hst⟩ := ih (fun z hz => hxs z (List.mem_cons_of_mem _ hz))
        (fun z hz => hys z (List.mem_cons_of_mem _ hz)) hrest
      exact ⟨by rw [hxy, htail], hst⟩

theorem separated_split (hstarts : ∀ a, P a → Starts (· ≠ close) (f a))
    (hxs : ∀ x ∈ xs, P x) (hys : ∀ y ∈ ys, P y)
    (hsplits : ∀ x ∈ xs, Splits stop f P x)
    (h : separated sep f xs ++ close :: s = separated sep f ys ++ close :: t) :
    xs = ys ∧ s = t := by
  cases xs with
  | nil =>
    cases ys with
    | nil => exact ⟨rfl, (List.cons.inj h).2⟩
    | cons y ys =>
      rw [separated, separated, List.append_assoc] at h
      exact absurd h.symm ((hstarts y (hys y (List.mem_cons_self ..))).append_ne _ _)
  | cons x xs =>
    cases ys with
    | nil =>
      rw [separated, separated, List.append_assoc] at h
      exact absurd h ((hstarts x (hxs x (List.mem_cons_self ..))).append_ne _ _)
    | cons y ys =>
      rw [separated, separated, List.append_assoc, List.append_assoc] at h
      obtain ⟨hxy, hrest⟩ := hsplits x (List.mem_cons_self ..) y
        (hys y (List.mem_cons_self ..)) _ _ (stops_tail hsep hclose xs s)
        (stops_tail hsep hclose ys t) h
      obtain ⟨htail, hst⟩ := tail_split hsep hclose hne
        (fun z hz => hsplits z (List.mem_cons_of_mem _ hz))
        (fun z hz => hys z (List.mem_cons_of_mem _ hz)) hrest
      exact ⟨by rw [hxy, htail], hst⟩

end Separated

end Codes
