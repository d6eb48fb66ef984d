/-
Past-time properties of a history, the list of what has happened, oldest
first: something happened and nothing has undone it since, or something holds of
each element and those before it.
-/
import Mathlib.Data.List.Induction

namespace List

variable {α : Type} {P Q : α → Prop}

theorem concat_cut {past pre post : List α} {a b : α} (h : past ++ [a] = pre ++ b :: post) :
    (post = [] ∧ b = a ∧ pre = past) ∨ ∃ post', post = post' ++ [a] ∧ past = pre ++ b :: post' := by
  rcases List.eq_nil_or_concat post with rfl | ⟨post', last, rfl⟩
  · left
    obtain ⟨hpast, hlast⟩ := List.append_inj' h rfl
    cases hlast
    exact ⟨rfl, rfl, hpast.symm⟩
  · right
    rw [List.concat_eq_append, ← List.cons_append, ← List.append_assoc] at h
    obtain ⟨hpast, hlast⟩ := List.append_inj' h rfl
    cases hlast
    exact ⟨post', List.concat_eq_append, hpast⟩

theorem countP_concat (p : α → Bool) (past : List α) (a : α) :
    (past ++ [a]).countP p = past.countP p + if p a = true then 1 else 0 := by
  rw [List.countP_append, List.countP_singleton]

/-- Some element satisfies `P`, and none after it satisfies `Q`. -/
def Since (P Q : α → Prop) (xs : List α) : Prop :=
  ∃ pre a post, xs = pre ++ a :: post ∧ P a ∧ ∀ b ∈ post, ¬ Q b

theorem not_since_nil : ¬ Since P Q [] := by
  rintro ⟨pre, a, post, h, _⟩
  simp at h

variable {xs : List α} {x : α} {R : List α → α → Prop}

/-- It holds after one more event if the event is such a one, or if it held
before and the event does not undo it. -/
theorem since_concat : Since P Q (xs ++ [x]) ↔ P x ∨ (¬ Q x ∧ Since P Q xs) := by
  constructor
  · rintro ⟨pre, a, post, heq, ha, hpost⟩
    rcases concat_cut heq with ⟨rfl, rfl, -⟩ | ⟨post', rfl, rfl⟩
    · exact Or.inl ha
    · refine Or.inr ⟨hpost x (by simp), pre, a, post', rfl, ha, fun c hc => ?_⟩
      exact hpost c (by simp [hc])
  · rintro (hx | ⟨hq, pre, a, post, rfl, ha, hpost⟩)
    · exact ⟨xs, x, [], rfl, hx, nofun⟩
    · refine ⟨pre, a, post ++ [x], by simp, ha, fun b hb => ?_⟩
      rcases List.mem_append.mp hb with hb | hb
      · exact hpost b hb
      · rw [List.mem_singleton.mp hb]
        exact hq

theorem Since.exists (h : Since P Q xs) : ∃ a ∈ xs, P a := by
  obtain ⟨pre, a, post, rfl, ha, _⟩ := h
  exact ⟨a, by simp, ha⟩

theorem Since.imp {P' Q' : α → Prop} (h : Since P Q xs)
    (hp : ∀ a, P a → P' a) (hq : ∀ a, Q' a → Q a) : Since P' Q' xs := by
  obtain ⟨pre, a, post, heq, ha, hpost⟩ := h
  exact ⟨pre, a, post, heq, hp a ha, fun b hb hb' => hpost b hb (hq b hb')⟩

-- == throughout

/-- Each element stands to those before it as `R` says. -/
def Throughout (R : List α → α → Prop) (xs : List α) : Prop :=
  ∀ past x rest, xs = past ++ x :: rest → R past x

theorem throughout_nil : Throughout R [] := by
  intro past x rest h
  simp at h

theorem throughout_concat : Throughout R (xs ++ [x]) ↔ Throughout R xs ∧ R xs x := by
  constructor
  · intro h
    refine ⟨fun past y rest heq => h past y (rest ++ [x]) ?_, h xs x [] rfl⟩
    rw [heq, List.append_assoc, List.cons_append]
  · rintro ⟨h, hx⟩ past y rest heq
    rcases concat_cut heq with ⟨rfl, rfl, rfl⟩ | ⟨rest', rfl, hxs⟩
    · exact hx
    · exact h past y rest' hxs

end List
