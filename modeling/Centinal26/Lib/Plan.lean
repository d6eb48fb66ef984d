/-
Plans: lists of actions a block performs one after the other, each committed by
itself, up to the first that cannot be made or is refused.
-/
import Centinal26.Lib.Program

namespace Plan

open Steps

variable {ε ξ σ ρ α β γ τ : Type}

section Definitions

variable (act : ρ → Block ε σ β) (takes : σ → ρ → Bool)

/-- The actions of a plan that are performed. -/
def taken : σ → List (Except ξ ρ) → List ρ
  | s, .ok r :: rest => if takes s r then r :: taken (act r s).2 rest else []
  | _, _ => []

def after (s : σ) (rs : List ρ) : σ := rs.foldl (fun s r => (act r s).2) s

/-- Each action is taken when its turn comes. -/
def InTurn : σ → List ρ → Prop
  | _, [] => True
  | s, r :: rs => takes s r = true ∧ InTurn (act r s).2 rs

/-- An action that is taken returns, and one that is not raises and shows
nothing of it. -/
structure Lawful (seen : σ → τ) : Prop where
  accepts : ∀ s r, takes s r = true → ∃ b s', act r s = (.ok b, s')
  refuses : ∀ s r, takes s r = false → ∃ e s', act r s = (.error e, s') ∧ seen s' = seen s

/-- The block performs the plan. -/
structure Runs (seen : σ → τ) (m : Block ε σ α) (s : σ)
    (ps : List (Except ξ ρ)) : Prop where
  whole : (taken act takes s ps).length = ps.length →
    ∃ a, m s = (.ok a, after act s (taken act takes s ps))
  part : (taken act takes s ps).length ≠ ps.length →
    ∃ e s', m s = (.error e, s') ∧ seen s' = seen (after act s (taken act takes s ps))

end Definitions

variable {act : ρ → Block ε σ β} {takes : σ → ρ → Bool} {seen : σ → τ}

@[simp] theorem after_nil (s : σ) : after act s [] = s := rfl

@[simp] theorem after_cons (s : σ) (r : ρ) (rs : List ρ) :
    after act s (r :: rs) = after act (act r s).2 rs := rfl

theorem after_append (s : σ) (rs ts : List ρ) :
    after act s (rs ++ ts) = after act (after act s rs) ts := List.foldl_append

@[simp] theorem taken_nil (s : σ) : taken act takes s ([] : List (Except ξ ρ)) = [] := rfl

theorem taken_ok (s : σ) (r : ρ) (ps : List (Except ξ ρ)) : taken act takes s (.ok r :: ps)
      = if takes s r then r :: taken act takes (act r s).2 ps else [] := rfl

theorem taken_error (s : σ) (e : ξ) (ps : List (Except ξ ρ)) :
    taken act takes s (.error e :: ps) = [] := rfl

theorem taken_initial (s : σ) (ps : List (Except ξ ρ)) : (taken act takes s ps).map .ok <+: ps := by
  induction ps generalizing s with
  | nil => exact List.prefix_rfl
  | cons p ps ih =>
    cases p with
    | error e => exact List.nil_prefix
    | ok r =>
      rw [taken_ok]
      split
      · rw [List.map_cons]
        exact (List.prefix_cons_inj _).mpr (ih _)
      · exact List.nil_prefix

theorem taken_length_le (s : σ) (ps : List (Except ξ ρ)) :
    (taken act takes s ps).length ≤ ps.length := by
  have hprefix : (taken act takes s ps).map .ok <+: ps := taken_initial s ps
  have := hprefix.length_le
  rwa [List.length_map] at this

variable {s : σ} {ps : List (Except ξ ρ)}

theorem mem_of_taken {r : ρ} (h : r ∈ taken act takes s ps) : .ok r ∈ ps :=
  (taken_initial s ps).subset (List.mem_map_of_mem h)

theorem map_taken (h : (taken act takes s ps).length = ps.length) :
    (taken act takes s ps).map .ok = ps :=
  (taken_initial s ps).eq_of_length (by rw [List.length_map, h])

theorem taken_inTurn (s : σ) (ps : List (Except ξ ρ)) :
    InTurn act takes s (taken act takes s ps) := by
  induction ps generalizing s with
  | nil => exact trivial
  | cons p ps ih =>
    cases p with
    | error e => exact trivial
    | ok r =>
      rw [taken_ok]
      split
      · next h => exact ⟨h, ih _⟩
      · exact trivial

theorem taken_append (s : σ) (ps qs : List (Except ξ ρ)) : taken act takes s (ps ++ qs)
      = taken act takes s ps ++ if (taken act takes s ps).length = ps.length then
          taken act takes (after act s (taken act takes s ps)) qs
        else [] := by
  induction ps generalizing s with
  | nil => rfl
  | cons p ps ih =>
    cases p with
    | error e => rfl
    | ok r =>
      rw [List.cons_append, taken_ok, taken_ok]
      split
      · rw [ih, List.cons_append, after_cons, List.length_cons, List.length_cons]
        simp only [Nat.add_right_cancel_iff]
      · rfl

-- == running

namespace Runs

theorem read {m : Block ε σ α} {s : σ} {a : α} (h : m s = (.ok a, s)) :
    Runs act takes seen m s ([] : List (Except ξ ρ)) :=
  ⟨fun _ => ⟨a, h⟩, fun h => absurd rfl h⟩

theorem pure (s : σ) (a : α) :
    Runs act takes seen (pure a : Block ε σ α) s ([] : List (Except ξ ρ)) :=
  read rfl

theorem throw (s : σ) (e : ε) (x : ξ) (ps : List (Except ξ ρ)) :
    Runs act takes seen (throw e : Block ε σ α) s (.error x :: ps) := by
  refine ⟨fun h => ?_, fun _ => ⟨e, s, rfl, by rw [taken_error]; rfl⟩⟩
  rw [taken_error] at h
  cases h

theorem one (hlaw : Lawful act takes seen) (s : σ) (r : ρ) :
    Runs act takes seen (act r) s ([.ok r] : List (Except ξ ρ)) := by
  cases htakes : takes s r with
  | true =>
    have htaken : taken act takes s ([.ok r] : List (Except ξ ρ)) = [r] := by
      rw [taken_ok, if_pos htakes, taken_nil]
    obtain ⟨b, s', hact⟩ := hlaw.accepts s r htakes
    refine ⟨fun _ => ⟨b, ?_⟩, fun h => ?_⟩
    · rw [htaken, after_cons, after_nil, hact]
    · rw [htaken] at h
      exact absurd rfl h
  | false =>
    have htaken : taken act takes s ([.ok r] : List (Except ξ ρ)) = [] := by
      rw [taken_ok, htakes, if_neg (by decide)]
    obtain ⟨e, s', hact, hseen⟩ := hlaw.refuses s r htakes
    refine ⟨fun h => ?_, fun _ => ⟨e, s', hact, by rw [htaken, hseen]; rfl⟩⟩
    rw [htaken] at h
    cases h

theorem bind {m : Block ε σ α} {f : α → Block ε σ γ} {s : σ}
    {p q : List (Except ξ ρ)} (hm : Runs act takes seen m s p)
    (hf : ∀ a, Runs act takes seen (f a) (after act s (taken act takes s p)) q) :
    Runs act takes seen (m >>= f) s (p ++ q) := by
  by_cases hwhole : (taken act takes s p).length = p.length
  · obtain ⟨a, hrun⟩ := hm.whole hwhole
    have htaken : taken act takes s (p ++ q) = taken act takes s p
        ++ taken act takes (after act s (taken act takes s p)) q := by
      rw [taken_append, if_pos hwhole]
    have hlength : (taken act takes s (p ++ q)).length = (p ++ q).length
        ↔ (taken act takes (after act s (taken act takes s p)) q).length = q.length := by
      rw [htaken, List.length_append, List.length_append, hwhole]
      exact Nat.add_left_cancel_iff
    have hbind : (m >>= f) s = f a (after act s (taken act takes s p)) := by
      rw [Block.bind_apply, hrun]
    constructor
    · intro h
      rw [hbind, htaken, after_append]
      exact (hf a).whole (hlength.mp h)
    · intro h
      rw [hbind, htaken, after_append]
      exact (hf a).part (fun h' => h (hlength.mpr h'))
  · obtain ⟨e, s', hrun, hseen⟩ := hm.part hwhole
    have htaken : taken act takes s (p ++ q) = taken act takes s p := by
      rw [taken_append, if_neg hwhole, List.append_nil]
    have hbind : (m >>= f) s = (.error e, s') := by
      rw [Block.bind_apply, hrun]
    constructor
    · intro h
      have hle : (taken act takes s p).length ≤ p.length := taken_length_le s p
      rw [htaken, List.length_append] at h
      omega
    · intro _
      rw [hbind, htaken]
      exact ⟨e, s', rfl, hseen⟩

end Runs

end Plan
