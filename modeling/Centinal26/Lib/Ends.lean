/-
How a program run alone ends: with a value, or with an exception, each with
what holds of the state it leaves. `Ends` starts from one given state, so a
condition on the start is an ordinary hypothesis, and a relation between start
and end needs no auxiliary variable. It is a structure, so that nothing runs
the program just to look at the statement.
-/
import Centinal26.Lib.Program

namespace Steps

variable {ε σ α β κ : Type}

structure Block.Ends (m : Block ε σ α) (s : σ) (Q : α → σ → Prop)
    (X : ε → σ → Prop) : Prop where
  run : match m s with
    | (.ok a, s') => Q a s'
    | (.error e, s') => X e s'

namespace Block

variable {m : Block ε σ α} {s : σ} {Q : α → σ → Prop} {X : ε → σ → Prop}

theorem Ends.throw {e : ε} (h : X e s) : (throw e : Block ε σ α).Ends s Q X := ⟨h⟩

theorem Ends.of_state {R : σ → Prop} (h : R (m s).2) : m.Ends s (fun _ => R) fun _ => R := by
  constructor
  split
  · next heq => rw [heq] at h; exact h
  · next heq => rw [heq] at h; exact h

theorem Ends.value {R : α → Prop} (h : m.Ends s (fun a _ => R a) X) {a : α}
    (ha : (m s).1 = .ok a) : R a := by
  obtain ⟨hrun⟩ := h
  revert hrun ha
  generalize m s = out
  obtain ⟨r, s'⟩ := out
  rintro rfl hrun
  exact hrun

theorem Ends.imp {Q' : α → σ → Prop} {X' : ε → σ → Prop} (h : m.Ends s Q X)
    (hQ : ∀ a s', Q a s' → Q' a s') (hX : ∀ e s', X e s' → X' e s') : m.Ends s Q' X' := by
  obtain ⟨hrun⟩ := h
  constructor
  split at hrun
  · exact hQ _ _ hrun
  · exact hX _ _ hrun

variable {f : α → Block ε σ β} {P : σ → Prop}

theorem Ends.bind {R : β → σ → Prop}
    (hm : m.Ends s Q X) (hf : ∀ a s', Q a s' → (f a).Ends s' R X) : (m >>= f).Ends s R X := by
  obtain ⟨hrun⟩ := hm
  constructor
  rw [bind_apply]
  cases heq : m s with
  | mk r s' =>
    rw [heq] at hrun
    cases r with
    | ok a => exact (hf a s' hrun).run
    | error e => exact hrun

-- == preservation

/-- However the block ends, it keeps a property of the state. -/
def Keeps (P : σ → Prop) (m : Block ε σ α) : Prop := ∀ s, P s → P (m s).2

theorem Keeps.pure (a : α) : (pure a : Block ε σ α).Keeps P := fun _ h => h

theorem Keeps.throw (e : ε) : (throw e : Block ε σ α).Keeps P := fun _ h => h

theorem Keeps.after (hf : ∀ a, (f a).Keeps P) (hm : P (m s).2) : P ((m >>= f) s).2 := by
  rw [bind_apply]
  cases heq : m s with
  | mk r s' =>
    rw [heq] at hm
    cases r with
    | ok a => exact hf a s' hm
    | error e => exact hm

theorem Keeps.bind (hm : m.Keeps P) (hf : ∀ a, (f a).Keeps P) : (m >>= f).Keeps P :=
  fun s hs => Keeps.after hf (hm s hs)

end Block

namespace Prog

variable {p : Prog κ ε σ α} {s : σ} {Q : α → σ → Prop} {X : ε → σ → Prop}

/-- The program, run alone, ends in one of the two ways. -/
structure Ends (p : Prog κ ε σ α) (s : σ) (Q : α → σ → Prop)
    (X : ε → σ → Prop) : Prop where
  run : match p.run s with
    | (.ok a, s') => Q a s'
    | (.error e, s') => X e s'

theorem Ends.ret {a : α} (h : Q a s) : (pure a : Prog κ ε σ α).Ends s Q X := ⟨h⟩

theorem Ends.raise {e : ε} (h : X e s) : (Prog.raise e : Prog κ ε σ α).Ends s Q X := ⟨h⟩

theorem Ends.block {l : κ} {m : Block ε σ α} (h : m.Ends s Q X) :
    (Prog.block l m : Prog κ ε σ α).Ends s Q X := by
  constructor
  rw [run_block]
  exact h.run

theorem Ends.imp {Q' : α → σ → Prop} {X' : ε → σ → Prop} (h : p.Ends s Q X)
    (hQ : ∀ a s', Q a s' → Q' a s') (hX : ∀ e s', X e s' → X' e s') : p.Ends s Q' X' := by
  obtain ⟨hrun⟩ := h
  constructor
  split at hrun
  · exact hQ _ _ hrun
  · exact hX _ _ hrun

theorem Ends.bind {R : β → σ → Prop} {f : α → Prog κ ε σ β}
    (hp : p.Ends s Q X) (hf : ∀ a s', Q a s' → (f a).Ends s' R X) : (p >>= f).Ends s R X := by
  obtain ⟨hrun⟩ := hp
  constructor
  rw [run_bind]
  cases heq : p.run s with
  | mk r s' =>
    rw [heq] at hrun
    cases r with
    | ok a => exact (hf a s' hrun).run
    | error e => exact hrun

theorem Ends.tryCatch {X' : ε → σ → Prop} {h : ε → Prog κ ε σ α}
    (hp : p.Ends s Q X) (hh : ∀ e s', X e s' → (h e).Ends s' Q X') :
    (p.tryCatch h).Ends s Q X' := by
  obtain ⟨hrun⟩ := hp
  constructor
  rw [run_tryCatch]
  cases heq : p.run s with
  | mk r s' =>
    rw [heq] at hrun
    cases r with
    | ok a => exact hrun
    | error e => exact (hh e s' hrun).run

theorem Ends.state {R : σ → Prop} (h : p.Ends s (fun _ => R) fun _ => R) : R (p.run s).2 := by
  obtain ⟨hrun⟩ := h
  split at hrun
  · next heq => rw [heq]; exact hrun
  · next heq => rw [heq]; exact hrun

end Prog

end Steps
