/-
A program alone on its state, to its end or cut off.
-/
import Centinal26.Lib.Program

namespace Steps.Prog

variable {κ ε σ α β : Type}

/-- The steps of the program, alone on the state. -/
def steps : Prog κ ε σ α → σ → List (κ × σ)
  | ret _, _ => []
  | raise _, _ => []
  | atomic l u k, s => (l, s) :: (k s).steps (u s)

/-- The state after the first `n` steps. -/
def cut : Nat → Prog κ ε σ α → σ → σ
  | n + 1, atomic _ u k, s => cut n (k s) (u s)
  | _, _, s => s

/-- What holds along a program (module header). -/
def Through (A : κ → σ → Prop) (I : σ → Prop) (Q : α → σ → Prop) (E : ε → σ → Prop) :
    Prog κ ε σ α → σ → Prop
  | ret a, s => Q a s
  | raise e, s => E e s
  | atomic l u k, s => A l s → I (u s) ∧ (k s).Through A I Q E (u s)

variable {A : κ → σ → Prop} {I J : σ → Prop} {Q Q' : α → σ → Prop} {E : ε → σ → Prop}

-- == the readings

theorem Through.run {p : Prog κ ε σ α} {s : σ} (hA : ∀ v ∈ p.steps s, A v.1 v.2)
    (h : p.Through A I Q E s) :
    match p.run s with
    | (.ok a, s') => Q a s'
    | (.error e, s') => E e s' := by
  induction p generalizing s with
  | ret a => exact h
  | raise e => exact h
  | atomic l u k ih =>
    obtain ⟨-, hk⟩ := h (hA (l, s) (List.mem_cons_self ..))
    exact ih s (fun v hv => hA v (List.mem_cons_of_mem _ hv)) hk

theorem Through.cut {p : Prog κ ε σ α} {s : σ} (n : Nat) (hs : I s)
    (hA : ∀ v ∈ (p.steps s).take n, A v.1 v.2) (h : p.Through A I Q E s) : I (p.cut n s) := by
  induction p generalizing s n with
  | ret a => cases n <;> exact hs
  | raise e => cases n <;> exact hs
  | atomic l u k ih =>
    cases n with
    | zero => exact hs
    | succ n =>
      obtain ⟨hI, hk⟩ := h (hA (l, s) (List.mem_cons_self ..))
      exact ih s n hI (fun v hv => hA v (List.mem_cons_of_mem _ hv)) hk

-- == what is left

section Run

variable {p : Prog κ ε σ α} {f : α → Prog κ ε σ β} {s : σ}

/-- A sequence leaves what its rest leaves, or what its first part does where it
raises. -/
theorem run_bind_leaves (hp : J (p.run s).2)
    (hf : ∀ a s', p.run s = (.ok a, s') → J s' → J ((f a).run s').2) : J ((p >>= f).run s).2 := by
  rw [run_bind]
  split
  · next a s' heq =>
    rw [heq] at hp
    exact hf a s' heq hp
  · next heq =>
    rw [heq] at hp
    exact hp

theorem run_bind_ok_inv {s' : σ} {b : β} (h : (p >>= f).run s = (.ok b, s')) :
    ∃ a v, p.run s = (.ok a, v) ∧ (f a).run v = (.ok b, s') := by
  rw [run_bind] at h
  split at h
  · next a v heq => exact ⟨a, v, heq, h⟩
  · cases h

end Run

-- == rules

theorem Through.bind {R : β → σ → Prop} {p : Prog κ ε σ α} {f : α → Prog κ ε σ β}
    {s : σ} (hp : p.Through A I Q E s) (hf : ∀ a s, Q a s → (f a).Through A I R E s) :
    (p >>= f).Through A I R E s := by
  show (p.bind f).Through A I R E s
  induction p generalizing s with
  | ret a => exact hf a s hp
  | raise e => exact hp
  | atomic l u k ih => exact fun hl => ⟨(hp hl).1, ih s (hp hl).2⟩

theorem Through.imp {F : ε → σ → Prop} {p : Prog κ ε σ α} {s : σ}
    (h : p.Through A J Q E s) (hI : ∀ s, J s → I s) (hQ : ∀ a s, Q a s → Q' a s)
    (hE : ∀ e s, E e s → F e s) : p.Through A I Q' F s := by
  induction p generalizing s with
  | ret a => exact hQ a s h
  | raise e => exact hE e s h
  | atomic l u k ih => exact fun hl => ⟨hI _ (h hl).1, ih s (h hl).2⟩

theorem Through.block {l : κ} {m : Block ε σ α} {s : σ} (h : A l s → I (m s).2 ∧ match (m s).1 with
      | .ok a => Q a (m s).2
      | .error e => E e (m s).2) :
    (Prog.block l m : Prog κ ε σ α).Through A I Q E s := by
  intro hl
  obtain ⟨hI, hout⟩ := h hl
  refine ⟨hI, ?_⟩
  show (ofExcept (m s).1 : Prog κ ε σ α).Through A I Q E _
  cases hr : (m s).1 with
  | ok a => rw [hr] at hout; exact hout
  | error e => rw [hr] at hout; exact hout

theorem Through.within {κ' ε' σ' : Type} {A : κ' → σ' → Prop} {I : σ' → Prop}
    {f : κ → κ'} {h : ε → ε'} {get : σ' → σ} {set : σ → σ' → σ'}
    (hI : ∀ s₁ s, I s → I (set s₁ s)) (p : Prog κ ε σ α) {s : σ'} (hs : I s) :
    (p.within f h get set).Through A I (fun _ => I) (fun _ => I) s := by
  induction p generalizing s with
  | ret a => exact hs
  | raise e => exact hs
  | atomic l u k ih => exact fun _ => ⟨hI _ _ hs, ih (get s) (hI _ _ hs)⟩

end Steps.Prog
