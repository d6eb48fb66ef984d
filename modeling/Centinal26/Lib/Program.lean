/-
Programs as sequences of atomic steps on a shared state, with exceptions.
-/
import Mathlib.Order.Basic

namespace Steps

/-- A program over the shared state `σ`: a value, an exception, or one atomic step. -/
inductive Prog (κ ε σ α : Type) : Type
  | ret (a : α)
  | raise (e : ε)
  | atomic (label : κ) (upd : σ → σ) (next : σ → Prog κ ε σ α)

/-- The statements inside one atomic step: from a state to an outcome and the state left behind. -/
def Block (ε σ α : Type) : Type := σ → Except ε α × σ

namespace Block

variable {ε σ α β : Type}

protected def pure (a : α) : Block ε σ α := fun s => (.ok a, s)

protected def bind (m : Block ε σ α) (f : α → Block ε σ β) : Block ε σ β :=
  fun s => match m s with
    | (.ok a, s') => f a s'
    | (.error e, s') => (.error e, s')

protected def tryCatch (m : Block ε σ α) (h : ε → Block ε σ α) : Block ε σ α :=
  fun s => match m s with
    | (.ok a, s') => (.ok a, s')
    | (.error e, s') => h e s'

instance : Monad (Block ε σ) where
  pure := Block.pure
  bind := Block.bind

instance : MonadExceptOf ε (Block ε σ) where
  throw e := fun s => (.error e, s)
  tryCatch := Block.tryCatch

@[simp] theorem pure_apply (a : α) (s : σ) : (pure a : Block ε σ α) s = (.ok a, s) := rfl

theorem bind_apply (m : Block ε σ α) (f : α → Block ε σ β) (s : σ) : (m >>= f) s = match m s with
      | (.ok a, s') => f a s'
      | (.error e, s') => (.error e, s') := rfl

variable {m : Block ε σ α} {f : α → Block ε σ β} {s s' : σ}

theorem bind_ok {a : α} (h : m s = (.ok a, s')) : (m >>= f) s = f a s' := by
  rw [bind_apply, h]

theorem bind_error {e : ε} (h : m s = (.error e, s')) : (m >>= f) s = (.error e, s') := by
  rw [bind_apply, h]

-- == counters

section Counter

variable {N : Type} [Preorder N] {count : σ → N}

/-- However the block ends, a counter of the state has not gone back. -/
def Counts (count : σ → N) (m : Block ε σ α) : Prop :=
  ∀ s, count s ≤ count (m s).2

theorem Counts.of_eq {m : Block ε σ α} (h : ∀ s, count (m s).2 = count s) :
    m.Counts count := fun s => le_of_eq (h s).symm

theorem Counts.pure (a : α) : (pure a : Block ε σ α).Counts count :=
  .of_eq fun _ => rfl

theorem Counts.throw (e : ε) : (throw e : Block ε σ α).Counts count :=
  .of_eq fun _ => rfl

theorem Counts.bind {m : Block ε σ α} {f : α → Block ε σ β}
    (hm : m.Counts count) (hf : ∀ a, (f a).Counts count) : (m >>= f).Counts count := by
  intro s
  have hfirst := hm s
  rw [bind_apply]
  split
  · next a s' heq =>
    rw [heq] at hfirst
    exact le_trans hfirst (hf a s')
  · next heq =>
    rw [heq] at hfirst
    exact hfirst

end Counter

end Block

namespace Prog

variable {κ ε σ γ α β : Type}

/-- The program that continues with the outcome of a block. -/
def ofExcept : Except ε α → Prog κ ε σ α
  | .ok a => ret a
  | .error e => raise e

/-- One atomic step made of the block's statements. -/
def block (label : κ) (m : Block ε σ α) : Prog κ ε σ α :=
  atomic label (fun s => (m s).2) fun s => ofExcept (m s).1

protected def bind : Prog κ ε σ α → (α → Prog κ ε σ β) → Prog κ ε σ β
  | ret a, f => f a
  | raise e, _ => raise e
  | atomic l u k, f => atomic l u fun s => (k s).bind f

/-- `try p except h`: the handler takes over at the exception, in the state
the exception left. -/
protected def tryCatch : Prog κ ε σ α → (ε → Prog κ ε σ α) → Prog κ ε σ α
  | ret a, _ => ret a
  | raise e, h => h e
  | atomic l u k, h => atomic l u fun s => (k s).tryCatch h

instance : Monad (Prog κ ε σ) where
  pure := ret
  bind := Prog.bind

instance : MonadExceptOf ε (Prog κ ε σ) where
  throw := raise
  tryCatch := Prog.tryCatch

/-- The program, on a part of a larger state. -/
def within {κ' ε' σ' : Type} (f : κ → κ') (h : ε → ε') (get : σ' → σ)
    (set : σ → σ' → σ') : Prog κ ε σ α → Prog κ' ε' σ' α
  | ret a => ret a
  | raise e => raise (h e)
  | atomic l u k => atomic (f l) (fun s => set (u (get s)) s) fun s =>
    (k (get s)).within f h get set

def run : Prog κ ε σ α → σ → Except ε α × σ
  | ret a, s => (.ok a, s)
  | raise e, s => (.error e, s)
  | atomic _ u k, s => (k s).run (u s)

-- == run laws

@[simp] theorem run_ofExcept (r : Except ε α) (s : σ) :
    (ofExcept r : Prog κ ε σ α).run s = (r, s) := by
  cases r <;> rfl

@[simp] theorem run_block (l : κ) (m : Block ε σ α) (s : σ) :
    (block l m : Prog κ ε σ α).run s = m s := by
  show (ofExcept (m s).1 : Prog κ ε σ α).run (m s).2 = _
  rw [run_ofExcept]

/-- A sequence runs its first part and, if that returns, the rest from the
state it left. -/
theorem run_bind (p : Prog κ ε σ α) (f : α → Prog κ ε σ β) (s : σ) :
    (p >>= f).run s = match p.run s with
      | (.ok a, s') => (f a).run s'
      | (.error e, s') => (.error e, s') := by
  show (p.bind f).run s = _
  induction p generalizing s with
  | ret a => rfl
  | raise e => rfl
  | atomic l u k ih => exact ih s (u s)

variable {p : Prog κ ε σ α} {f : α → Prog κ ε σ β} {s s' : σ}

theorem run_bind_ok {a : α} (h : p.run s = (.ok a, s')) : (p >>= f).run s = (f a).run s' := by
  rw [run_bind, h]

theorem run_bind_error
    {e : ε} (h : p.run s = (.error e, s')) : (p >>= f).run s = (.error e, s') := by
  rw [run_bind, h]

theorem run_tryCatch (p : Prog κ ε σ α) (h : ε → Prog κ ε σ α) (s : σ) :
    (p.tryCatch h).run s = match p.run s with
      | (.ok a, s') => (.ok a, s')
      | (.error e, s') => (h e).run s' := by
  induction p generalizing s with
  | ret a => rfl
  | raise e => rfl
  | atomic l u k ih => exact ih s (u s)

theorem run_map (f : α → β) (p : Prog κ ε σ α) (s : σ) :
    (f <$> p).run s = ((p.run s).1.map f, (p.run s).2) := by
  show (p >>= fun a => pure (f a)).run s = _
  rw [run_bind]
  split
  · next hrun => rw [hrun]; rfl
  · next hrun => rw [hrun]; rfl

-- == counters

section Counter

variable {N : Type} [Preorder N] {count : σ → N}

/-- However the program ends, run alone, a counter of the state has not gone
back. -/
def Counts (count : σ → N) (p : Prog κ ε σ α) : Prop :=
  ∀ s, count s ≤ count (p.run s).2

theorem Counts.pure (a : α) : (pure a : Prog κ ε σ α).Counts count :=
  fun _ => le_refl _

theorem Counts.raise (e : ε) : (raise e : Prog κ ε σ α).Counts count :=
  fun _ => le_refl _

theorem Counts.block {l : κ} {m : Block ε σ α} (h : m.Counts count) :
    (Prog.block l m : Prog κ ε σ α).Counts count := fun s => by
  rw [run_block]
  exact h s

theorem Counts.bind {p : Prog κ ε σ α} {f : α → Prog κ ε σ β}
    (hp : p.Counts count) (hf : ∀ a, (f a).Counts count) : (p >>= f).Counts count := by
  intro s
  have hfirst := hp s
  rw [run_bind]
  split
  · next a s' heq =>
    rw [heq] at hfirst
    exact le_trans hfirst (hf a s')
  · next heq =>
    rw [heq] at hfirst
    exact hfirst

theorem Counts.map (f : α → β) {p : Prog κ ε σ α} (h : p.Counts count) :
    (f <$> p).Counts count := fun s => by
  rw [run_map]
  exact h s

end Counter

-- == outlines

section Outline

variable (A : γ → κ → σ → Prop) (P : γ → κ → σ → σ → Prop)
  (next : γ → κ → σ → σ → γ)

/-- The proof outline of a program (module header), with what holds of a
value returned and of an exception raised. -/
def Sat (Q : γ → α → Prop) (E : γ → ε → Prop) : γ → Prog κ ε σ α → Prop
  | g, ret a => Q g a
  | g, raise e => E g e
  | g, atomic l u k => ∀ s, A g l s → P g l s (u s) ∧ Sat Q E (next g l s (u s)) (k s)

variable {A P next}

variable {Q : γ → α → Prop} {E : γ → ε → Prop} {p : Prog κ ε σ α} {g : γ}

theorem Sat.bind {R : γ → β → Prop} {f : α → Prog κ ε σ β} (hp : p.Sat A P next Q E g)
    (hf : ∀ g a, Q g a → (f a).Sat A P next R E g) : (p >>= f).Sat A P next R E g := by
  show (p.bind f).Sat A P next R E g
  induction p generalizing g with
  | ret a => exact hf g a hp
  | raise e => exact hp
  | atomic l u k ih =>
    intro s hs
    obtain ⟨hP, hk⟩ := hp s hs
    exact ⟨hP, ih s hk⟩

theorem Sat.imp {Q' : γ → α → Prop} {E' : γ → ε → Prop} (h : p.Sat A P next Q E g)
    (hQ : ∀ g a, Q g a → Q' g a) (hE : ∀ g e, E g e → E' g e) : p.Sat A P next Q' E' g := by
  induction p generalizing g with
  | ret a => exact hQ g a h
  | raise e => exact hE g e h
  | atomic l u k ih =>
    intro s hs
    obtain ⟨hP, hk⟩ := h s hs
    exact ⟨hP, ih s hk⟩

theorem sat_true {next : γ → κ → σ → σ → γ} :
    p.Sat (fun _ _ _ => True) (fun _ _ _ _ => True) next (fun _ _ => True) (fun _ _ => True) g := by
  induction p generalizing g with
  | ret a => exact trivial
  | raise e => exact trivial
  | atomic l u k ih => exact fun s _ => ⟨trivial, ih s⟩

/-- The outline of one block: the guarantee of the step, and what holds of
its outcome. -/
theorem Sat.of_block {l : κ} {m : Block ε σ α}
    (h : ∀ s, A g l s → P g l s (m s).2 ∧ match (m s).1 with
      | .ok a => Q (next g l s (m s).2) a
      | .error e => E (next g l s (m s).2) e) :
    (Prog.block l m : Prog κ ε σ α).Sat A P next Q E g := by
  intro s hs
  obtain ⟨hP, hQ⟩ := h s hs
  refine ⟨hP, ?_⟩
  show (ofExcept (m s).1 : Prog κ ε σ α).Sat A P next Q E _
  cases hr : (m s).1 with
  | ok a => rw [hr] at hQ; exact hQ
  | error e => rw [hr] at hQ; exact hQ

/-- The outline of a part is one of the program it is part of: the part's own
guarantee holds of what it sees of the state. -/
theorem Sat.within {κ' ε' σ' γ' : Type} {A' : γ' → κ' → σ' → Prop} {P' : γ' → κ' → σ' → σ' → Prop}
    {F : γ' → ε' → Prop} {f : κ → κ'} {h : ε → ε'} {get : σ' → σ}
    {set : σ → σ' → σ'} {g' : γ'}
    (hp : p.Sat A P (fun g _ _ _ => g) Q E g) (hA : ∀ l s, A' g' (f l) s → A g l (get s))
    (hP : ∀ l s s₁, A' g' (f l) s → P g l (get s) s₁ → P' g' (f l) s (set s₁ s))
    (hE : ∀ e, E g e → F g' (h e)) :
    (p.within f h get set).Sat A' P' (fun g _ _ _ => g) (fun _ => Q g) F g' := by
  induction p with
  | ret a => exact hp
  | raise e => exact hE e hp
  | atomic l u k ih =>
    intro s hs
    obtain ⟨hstep, hk⟩ := hp (get s) (hA l s hs)
    exact ⟨hP l s _ hs hstep, ih (get s) hk⟩

end Outline

end Prog

-- == transactions

section Transactions

variable {ε σ α : Type}

/-- The statements of a transaction: what it returns and the state it leaves, or an
exception. -/
abbrev Tx (ε σ α : Type) := σ → Except ε (α × σ)

/-- The transaction as a block: if it raises, it is rolled back. -/
def Tx.commit (f : Tx ε σ α) : Block ε σ α := fun s =>
  match f s with
  | .ok (a, s') => (.ok a, s')
  | .error e => (.error e, s)

theorem Tx.commit_cases (f : Tx ε σ α) (s : σ) :
    (∃ a s', f s = .ok (a, s') ∧ f.commit s = (.ok a, s'))
      ∨ ∃ e, f s = .error e ∧ f.commit s = (.error e, s) := by
  unfold commit
  cases h : f s with
  | ok out => exact Or.inl ⟨out.1, out.2, rfl, rfl⟩
  | error e => exact Or.inr ⟨e, rfl, rfl⟩

end Transactions

end Steps
