/-
Pools of programs interleaving on one shared state, with crashes.
-/
import Centinal26.Lib.Machine
import Centinal26.Lib.Program

namespace Steps

/-- A busy process: what is left of its program, and its ghost value. -/
structure Thread (κ ε σ α γ : Type) where
  ghost : γ
  prog : Prog κ ε σ α

/-- The shared state and the processes. -/
structure Pool (κ ε σ α γ : Type) where
  shared : σ
  threads : Nat → Option (Thread κ ε σ α γ)

/-- What happens next. -/
inductive Sched (χ : Type) : Type
  | spawn (i : Nat) (call : χ)
  | advance (i : Nat)
  | crash (i : Nat)

/-- What a scheduled event did: nothing worth recording, one atomic step of
process `i` (with its label and the ghost value it started from), or the
hand-over of process `i`'s result. -/
inductive Event (κ ε α γ : Type) : Type
  | quiet
  | stepped (i : Nat) (label : κ) (ghost : γ)
  | returned (i : Nat) (result : Except ε α)

namespace Pool

variable {κ ε σ α γ χ : Type}

def idle (s : σ) : Pool κ ε σ α γ := ⟨s, fun _ => none⟩

def setThread (p : Pool κ ε σ α γ) (i : Nat) (t : Option (Thread κ ε σ α γ)) : Pool κ ε σ α γ :=
  { p with threads := fun j => if j = i then t else p.threads j }

variable (start : Nat → χ → Prog κ ε σ α) (ghost₀ : Nat → χ → σ → γ)
  (next : γ → κ → σ → σ → γ) (onCrash : Nat → σ → σ)

def step : Sched χ → Pool κ ε σ α γ → Event κ ε α γ × Pool κ ε σ α γ
  | .spawn i c, p =>
    match p.threads i with
    | none => (.quiet, p.setThread i (some ⟨ghost₀ i c p.shared, start i c⟩))
    | some _ => (.quiet, p)
  | .advance i, p =>
    match p.threads i with
    | none => (.quiet, p)
    | some ⟨_, .ret a⟩ => (.returned i (.ok a), p.setThread i none)
    | some ⟨_, .raise e⟩ => (.returned i (.error e), p.setThread i none)
    | some ⟨g, .atomic l u k⟩ =>
      (.stepped i l g, { p with shared := u p.shared }.setThread i
          (some ⟨next g l p.shared (u p.shared), k p.shared⟩))
  | .crash i, p =>
    (.quiet, { p with shared := onCrash i p.shared }.setThread i none)

/-- Every busy process is somewhere along an outline. -/
def AllSat (A : γ → κ → σ → Prop) (P : γ → κ → σ → σ → Prop)
    (Q : γ → α → Prop) (E : γ → ε → Prop) (p : Pool κ ε σ α γ) : Prop :=
  ∀ i t, p.threads i = some t → t.prog.Sat A P next Q E t.ghost

variable {A : γ → κ → σ → Prop} {P : γ → κ → σ → σ → Prop}
  {Q : γ → α → Prop} {E : γ → ε → Prop}

variable {i : Nat} {e : Machine.Entry (Sched χ) (Event κ ε α γ) (Pool κ ε σ α γ)}

theorem AllSat.setThread {p : Pool κ ε σ α γ} (h : AllSat next A P Q E p)
    {s : σ} {t : Option (Thread κ ε σ α γ)}
    (ht : ∀ t', t = some t' → t'.prog.Sat A P next Q E t'.ghost) :
    AllSat next A P Q E ({ p with shared := s }.setThread i t) := by
  intro j t' hj
  simp only [Pool.setThread] at hj
  split at hj
  · exact ht t' hj
  · exact h j t' hj

/-- The entries of a pool's trace whose step starts from a state that meets
the assumption. -/
def Meets (A : γ → κ → σ → Prop)
    (e : Machine.Entry (Sched χ) (Event κ ε α γ) (Pool κ ε σ α γ)) : Prop :=
  ∀ i l g, e.output = .stepped i l g → A g l e.before.shared

theorem sat_step (hstart : ∀ i c s, (start i c).Sat A P next Q E (ghost₀ i c s))
   
    (hv : e.Valid (step start ghost₀ next onCrash)) (hA : Meets A e)
    (h : AllSat next A P Q E e.before) : AllSat next A P Q E e.after := by
  obtain ⟨c, p, o, p'⟩ := e
  have hstep : step start ghost₀ next onCrash c p = (o, p') := hv
  have hp : AllSat next A P Q E p := h
  show AllSat next A P Q E p'
  cases c with
  | spawn i c =>
    simp only [step] at hstep
    split at hstep
    · cases hstep
      exact hp.setThread next (s := p.shared) fun t' ht' => by cases ht'; exact hstart i c p.shared
    · cases hstep
      exact hp
  | advance i =>
    simp only [step] at hstep
    split at hstep
    · cases hstep
      exact hp
    · cases hstep
      exact hp.setThread next (s := p.shared) fun _ h => by cases h
    · cases hstep
      exact hp.setThread next (s := p.shared) fun _ h => by cases h
    · next g l u k hi =>
      cases hstep
      have hsat := (hp i _ hi) p.shared (hA i l g rfl)
      exact hp.setThread next fun t' ht' => by cases ht'; exact hsat.2
  | crash i =>
    simp only [step] at hstep
    cases hstep
    exact hp.setThread next fun _ h => by cases h

theorem step_guarantee (hv : e.Valid (step start ghost₀ next onCrash)) (hA : Meets A e)
    (h : AllSat next A P Q E e.before) {l : κ} {g : γ} (ho : e.output = .stepped i l g) :
    P g l e.before.shared e.after.shared := by
  obtain ⟨c, p, o, p'⟩ := e
  have hstep : step start ghost₀ next onCrash c p = (o, p') := hv
  have hp : AllSat next A P Q E p := h
  show P g l p.shared p'.shared
  replace ho : o = .stepped i l g := ho
  subst ho
  cases c with
  | spawn j c =>
    simp only [step] at hstep
    split at hstep <;> cases hstep
  | advance j =>
    simp only [step] at hstep
    split at hstep
    · cases hstep
    · cases hstep
    · cases hstep
    · next hi =>
      cases hstep
      exact ((hp _ _ hi) p.shared (hA _ _ _ rfl)).1
  | crash j =>
    simp only [step] at hstep
    cases hstep

theorem outcome_of_returned
   
    (hv : e.Valid (step start ghost₀ next onCrash))
    (h : AllSat next A P Q E e.before) {r : Except ε α}
    (ho : e.output = .returned i r) :
    ∃ t, e.before.threads i = some t ∧ match r with
      | .ok a => Q t.ghost a
      | .error x => E t.ghost x := by
  obtain ⟨c, p, o, p'⟩ := e
  have hstep : step start ghost₀ next onCrash c p = (o, p') := hv
  have hp : AllSat next A P Q E p := h
  replace ho : o = .returned i r := ho
  subst ho
  cases c with
  | spawn j c =>
    simp only [step] at hstep
    split at hstep <;> cases hstep
  | advance j =>
    simp only [step] at hstep
    split at hstep
    · cases hstep
    · next hi =>
      cases hstep
      exact ⟨_, hi, hp _ _ hi⟩
    · next hi =>
      cases hstep
      exact ⟨_, hi, hp _ _ hi⟩
    · cases hstep
  | crash j =>
    simp only [step] at hstep
    cases hstep

theorem raise_of_returned (hv : e.Valid (step start ghost₀ next onCrash))
    (h : AllSat next A P Q E e.before) {x : ε} (ho : e.output = .returned i (.error x)) :
    ∃ t, e.before.threads i = some t ∧ E t.ghost x :=
  outcome_of_returned start ghost₀ next onCrash hv h ho

theorem shared_of_quiet
    (hv : e.Valid (step start ghost₀ next onCrash)) (ho : ∀ i l g, e.output ≠ .stepped i l g) :
    e.after.shared = e.before.shared ∨ ∃ i, e.after.shared = onCrash i e.before.shared := by
  obtain ⟨c, p, o, p'⟩ := e
  have hstep : step start ghost₀ next onCrash c p = (o, p') := hv
  replace ho : ∀ i l g, o ≠ .stepped i l g := ho
  show p'.shared = p.shared ∨ ∃ i, p'.shared = onCrash i p.shared
  cases c with
  | spawn i c =>
    simp only [step] at hstep
    split at hstep <;> (cases hstep; exact Or.inl rfl)
  | advance i =>
    simp only [step] at hstep
    split at hstep
    · cases hstep
      exact Or.inl rfl
    · cases hstep
      exact Or.inl rfl
    · cases hstep
      exact Or.inl rfl
    · cases hstep
      exact absurd rfl (ho _ _ _)
  | crash i =>
    simp only [step] at hstep
    cases hstep
    exact Or.inr ⟨i, rfl⟩

/-- Where a crash keeps the shared state, an entry is a step along an outline, or leaves
the state as it is. -/
theorem stepped_or_still (hv : e.Valid (step start ghost₀ next onCrash)) (hA : Meets A e)
    (hcrash : ∀ i s, onCrash i s = s) (h : AllSat next A P Q E e.before) :
    (∃ i l g, e.output = .stepped i l g ∧ P g l e.before.shared e.after.shared)
      ∨ (∀ i l g, e.output ≠ .stepped i l g) ∧ e.after.shared = e.before.shared := by
  by_cases ho : ∃ i l g, e.output = .stepped i l g
  · obtain ⟨i, l, g, ho⟩ := ho
    exact Or.inl ⟨i, l, g, ho, step_guarantee start ghost₀ next onCrash hv hA h ho⟩
  · have hquiet : ∀ i l g, e.output ≠ .stepped i l g := fun i l g heq => ho ⟨i, l, g, heq⟩
    refine Or.inr ⟨hquiet, ?_⟩
    rcases shared_of_quiet start ghost₀ next onCrash hv hquiet with hs | ⟨i, hs⟩
    · exact hs
    · rw [hs, hcrash]

/-- What holds of every process's ghost value and the shared state. -/
def AllGhosts (G : γ → σ → Prop) (p : Pool κ ε σ α γ) : Prop :=
  ∀ i t, p.threads i = some t → G t.ghost p.shared

/-- A ghost value keeps what it says of the state, if it says so when a program
starts and after its own steps, and if no entry takes it away. -/
theorem ghosts_step {G : γ → σ → Prop}
   
    (hv : e.Valid (step start ghost₀ next onCrash)) (hstart : ∀ i c s, G (ghost₀ i c s) s)
    (hnext : ∀ i l g, e.output = .stepped i l g → G g e.before.shared →
      G (next g l e.before.shared e.after.shared) e.after.shared)
    (hkeep : ∀ g, G g e.before.shared → G g e.after.shared)
    (h : AllGhosts G e.before) : AllGhosts G e.after := by
  obtain ⟨c, p, o, p'⟩ := e
  have hstep : step start ghost₀ next onCrash c p = (o, p') := hv
  have others : ∀ {s : σ} {i : Nat} {t : Option (Thread κ ε σ α γ)},
      p' = { p with shared := s }.setThread i t → (∀ t', t = some t' → G t'.ghost p'.shared) →
      AllGhosts G p' := by
    intro s i t hp' ht j t' hj
    simp only [hp', setThread] at hj
    split at hj
    · exact ht t' hj
    · exact hkeep _ (h j t' hj)
  show AllGhosts G p'
  cases c with
  | spawn i c =>
    simp only [step] at hstep
    split at hstep
    · cases hstep
      exact others (s := p.shared) rfl fun t' ht' => by cases ht'; exact hstart i c p.shared
    · cases hstep
      exact h
  | advance i =>
    simp only [step] at hstep
    split at hstep
    · cases hstep
      exact h
    · cases hstep
      exact others (s := p.shared) rfl fun _ ht' => by cases ht'
    · cases hstep
      exact others (s := p.shared) rfl fun _ ht' => by cases ht'
    · next g l u k hi =>
      cases hstep
      exact others rfl fun t' ht' => by cases ht'; exact hnext i l g rfl (h i _ hi)
  | crash i =>
    simp only [step] at hstep
    cases hstep
    exact others rfl fun _ ht' => by cases ht'

theorem allGhosts_idle {G : γ → σ → Prop} (s : σ) :
    AllGhosts (κ := κ) (ε := ε) (α := α) G (idle s) := by
  intro i t h
  cases h

theorem allSat_idle (s : σ) : AllSat next A P Q E (idle s) := by
  intro i t h
  cases h

end Pool

end Steps
