/-
Deterministic machines run on a list of inputs: what a run leaves behind
(`exec`), the record of every step it took (`trace`), and the induction
rules by which a property of one step becomes a property of every run.
-/
import Mathlib.Data.List.Induction

namespace Machine

/-- The record of one step: what was asked, in which state, what was
answered, and the state left behind. -/
structure Entry (ι ρ σ : Type) where
  input : ι
  before : σ
  output : ρ
  after : σ

variable {ι ρ σ : Type} (step : ι → σ → ρ × σ)

/-- An entry records a step the machine really takes. -/
def Entry.Valid (e : Entry ι ρ σ) : Prop :=
  step e.input e.before = (e.output, e.after)

def entry (i : ι) (s : σ) : Entry ι ρ σ :=
  ⟨i, s, (step i s).1, (step i s).2⟩

def exec : List ι → σ → σ
  | [], s => s
  | i :: is, s => exec is (step i s).2

/-- The record of a list of inputs, oldest entry first. -/
def trace : List ι → σ → List (Entry ι ρ σ)
  | [], _ => []
  | i :: is, s => entry step i s :: trace is (step i s).2

-- == append laws

@[simp] theorem exec_nil (s : σ) : exec step [] s = s := rfl

@[simp] theorem exec_cons (i : ι) (is : List ι) (s : σ) :
    exec step (i :: is) s = exec step is (step i s).2 := rfl

@[simp] theorem trace_nil (s : σ) : trace step [] s = [] := rfl

@[simp] theorem trace_cons (i : ι) (is : List ι) (s : σ) :
    trace step (i :: is) s = entry step i s :: trace step is (step i s).2 := rfl

theorem exec_append (is js : List ι) (s : σ) :
    exec step (is ++ js) s = exec step js (exec step is s) := by
  induction is generalizing s with
  | nil => rfl
  | cons i is ih => exact ih _

theorem trace_append (is js : List ι) (s : σ) : trace step (is ++ js) s
      = trace step is s ++ trace step js (exec step is s) := by
  induction is generalizing s with
  | nil => rfl
  | cons i is ih =>
    simp only [List.cons_append, trace_cons, exec_cons]
    rw [ih]

theorem trace_concat (is : List ι) (i : ι) (s : σ) : trace step (is ++ [i]) s
      = trace step is s ++ [entry step i (exec step is s)] := by
  rw [trace_append]
  rfl

theorem exec_concat (is : List ι) (i : ι) (s : σ) :
    exec step (is ++ [i]) s = (step i (exec step is s)).2 := by
  rw [exec_append]
  rfl

theorem entry_valid (i : ι) (s : σ) : (entry step i s).Valid step := rfl

variable {is : List ι} {s : σ} {e : Entry ι ρ σ} {C : Entry ι ρ σ → Prop}

/-- Cutting a trace at an entry cuts the inputs at the same place: the
entries before it are the trace of a first list of inputs, the entry is the
step taken where they end, and the rest is the trace from there. -/
theorem trace_split {pre post : List (Entry ι ρ σ)} (h : trace step is s = pre ++ e :: post) :
    ∃ js i ks, is = js ++ i :: ks ∧ pre = trace step js s ∧ e = entry step i (exec step js s)
      ∧ post = trace step ks e.after := by
  induction is generalizing s pre with
  | nil => simp at h
  | cons i is ih =>
    cases pre with
    | nil =>
      simp only [trace_cons, List.nil_append, List.cons.injEq] at h
      obtain ⟨rfl, rfl⟩ := h
      exact ⟨[], i, is, rfl, rfl, rfl, rfl⟩
    | cons p pre =>
      simp only [trace_cons, List.cons_append, List.cons.injEq] at h
      obtain ⟨rfl, htail⟩ := h
      obtain ⟨js, j, ks, rfl, rfl, he, hpost⟩ := ih htail
      exact ⟨i :: js, j, ks, rfl, rfl, he, hpost⟩

theorem input_mem_of_mem_trace (h : e ∈ trace step is s) : e.input ∈ is := by
  induction is generalizing s with
  | nil => cases h
  | cons i is ih =>
    rcases List.mem_cons.mp h with rfl | htail
    · exact List.mem_cons_self ..
    · exact List.mem_cons_of_mem _ (ih htail)

-- == invariant rules

/-- The history rule: a relation between what has been recorded and the
current state, established at the start and kept by every further entry
that meets `C`, holds after every run whose entries all meet `C`. -/
theorem history_invariant {I : List (Entry ι ρ σ) → σ → Prop} (s₀ : σ)
    (hinit : I [] s₀) (hstep : ∀ past e, e.Valid step → C e → I past e.before →
      I (past ++ [e]) e.after) (is : List ι) (hC : ∀ e ∈ trace step is s₀, C e) :
    I (trace step is s₀) (exec step is s₀) := by
  induction is using List.reverseRecOn with
  | nil => exact hinit
  | append_singleton is i ih =>
    rw [trace_concat] at hC ⊢
    rw [exec_concat]
    have hpast := ih fun e he => hC e (List.mem_append_left _ he)
    have hlast := hC (entry step i (exec step is s₀))
      (List.mem_append_right _ (List.mem_singleton_self _))
    exact hstep _ _ (entry_valid step i _) hlast hpast

/-- The state rule: a property of the state kept by every step that meets
`C` holds after every run whose entries all meet `C`. -/
theorem invariant {I : σ → Prop} (s₀ : σ) (hinit : I s₀)
    (hstep : ∀ e : Entry ι ρ σ, e.Valid step → C e → I e.before → I e.after)
    (is : List ι) (hC : ∀ e ∈ trace step is s₀, C e) : I (exec step is s₀) :=
  history_invariant (C := C) step (I := fun _ s => I s) s₀ hinit
    (fun _ e hv hc hi => hstep e hv hc hi) is hC

end Machine
