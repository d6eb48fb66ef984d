/-
Logs that are replayed: a state rebuilt from nothing by taking in one event
after another, where an event may be refused.
-/
import Mathlib.Data.List.Induction

namespace Replay

variable {σ ε δ : Type} (step : σ → ε → Except δ σ)

def replay (s : σ) : List ε → Except δ σ
  | [] => .ok s
  | e :: es => do replay (← step s e) es

variable {step}

variable {s s' : σ} {e : ε} {es : List ε}

theorem replay_cons_ok : replay step s (e :: es) = .ok s'
      ↔ ∃ m, step s e = .ok m ∧ replay step m es = .ok s' := by
  rw [replay]
  cases step s e with
  | ok m => exact ⟨fun h => ⟨m, rfl, h⟩, fun ⟨_, hm, h⟩ => by cases hm; exact h⟩
  | error d => exact ⟨nofun, fun ⟨_, hm, _⟩ => (by cases hm)⟩

variable {fs : List ε} {s₀ m : σ} {P : List ε → σ → Prop}

theorem replay_append_ok : replay step s (es ++ fs) = .ok s'
      ↔ ∃ m, replay step s es = .ok m ∧ replay step m fs = .ok s' := by
  induction es generalizing s with
  | nil => exact ⟨fun h => ⟨s, rfl, h⟩, fun ⟨_, hm, h⟩ => by cases hm; exact h⟩
  | cons e es ih =>
    rw [List.cons_append, replay_cons_ok]
    constructor
    · rintro ⟨m, hm, h⟩
      obtain ⟨m', hm', h⟩ := ih.mp h
      exact ⟨m', replay_cons_ok.mpr ⟨m, hm, hm'⟩, h⟩
    · rintro ⟨m', hm', h⟩
      obtain ⟨m, hm, hm'⟩ := replay_cons_ok.mp hm'
      exact ⟨m, hm, ih.mpr ⟨m', hm', h⟩⟩

theorem replay_concat_ok : replay step s (es ++ [e]) = .ok s'
      ↔ ∃ m, replay step s es = .ok m ∧ step m e = .ok s' := by
  rw [replay_append_ok]
  constructor
  · rintro ⟨m, hm, h⟩
    obtain ⟨m', hm', h⟩ := replay_cons_ok.mp h
    cases h
    exact ⟨m, hm, hm'⟩
  · rintro ⟨m, hm, h⟩
    exact ⟨m, hm, replay_cons_ok.mpr ⟨s', h, rfl⟩⟩

/-- What holds of no events and survives each event holds of every log that
is taken in. -/
theorem replay_history (step : σ → ε → Except δ σ) (h0 : P [] s₀)
    (hstep : ∀ es s e s', P es s → step s e = .ok s' → P (es ++ [e]) s')
    (h : replay step s₀ es = .ok s) : P es s := by
  induction es using List.reverseRecOn generalizing s with
  | nil =>
    cases h
    exact h0
  | append_singleton es e ih =>
    obtain ⟨m, hm, he⟩ := replay_concat_ok.mp h
    exact hstep es m e s (ih hm) he

-- == conditions

/-- Each event arrives in a state it may arrive in. -/
def Along (step : σ → ε → Except δ σ) (C : σ → ε → Prop) : σ → List ε → Prop
  | _, [] => True
  | s, e :: es => C s e ∧ ∀ s', step s e = .ok s' → Along step C s' es

variable {C : σ → ε → Prop}

theorem along_cons_ok (hm : step s e = .ok m) :
    Along step C s (e :: es) ↔ C s e ∧ Along step C m es :=
  ⟨fun h => ⟨h.1, h.2 m hm⟩, fun h => ⟨h.1, fun s' hs' => by
    cases hm.symm.trans hs'
    exact h.2⟩⟩

theorem along_cons_error {d : δ} (hd : step s e = .error d) : Along step C s (e :: es) ↔ C s e :=
  ⟨fun h => h.1, fun h => ⟨h, fun s' hs' => by cases hd.symm.trans hs'⟩⟩

instance decidableAlong [∀ s e, Decidable (C s e)] (s : σ) :
    ∀ es : List ε, Decidable (Along step C s es)
  | [] => isTrue trivial
  | e :: es =>
    match h : step s e with
    | .ok m =>
      have := decidableAlong m es
      decidable_of_iff _ (along_cons_ok h).symm
    | .error _ => decidable_of_iff _ (along_cons_error h).symm

theorem along_append (hm : replay step s es = .ok m)
    (h : Along step C s (es ++ fs)) : Along step C s es ∧ Along step C m fs := by
  induction es generalizing s with
  | nil =>
    cases hm
    exact ⟨trivial, h⟩
  | cons e es ih =>
    obtain ⟨s', he, hm⟩ := replay_cons_ok.mp hm
    obtain ⟨hes, hfs⟩ := ih hm (h.2 s' he)
    refine ⟨⟨h.1, fun t ht => ?_⟩, hfs⟩
    cases he.symm.trans ht
    exact hes

theorem along_history (h0 : P [] s₀)
    (hstep : ∀ es s e s', P es s → C s e → step s e = .ok s' → P (es ++ [e]) s')
    (hC : Along step C s₀ es) (h : replay step s₀ es = .ok s) : P es s := by
  induction es using List.reverseRecOn generalizing s with
  | nil =>
    cases h
    exact h0
  | append_singleton es e ih =>
    obtain ⟨m, hm, he⟩ := replay_concat_ok.mp h
    obtain ⟨hes, hlast⟩ := along_append hm hC
    exact hstep es m e s (ih hes hm) hlast.1 he

theorem along_invariant {I : σ → Prop} (hstep : ∀ s e s', I s → C s e → step s e = .ok s' → I s')
    (hC : Along step C s es)
    (h : replay step s es = .ok s') (hs : I s) : I s' :=
  along_history (P := fun _ => I) hs (fun _ s e s' => hstep s e s') hC h

end Replay
