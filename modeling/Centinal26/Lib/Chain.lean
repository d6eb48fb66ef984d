/-
Chains of records, each of which names the hash of the one before it.
-/
import Mathlib.Data.List.Basic
import Mathlib.Data.List.Induction

namespace Chain

variable {ε η γ : Type} (prev hash : ε → η)

/-- Each record names the hash of the one before it, the first names `g`. -/
def Linked : η → List ε → Prop
  | _, [] => True
  | g, e :: es => prev e = g ∧ Linked (hash e) es

variable {g : η} {e : ε} {es : List ε}

theorem linked_cons : Linked prev hash g (e :: es) ↔ prev e = g ∧ Linked prev hash (hash e) es :=
  Iff.rfl

def last (g : η) (es : List ε) : η :=
  match es.getLast? with
  | none => g
  | some e => hash e

@[simp] theorem last_nil (g : η) : last hash g [] = g := rfl

@[simp] theorem last_concat (g : η) (es : List ε) (e : ε) : last hash g (es ++ [e]) = hash e := by
  simp [last]

theorem last_cons (g : η) (e : ε) (es : List ε) :
    last hash g (e :: es) = last hash (hash e) es := by
  cases es with
  | nil => rfl
  | cons d es => simp [last, List.getLast?_cons]

theorem last_eq (g : η) (es : List ε) : last hash g es = ((es.map hash).getLast?).getD g := by
  unfold last
  rw [List.getLast?_map]
  cases es.getLast? <;> rfl

theorem linked_concat : Linked prev hash g (es ++ [e])
      ↔ Linked prev hash g es ∧ prev e = last hash g es := by
  induction es generalizing g with
  | nil => exact ⟨fun h => ⟨trivial, h.1⟩, fun h => ⟨h.2, trivial⟩⟩
  | cons d es ih =>
    rw [last_cons]
    exact ⟨fun h => ⟨⟨h.1, (ih.mp h.2).1⟩, (ih.mp h.2).2⟩, fun h => ⟨h.1.1, ih.mpr ⟨h.1.2, h.2⟩⟩⟩

variable {prev hash}

theorem contents_eq {content : ε → γ} {es' : List ε}
    (h : Linked prev hash g es) (h' : Linked prev hash g es')
    (hbinds : ∀ e ∈ es, ∀ e' ∈ es', hash e = hash e' → content e = content e' ∧ prev e = prev e')
    (hg : ∀ e ∈ es, hash e ≠ g) (hg' : ∀ e ∈ es', hash e ≠ g)
    (hlast : last hash g es = last hash g es') : es.map content = es'.map content := by
  induction es using List.reverseRecOn generalizing es' with
  | nil =>
    rcases List.eq_nil_or_concat' es' with rfl | ⟨fs, e', rfl⟩
    · rfl
    · rw [last_nil, last_concat] at hlast
      exact absurd hlast.symm (hg' e' (by simp))
  | append_singleton ds e ih =>
    rcases List.eq_nil_or_concat' es' with rfl | ⟨ds', e', rfl⟩
    · rw [last_nil, last_concat] at hlast
      exact absurd hlast (hg e (by simp))
    · rw [last_concat, last_concat] at hlast
      obtain ⟨hds, hprev⟩ := (linked_concat prev hash).mp h
      obtain ⟨hds', hprev'⟩ := (linked_concat prev hash).mp h'
      obtain ⟨hcontent, heq⟩ := hbinds e (by simp) e' (by simp) hlast
      have hearlier := ih hds hds' (fun d hd d' hd' => hbinds d (List.mem_append_left _ hd) d'
          (List.mem_append_left _ hd'))
        (fun d hd => hg d (List.mem_append_left _ hd))
        (fun d hd => hg' d (List.mem_append_left _ hd))
        (by rw [← hprev, ← hprev', heq])
      rw [List.map_append, List.map_append, hearlier, List.map_singleton,
        List.map_singleton, hcontent]

end Chain

-- == walks

namespace List

variable {α σ : Type} (src dst : α → σ)

/-- A walk along a list, from one place to another. -/
def Walk : σ → List α → σ → Prop
  | s, [], t => s = t
  | s, x :: xs, t => src x = s ∧ Walk (dst x) xs t

variable {src dst}

variable {s t : σ} {x : α} {xs : List α}

theorem Walk.concat (h : Walk src dst s xs t)
    (hx : src x = t) : Walk src dst s (xs ++ [x]) (dst x) := by
  induction xs generalizing s with
  | nil => exact ⟨hx.trans h.symm, rfl⟩
  | cons y ys ih => exact ⟨h.1, ih h.2⟩

theorem Walk.end_eq (h : Walk src dst s xs t) : t = (xs.getLast?.map dst).getD s := by
  induction xs generalizing s with
  | nil => exact h.symm
  | cons y ys ih =>
    have ht := ih h.2
    cases ys with
    | nil => exact ht
    | cons z zs =>
      rw [List.getLast?_cons_cons]
      cases hlast : (z :: zs).getLast? with
      | none => simp at hlast
      | some last =>
        rw [hlast] at ht
        exact ht

end List
