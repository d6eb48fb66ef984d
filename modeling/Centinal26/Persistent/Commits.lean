/-
What a commit goes through, when it starts from a ledger whose lines are all events, each linked
to the one before.
-/
import Centinal26.Lib.Machine
import Centinal26.Persistent.Kernel
import Centinal26.Py.Loads

namespace Centinal26.Persistent

open Py Steps

variable (L : Libraries)

-- == chain

def lastHash (prev : Option PyStr) (es : List Event) : Option PyStr :=
  es.foldl (fun _ e => some e.hash) prev

/-- Each event is linked to the one before, and has its hash. -/
def Chained : Option PyStr → List Event → Prop
  | _, [] => True
  | prev, e :: es => e.body.prev = prev
      ∧ e.hash = L.sha (Json.obj e.body.members).compactText ∧ Chained (some e.hash) es

variable {L}

theorem lastHash_concat (prev : Option PyStr) (es : List Event) (e : Event) :
    lastHash prev (es ++ [e]) = some e.hash := by
  rw [lastHash, List.foldl_append]
  rfl

theorem lastHash_none (es : List Event) : lastHash none es = es.getLast?.map Event.hash := by
  induction es using List.reverseRecOn with
  | nil => rfl
  | append_singleton es e => rw [lastHash_concat, List.getLast?_concat, Option.map_some]

variable {prev : Option PyStr} {es : List Event} {l : Ledger} {I : Files → Prop}
  {Q : Project → Files → Prop} {E : Failure → Files → Prop} {n : Option Nat} {f : Files}

variable {e : Event} {c : Call} {a : Attempt}

theorem chained_concat (h : Chained L prev es) (hprev : e.body.prev = lastHash prev es)
    (hhash : e.hash = L.sha (Json.obj e.body.members).compactText) :
    Chained L prev (es ++ [e]) := by
  induction es generalizing prev with
  | nil => exact ⟨hprev, hhash, trivial⟩
  | cons e' es ih => exact ⟨h.1, h.2.1, ih h.2.2 hprev⟩

theorem isNormal_flags (d : Flags) : d.json.isNormal = true := by
  have hnames : ((d.items.map fun m => (py m.1, Json.bool m.2)).map Prod.fst).Nodup := by
    rw [List.map_map]
    have hpy := d.nodup.map (f := py) fun a b hab => py_inj.mp hab
    rwa [List.map_map] at hpy
  rw [Flags.json, Json.isNormal, decide_eq_true (ordered_sortByName hnames), Bool.true_and,
    allNormalMembers_eq, List.all_eq_true]
  intro m hm
  obtain ⟨n, -, rfl⟩ := List.mem_map.mp (mem_sortByName.mp hm)
  rfl

theorem isNormal_strings (names : List String) :
    allNormal (names.map fun r => Json.str (py r)) = true := by
  induction names with
  | nil => rfl
  | cons r rest ih => exact ih

theorem isNormal_security (s : SecurityDecision) : (securityJson s).isNormal = true := by
  have hordered : Ordered [(py "allowed", Json.bool s.allowed),
      (py "checks", (Flags.mk s.checks s.nodup).json), (py "context_hash", .str s.contextHash),
      (py "reasons", .arr (s.reasons.map fun r => .str (py r)))] := by
    unfold Ordered
    simp only [List.map_cons, List.map_nil]
    decide
  rw [securityJson, Json.isNormal, decide_eq_true hordered, allNormalMembers_eq]
  simp [isNormal_flags, Json.isNormal, isNormal_strings]

theorem normalise_body (b : Body) : (Json.obj b.members).normalise = .obj b.members := by
  apply normalise_eq
  have hordered : Ordered b.members := by
    unfold Ordered Body.members
    simp only [List.map_cons, List.map_nil]
    decide
  have hprev : (b.prev.elim Json.null Json.str).isNormal = true := by
    cases b.prev <;> rfl
  rw [Json.isNormal, decide_eq_true hordered, allNormalMembers_eq, Body.members]
  simp only [List.all_cons, List.all_nil, isNormal_flags, isNormal_security, b.inputs.normal,
    hprev, Json.isNormal, Bool.and_true]

theorem verifyLines_chained (h : Chained L prev es)
    (number : Nat) : verifyLines L number prev (es.map some) = .ok ([], lastHash prev es) := by
  induction es generalizing prev number with
  | nil => rfl
  | cons e es ih =>
    obtain ⟨hprev, hhash, hes⟩ := h
    rw [List.map_cons, verifyLines, ih hes, bind_ok_eq, hprev, normalise_body, ← hhash]
    simp [problem, lastHash]

-- == ledger

def IsLog (L : Libraries) (l : Ledger) (es : List Event) : Prop :=
  l = ⟨es.map some, .nothing⟩ ∧ Chained L none es

theorem isLog_empty : IsLog L .empty [] := ⟨rfl, trivial⟩

theorem IsLog.read (h : IsLog L l es) : l.read = es.map some := by
  rw [h.1]
  rfl

theorem IsLog.head (h : IsLog L l es) : l.head = .ok (lastHash none es) := by
  rw [Ledger.head, h.read, List.getLast?_map, lastHash_none]
  cases es.getLast? <;> rfl

theorem IsLog.append (h : IsLog L l es) (c : Call)
    (j : Judgement) (status : String) : IsLog L (l.append (eventOf L c j status (lastHash none es)))
      (es ++ [eventOf L c j status (lastHash none es)]) := by
  refine ⟨?_, chained_concat h.2 rfl rfl⟩
  rw [h.1, List.map_append]
  rfl

-- == commits

theorem commit_through {j : Judgement} {p : Project} (hl : f.ledger.getD .empty = l)
    (hj : judge L c = .ok j) (hprev : l.head = .ok prev)
    (he : eventOf L c j (statusOf f.state j.goal) prev = e) (hp : projectOf c j f.state e.hash = p)
    (h₀ : I f) (h₁ : I { f with ledger := some (l.put e n) })
    (h₂ : I { f with ledger := some (l.append e) })
    (h₃ : I { f with ledger := some (l.append e), state := some p })
    (h₄ : I { f with ledger := some (l.append e), state := some p, side := some (p.sha L) })
    (hdone : ∀ marker : Option Text, marker.isSome = p.goalReached →
      I ⟨some (l.append e), some p, some (p.sha L), marker⟩
        ∧ Q p ⟨some (l.append e), some p, some (p.sha L), marker⟩)
    (hfail : ∀ err, p.goalReached = true → markerText p = .error err →
      E err ⟨some (l.append e), some p, some (p.sha L), f.marker⟩) :
    (commit L n c).Through (fun _ _ => True) I Q E f := by
  subst hl hp he
  refine fun _ => ⟨h₀, ?_⟩
  show Prog.Through _ _ _ _ ((Prog.ofExcept (judge L c) : Prog Op Failure Files Judgement) >>= _) f
  rw [hj]
  refine fun _ => ⟨h₀, ?_⟩
  show Prog.Through _ _ _ _
    ((Prog.ofExcept (f.ledger.getD .empty).head : Prog Op Failure Files (Option PyStr)) >>= _) f
  rw [hprev]
  refine fun _ => ⟨h₁, fun _ => ⟨h₂, fun _ => ⟨h₃, fun _ => ⟨h₄, ?_⟩⟩⟩⟩
  show Prog.Through _ _ _ _ (mark _) _
  unfold mark
  split
  · next hgoal =>
    cases hmarker : markerText (projectOf c j f.state
        (eventOf L c j (statusOf f.state j.goal) prev).hash) with
    | error err => exact hfail err hgoal hmarker
    | ok text =>
      obtain ⟨hI, hQ⟩ := hdone (some text) (by rw [hgoal]; rfl)
      exact fun _ => ⟨hI, hQ⟩
  · next hgoal =>
    obtain ⟨hI, hQ⟩ := hdone none (by rw [Bool.not_eq_true _ |>.mp hgoal]; rfl)
    exact fun _ => ⟨hI, hQ⟩

theorem commit_refused {err : Failure} (hj : judge L c = .error err) (h₀ : I f) (hE : E err f) :
    (commit L n c).Through (fun _ _ => True) I Q E f := by
  refine fun _ => ⟨h₀, ?_⟩
  show Prog.Through _ _ _ _ ((Prog.ofExcept (judge L c) : Prog Op Failure Files Judgement) >>= _) f
  rw [hj]
  exact hE

-- == attempts

/-- A commit, and how it is killed if it is: after so many steps, and with so many characters of
its line in the ledger, or all of them, if it is appending. -/
structure Attempt where
  call : Call
  killed : Option (Nat × Option Nat)

/-- How an attempt ends. -/
inductive Outcome : Type
  | killed
  | done (p : Project)
  | raised (e : Failure)

/-- The end of a commit that is not killed. -/
def outcome (r : Except Failure Project) : Outcome :=
  match r with
  | .ok p => .done p
  | .error e => .raised e

variable (L) in
def attempt (a : Attempt) (f : Files) : Outcome × Files :=
  match a.killed with
  | some (steps, n) => (.killed, (commit L n a.call).cut steps f)
  | none => (outcome ((commit L none a.call).run f).1, ((commit L none a.call).run f).2)

theorem attempt_killed {steps : Nat} (h : a.killed = some (steps, n)) :
    attempt L a f = (.killed, (commit L n a.call).cut steps f) := by
  unfold attempt
  rw [h]

theorem attempt_run (h : a.killed = none)
    (hthrough : (commit L none a.call).Through (fun _ _ => True) I Q E f) :
    (∃ p, (attempt L a f).1 = .done p ∧ Q p (attempt L a f).2)
      ∨ ∃ e, (attempt L a f).1 = .raised e ∧ E e (attempt L a f).2 := by
  have hrun := hthrough.run fun _ _ => trivial
  unfold attempt
  rw [h]
  split at hrun
  · next p f' heq =>
    left
    rw [heq]
    exact ⟨p, rfl, hrun⟩
  · next e f' heq =>
    right
    rw [heq]
    exact ⟨e, rfl, hrun⟩

end Centinal26.Persistent
