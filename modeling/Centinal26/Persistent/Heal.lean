/-
After a crash the kernel heals: as long as no commit was killed with a part of its line in the
ledger, the next commit that is not killed succeeds, and leaves files that verify.
-/
import Centinal26.Persistent.Commits

namespace Centinal26.Persistent

open Py Steps Machine

-- == flags

variable {key : String} {c : Call} {j : Judgement} {f : Files}

theorem lookup_map (names : List String) (value : String → Bool)
    (h : key ∈ names) : (names.map fun k => (k, value k)).lookup key = some (value key) := by
  induction names with
  | nil => cases h
  | cons k rest ih =>
    rw [List.map_cons, List.lookup_cons]
    by_cases hk : key = k
    · subst hk
      simp
    · rw [beq_false_of_ne hk]
      exact ih ((List.mem_cons.mp h).resolve_left hk)

theorem get_qualified (value : String → Bool) (h : key ∈ qualified) :
    (Flags.qualified value).get key = value key := by
  rw [Flags.get, Flags.qualified, lookup_map qualified value h, Option.getD_some]

theorem all_qualified (value : String → Bool) :
    (Flags.qualified value).all = qualified.all value := by
  rw [Flags.all, Flags.qualified, List.all_map]
  rfl

variable {L : Libraries}

theorem judge_ok (h : judge L c = .ok j) :
    ∃ value, j.checks = .qualified value ∧ value "security_policy_ok" = j.security.allowed := by
  obtain ⟨security, -, h⟩ := of_bind_ok h
  split at h
  · cases h
  · cases h
    exact ⟨_, rfl, rfl⟩

theorem checks_get (h : judge L c = .ok j) : j.goal = (qualified.all fun key => j.checks.get key)
      ∧ j.checks.get "security_policy_ok" = j.security.allowed := by
  obtain ⟨value, hchecks, hsecurity⟩ := judge_ok h
  constructor
  · rw [Judgement.goal, hchecks, all_qualified]
    rw [Bool.eq_iff_iff, List.all_eq_true, List.all_eq_true]
    exact forall₂_congr fun key hkey => by rw [get_qualified value hkey]
  · rw [hchecks, get_qualified value (by decide), hsecurity]

-- == marker

/-- If the marker is there, the goal is reached in the state, and the state is the one of the
latest event. -/
def Stated (f : Files) : Prop :=
  f.marker.isSome = true → ∃ p, f.state = some p ∧ p.goalReached = true
    ∧ (∀ key ∈ qualified, p.checks.get key = true) ∧ p.security.allowed = true
    ∧ (f.ledger.getD .empty).head = .ok (some p.lastEventHash)

/-- The events of the ledger are in order, and the marker does not overstate. -/
def Kept (L : Libraries) (f : Files) : Prop :=
  (∃ es, IsLog L (f.ledger.getD .empty) es) ∧ Stated f

variable (L) in
/-- A commit, killed between two writes or not at all. -/
def between (a : Call × Option Nat) (f : Files) : Outcome × Files :=
  attempt L ⟨a.1, a.2.map fun steps => (steps, none)⟩ f

theorem kept_through (h : Kept L f) (hmarker : f.marker = none) :
    (commit L none c).Through (fun _ _ => True) (Kept L) (fun _ => Kept L) (fun _ => Kept L) f := by
  obtain ⟨⟨es, hlog⟩, hstated⟩ := h
  cases hj : judge L c with
  | error err => exact commit_refused hj ⟨⟨es, hlog⟩, hstated⟩ ⟨⟨es, hlog⟩, hstated⟩
  | ok j =>
  have hunstated : ∀ g : Files, g.marker = f.marker → Stated g := by
    intro g hg hsome
    rw [hg, hmarker] at hsome
    cases hsome
  have hafter := hlog.append c j (statusOf f.state j.goal)
  obtain ⟨hgoal, hsecurity⟩ := checks_get hj
  refine commit_through rfl hj hlog.head rfl rfl ⟨⟨es, hlog⟩, hstated⟩ ⟨⟨_, hafter⟩, hunstated _ rfl⟩
    ⟨⟨_, hafter⟩, hunstated _ rfl⟩ ⟨⟨_, hafter⟩, hunstated _ rfl⟩ ⟨⟨_, hafter⟩, hunstated _ rfl⟩
    (fun marker hsome => ?_) (fun err _ _ => ⟨⟨_, hafter⟩, hunstated _ rfl⟩)
  · refine (fun hkept => ⟨hkept, hkept⟩) ⟨⟨_, hafter⟩, fun hthere => ?_⟩
    rw [hsome] at hthere
    replace hthere : j.goal = true := hthere
    have hall : ∀ key ∈ qualified, j.checks.get key = true := by
      rw [hgoal] at hthere
      exact List.all_eq_true.mp hthere
    refine ⟨_, rfl, hthere, hall, ?_, ?_⟩
    · show j.security.allowed = true
      rw [← hsecurity]
      exact hall _ (by decide)
    · rw [Option.getD_some, hafter.head, lastHash_concat]
      rfl

theorem kept_between {a : Call × Option Nat} (h : Kept L f)
    (hmarker : f.marker = none) : Kept L (between L a f).2 := by
  obtain ⟨c, killed⟩ := a
  cases killed with
  | some steps => exact (kept_through h hmarker).cut steps h fun _ _ => trivial
  | none =>
    rcases attempt_run (L := L) (a := ⟨c, none⟩) rfl (kept_through h hmarker) with
      ⟨_, -, hkept⟩ | ⟨_, -, hkept⟩
    · exact hkept
    · exact hkept

/-- Between any two writes the marker does not overstate, if each commit starts without one. -/
theorem marker_stated (L : Libraries) (as : List (Call × Option Nat))
    (h : ∀ e ∈ trace (between L) as .empty, e.before.marker = none) :
    Stated (exec (between L) as .empty) := by
  have hrun := Machine.invariant (between L) (C := fun e => e.before.marker = none) (I := Kept L)
    Files.empty ⟨⟨[], isLog_empty⟩, nofun⟩
    (fun e hvalid hC hI => ?_) as h
  · exact hrun.2
  · have hafter := kept_between (a := e.input) hI hC
    rw [hvalid] at hafter
    exact hafter

-- == an example

namespace Sample

def libraries : Libraries where
  sha _ := py "00"
  ascii_sha _ := ascii_py_of (by decide)
  upper v := if v.eq (.str (py "verified")) then py "VERIFIED" else []
  lower _ := py "verifier"
  indented _ := Text.lit ""

/-- A context with all that the policy asks for. -/
def context : PyVal := .dict [
  item "authority_verified" (.bool true), item "capability_authorized" (.bool true),
  item "bounded_execution" (.bool true), item "independent_verification" (.bool true),
  item "evidence_chain_valid" (.bool true),
  item "baseline" (.dict [item "source" (.str (py "trusted_git")),
    item "expected_sha256" (.str (py "00")), item "actual_sha256" (.str (py "00"))])]

def fields (checks : List String) : Doc :=
  (Json.obj (checks.map fun key => (py key, .bool true))).load

def call (checks : List String) : Call where
  release := py "r"
  checks := fields checks
  detail := []
  worker := py "kernel"
  inputs := Fields.empty.doc
  context := context
  eventId := py "id"
  eventTime := py "now"
  stateTime := Text.lit "now"

end Sample

theorem marker_stated_first : Stated (exec (between Sample.libraries)
    [(Sample.call qualified, none)] .empty) := by
  refine marker_stated _ _ fun e he => ?_
  rw [List.mem_singleton.mp he]
  rfl

/-- A commit that demotes the project, killed when it has written the state. -/
theorem marker_overstated : ¬ Stated (exec (between Sample.libraries)
    [(Sample.call qualified, none), (Sample.call [], some 5)] .empty) := by
  intro h
  have hmarker : (exec (between Sample.libraries)
      [(Sample.call qualified, none), (Sample.call [], some 5)] .empty).marker.isSome = true := by
    decide +kernel
  have hstate : (exec (between Sample.libraries)
      [(Sample.call qualified, none), (Sample.call [], some 5)] .empty).state.map
        Project.goalReached = some false := by
    decide +kernel
  obtain ⟨p, hp, hgoal, -⟩ := h hmarker
  rw [hp, Option.map_some, hgoal] at hstate
  cases hstate

end Centinal26.Persistent

namespace Centinal26.Persistent

open Py Steps Machine

variable (L : Libraries)

-- == records

/-- The event of a commit that returned this record. -/
def IsEventOf (done : Call × Project) (e : Event) : Prop :=
  e.hash = done.2.lastEventHash
    ∧ ∃ prev, e = eventOf L done.1 ⟨done.2.security, done.2.checks⟩ done.2.status prev

/-- The commits that returned, with what they returned. -/
def completed (past : List (Entry Attempt Outcome Files)) : List (Call × Project) :=
  past.filterMap fun e =>
    match e.output with
    | .done p => some (e.input.call, p)
    | _ => none

/-- `metrics.cycles`, as the next commit finds it. -/
def cycles (f : Files) : Nat := f.state.elim 0 fun p => p.metrics.cycles

/-- The ledger is in order, and has the events of these commits in it. -/
def Healthy (done : List (Call × Project)) (f : Files) : Prop :=
  done.length ≤ cycles f ∧ ∃ es, IsLog L (f.ledger.getD .empty) es
    ∧ ∃ recorded, recorded.Sublist es ∧ List.Forall₂ (IsEventOf L) done recorded

/-- A commit that is killed while it appends leaves nothing of its line, or all of it. -/
def Whole (a : Attempt) : Prop := ∀ steps n, a.killed = some (steps, some n) → n = 0

/-- A commit that takes its arguments: the policy reads the context, the checks are a dictionary,
and the marker can hold the release if it is written. -/
def Acceptable (c : Call) : Prop :=
  ∃ j, judge L c = .ok j ∧ (j.goal = true → Py.Encodable c.release)

variable {L}

theorem completed_concat (past : List (Entry Attempt Outcome Files))
    (e : Entry Attempt Outcome Files) : completed (past ++ [e]) = completed past ++ completed [e] := by
  unfold completed
  rw [List.filterMap_append]

variable {e : Entry Attempt Outcome Files} {c : Call}

variable {p : Project} {l : Ledger} {es : List Event} {done : List (Call × Project)} {f : Files}

theorem completed_done (h : e.output = .done p) : completed [e] = [(e.input.call, p)] := by
  simp [completed, h]

theorem completed_killed (h : e.output = .killed) : completed [e] = [] := by
  simp [completed, h]

theorem completed_raised {err : Failure} (h : e.output = .raised err) : completed [e] = [] := by
  simp [completed, h]

-- == healing

/-- A record, the hash of it and a marker that agrees with it, beside a ledger that ends with its
event: nothing is wrong with them. -/
theorem verify_committed {j : Judgement} {old : Option Project}
    {prev : Option PyStr} {marker : Option Text} (hj : judge L c = .ok j)
    (hlog : IsLog L l (es ++ [eventOf L c j (statusOf old j.goal) prev]))
    (hp : projectOf c j old (eventOf L c j (statusOf old j.goal) prev).hash = p)
    (hmarker : marker.isSome = p.goalReached) :
    verify L ⟨some l, some p, some (p.sha L), marker⟩ = .ok [] := by
  subst hp
  obtain ⟨hgoal, hsecurity⟩ := checks_get hj
  have hlines : verifyLines L 1 none l.read
      = .ok ([], some (eventOf L c j (statusOf old j.goal) prev).hash) := by
    rw [hlog.read, verifyLines_chained hlog.2, lastHash_concat]
  unfold verify
  dsimp only
  rw [Option.getD_some, hlines, bind_ok_eq]
  simp only [Option.any_some, Option.map_some, Option.elim_some, hmarker]
  simp [problem, projectOf, ← hgoal, hsecurity]

theorem markerText_ok (j : Judgement) (old : Option Project) {e : Event}
    (he : Ascii e.hash) (h : Py.Encodable c.release) :
    ∃ text, markerText (projectOf c j old e.hash) = .ok text := by
  have hencodable : Py.Encodable (c.release ++ [32] ++ c.stateTime.str ++ [32] ++ e.hash ++ [10]) := by
    have hspace : Py.Encodable [32] := by decide
    have hend : Py.Encodable [10] := by decide
    simp only [encodable_append]
    exact ⟨⟨⟨⟨⟨h, hspace⟩, c.stateTime.encodable⟩, hspace⟩, he.encodable⟩, hend⟩
  refine ⟨⟨_, hencodable⟩, ?_⟩
  unfold markerText projectOf encode
  rw [dif_pos hencodable]
  rfl

theorem Healthy.append {g : Files}
    {recorded : List Event} {e : Event} (hlog : IsLog L (l.append e) (es ++ [e]))
    (hsub : recorded.Sublist es) (hall : List.Forall₂ (IsEventOf L) done recorded)
    (hdone : done.length ≤ cycles f) (hledger : g.ledger = some (l.append e))
    (hcycles : cycles f ≤ cycles g) : Healthy L done g := by
  refine ⟨hdone.trans hcycles, es ++ [e], ?_, recorded, ?_, hall⟩
  · rw [hledger]
    exact hlog
  · exact hsub.trans (List.sublist_append_left es [e])

theorem healthy_through {n : Option Nat} (h : Healthy L done f) (hn : ∀ m, n = some m → m = 0) :
    (commit L n c).Through (fun _ _ => True) (Healthy L done)
      (fun p g => Healthy L (done ++ [(c, p)]) g ∧ g.state = some p ∧ verify L g = .ok [])
      (fun _ g => Healthy L done g ∧ ¬ Acceptable L c) f := by
  cases hj : judge L c with
  | error err =>
    refine commit_refused hj h ⟨h, fun hacceptable => ?_⟩
    obtain ⟨j, hj', -⟩ := hacceptable
    rw [hj] at hj'
    cases hj'
  | ok j =>
  obtain ⟨hdone, es, hlog, recorded, hsub, hall⟩ := h
  have hafter := hlog.append c j (statusOf f.state j.goal)
  have hcycles : ∀ hash, cycles f + 1 = (projectOf c j f.state hash).metrics.cycles := by
    intro hash
    unfold cycles projectOf metricsOf
    cases f.state <;> rfl
  have hlater : ∀ g : Files, g.ledger = some ((f.ledger.getD .empty).append
      (eventOf L c j (statusOf f.state j.goal) (lastHash none es))) → cycles f ≤ cycles g →
      Healthy L done g := fun g hledger hg => Healthy.append hafter hsub hall hdone hledger hg
  refine commit_through rfl hj hlog.head rfl rfl ⟨hdone, es, hlog, recorded, hsub, hall⟩ ?_
    (hlater _ rfl (le_refl _)) (hlater _ rfl ?_) (hlater _ rfl ?_) (fun marker hmarker => ?_)
    (fun err hgoal hfailed => ⟨hlater _ rfl ?_, ?_⟩)
  · cases n with
    | none => exact hlater _ rfl (le_refl _)
    | some m =>
      rw [hn m rfl]
      exact ⟨hdone, es, hlog, recorded, hsub, hall⟩
  · exact (Nat.le_succ _).trans_eq (hcycles _)
  · exact (Nat.le_succ _).trans_eq (hcycles _)
  · refine ⟨hlater _ rfl ((Nat.le_succ _).trans_eq (hcycles _)), ⟨?_, _, hafter,
      recorded ++ [_], hsub.append_right _, ?_⟩, rfl, verify_committed hj hafter rfl hmarker⟩
    · rw [List.length_append, List.length_singleton]
      exact (Nat.succ_le_succ hdone).trans_eq (hcycles _)
    · exact List.rel_append hall (List.Forall₂.cons ⟨rfl, _, rfl⟩ .nil)
  · exact (Nat.le_succ _).trans_eq (hcycles _)
  · rintro ⟨j', hj', hencodable⟩
    rw [hj] at hj'
    cases hj'
    obtain ⟨text, htext⟩ := markerText_ok j f.state
      (e := eventOf L c j (statusOf f.state j.goal) (lastHash none es)) (L.ascii_sha _)
      (hencodable hgoal)
    rw [htext] at hfailed
    cases hfailed

/-- An attempt leaves the kernel healthy; and unless it is killed, it returns and the files
verify, if it takes its arguments. -/
theorem healthy_attempt {past : List (Entry Attempt Outcome Files)}
    (hvalid : e.Valid (attempt L)) (hwhole : Whole e.input)
    (h : Healthy L (completed past) e.before) : Healthy L (completed (past ++ [e])) e.after
      ∧ (e.input.killed = none → Acceptable L e.input.call →
        ∃ p, e.output = .done p ∧ e.after.state = some p ∧ verify L e.after = .ok []) := by
  rw [completed_concat]
  cases hkilled : e.input.killed with
  | some k =>
    obtain ⟨steps, n⟩ := k
    have hstep := attempt_killed (L := L) (f := e.before) hkilled
    rw [hvalid, Prod.mk.injEq] at hstep
    rw [completed_killed hstep.1, List.append_nil, hstep.2]
    have hthrough := healthy_through (c := e.input.call) (n := n) h fun m hm =>
      hwhole steps m (by rw [hkilled, hm])
    exact ⟨hthrough.cut steps h fun _ _ => trivial, nofun⟩
  | none =>
    have hthrough := healthy_through (c := e.input.call) (n := none) h fun m hm => by cases hm
    have hends := attempt_run hkilled hthrough
    rw [hvalid] at hends
    rcases hends with ⟨p, hp, hhealthy, hstate, hverify⟩ | ⟨err, herr, hhealthy, hrefused⟩
    · rw [completed_done hp]
      exact ⟨hhealthy, fun _ _ => ⟨p, hp, hstate, hverify⟩⟩
    · rw [completed_raised herr, List.append_nil]
      exact ⟨hhealthy, fun _ hacceptable => absurd hacceptable hrefused⟩

/-- The kernel heals: when no commit was killed with a part of its line in the ledger, the next
one that is not killed returns, nothing is wrong with the files, and they tell of every commit
that returned. -/
theorem heals (L : Libraries) (as : List Attempt) (a : Attempt)
    (hwhole : ∀ e ∈ trace (attempt L) (as ++ [a]) .empty, Whole e.input)
    (hkilled : a.killed = none) (ha : Acceptable L a.call) :
    let f := exec (attempt L) (as ++ [a]) .empty
    let done := completed (trace (attempt L) (as ++ [a]) .empty)
    (∃ p, (attempt L a (exec (attempt L) as .empty)).1 = .done p)
      ∧ verify L f = .ok [] ∧ done.length ≤ cycles f
      ∧ ∃ es, (f.ledger.getD .empty).read = es.map some
        ∧ ∃ recorded, recorded.Sublist es ∧ List.Forall₂ (IsEventOf L) done recorded := by
  intro f done
  have hinit : Healthy L (completed []) .empty :=
    ⟨le_refl _, [], isLog_empty, [], List.Sublist.refl _, .nil⟩
  have hbefore := history_invariant (attempt L) (C := fun e => Whole e.input)
    (I := fun past g => Healthy L (completed past) g) Files.empty hinit
    (fun past e hvalid hC hpast => (healthy_attempt hvalid hC hpast).1) as fun e he =>
      hwhole e (by rw [trace_concat]; exact List.mem_append_left _ he)
  have hlast := healthy_attempt (entry_valid (attempt L) a (exec (attempt L) as .empty))
    (hwhole _ (by rw [trace_concat]; exact List.mem_append_right _ (List.mem_singleton_self _)))
    hbefore
  obtain ⟨⟨hdone, es, hlog, hrecorded⟩, hreturned⟩ := hlast
  obtain ⟨p, hp, -, hverify⟩ := hreturned hkilled ha
  have hf : f = (entry (attempt L) a (exec (attempt L) as .empty)).after := exec_concat ..
  have htrace : done = completed (trace (attempt L) as .empty
      ++ [entry (attempt L) a (exec (attempt L) as .empty)]) := by
    rw [← trace_concat]
  rw [hf, htrace]
  exact ⟨⟨p, hp⟩, hverify, hdone, es, hlog.read, hrecorded⟩

-- == an example

/-- A commit that is killed when it has written its line, and one that is not. -/
theorem heals_first : verify Sample.libraries (exec (attempt Sample.libraries)
    [⟨Sample.call [], some (4, none)⟩, ⟨Sample.call qualified, none⟩] .empty) = .ok [] := by
  have hacceptable : Acceptable Sample.libraries (Sample.call qualified) := by
    obtain ⟨j, hj⟩ := exists_ok (r := judge Sample.libraries (Sample.call qualified))
      (by decide +kernel)
    exact ⟨j, hj, fun _ => encodable_py "r"⟩
  refine (heals Sample.libraries [⟨Sample.call [], some (4, none)⟩]
    ⟨Sample.call qualified, none⟩ (fun e he => ?_) rfl hacceptable).2.1
  have hinput := input_mem_of_mem_trace _ he
  intro steps n hkilled
  rcases List.mem_cons.mp hinput with hfirst | hrest
  · rw [hfirst] at hkilled
    cases hkilled
  · rw [List.mem_singleton.mp hrest] at hkilled
    cases hkilled

/-- A commit that is killed when the first character of its line is in the ledger: the next one
cannot read the ledger. -/
theorem not_healed : ¬ ∃ p, (attempt Sample.libraries ⟨Sample.call [], none⟩
    (exec (attempt Sample.libraries) [⟨Sample.call [], some (3, some 1)⟩] .empty)).1 = .done p := by
  have hraised : (match (attempt Sample.libraries ⟨Sample.call [], none⟩
      (exec (attempt Sample.libraries) [⟨Sample.call [], some (3, some 1)⟩] .empty)).1 with
      | .raised e => some e
      | _ => none) = some .jsonDecodeError := by
    decide +kernel
  rintro ⟨p, hp⟩
  rw [hp] at hraised
  cases hraised

end Centinal26.Persistent
