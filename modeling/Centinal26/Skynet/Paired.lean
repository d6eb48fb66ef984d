/-
The paired update of projects: all of them are looked at, then each is moved forward to the commit
its remote had, and when one of them cannot be, those that were are moved back.
-/
import Centinal26.Py.Value

namespace Centinal26.Skynet

open Py

variable {Commit : Type}

-- == git

structure Git (Commit : Type) where
  /-- there is a `.git` -/
  isRepo : PyStr → Bool
  /-- `status --porcelain` prints something -/
  dirty : PyStr → Bool
  /-- `rev-parse --abbrev-ref HEAD` -/
  branch : PyStr → PyStr
  /-- the commit of the remote's ref after the n-th `fetch`, or what the fetch prints -/
  fetch : Nat → Except PyStr Commit
  mergeBase : Commit → Commit → Option Commit
  /-- the n-th `merge --ff-only` is carried out -/
  merges : Nat → Bool
  /-- the commit of the remote's ref by the n-th merge -/
  origin : Nat → Commit
  /-- that commit is an ancestor of the head: already up to date -/
  upToDate : Commit → Commit → Bool

/-- The head after the n-th `merge --ff-only`, or nothing: it failed. -/
def Git.merge (G : Git Commit) (n : Nat) (head : Commit) : Option Commit :=
  if G.merges n = false then none
  else if G.upToDate (G.origin n) head then some head
  else some (G.origin n)

/-- The heads of the repositories, by their paths. -/
abbrev Heads (Commit : Type) := PyStr → Commit

def Heads.move (heads : Heads Commit) (path : PyStr) (commit : Commit) : Heads Commit :=
  fun p => if p = path then commit else heads p

theorem move_same (heads : Heads Commit) (path : PyStr) (commit : Commit) :
    heads.move path commit path = commit := if_pos rfl

theorem move_other (heads : Heads Commit) {path p : PyStr} (commit : Commit) (h : p ≠ path) :
    heads.move path commit p = heads p := if_neg h

variable [DecidableEq Commit]

-- == preflight

/-- Why a project is not updated. -/
inductive Refusal : Type
  | notGitRepo
  | dirtyWorktree
  | fetchFailed (stderr : PyStr)
  | mergeBaseFailed
  | localAhead
  | diverged

/-- What is known of a project that can be updated. -/
structure State (Commit : Type) where
  name : PyStr
  path : PyStr
  branch : PyStr
  /-- the action is `fast_forward`, not `unchanged` -/
  fastForward : Bool
  old : Commit
  remote : Commit
  new : Option Commit
  rolledBack : Bool

def gitState (G : Git Commit) (heads : Heads Commit) (n : Nat) (name path : PyStr) :
    Except Refusal (State Commit) :=
  if G.isRepo path = false then .error .notGitRepo
  else if G.dirty path then .error .dirtyWorktree
  else match G.fetch n with
    | .error stderr => .error (.fetchFailed stderr)
    | .ok remote =>
      let head := heads path
      if head = remote then
        .ok ⟨name, path, G.branch path, false, head, remote, none, false⟩
      else match G.mergeBase head remote with
        | none => .error .mergeBaseFailed
        | some base =>
          if base = head then
            .ok ⟨name, path, G.branch path, true, head, remote, none, false⟩
          else if base = remote then .error .localAhead
          else .error .diverged

def preflight (G : Git Commit) (heads : Heads Commit) :
    Nat → List (PyStr × PyStr) → List (Except Refusal (State Commit))
  | _, [] => []
  | n, (name, path) :: rest =>
    gitState G heads n name path :: preflight G heads (n + 1) rest

def allOk : List (Except Refusal (State Commit)) → Option (List (State Commit))
  | [] => some []
  | .error _ :: _ => none
  | .ok s :: rest => (allOk rest).map (s :: ·)

-- == promotion

def promote (G : Git Commit) (n : Nat) (s : State Commit) (heads : Heads Commit) :
    Bool × State Commit × Heads Commit :=
  if s.fastForward = false then (true, s, heads)
  else match G.merge n (heads s.path) with
    | none => (false, s, heads)
    | some new => (decide (new = s.remote), { s with new := some new }, heads.move s.path new)

def rollback (s : State Commit) (heads : Heads Commit) : State Commit × Heads Commit :=
  match s.fastForward, s.new with
  | true, some new =>
    if heads s.path = new then ({ s with rolledBack := true }, heads.move s.path s.old)
    else (s, heads)
  | _, _ => (s, heads)

/-- The rollbacks, the last project first. -/
def rollbackAll : List (State Commit) → Heads Commit → List (State Commit) × Heads Commit
  | [], heads => ([], heads)
  | s :: rest, heads =>
    let (rest, heads) := rollbackAll rest heads
    let (s, heads) := rollback s heads
    (s :: rest, heads)

/-- What the update returns. -/
inductive Result (Commit : Type) : Type
  | preflight (projects : List (Except Refusal (State Commit)))
  | promotion (failed : PyStr) (projects : List (State Commit))
  | complete (projects : List (State Commit))

def Result.ok : Result Commit → Bool
  | .complete _ => true
  | _ => false

/-- The promotions from the n-th project on, after those that are completed. -/
def promoteFrom (G : Git Commit) (n : Nat) (completed : List (State Commit)) :
    List (State Commit) → Heads Commit → Result Commit × Heads Commit
  | [], heads => (.complete completed, heads)
  | s :: rest, heads =>
    match promote G n s heads with
    | (true, s, heads) => promoteFrom G (n + 1) (completed ++ [s]) rest heads
    | (false, s, heads) =>
      let (completed, heads) := rollbackAll completed heads
      (.promotion s.name (completed ++ s :: rest), heads)

def pairedProjectUpdate (G : Git Commit) (projects : List (PyStr × PyStr))
    (heads : Heads Commit) : Result Commit × Heads Commit :=
  let states := preflight G heads 0 projects
  match allOk states with
  | none => (.preflight states, heads)
  | some states => promoteFrom G 0 [] states heads

-- == conditions

/-- The first promotion that does not come to the commit of the preflight leaves the head where it
can be moved back from: the merge fails, or leaves it at the commit of the preflight, or at one that
an earlier project of the same path came to. -/
def Steady (G : Git Commit) :
    Nat → List (PyStr × Commit) → List (State Commit) → Heads Commit → Prop
  | _, before, [], _ => ∀ a ∈ before, ∀ b ∈ before, a.1 = b.1 → a.2 = b.2
  | n, before, s :: rest, heads =>
    if s.fastForward = false then
      Steady G (n + 1) (before ++ [(s.path, s.remote)]) rest heads
    else match G.merge n (heads s.path) with
      | none => True
      | some new =>
        if new = s.remote then
          Steady G (n + 1) (before ++ [(s.path, s.remote)]) rest (heads.move s.path new)
        else new = s.old ∨ (s.path, new) ∈ before

/-- What the preflight saw of a project: a fast-forward goes somewhere. -/
structure Seen (start : Heads Commit) (s : State Commit) : Prop where
  old : s.old = start s.path
  unchanged : s.fastForward = false → s.remote = s.old
  forward : s.fastForward = true → s.remote ≠ s.old

/-- A completed project: its promotion came to the commit of the preflight. -/
structure Completed (start : Heads Commit) (s : State Commit) : Prop extends Seen start s where
  new : s.fastForward = true → s.new = some s.remote

/-- The path and the commit of a project. -/
def goal (s : State Commit) : PyStr × Commit := (s.path, s.remote)

/-- The head of a path is at the commit of one of its projects, or where it was. -/
def At (start : Heads Commit) (before : List (PyStr × Commit)) (heads : Heads Commit)
    (p : PyStr) : Prop :=
  (p, heads p) ∈ before ∨ (∀ a ∈ before, a.1 ≠ p) ∧ heads p = start p

-- == rollback

variable {start heads : Heads Commit} {s : State Commit} {G : Git Commit}

theorem rollback_head (heads : Heads Commit)
    (h : Completed start s) : (∀ p, p ≠ s.path → (rollback s heads).2 p = heads p)
      ∧ (heads s.path = s.remote → (rollback s heads).2 s.path = start s.path)
      ∧ (heads s.path ≠ s.remote → (rollback s heads).2 s.path = heads s.path) := by
  unfold rollback
  cases hff : s.fastForward with
  | false =>
    refine ⟨fun p _ => rfl, fun hat => ?_, fun _ => rfl⟩
    exact hat.trans ((h.unchanged hff).trans h.old)
  | true =>
    rw [h.new hff]
    dsimp only
    by_cases hat : heads s.path = s.remote
    · rw [if_pos hat]
      exact ⟨fun p hp => move_other _ _ hp, fun _ => (move_same _ _ _).trans h.old,
        fun hne => absurd hat hne⟩
    · rw [if_neg hat]
      exact ⟨fun p _ => rfl, fun heq => absurd heq hat, fun _ => rfl⟩

/-- The rollbacks move back the heads that are at the commit of one of the projects, and no
other. -/
theorem rollbackAll_head {cs : List (State Commit)} (heads : Heads Commit)
    (h : ∀ c ∈ cs, Completed start c) (p : PyStr) :
    ((p, heads p) ∈ cs.map goal → (rollbackAll cs heads).2 p = start p)
      ∧ ((p, heads p) ∉ cs.map goal → (rollbackAll cs heads).2 p = heads p) := by
  induction cs with
  | nil => exact ⟨fun hmem => absurd hmem List.not_mem_nil, fun _ => rfl⟩
  | cons c cs ih =>
    obtain ⟨hc, hcs⟩ := List.forall_mem_cons.mp h
    obtain ⟨hback, hkept⟩ := ih hcs
    obtain ⟨hother, hat, haway⟩ := rollback_head (rollbackAll cs heads).2 hc
    have hrolled : (rollbackAll (c :: cs) heads).2 = (rollback c (rollbackAll cs heads).2).2 := rfl
    rw [hrolled, List.map_cons, List.mem_cons]
    by_cases hp : p = c.path
    · subst hp
      by_cases hmem : (c.path, heads c.path) ∈ cs.map goal
      · -- a later project has moved it back already
        have hstart := hback hmem
        refine ⟨fun _ => ?_, fun hout => absurd (.inr hmem) hout⟩
        by_cases heq : (rollbackAll cs heads).2 c.path = c.remote
        · exact hat heq
        · exact (haway heq).trans hstart
      · have hsame := hkept hmem
        refine ⟨fun hin => ?_, fun hout => ?_⟩
        · rcases hin with hin | hin
          · exact hat (hsame.trans (congrArg Prod.snd hin))
          · exact absurd hin hmem
        · have hne : heads c.path ≠ c.remote := fun heq =>
            hout (.inl (Prod.ext rfl heq))
          exact (haway (hsame.symm ▸ hne)).trans hsame
    · have hne : (p, heads p) ≠ goal c := fun heq => hp (congrArg Prod.fst heq)
      rw [hother p hp]
      exact ⟨fun hin => hback (hin.resolve_left hne), fun hout => hkept fun hin => hout (.inr hin)⟩

-- == promotion

omit [DecidableEq Commit] in
theorem at_next {before : List (PyStr × Commit)}
    {heads' : Heads Commit} (h : ∀ p, At start before heads p) (hs : Seen start s)
    (hother : ∀ p, p ≠ s.path → heads' p = heads p)
    (hsame : heads' s.path = s.remote ∨ heads' s.path = heads s.path ∧ s.fastForward = false)
    (p : PyStr) : At start (before ++ [goal s]) heads' p := by
  by_cases hp : p = s.path
  · subst hp
    refine .inl ?_
    rcases hsame with heq | ⟨heq, hff⟩
    · rw [heq]
      exact List.mem_append_right _ (List.mem_singleton.mpr rfl)
    · rw [heq]
      rcases h s.path with hin | ⟨-, hstart⟩
      · exact List.mem_append_left _ hin
      · rw [hstart, ← hs.old, ← hs.unchanged hff]
        exact List.mem_append_right _ (List.mem_singleton.mpr rfl)
  · unfold At
    rw [hother p hp]
    refine (h p).imp (fun hin => List.mem_append_left _ hin) fun ⟨hout, hstart⟩ => ⟨?_, hstart⟩
    intro a ha
    rcases List.mem_append.mp ha with ha | ha
    · exact hout a ha
    · rw [List.mem_singleton.mp ha]
      exact fun heq => hp heq.symm

/-- What all the promotions leave, and what the rollbacks do. -/
def Outcome (r : Result Commit × Heads Commit) (states : List (State Commit)) : Prop :=
  (r.1.ok = true → ∀ s ∈ states, r.2 s.path = s.remote)
    ∧ (r.1.ok = false → ∀ s ∈ states, r.2 s.path = s.old)

theorem promoteFrom_outcome (G : Git Commit) :
    ∀ (states : List (State Commit)) (n : Nat) (completed : List (State Commit))
      (heads : Heads Commit),
    (∀ c ∈ completed, Completed start c) → (∀ s ∈ states, Seen start s) →
    (∀ p, At start (completed.map goal) heads p) →
    (Outcome (promoteFrom G n completed states heads) (completed ++ states)
      ↔ Steady G n (completed.map goal) states heads)
  | [], n, completed, heads, hcompleted, _, hat => by
    rw [promoteFrom, List.append_nil, Steady]
    constructor
    · rintro ⟨hall, -⟩ a ha b hb heq
      obtain ⟨c, hc, rfl⟩ := List.mem_map.mp ha
      obtain ⟨d, hd, rfl⟩ := List.mem_map.mp hb
      have hpath : c.path = d.path := heq
      exact (hall rfl c hc).symm.trans ((congrArg heads hpath).trans (hall rfl d hd))
    · refine fun hagree => ⟨fun _ c hc => ?_, nofun⟩
      have hmem : goal c ∈ completed.map goal := List.mem_map_of_mem hc
      rcases hat c.path with hin | ⟨hout, -⟩
      · exact hagree _ hin _ hmem rfl
      · exact absurd rfl (hout _ hmem)
  | s :: rest, n, completed, heads, hcompleted, hseen, hat => by
    obtain ⟨hs, hrest⟩ := List.forall_mem_cons.mp hseen
    -- the next project has come to its commit
    have hnext : ∀ {s' : State Commit} {heads' : Heads Commit}, goal s' = goal s →
        s'.old = s.old → Completed start s' →
        (∀ p, At start ((completed ++ [s']).map goal) heads' p) →
        (Outcome (promoteFrom G (n + 1) (completed ++ [s']) rest heads') (completed ++ s :: rest)
          ↔ Steady G (n + 1) (completed.map goal ++ [goal s]) rest heads') := by
      intro s' heads' hgoal hold hs' hat'
      have hstep := promoteFrom_outcome G rest (n + 1) (completed ++ [s']) heads'
        (List.forall_mem_append.mpr ⟨hcompleted, List.forall_mem_singleton.mpr hs'⟩) hrest hat'
      have hpath : s'.path = s.path := congrArg Prod.fst hgoal
      have hremote : s'.remote = s.remote := congrArg Prod.snd hgoal
      rw [List.map_append, List.map_singleton, hgoal] at hstep
      rw [← hstep]
      simp only [Outcome, List.append_assoc, List.singleton_append, List.forall_mem_append,
        List.forall_mem_cons, hpath, hremote, hold]
    -- the promotions end here
    have hend : ∀ heads' : Heads Commit, (∀ p, p ≠ s.path → heads' p = heads p) →
        (Outcome (.promotion s.name ((rollbackAll completed heads').1 ++ s :: rest),
            (rollbackAll completed heads').2) (completed ++ s :: rest)
          ↔ heads' s.path = s.old ∨ (s.path, heads' s.path) ∈ completed.map goal) := by
      intro heads' hother
      have hback : ∀ p, p ≠ s.path → (rollbackAll completed heads').2 p = start p := by
        intro p hp
        obtain ⟨hin, hout⟩ := rollbackAll_head heads' hcompleted p
        rw [hother p hp] at hin hout
        by_cases hmem : (p, heads p) ∈ completed.map goal
        · exact hin hmem
        · exact (hout hmem).trans ((hat p).resolve_left hmem).2
      obtain ⟨hin, hout⟩ := rollbackAll_head heads' hcompleted s.path
      constructor
      · rintro ⟨-, hall⟩
        have hold := hall rfl s (List.mem_append_right _ (List.mem_cons_self ..))
        by_cases hmem : (s.path, heads' s.path) ∈ completed.map goal
        · exact .inr hmem
        · exact .inl ((hout hmem).symm.trans hold)
      · intro hwhere
        have hown : (rollbackAll completed heads').2 s.path = start s.path := by
          by_cases hmem : (s.path, heads' s.path) ∈ completed.map goal
          · exact hin hmem
          · exact (hout hmem).trans ((hwhere.resolve_right hmem).trans hs.old)
        have hall : ∀ p, (rollbackAll completed heads').2 p = start p := fun p => by
          by_cases hp : p = s.path
          · exact hp ▸ hown
          · exact hback p hp
        refine ⟨nofun, fun _ t ht => (hall t.path).trans ?_⟩
        rcases List.mem_append.mp ht with ht | ht
        · exact (hcompleted t ht).old.symm
        · exact (hseen t ht).old.symm
    unfold promoteFrom Steady promote
    cases hff : s.fastForward with
    | false =>
      simp only [if_true]
      refine hnext rfl rfl ⟨hs, fun h => ?_⟩ fun p => ?_
      · rw [hff] at h
        cases h
      · rw [List.map_append]
        exact at_next hat hs (fun _ _ => rfl) (.inr ⟨rfl, hff⟩) p
    | true =>
      simp only [Bool.true_eq_false, if_false]
      cases hmerge : G.merge n (heads s.path) with
      | none =>
        dsimp only
        rw [hend heads fun _ _ => rfl]
        refine iff_of_true ?_ trivial
        rcases hat s.path with hin | ⟨-, hstart⟩
        · exact .inr hin
        · exact .inl (hstart.trans hs.old.symm)
      | some new =>
        dsimp only
        by_cases hnew : new = s.remote
        · rw [decide_eq_true hnew, if_pos hnew]
          have hseen' : Seen start { s with new := some new, fastForward := true } :=
            ⟨hs.old, nofun, fun _ => hs.forward hff⟩
          refine hnext rfl rfl ⟨hseen', fun _ => ?_⟩ fun p => ?_
          · exact congrArg some hnew
          · rw [List.map_append]
            exact at_next hat hs (fun p hp => move_other _ _ hp)
              (.inl ((move_same _ _ _).trans hnew)) p
        · rw [decide_eq_false hnew, if_neg hnew]
          have hmoved := hend (heads.move s.path new) fun p hp => move_other _ _ hp
          rw [move_same] at hmoved
          exact hmoved

-- == preflight

theorem gitState_seen {n : Nat} {name path : PyStr} (h : gitState G heads n name path = .ok s) :
    s.path = path ∧ Seen heads s := by
  unfold gitState at h
  split at h
  · cases h
  split at h
  · cases h
  split at h
  · cases h
  · rename_i remote _
    dsimp only at h
    split at h
    · rename_i hsame
      cases h
      exact ⟨rfl, rfl, fun _ => hsame.symm, nofun⟩
    · rename_i hdiff
      split at h
      · cases h
      split at h
      · cases h
        exact ⟨rfl, rfl, nofun, fun _ heq => hdiff heq.symm⟩
      · split at h <;> cases h

theorem allOk_preflight :
    ∀ {projects : List (PyStr × PyStr)} {n : Nat} {states : List (State Commit)},
    allOk (preflight G heads n projects) = some states →
    states.map State.path = projects.map Prod.snd ∧ (∀ s ∈ states, Seen heads s)
      ∧ preflight G heads n projects = states.map Except.ok
  | [], n, states, h => by
    cases h
    exact ⟨rfl, fun s hs => absurd hs List.not_mem_nil, rfl⟩
  | (name, path) :: rest, n, states, h => by
    unfold preflight at h ⊢
    cases hstate : gitState G heads n name path with
    | error e =>
      rw [hstate] at h
      cases h
    | ok s =>
      rw [hstate, allOk, Option.map_eq_some_iff] at h
      obtain ⟨states', hrest, rfl⟩ := h
      obtain ⟨hpaths, hseen, heq⟩ := allOk_preflight hrest
      obtain ⟨hpath, hs⟩ := gitState_seen hstate
      refine ⟨?_, List.forall_mem_cons.mpr ⟨hs, hseen⟩, ?_⟩
      · rw [List.map_cons, List.map_cons, hpaths, hpath]
      · rw [heq, List.map_cons]

-- == all or nothing

/-- The update is all or nothing: every project at the commit the preflight saw at its remote, or
every project where it was. -/
def AllOrNothing (G : Git Commit) (projects : List (PyStr × PyStr)) (heads : Heads Commit) : Prop :=
  let (result, after) := pairedProjectUpdate G projects heads
  (result.ok = true → ∀ s, .ok s ∈ preflight G heads 0 projects → after s.path = s.remote)
    ∧ (result.ok = false → ∀ path ∈ projects.map Prod.snd, after path = heads path)

variable {projects : List (PyStr × PyStr)}

theorem pairedProjectUpdate_refused (h : allOk (preflight G heads 0 projects) = none) :
    pairedProjectUpdate G projects heads = (.preflight (preflight G heads 0 projects), heads) := by
  simp only [pairedProjectUpdate, h]

theorem pairedProjectUpdate_ready {states : List (State Commit)}
    (h : allOk (preflight G heads 0 projects) = some states) :
    pairedProjectUpdate G projects heads = promoteFrom G 0 [] states heads := by
  simp only [pairedProjectUpdate, h]

/-- The update is all or nothing unless a promotion has moved a head to another commit. -/
theorem pairedProjectUpdate_allOrNothing (G : Git Commit) (projects : List (PyStr × PyStr))
    (heads : Heads Commit) : AllOrNothing G projects heads
      ↔ ∀ states, allOk (preflight G heads 0 projects) = some states →
        Steady G 0 [] states heads := by
  unfold AllOrNothing
  cases hstates : allOk (preflight G heads 0 projects) with
  | none =>
    rw [pairedProjectUpdate_refused hstates]
    exact iff_of_true ⟨nofun, fun _ _ _ => rfl⟩ nofun
  | some states =>
    rw [pairedProjectUpdate_ready hstates]
    obtain ⟨hpaths, hseen, heq⟩ := allOk_preflight hstates
    have houtcome := promoteFrom_outcome G states 0 [] heads
      (fun c hc => absurd hc List.not_mem_nil) hseen
        (fun p => .inr ⟨fun a ha => absurd ha List.not_mem_nil, rfl⟩)
    rw [List.nil_append, List.map_nil] at houtcome
    simp only [heq, List.mem_map, Except.ok.injEq, exists_eq_right, ← hpaths,
      Option.some.injEq, forall_eq']
    rw [← houtcome]
    refine and_congr Iff.rfl (imp_congr Iff.rfl ?_)
    refine ⟨fun h s hs => (h _ ⟨s, hs, rfl⟩).trans (hseen s hs).old.symm, ?_⟩
    rintro h _ ⟨s, hs, rfl⟩
    exact (h s hs).trans (hseen s hs).old

-- == samples

section Sample

/-- One project whose remote is at 1 when it is fetched and at `origin` when it is merged. -/
private def remoteAt (origin : Nat) : Git Nat :=
  { isRepo := fun _ => true, dirty := fun _ => false, branch := fun _ => py "main",
    fetch := fun _ => .ok 1, mergeBase := fun _ _ => some 0, merges := fun _ => true,
    origin := fun _ => origin, upToDate := fun _ _ => false }

/-- The remote moves between the preflight and the merge: the update fails, and the head stays at
the new commit. -/
theorem allOrNothing_moved : ¬ AllOrNothing (remoteAt 2) [(py "a", py "/a")] (fun _ => 0) :=
  fun h => absurd (h.2 rfl (py "/a") (List.mem_singleton.mpr rfl)) (by decide)

end Sample

end Centinal26.Skynet
