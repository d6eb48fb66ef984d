/-
Approved calls of the Hermes bridge: tokens in the bridge's database, jobs in the engine's queue,
and any number of callers that take turns. A call here is one that `call` hands to
`execute_local`.
-/
import Centinal26.Py.Value
import Mathlib.Data.List.Nodup

namespace Centinal26.Hermes.Approval

open Py

-- == grants

structure GrantRow where
  tokenHash : PyStr
  capability : PyStr
  expiresAt : Rat
  usedAt : Option Rat

def issueUserGrant (available : List PyStr) (hash capability : PyStr) (ttl : Int) (now : Rat)
    (grants : List GrantRow) : Except PyErr (List GrantRow) :=
  if ttl < 30 ∨ 3600 < ttl then
    .error (.valueError "ttl must be between 30 and 3600 seconds")
  else if !isOneOf capability available then
    .error (.valueError ("unknown C05 capability: " ++ String.ofList (capability.map Char.ofNat)))
  else if grants.any fun g => decide (g.tokenHash = hash) then .error .integrityError
  else .ok (grants ++ [⟨hash, capability, now + ttl, none⟩])

def consumeGrant (capability hash : PyStr) (now : Rat) (grants : List GrantRow) :
    Except PyErr (List GrantRow) :=
  match grants.find? fun g => decide (g.tokenHash = hash) with
  | none => .error (.permissionError "approval token not found")
  | some g =>
    if g.capability ≠ capability then
      .error (.permissionError "approval token capability mismatch")
    else if g.usedAt.isSome then .error (.permissionError "approval token already used")
    else if g.expiresAt ≤ now then .error (.permissionError "approval token expired")
    else
      .ok (grants.map fun g =>
        if g.tokenHash = hash then { g with usedAt := some now } else g)

-- == jobs

inductive JobState : Type
  | queued
  | rejected
  | failed
  | executed
  | verificationFailed
  | verified
deriving DecidableEq

/-- A row of `jobs`, named by the call that submitted it. -/
structure Job where
  call : Nat
  capability : PyStr
  state : JobState
  createdAt : Rat
deriving DecidableEq

/-- `ORDER BY created_at LIMIT 1`. -/
def oldest : List Job → Option Job
  | [] => none
  | j :: rest =>
    match oldest rest with
    | none => some j
    | some k => if j.createdAt ≤ k.createdAt then some j else some k

def nextJob (jobs : List Job) : Option Job :=
  oldest (jobs.filter fun j => decide (j.state = .queued))

def transition (call : Nat) (state : JobState) (jobs : List Job) : List Job :=
  jobs.map fun j => if j.call = call then { j with state } else j

-- == calls

/-- What a call is given: `isObject`, whether its input is one; the token by its hash, unless it
is empty. -/
structure Request where
  capability : PyStr
  isObject : Bool
  approvalToken : Option PyStr
  userApproved : Bool

/-- How far a call is. -/
inductive Phase : Type
  | checked
  | submitted
  | picked (job : Option Job)
  | ran
  | returned (state : JobState)
  | raised
deriving DecidableEq

/-- A call, and the token it has consumed. -/
structure Call where
  request : Request
  token : Option PyStr
  phase : Phase

/-- How `run_once` ends: with a state it has written, or by letting something out, after an
execution or before, with the state it wrote last. -/
inductive RunEnd : Type
  | rejected
  | failed
  | verificationFailed
  | verified
  | escaped (executed : Bool) (state : Option JobState)

def RunEnd.executes : RunEnd → Bool
  | .rejected => false
  | .failed | .verificationFailed | .verified => true
  | .escaped executed _ => executed

def RunEnd.state : RunEnd → Option JobState
  | .rejected => some .rejected
  | .failed => some .failed
  | .verificationFailed => some .verificationFailed
  | .verified => some .verified
  | .escaped _ state => state

def RunEnd.phase : RunEnd → Phase
  | .escaped _ _ => .raised
  | _ => .ran

def RunEnd.jobs (ending : RunEnd) (call : Nat) (jobs : List Job) : List Job :=
  match ending.state with
  | some state => transition call state jobs
  | none => jobs

/-- The two databases and the calls; the executions, each the job's call and its capability, and
the runs, each the call that ran and the call of the job it ran. -/
structure System where
  grants : List GrantRow
  jobs : List Job
  calls : List Call
  executions : List (Nat × PyStr)
  runs : List (Nat × Nat)

def System.empty : System := ⟨[], [], [], [], []⟩

def autoCapabilities : List PyStr := [py "system.echo"]

def isAuto (capability : PyStr) : Bool := isOneOf capability autoCapabilities

/-- One thing that happens. -/
inductive Action : Type
  | issue (available : List PyStr) (hash capability : PyStr) (ttl : Int) (now : Rat)
  /-- a call, up to its job: `registered`, if the engine has the capability -/
  | start (request : Request) (registered : Bool) (now : Rat)
  /-- the job is inserted, and the engine's audit record after it -/
  | submit (call : Nat) (inserted audited : Bool) (now : Rat)
  | pick (call : Nat)
  | run (call : Nat) (ending : RunEnd)
  /-- the row is read; `intact`, if the rest of `execute_local` goes through -/
  | finish (call : Nat) (intact : Bool)

/-- The checks of `execute_local`: the token that is consumed, and the grants after it. -/
def check (request : Request) (registered : Bool) (now : Rat) (grants : List GrantRow) :
    Except PyErr (Option PyStr × List GrantRow) :=
  if !request.isObject then .error (.valueError "input must be an object")
  else if !registered then
    .error (.keyError (py "C05 capability is not registered: " ++ request.capability))
  else if isAuto request.capability then .ok (none, grants)
  else if !request.userApproved then
    .error (.permissionError ("non-A0 capability requires direct user CLI approval; "
      ++ "model-callable Hermes tools cannot self-authorize it"))
  else
    match request.approvalToken with
    | none => .error (.permissionError "approval token required")
    | some token => (consumeGrant request.capability token now grants).map fun g => (some token, g)

def System.goOn (s : System) (n : Nat) (c : Call) (phase : Phase) : System :=
  { s with calls := s.calls.set n { c with phase } }

/-- One step; what cannot happen changes nothing. -/
def step (s : System) : Action → System
  | .issue available hash capability ttl now =>
    match issueUserGrant available hash capability ttl now s.grants with
    | .ok grants => { s with grants }
    | .error _ => s
  | .start request registered now =>
    match check request registered now s.grants with
    | .ok r => { s with grants := r.2, calls := s.calls ++ [⟨request, r.1, .checked⟩] }
    | .error _ => { s with calls := s.calls ++ [⟨request, none, .raised⟩] }
  | .submit n inserted audited now =>
    match s.calls[n]? with
    | some c =>
      match c.phase with
      | .checked =>
        if inserted then
          { s.goOn n c (if audited then .submitted else .raised) with
            jobs := s.jobs ++ [⟨n, c.request.capability, .queued, now⟩] }
        else s.goOn n c .raised
      | _ => s
    | none => s
  | .pick n =>
    match s.calls[n]? with
    | some c =>
      match c.phase with
      | .submitted => s.goOn n c (.picked (nextJob s.jobs))
      | _ => s
    | none => s
  | .run n ending =>
    match s.calls[n]? with
    | some c =>
      match c.phase with
      | .picked none => s.goOn n c .ran
      | .picked (some j) =>
        { s.goOn n c ending.phase with
          jobs := ending.jobs j.call s.jobs
          executions := if ending.executes then s.executions ++ [(j.call, j.capability)]
            else s.executions
          runs := s.runs ++ [(n, j.call)] }
      | _ => s
    | none => s
  | .finish n intact =>
    match s.calls[n]? with
    | some c =>
      match c.phase with
      | .ran =>
        match s.jobs.find? fun j => decide (j.call = n) with
        | some j => s.goOn n c (if intact then .returned j.state else .raised)
        | none => s.goOn n c .raised
      | _ => s
    | none => s

/-- A call that turns to the engine finds its own job. -/
def Harmless (s : System) : Action → Prop
  | .pick n => ∃ j, nextJob s.jobs = some j ∧ j.call = n
  | _ => True

/-- A run of harmless steps. -/
inductive Reaches : System → Prop
  | start : Reaches .empty
  | step {s} (a : Action) (h : Reaches s) (hharmless : Harmless s a) : Reaches (step s a)

-- == invariant

/-- The call is past `run_once`, or will never come to it. -/
def Phase.isPast : Phase → Bool
  | .ran | .returned _ | .raised => true
  | _ => false

/-- The call was allowed to submit its job. -/
def Passed (c : Call) : Prop :=
  isAuto c.request.capability = true ∨ c.request.userApproved = true ∧ c.token.isSome = true

def Spent (grants : List GrantRow) (token capability : PyStr) : Prop :=
  ∃ g ∈ grants, g.tokenHash = token ∧ g.capability = capability
    ∧ ∃ used, g.usedAt = some used ∧ used < g.expiresAt

/-- What holds in every state that harmless steps reach. -/
structure Kept (s : System) : Prop where
  hashes : (s.grants.map GrantRow.tokenHash).Nodup
  spent : ∀ (n : Nat) (c : Call) (token : PyStr), s.calls[n]? = some c →
    c.token = some token → Spent s.grants token c.request.capability
  apart : ∀ (n m : Nat) (c d : Call) (token : PyStr), s.calls[n]? = some c →
    s.calls[m]? = some d → c.token = some token → d.token = some token → n = m
  passed : ∀ (n : Nat) (c : Call), s.calls[n]? = some c → c.phase = .checked → Passed c
  submitted : ∀ j ∈ s.jobs, ∃ c, s.calls[j.call]? = some c
    ∧ c.request.capability = j.capability ∧ Passed c ∧ c.phase ≠ .checked
  picked : ∀ (n : Nat) (c : Call) (job : Option Job), s.calls[n]? = some c → c.phase = .picked job →
    ∃ j, job = some j ∧ j.call = n ∧ ∃ k ∈ s.jobs, k.call = n ∧ k.capability = j.capability
  executed : ∀ e ∈ s.executions, ∃ c, s.calls[e.1]? = some c ∧ c.phase.isPast = true
    ∧ c.request.capability = e.2 ∧ Passed c
  once : (s.executions.map Prod.fst).Nodup
  ran : ∀ (n : Nat) (c : Call), s.calls[n]? = some c → c.phase = .ran →
    (n, n) ∈ s.runs ∧ ∀ j ∈ s.jobs, j.call = n → j.state ≠ .queued
  returned : ∀ (n : Nat) (c : Call) (state : JobState), s.calls[n]? = some c →
    c.phase = .returned state →
    (n, n) ∈ s.runs ∧ state ≠ .queued ∧ ∃ j ∈ s.jobs, j.call = n ∧ j.state = state

section Steps

variable {s : System} {n : Nat} {c : Call}

theorem getElem?_goOn (hc : s.calls[n]? = some c) (phase : Phase) (m : Nat) :
    (s.goOn n c phase).calls[m]? = if m = n then some { c with phase } else s.calls[m]? := by
  obtain ⟨hn, -⟩ := List.getElem?_eq_some_iff.mp hc
  show (s.calls.set n _)[m]? = _
  rw [List.getElem?_set]
  by_cases h : n = m
  · rw [if_pos h, if_pos h.symm, if_pos hn]
  · rw [if_neg h, if_neg (Ne.symm h)]

variable {m : Nat} {d e : Call}

theorem goOn_back (hc : s.calls[n]? = some c) {phase : Phase}
    (hd : (s.goOn n c phase).calls[m]? = some d) :
    ∃ d', s.calls[m]? = some d' ∧ d.request = d'.request ∧ d.token = d'.token
      ∧ (m = n ∧ d.phase = phase ∨ m ≠ n ∧ d = d') := by
  rw [getElem?_goOn hc] at hd
  split at hd
  · next hm =>
    cases hd
    exact ⟨c, hm ▸ hc, rfl, rfl, .inl ⟨hm, rfl⟩⟩
  · next hm => exact ⟨d, hd, rfl, rfl, .inr ⟨hm, rfl⟩⟩

theorem goOn_to (hc : s.calls[n]? = some c) (phase : Phase) (hd : s.calls[m]? = some d) :
    ∃ d', (s.goOn n c phase).calls[m]? = some d' ∧ d'.request = d.request ∧ d'.token = d.token
      ∧ (m = n ∧ d'.phase = phase ∨ m ≠ n ∧ d' = d) := by
  rw [getElem?_goOn hc]
  by_cases hm : m = n
  · subst hm
    cases hc.symm.trans hd
    exact ⟨{ c with phase }, if_pos rfl, rfl, rfl, .inl ⟨rfl, rfl⟩⟩
  · exact ⟨d, (if_neg hm).trans hd, rfl, rfl, .inr ⟨hm, rfl⟩⟩

theorem Passed.congr {c : Call} (h : Passed c) (hrequest : d.request = c.request)
    (htoken : d.token = c.token) : Passed d := by
  unfold Passed at h ⊢
  rw [hrequest, htoken]
  exact h

theorem Kept.goOn (h : Kept s) (hc : s.calls[n]? = some c) {phase : Phase}
    (hchecked : phase ≠ .checked) (hpicked : ∀ job, phase = .picked job →
      ∃ j, job = some j ∧ j.call = n ∧ ∃ k ∈ s.jobs, k.call = n ∧ k.capability = j.capability)
    (hran : phase = .ran → (n, n) ∈ s.runs ∧ ∀ j ∈ s.jobs, j.call = n → j.state ≠ .queued)
    (hreturned : ∀ state, phase = .returned state →
      (n, n) ∈ s.runs ∧ state ≠ .queued ∧ ∃ j ∈ s.jobs, j.call = n ∧ j.state = state)
    (hpast : c.phase.isPast = true → phase.isPast = true) : Kept (s.goOn n c phase) where
  hashes := h.hashes
  spent := by
    intro m d token hd htoken
    obtain ⟨d', hd', hrequest, htoken', -⟩ := goOn_back hc hd
    rw [hrequest]
    exact h.spent m d' token hd' (htoken' ▸ htoken)
  apart := by
    intro m k d e token hd he hdt het
    obtain ⟨d', hd', -, hdt', -⟩ := goOn_back hc hd
    obtain ⟨e', he', -, het', -⟩ := goOn_back hc he
    exact h.apart m k d' e' token hd' he' (hdt' ▸ hdt) (het' ▸ het)
  passed := by
    intro m d hd hphase
    obtain ⟨d', hd', hrequest, htoken, ⟨-, hnew⟩ | ⟨-, rfl⟩⟩ := goOn_back hc hd
    · exact absurd (hnew.symm.trans hphase) hchecked
    · exact h.passed m d hd' hphase
  submitted := by
    intro j hj
    obtain ⟨d, hd, hcapability, hpassed, hphase⟩ := h.submitted j hj
    obtain ⟨d', hd', hrequest, htoken, hcase⟩ := goOn_to hc phase hd
    refine ⟨d', hd', hrequest ▸ hcapability, hpassed.congr hrequest htoken, ?_⟩
    rcases hcase with ⟨-, hnew⟩ | ⟨-, rfl⟩
    · exact fun heq => hchecked (hnew.symm.trans heq)
    · exact hphase
  picked := by
    intro m d job hd hphase
    obtain ⟨d', hd', -, -, ⟨rfl, hnew⟩ | ⟨-, rfl⟩⟩ := goOn_back hc hd
    · exact hpicked job (hnew.symm.trans hphase)
    · exact h.picked m d job hd' hphase
  executed := by
    intro e he
    obtain ⟨d, hd, hphase, hcapability, hpassed⟩ := h.executed e he
    obtain ⟨d', hd', hrequest, htoken, hcase⟩ := goOn_to hc phase hd
    refine ⟨d', hd', ?_, hrequest ▸ hcapability, hpassed.congr hrequest htoken⟩
    rcases hcase with ⟨hn, hnew⟩ | ⟨-, rfl⟩
    · rw [hnew]
      rw [hn] at hd
      cases hc.symm.trans hd
      exact hpast hphase
    · exact hphase
  once := h.once
  ran := by
    intro m d hd hphase
    obtain ⟨d', hd', -, -, ⟨rfl, hnew⟩ | ⟨-, rfl⟩⟩ := goOn_back hc hd
    · exact hran (hnew.symm.trans hphase)
    · exact h.ran m d hd' hphase
  returned := by
    intro m d state hd hphase
    obtain ⟨d', hd', -, -, ⟨rfl, hnew⟩ | ⟨-, rfl⟩⟩ := goOn_back hc hd
    · exact hreturned state (hnew.symm.trans hphase)
    · exact h.returned m d state hd' hphase

theorem Kept.raise (h : Kept s) (hc : s.calls[n]? = some c) : Kept (s.goOn n c .raised) :=
  h.goOn hc nofun nofun nofun nofun fun _ => rfl

theorem Kept.insert (h : Kept s) (hc : s.calls[n]? = some c) (hpassed : Passed c)
    (hchecked : c.phase ≠ .checked) (hran : c.phase ≠ .ran) (now : Rat) :
    Kept { s with jobs := s.jobs ++ [⟨n, c.request.capability, .queued, now⟩] } where
  hashes := h.hashes
  spent := h.spent
  apart := h.apart
  passed := h.passed
  submitted := by
    intro j hj
    rcases List.mem_append.mp hj with hj | hj
    · exact h.submitted j hj
    · rw [List.mem_singleton.mp hj]
      exact ⟨c, hc, rfl, hpassed, hchecked⟩
  picked := by
    intro m d job hd hphase
    obtain ⟨j, hjob, hcall, k, hk, hrest⟩ := h.picked m d job hd hphase
    exact ⟨j, hjob, hcall, k, List.mem_append_left _ hk, hrest⟩
  executed := h.executed
  once := h.once
  ran := by
    intro m d hd hphase
    refine ⟨(h.ran m d hd hphase).1, fun j hj hcall => ?_⟩
    rcases List.mem_append.mp hj with hj | hj
    · exact (h.ran m d hd hphase).2 j hj hcall
    · rw [List.mem_singleton.mp hj] at hcall
      have hm : n = m := hcall
      subst hm
      cases hc.symm.trans hd
      exact absurd hphase hran
  returned := by
    intro m d state hd hphase
    obtain ⟨hrun, hstate, j, hj, hrest⟩ := h.returned m d state hd hphase
    exact ⟨hrun, hstate, j, List.mem_append_left _ hj, hrest⟩

theorem mem_transition {state : JobState} {jobs : List Job} {j : Job}
    (h : j ∈ transition n state jobs) : ∃ k ∈ jobs, j.call = k.call ∧ j.capability = k.capability
      ∧ (k.call = n ∧ j.state = state ∨ k.call ≠ n ∧ j = k) := by
  obtain ⟨k, hk, heq⟩ := List.mem_map.mp h
  split at heq
  · next hcall =>
    subst heq
    exact ⟨k, hk, rfl, rfl, .inl ⟨hcall, rfl⟩⟩
  · next hcall =>
    subst heq
    exact ⟨k, hk, rfl, rfl, .inr ⟨hcall, rfl⟩⟩

theorem transition_mem (n : Nat) (state : JobState) {jobs : List Job} {k : Job} (h : k ∈ jobs) :
    ∃ j ∈ transition n state jobs, j.call = k.call ∧ j.capability = k.capability
      ∧ (k.call ≠ n → j = k) := by
  refine ⟨_, List.mem_map_of_mem h, ?_⟩
  split
  · next hcall => exact ⟨rfl, rfl, fun hne => absurd hcall hne⟩
  · exact ⟨rfl, rfl, fun _ => rfl⟩

theorem Kept.transition (h : Kept s) (hc : s.calls[n]? = some c) (hphase : c.phase.isPast = false)
    (state : JobState) : Kept { s with jobs := transition n state s.jobs } where
  hashes := h.hashes
  spent := h.spent
  apart := h.apart
  passed := h.passed
  submitted := by
    intro j hj
    obtain ⟨k, hk, hcall, hcapability, -⟩ := mem_transition hj
    rw [hcall, hcapability]
    exact h.submitted k hk
  picked := by
    intro m d job hd hpicked
    obtain ⟨j, hjob, hcall, k, hk, hkcall, hkcapability⟩ := h.picked m d job hd hpicked
    obtain ⟨k', hk', hcall', hcapability', -⟩ := transition_mem n state hk
    exact ⟨j, hjob, hcall, k', hk', hcall'.trans hkcall, hcapability'.trans hkcapability⟩
  executed := h.executed
  once := h.once
  ran := by
    intro m d hd hran
    refine ⟨(h.ran m d hd hran).1, fun j hj hcall => ?_⟩
    obtain ⟨k, hk, hkcall, -, ⟨hn, -⟩ | ⟨-, rfl⟩⟩ := mem_transition hj
    · have hm : m = n := hcall.symm.trans (hkcall.trans hn)
      subst hm
      cases hc.symm.trans hd
      rw [hran] at hphase
      cases hphase
    · exact (h.ran m d hd hran).2 j hk hcall
  returned := by
    intro m d st hd hreturned
    obtain ⟨hrun, hstate, j, hj, hcall, hjstate⟩ := h.returned m d st hd hreturned
    refine ⟨hrun, hstate, ?_⟩
    obtain ⟨j', hj', hcall', -, hsame⟩ := transition_mem n state hj
    by_cases hn : j.call = n
    · have hm : m = n := hcall.symm.trans hn
      subst hm
      cases hc.symm.trans hd
      rw [hreturned] at hphase
      cases hphase
    · exact ⟨j', hj', hcall'.trans hcall, (hsame hn) ▸ hjstate⟩

theorem Kept.execute (h : Kept s) (hc : s.calls[n]? = some c) (hphase : c.phase.isPast = true)
    (hpassed : Passed c) (hnew : n ∉ s.executions.map Prod.fst) :
    Kept { s with executions := s.executions ++ [(n, c.request.capability)] } where
  hashes := h.hashes
  spent := h.spent
  apart := h.apart
  passed := h.passed
  submitted := h.submitted
  picked := h.picked
  executed := by
    intro e he
    rcases List.mem_append.mp he with he | he
    · exact h.executed e he
    · rw [List.mem_singleton.mp he]
      exact ⟨c, hc, hphase, rfl, hpassed⟩
  once := by
    show ((s.executions ++ [(n, c.request.capability)]).map Prod.fst).Nodup
    rw [List.map_append, List.map_singleton, List.nodup_append]
    refine ⟨h.once, List.nodup_cons.mpr ⟨List.not_mem_nil, .nil⟩, fun a ha b hb heq => ?_⟩
    have ha' : a = n := heq.trans (List.mem_singleton.mp hb)
    exact hnew (ha' ▸ ha)
  ran := h.ran
  returned := h.returned

theorem Kept.note (h : Kept s) (r : Nat × Nat) : Kept { s with runs := s.runs ++ [r] } where
  hashes := h.hashes
  spent := h.spent
  apart := h.apart
  passed := h.passed
  submitted := h.submitted
  picked := h.picked
  executed := h.executed
  once := h.once
  ran := fun m d hd hphase =>
    ⟨List.mem_append_left _ (h.ran m d hd hphase).1, (h.ran m d hd hphase).2⟩
  returned := fun m d state hd hphase =>
    ⟨List.mem_append_left _ (h.returned m d state hd hphase).1, (h.returned m d state hd hphase).2⟩

theorem Kept.regrant (h : Kept s) {grants : List GrantRow}
    (hhashes : (grants.map GrantRow.tokenHash).Nodup)
    (hspent : ∀ token capability, Spent s.grants token capability →
      Spent grants token capability) : Kept { s with grants } where
  hashes := hhashes
  spent := fun m d token hd htoken => hspent token _ (h.spent m d token hd htoken)
  apart := h.apart
  passed := h.passed
  submitted := h.submitted
  picked := h.picked
  executed := h.executed
  once := h.once
  ran := h.ran
  returned := h.returned

theorem getElem?_append_one (hd : (s.calls ++ [e])[m]? = some d) :
    s.calls[m]? = some d ∨ m = s.calls.length ∧ d = e := by
  rw [List.getElem?_append] at hd
  split at hd
  · exact .inl hd
  · next hlength =>
    obtain ⟨hm, heq⟩ := List.getElem?_eq_some_iff.mp hd
    rw [List.length_singleton] at hm
    exact .inr ⟨by omega, by simpa using heq.symm⟩

theorem getElem?_append_old (hd : s.calls[m]? = some d) : (s.calls ++ [e])[m]? = some d :=
  (List.getElem?_append_left (List.getElem?_eq_some_iff.mp hd).1).trans hd

theorem Kept.call (h : Kept s) (hphase : e.phase = .checked ∧ Passed e ∨ e.phase = .raised)
    (htoken : ∀ token, e.token = some token → Spent s.grants token e.request.capability
      ∧ ∀ (m : Nat) (d : Call), s.calls[m]? = some d → d.token ≠ some token) :
    Kept { s with calls := s.calls ++ [e] } where
  hashes := h.hashes
  spent := by
    intro m d token hd ht
    rcases getElem?_append_one hd with hd | ⟨-, rfl⟩
    · exact h.spent m d token hd ht
    · exact (htoken token ht).1
  apart := by
    intro m k c d token hc hd hct hdt
    rcases getElem?_append_one hc with hold | ⟨hm, heq⟩ <;>
      rcases getElem?_append_one hd with hold' | ⟨hk, heq'⟩
    · exact h.apart m k c d token hold hold' hct hdt
    · exact absurd hct ((htoken token (heq' ▸ hdt)).2 m c hold)
    · exact absurd hdt ((htoken token (heq ▸ hct)).2 k d hold')
    · exact hm.trans hk.symm
  passed := by
    intro m d hd hchecked
    rcases getElem?_append_one hd with hd | ⟨-, rfl⟩
    · exact h.passed m d hd hchecked
    · rcases hphase with ⟨-, hpassed⟩ | hraised
      · exact hpassed
      · cases hraised.symm.trans hchecked
  submitted := by
    intro j hj
    obtain ⟨d, hd, hrest⟩ := h.submitted j hj
    exact ⟨d, getElem?_append_old hd, hrest⟩
  picked := by
    intro m d job hd hpicked
    rcases getElem?_append_one hd with hd | ⟨-, rfl⟩
    · exact h.picked m d job hd hpicked
    · rcases hphase with ⟨hchecked, -⟩ | hraised
      · cases hchecked.symm.trans hpicked
      · cases hraised.symm.trans hpicked
  executed := by
    intro x hx
    obtain ⟨d, hd, hrest⟩ := h.executed x hx
    exact ⟨d, getElem?_append_old hd, hrest⟩
  once := h.once
  ran := by
    intro m d hd hran
    rcases getElem?_append_one hd with hd | ⟨-, rfl⟩
    · exact h.ran m d hd hran
    · rcases hphase with ⟨hchecked, -⟩ | hraised
      · cases hchecked.symm.trans hran
      · cases hraised.symm.trans hran
  returned := by
    intro m d state hd hreturned
    rcases getElem?_append_one hd with hd | ⟨-, rfl⟩
    · exact h.returned m d state hd hreturned
    · rcases hphase with ⟨hchecked, -⟩ | hraised
      · cases hchecked.symm.trans hreturned
      · cases hraised.symm.trans hreturned

end Steps

-- == steps

theorem mem_oldest {jobs : List Job} {j : Job} (h : oldest jobs = some j) : j ∈ jobs := by
  induction jobs generalizing j with
  | nil => cases h
  | cons k rest ih =>
    rw [oldest] at h
    split at h
    · cases h
      exact List.mem_cons_self
    · next k' hrest =>
      split at h
      · cases h
        exact List.mem_cons_self
      · cases h
        exact List.mem_cons_of_mem _ (ih hrest)

theorem mem_nextJob {jobs : List Job} {j : Job} (h : nextJob jobs = some j) : j ∈ jobs :=
  List.mem_of_mem_filter (mem_oldest h)

theorem Spent.mono {grants grants' : List GrantRow} {token capability : PyStr}
    (h : Spent grants token capability) (hmem : ∀ g ∈ grants, g.tokenHash = token → g ∈ grants') :
    Spent grants' token capability := by
  obtain ⟨g, hg, hhash, hrest⟩ := h
  exact ⟨g, hmem g hg hhash, hhash, hrest⟩

theorem issueUserGrant_ok {available : List PyStr} {hash capability : PyStr} {ttl : Int}
    {now : Rat} {grants grants' : List GrantRow}
    (h : issueUserGrant available hash capability ttl now grants = .ok grants') :
    grants' = grants ++ [⟨hash, capability, now + ttl, none⟩]
      ∧ hash ∉ grants.map GrantRow.tokenHash := by
  unfold issueUserGrant at h
  split at h
  · cases h
  split at h
  · cases h
  split at h
  · cases h
  · next hnew =>
    refine ⟨(Except.ok.inj h).symm, fun hmem => hnew ?_⟩
    obtain ⟨g, hg, heq⟩ := List.mem_map.mp hmem
    exact List.any_eq_true.mpr ⟨g, hg, decide_eq_true heq⟩

theorem consumeGrant_ok {capability hash : PyStr} {now : Rat} {grants grants' : List GrantRow}
    (h : consumeGrant capability hash now grants = .ok grants') :
    grants'.map GrantRow.tokenHash = grants.map GrantRow.tokenHash
      ∧ (∃ g ∈ grants, g.tokenHash = hash ∧ g.usedAt = none)
      ∧ Spent grants' hash capability
      ∧ ∀ g ∈ grants, g.tokenHash ≠ hash → g ∈ grants' := by
  unfold consumeGrant at h
  split at h
  · cases h
  next g hfind =>
  have hg := List.mem_of_find?_eq_some hfind
  have hhash : g.tokenHash = hash := by simpa using List.find?_some hfind
  split at h
  · cases h
  next hcapability =>
  split at h
  · cases h
  next hunused =>
  split at h
  · cases h
  next hexpiry =>
  have hused : g.usedAt = none := by simpa using hunused
  cases h
  refine ⟨?_, ⟨g, hg, hhash, hused⟩, ⟨{ g with usedAt := some now }, ?_, hhash, ?_, now, rfl, ?_⟩,
    fun k hk hne => ?_⟩
  · rw [List.map_map]
    refine List.map_congr_left fun k _ => ?_
    show (if k.tokenHash = hash then { k with usedAt := some now } else k).tokenHash = _
    split <;> rfl
  · exact List.mem_map.mpr ⟨g, hg, if_pos hhash⟩
  · exact not_not.mp hcapability
  · exact Rat.not_le.mp hexpiry
  · exact List.mem_map.mpr ⟨k, hk, if_neg hne⟩

theorem check_ok {request : Request} {registered : Bool} {now : Rat} {grants : List GrantRow}
    {r : Option PyStr × List GrantRow} (h : check request registered now grants = .ok r) :
    isAuto request.capability = true ∧ r = (none, grants)
      ∨ request.userApproved = true ∧ ∃ token grants',
        consumeGrant request.capability token now grants = .ok grants'
          ∧ r = (some token, grants') := by
  unfold check at h
  split at h
  · cases h
  split at h
  · cases h
  split at h
  · next hauto => exact .inl ⟨hauto, (Except.ok.inj h).symm⟩
  split at h
  · cases h
  next happroved =>
  split at h
  · cases h
  next token _ =>
  cases hconsume : consumeGrant request.capability token now grants with
  | error e =>
    rw [hconsume] at h
    cases h
  | ok grants' =>
    rw [hconsume] at h
    exact .inr ⟨by simpa using happroved, token, grants', hconsume, (Except.ok.inj h).symm⟩

section Run

variable {s : System}

theorem Kept.issue (h : Kept s) (available : List PyStr) (hash capability : PyStr) (ttl : Int)
    (now : Rat) : Kept (step s (.issue available hash capability ttl now)) := by
  simp only [step]
  cases hissue : issueUserGrant available hash capability ttl now s.grants with
  | error e => exact h
  | ok grants =>
    obtain ⟨rfl, hnew⟩ := issueUserGrant_ok hissue
    refine h.regrant ?_ fun token capability hspent =>
      hspent.mono fun g hg _ => List.mem_append_left _ hg
    rw [List.map_append, List.map_singleton, List.nodup_append]
    refine ⟨h.hashes, List.nodup_cons.mpr ⟨List.not_mem_nil, .nil⟩, fun a ha b hb heq => ?_⟩
    have ha' : a = hash := heq.trans (List.mem_singleton.mp hb)
    exact hnew (ha' ▸ ha)

theorem Kept.start (h : Kept s) (request : Request) (registered : Bool) (now : Rat) :
    Kept (step s (.start request registered now)) := by
  simp only [step]
  cases hcheck : check request registered now s.grants with
  | error e => exact h.call (.inr rfl) fun token heq => by cases heq
  | ok r =>
    obtain ⟨hauto, rfl⟩ | ⟨happroved, token, grants, hconsume, rfl⟩ := check_ok hcheck
    · exact h.call (e := ⟨request, none, .checked⟩) (.inl ⟨rfl, .inl hauto⟩)
        fun token heq => by cases heq
    · obtain ⟨hhashes, ⟨g, hg, hhash, hunused⟩, hspent, hrest⟩ := consumeGrant_ok hconsume
      have hunspent : ∀ capability, ¬ Spent s.grants token capability := by
        rintro capability ⟨k, hk, hkhash, -, used, hused, -⟩
        cases List.inj_on_of_nodup_map h.hashes hg hk (hhash.trans hkhash.symm)
        rw [hunused] at hused
        cases hused
      have hregrant : Kept { s with grants } := by
        refine h.regrant (hhashes ▸ h.hashes) fun token' capability hold =>
          hold.mono fun k hk hkhash => hrest k hk fun heq => ?_
        have htoken : token' = token := hkhash.symm.trans heq
        exact hunspent capability (htoken ▸ hold)
      refine hregrant.call (e := ⟨request, some token, .checked⟩)
        (.inl ⟨rfl, .inr ⟨happroved, rfl⟩⟩) fun token' heq => ?_
      cases heq
      exact ⟨hspent, fun m d hd htoken => hunspent _ (h.spent m d token hd htoken)⟩

theorem Kept.submit (h : Kept s) (n : Nat) (inserted audited : Bool) (now : Rat) :
    Kept (step s (.submit n inserted audited now)) := by
  simp only [step]
  split
  · next c hc =>
    split
    · next hphase =>
      split
      · have hne : (if audited then Phase.submitted else .raised) ≠ .checked := by
          cases audited <;> exact nofun
        have hran : (if audited then Phase.submitted else .raised) ≠ .ran := by
          cases audited <;> exact nofun
        have hgo : Kept (s.goOn n c (if audited then .submitted else .raised)) := by
          refine h.goOn hc hne (fun job heq => ?_) (fun heq => absurd heq hran)
            (fun state heq => ?_) fun hpast => ?_
          · cases audited <;> cases heq
          · cases audited <;> cases heq
          · rw [hphase] at hpast
            cases hpast
        have hc' := (getElem?_goOn hc (if audited then .submitted else .raised) n).trans
          (if_pos rfl)
        exact hgo.insert hc' ((h.passed n c hc hphase).congr rfl rfl) hne hran now
      · exact h.raise hc
    · exact h
  · exact h

theorem Kept.pick (h : Kept s) (n : Nat) (hharmless : Harmless s (.pick n)) :
    Kept (step s (.pick n)) := by
  simp only [step]
  split
  · next c hc =>
    split
    · next hphase =>
      obtain ⟨j, hnext, hcall⟩ := hharmless
      refine h.goOn hc nofun (fun job heq => ?_) nofun nofun fun hpast => ?_
      · cases heq
        exact ⟨j, hnext, hcall, j, mem_nextJob hnext, hcall, rfl⟩
      · rw [hphase] at hpast
        cases hpast
    · exact h
  · exact h

theorem Kept.finish (h : Kept s) (n : Nat) (intact : Bool) : Kept (step s (.finish n intact)) := by
  simp only [step]
  split
  · next c hc =>
    split
    · next hphase =>
      split
      · next j hfind =>
        have hcall : j.call = n := by simpa using List.find?_some hfind
        have hj := List.mem_of_find?_eq_some hfind
        obtain ⟨hrun, hstates⟩ := h.ran n c hc hphase
        cases intact with
        | true =>
          refine h.goOn hc nofun nofun nofun (fun state heq => ?_) fun _ => rfl
          cases heq
          exact ⟨hrun, hstates j hj hcall, j, hj, hcall, rfl⟩
        | false => exact h.raise hc
      · exact h.raise hc
    · exact h
  · exact h

@[simp] theorem RunEnd.isPast_phase (ending : RunEnd) : ending.phase.isPast = true := by
  cases ending <;> rfl

theorem RunEnd.phase_ran {ending : RunEnd} (h : ending.phase = .ran) :
    ∃ state, ending.state = some state ∧ state ≠ .queued := by
  cases ending with
  | rejected => exact ⟨_, rfl, nofun⟩
  | failed => exact ⟨_, rfl, nofun⟩
  | verificationFailed => exact ⟨_, rfl, nofun⟩
  | verified => exact ⟨_, rfl, nofun⟩
  | escaped executed state => cases h

theorem Kept.runOwn (h : Kept s) {n : Nat} {c : Call} (hc : s.calls[n]? = some c)
    (hpast : c.phase.isPast = false) (hpassed : Passed c)
    (hnew : n ∉ s.executions.map Prod.fst) (ending : RunEnd) :
    Kept { s.goOn n c ending.phase with
      jobs := ending.jobs n s.jobs
      executions := if ending.executes then s.executions ++ [(n, c.request.capability)]
        else s.executions
      runs := s.runs ++ [(n, n)] } := by
  have hmoved : Kept { s with jobs := ending.jobs n s.jobs } := by
    unfold RunEnd.jobs
    cases ending.state with
    | none => exact h
    | some state => exact h.transition hc hpast state
  have hpicked : ∀ job, ending.phase ≠ .picked job := by
    intro job
    cases ending <;> exact nofun
  have hreturned : ∀ state, ending.phase ≠ .returned state := by
    intro state
    cases ending <;> exact nofun
  have hchecked : ending.phase ≠ .checked := by
    cases ending <;> exact nofun
  have hgone : Kept { s.goOn n c ending.phase with
      jobs := ending.jobs n s.jobs, runs := s.runs ++ [(n, n)] } := by
    refine (hmoved.note (n, n)).goOn hc hchecked (fun job heq => absurd heq (hpicked job))
      (fun hran => ⟨List.mem_append_right _ (List.mem_singleton.mpr rfl), fun j hj hcall => ?_⟩)
      (fun state heq => absurd heq (hreturned state)) fun _ => ending.isPast_phase
    obtain ⟨state, hstate, hne⟩ := RunEnd.phase_ran hran
    have hj' : j ∈ ending.jobs n s.jobs := hj
    rw [RunEnd.jobs, hstate] at hj'
    obtain ⟨k, hk, hkcall, -, ⟨-, hjstate⟩ | ⟨hother, rfl⟩⟩ := mem_transition hj'
    · exact hjstate ▸ hne
    · exact absurd hcall hother
  split
  · have hc' := (getElem?_goOn hc ending.phase n).trans (if_pos rfl)
    exact hgone.execute (c := { c with phase := ending.phase }) hc' ending.isPast_phase
      (hpassed.congr rfl rfl) hnew
  · exact hgone

theorem Kept.run (h : Kept s) (n : Nat) (ending : RunEnd) : Kept (step s (.run n ending)) := by
  simp only [step]
  split
  · next c hc =>
    split
    · next hphase =>
      obtain ⟨j, heq, -⟩ := h.picked n c none hc hphase
      cases heq
    · next j hphase =>
      obtain ⟨j', heq, hcall, k, hk, hkcall, hkcapability⟩ := h.picked n c _ hc hphase
      cases heq
      have hpast : c.phase.isPast = false := by rw [hphase]; rfl
      -- the job is the call's own, so its capability is the one that was checked
      obtain ⟨d, hd, hcapability, hpassed, -⟩ := h.submitted k hk
      rw [hkcall] at hd
      cases hc.symm.trans hd
      have hown : (j.call, j.capability) = (n, c.request.capability) := by
        rw [hcall, hcapability, hkcapability]
      have hnew : n ∉ s.executions.map Prod.fst := by
        intro hmem
        obtain ⟨e, he, hfst⟩ := List.mem_map.mp hmem
        obtain ⟨d, hd, hdpast, -⟩ := h.executed e he
        rw [hfst] at hd
        cases hc.symm.trans hd
        rw [hpast] at hdpast
        cases hdpast
      rw [hown, hcall]
      exact h.runOwn hc hpast hpassed hnew ending
    · exact h
  · exact h

theorem Kept.step (h : Kept s) (a : Action) (hharmless : Harmless s a) : Kept (step s a) := by
  cases a with
  | issue available hash capability ttl now =>
    exact h.issue available hash capability ttl now
  | start request registered now => exact h.start request registered now
  | submit n inserted audited now => exact h.submit n inserted audited now
  | pick n => exact h.pick n hharmless
  | run n ending => exact h.run n ending
  | finish n intact => exact h.finish n intact

theorem Kept.empty : Kept .empty where
  hashes := .nil
  spent := fun n c token hc => by cases hc
  apart := fun n m c d token hc => by cases hc
  passed := fun n c hc => by cases hc
  submitted := fun j hj => by cases hj
  picked := fun n c job hc => by cases hc
  executed := fun e he => by cases he
  once := .nil
  ran := fun n c hc => by cases hc
  returned := fun n c state hc => by cases hc

theorem Reaches.kept (h : Reaches s) : Kept s := by
  induction h with
  | start => exact .empty
  | step a _ hharmless ih => exact ih.step a hharmless

/-- As long as a call that turns to the engine finds its own job, every execution is of a call
whose token was issued for its capability and consumed in time, no two calls have a token in
common, and a call that returns has run its own job. -/
theorem executions_approved (h : Reaches s) :
    (∀ e ∈ s.executions, isAuto e.2 = false → ∃ c token, s.calls[e.1]? = some c
      ∧ c.request.capability = e.2 ∧ c.request.userApproved = true ∧ c.token = some token
      ∧ Spent s.grants token e.2) ∧ (s.executions.map Prod.fst).Nodup
    ∧ (∀ (n m : Nat) (c d : Call) (token : PyStr), s.calls[n]? = some c → s.calls[m]? = some d →
      c.token = some token → d.token = some token → n = m)
    ∧ (∀ j ∈ s.jobs, isAuto j.capability = false → ∃ c, s.calls[j.call]? = some c
      ∧ c.request.capability = j.capability ∧ c.request.userApproved = true)
    ∧ ∀ (n : Nat) (c : Call) (state : JobState), s.calls[n]? = some c → c.phase = .returned state →
      (n, n) ∈ s.runs ∧ state ≠ .queued ∧ ∃ j ∈ s.jobs, j.call = n ∧ j.state = state := by
  have hkept := h.kept
  refine ⟨fun e he hauto => ?_, hkept.once, hkept.apart, fun j hj hauto => ?_, hkept.returned⟩
  · obtain ⟨c, hc, -, hcapability, hpassed⟩ := hkept.executed e he
    rcases hpassed with hpassed | ⟨happroved, htoken⟩
    · rw [hcapability, hauto] at hpassed
      cases hpassed
    · obtain ⟨token, htoken⟩ := Option.isSome_iff_exists.mp htoken
      exact ⟨c, token, hc, hcapability, happroved, htoken,
        hcapability ▸ hkept.spent e.1 c token hc htoken⟩
  · obtain ⟨c, hc, hcapability, hpassed, -⟩ := hkept.submitted j hj
    rcases hpassed with hpassed | ⟨happroved, -⟩
    · rw [hcapability, hauto] at hpassed
      cases hpassed
    · exact ⟨c, hc, hcapability, happroved⟩

end Run

-- == sample

namespace Sample

def status : PyStr := py "system.future_capabilities"

/-- A token is issued, and a call of the capability with it submits its job. -/
def submitting (n : Nat) (hash : PyStr) (now : Rat) : List Action :=
  [.issue [status] hash status 300 now, .start ⟨status, true, some hash, true⟩ true (now + 1),
    .submit n true true (now + 2)]

def runAll (actions : List Action) : System := actions.foldl step .empty

def alone : System :=
  runAll (submitting 0 (py "a1") 0 ++ [.pick 0, .run 0 .verified, .finish 0 true])

theorem alone_approved : ∃ c token, alone.calls[0]? = some c ∧ c.request.capability = status
      ∧ c.request.userApproved = true ∧ c.token = some token ∧ Spent alone.grants token status := by
  have hreach : Reaches alone := by
    refine .step (.finish 0 true) (.step (.run 0 .verified) (.step (.pick 0) ?_ ?_) trivial) trivial
    · exact .step _ (.step _ (.step _ .start trivial) trivial) trivial
    · exact ⟨⟨0, status, .queued, 2⟩, by decide +kernel, rfl⟩
  exact (executions_approved hreach).1 (0, status) (by decide +kernel) (by decide +kernel)

/-- The second of two approved calls runs the job of the first, and returns its own as queued:
its token is spent, and nothing it has approved was executed. -/
theorem second_queued : let s := runAll (submitting 0 (py "a1") 0 ++ submitting 1 (py "b2") 5
      ++ [.pick 1, .run 1 .verified, .finish 1 true])
    (s.calls.map fun c => (c.token, c.phase)) =
        [(some (py "a1"), .submitted), (some (py "b2"), .returned .queued)]
      ∧ s.executions = [(0, status)] ∧ s.runs = [(1, 0)]
      ∧ (s.grants.map GrantRow.usedAt) = [some 1, some 6] := by
  refine ⟨?_, ?_, ?_, ?_⟩ <;> decide +kernel

end Sample

end Centinal26.Hermes.Approval
