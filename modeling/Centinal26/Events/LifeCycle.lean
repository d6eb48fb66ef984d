/-
The life of a task, as far as the reducer watches over it.
-/
import Centinal26.Events.State

namespace Centinal26.Events

open Py Replay

-- == inversion

inductive TaskChange (s : ProjectState) (e : Event) : EventType → ProjectState → Prop
  | other {type : EventType} {s' : ProjectState} (htype : type ≠ .taskCreated)
      (hstatus : type.status? = none) (htasks : s'.tasks = s.tasks) :
      TaskChange s e type s'
  | created {id : PyStr} (hid : entityId e "task_id" = .ok id) (hnew : s.tasks.get? id = none) :
      TaskChange s e .taskCreated (s.setTask id ⟨e.payload, .discovered, [], none⟩)
  | depends {id dependency : PyStr} {t : Task} (hid : dependentId e = some id)
      (hdep : (e.payload.get? (py "depends_on")).bind Json.str? = some dependency)
      (hold : s.tasks.get? id = some t) :
      TaskChange s e .dependencyAdded (s.setTask id
        { t with dependencies := addDependency t.dependencies dependency })
  | moved {type : EventType} {status : TaskStatus} {id : PyStr} {t : Task}
      (hstatus : type.status? = some status) (hid : entityId e "task_id" = .ok id)
      (hold : s.tasks.get? id = some t) :
      TaskChange s e type (s.setTask id { t with
        status := status
        lastEvent := if e.payload.members.isEmpty then t.lastEvent
          else some e.payload })

variable {s s' : ProjectState} {e : Event} {id : PyStr} {es : List Event} {st : TaskStatus}

theorem createTask_change (h : createTask s e = .ok s') : TaskChange s e .taskCreated s' := by
  obtain ⟨id, hid, h⟩ := of_bind_ok h
  split at h
  · cases h
  · next hnew =>
    cases h
    exact .created hid hnew

theorem dependTask_change (h : dependTask s e = .ok s') : TaskChange s e .dependencyAdded s' := by
  unfold dependTask at h
  split at h
  · next id dependency hid hdep =>
    split at h
    · cases h
    · next t hold =>
      cases h
      exact .depends hid hdep hold
  · cases h

theorem moveTask_change {type : EventType}
    {status : TaskStatus} (hstatus : type.status? = some status)
    (h : moveTask s e status = .ok s') : TaskChange s e type s' := by
  obtain ⟨id, hid, h⟩ := of_bind_ok h
  split at h
  · cases h
  · next t hold =>
    cases h
    exact .moved hstatus hid hold

theorem reduceType_change {type : EventType}
    (h : reduceType s e type = .ok s') : TaskChange s e type s' := by
  cases type with
  | taskCreated => exact createTask_change h
  | dependencyAdded => exact dependTask_change h
  | sourceIngested | goalDiscovered | artifactCreated | decisionRecorded
  | blockerRecorded =>
    obtain ⟨id, -, h⟩ := of_bind_ok h
    cases h
    exact .other (by decide) rfl rfl
  | taskReady | taskAuthorized | taskStarted | taskExecuted | verificationPassed
  | verificationFailed | taskCompleted | taskFailed =>
    exact moveTask_change rfl h

/-- What an event that is taken in looks like, and what it leaves behind. -/
structure Reduced (s : ProjectState) (e : Event) (s' : ProjectState) where
  type : EventType
  named : EventType.ofName? e.type.str = some type
  later : s.lastSeq < e.seq
  linked : e.prevHash = s.lastHash
  mid : ProjectState
  reduced : reduceType s e type = .ok mid
  after : s' = { mid with lastSeq := e.seq, lastHash := e.eventHash }

theorem reduceEvent_ok (h : reduceEvent s e = .ok s') : Nonempty (Reduced s e s') := by
  unfold reduceEvent at h
  split at h
  · cases h
  · next hseq =>
    split at h
    · cases h
    · next hprev =>
      split at h
      · cases h
      · next type htype =>
        obtain ⟨mid, hmid, h⟩ := of_bind_ok h
        cases h
        exact ⟨⟨type, htype, not_le.mp hseq, not_not.mp hprev, mid, hmid, rfl⟩⟩

-- == statuses

/-- An event that creates a task or moves it: which task, and how. -/
def taskEvent (e : Event) : Option (PyStr × EventType) :=
  match EventType.ofName? e.type.str with
  | none => none
  | some type =>
    if type = .taskCreated ∨ type.status?.isSome then
      match entityId e "task_id" with
      | .ok id => some (id, type)
      | .error _ => none
    else none

def ProjectState.status? (s : ProjectState) (id : PyStr) : Option TaskStatus :=
  (s.tasks.get? id).map Task.status

inductive StatusStep (id : PyStr) (e : Event) : Option TaskStatus → Option TaskStatus → Prop
  | kept (st : Option TaskStatus) (h : ∀ type, taskEvent e ≠ some (id, type)) :
      StatusStep id e st st
  | created (h : taskEvent e = some (id, .taskCreated)) : StatusStep id e none (some .discovered)
  | moved {type : EventType} {next : TaskStatus} (st : TaskStatus)
      (h : taskEvent e = some (id, type)) (hnext : type.status? = some next) :
      StatusStep id e (some st) (some next)

theorem taskEvent_eq {type : EventType} (hnamed : EventType.ofName? e.type.str = some type)
    (htype : type = .taskCreated ∨ type.status?.isSome)
    (hid : entityId e "task_id" = .ok id) : taskEvent e = some (id, type) := by
  unfold taskEvent
  rw [hnamed]
  show (if _ then _ else _) = _
  rw [if_pos htype, hid]

theorem taskEvent_none {type : EventType} (hnamed : EventType.ofName? e.type.str = some type)
    (htype : ¬(type = .taskCreated ∨ type.status?.isSome)) : taskEvent e = none := by
  unfold taskEvent
  rw [hnamed]
  show (if _ then _ else _) = _
  rw [if_neg htype]

theorem status_setTask (s : ProjectState) (id' : PyStr) (t : Task) (id : PyStr) :
    (s.setTask id' t).status? id = if id = id' then some t.status else s.status? id := by
  unfold ProjectState.status? ProjectState.setTask
  rw [Dict.get?_set]
  split <;> rfl

/-- Only an event of the task itself can change its status, and what it was
before is not looked at. -/
theorem status_step (he : reduceEvent s e = .ok s') (id : PyStr) :
    StatusStep id e (s.status? id) (s'.status? id) := by
  obtain ⟨⟨type, hnamed, -, -, mid, hmid, rfl⟩⟩ := reduceEvent_ok he
  show StatusStep id e (s.status? id) (mid.status? id)
  cases reduceType_change hmid with
  | other htype hstatus htasks =>
    have hnone := taskEvent_none hnamed (by simp [htype, hstatus])
    have hsame : mid.status? id = s.status? id := by
      unfold ProjectState.status?
      rw [htasks]
    rw [hsame]
    exact .kept _ fun type => by simp [hnone]
  | @created id' hid hnew =>
    have hev := taskEvent_eq hnamed (Or.inl rfl) hid
    rw [status_setTask]
    by_cases hsame : id = id'
    · subst hsame
      have hnone : s.status? id = none := by
        unfold ProjectState.status?
        rw [hnew]
        rfl
      rw [if_pos rfl, hnone]
      exact .created hev
    · rw [if_neg hsame]
      exact .kept _ fun type => by simp [hev, Ne.symm hsame]
  | @depends id' dependency t hid hdep hold =>
    have hnone := taskEvent_none hnamed (by decide)
    have hsame : (s.setTask id'
        { t with dependencies := addDependency t.dependencies dependency }).status?
        id = s.status? id := by
      rw [status_setTask]
      split
      · next hsame =>
        unfold ProjectState.status?
        rw [hsame, hold]
        rfl
      · rfl
    rw [hsame]
    exact .kept _ fun type => by simp [hnone]
  | @moved _ status id' t hstatus hid hold =>
    have hev := taskEvent_eq hnamed (Or.inr (by rw [hstatus]; rfl)) hid
    rw [status_setTask]
    by_cases hsame : id = id'
    · subst hsame
      have hwas : s.status? id = some t.status := by
        unfold ProjectState.status?
        rw [hold]
        rfl
      rw [if_pos rfl, hwas]
      exact .moved _ hev hstatus
    · rw [if_neg hsame]
      exact .kept _ fun type => by simp [hev, Ne.symm hsame]

-- == history

def taskHistory (id : PyStr) (es : List Event) : List EventType :=
  (es.filterMap taskEvent).filterMap fun m => if m.1 = id then some m.2 else none

def statusAfter (moves : List EventType) : TaskStatus :=
  (moves.getLast?.bind EventType.status?).getD .discovered

theorem taskHistory_concat (id : PyStr) (es : List Event) (e : Event) :
    taskHistory id (es ++ [e]) = taskHistory id es ++ taskHistory id [e] := by
  unfold taskHistory
  rw [List.filterMap_append, List.filterMap_append]

theorem taskHistory_eq {type : EventType}
    (h : taskEvent e = some (id, type)) : taskHistory id [e] = [type] := by
  simp [taskHistory, h]

theorem taskHistory_nil (h : ∀ type, taskEvent e ≠ some (id, type)) : taskHistory id [e] = [] := by
  unfold taskHistory
  cases hev : taskEvent e with
  | none => simp [hev]
  | some m =>
    obtain ⟨id', type⟩ := m
    have hne : id' ≠ id := by
      rintro rfl
      exact h type hev
    simp [hev, hne]

/-- What a log says about a task is what the state holds of it. -/
def Told (id : PyStr) (es : List Event) (s : ProjectState) : Prop :=
  match s.status? id with
  | none => taskHistory id es = []
  | some st => ∃ moves, taskHistory id es = .taskCreated :: moves
      ∧ (∀ m ∈ moves, m.status?.isSome) ∧ st = statusAfter moves

theorem told_step (h : Told id es s) (he : reduceEvent s e = .ok s') : Told id (es ++ [e]) s' := by
  unfold Told at h ⊢
  rw [taskHistory_concat]
  have hstep := status_step he id
  revert hstep h
  generalize s.status? id = before
  generalize s'.status? id = after
  intro h hstep
  cases hstep with
  | kept _ hkept =>
    rw [taskHistory_nil hkept, List.append_nil]
    exact h
  | created hev =>
    rw [taskHistory_eq hev, h]
    exact ⟨[], rfl, nofun, rfl⟩
  | @moved type next st hev hnext =>
    obtain ⟨moves, hmoves, hall, -⟩ := h
    rw [taskHistory_eq hev, hmoves]
    refine ⟨moves ++ [type], rfl, fun m hm => ?_, ?_⟩
    · rcases List.mem_append.mp hm with hm | hm
      · exact hall m hm
      · rw [List.mem_singleton.mp hm, hnext]
        rfl
    · simp [statusAfter, hnext]

/-- The reducer takes in the events of a task only after its one creation, and
its status is that of the last of them. -/
theorem taskHistory_spec (h : rebuildState es = .ok s) (id : PyStr) : Told id es s :=
  have h0 : Told id [] .empty := by
    show taskHistory id [] = []
    rfl
  replay_history _ h0 (fun _ _ _ _ hs he => told_step hs he) h

-- == life cycle

def TaskStatus.arrives (st : TaskStatus) : EventType → Bool
  | .taskReady => st = .discovered || st = .ready
  | .taskAuthorized => st = .discovered || st = .ready
  | .taskStarted => st = .authorized
  | .taskExecuted => st = .running
  | .verificationPassed => st = .executed
  | .verificationFailed => st = .executed
  | .taskCompleted => st = .verified
  | .taskFailed => !st.isTerminal
  | _ => true

/-- What a task must have been through to have a status. -/
def TaskStatus.trail : TaskStatus → List EventType
  | .discovered | .ready | .failed => [.taskCreated]
  | .authorized => [.taskCreated, .taskAuthorized]
  | .running => [.taskCreated, .taskAuthorized, .taskStarted]
  | .executed | .verificationFailed =>
    [.taskCreated, .taskAuthorized, .taskStarted, .taskExecuted]
  | .verified => [.taskCreated, .taskAuthorized, .taskStarted, .taskExecuted, .verificationPassed]
  | .complete => [.taskCreated, .taskAuthorized, .taskStarted, .taskExecuted,
      .verificationPassed, .taskCompleted]

/-- The event finds its task, if it has one, at a status it belongs after. -/
def Belongs (s : ProjectState) (e : Event) : Prop :=
  ∀ id type st, taskEvent e = some (id, type) → s.status? id = some st → st.arrives type = true

instance (s : ProjectState) (e : Event) : Decidable (Belongs s e) :=
  match hev : taskEvent e with
  | none => isTrue fun id type st h => by cases hev.symm.trans h
  | some m =>
    match hst : s.status? m.1 with
    | none => isTrue fun id type st h h' => by
      cases hev.symm.trans h
      cases hst.symm.trans h'
    | some st => decidable_of_iff (st.arrives m.2 = true) ⟨fun hok id type st' h h' => by
          cases hev.symm.trans h
          cases hst.symm.trans h'
          exact hok,
        fun h => h m.1 m.2 st hev hst⟩

/-- Every task event of the log arrives where it belongs. -/
def FollowsLifeCycle (es : List Event) : Prop :=
  Along reduceEvent Belongs .empty es

instance (es : List Event) : Decidable (FollowsLifeCycle es) :=
  inferInstanceAs (Decidable (Along reduceEvent Belongs .empty es))

theorem trail_arrives {next : TaskStatus} {type : EventType}
    (h : st.arrives type = true) (hnext : type.status? = some next) :
    next.trail.Sublist (st.trail ++ [type]) := by
  cases type <;> cases hnext <;> cases st <;> first | decide | cases h

theorem not_terminal_of_arrives {next : TaskStatus} {type : EventType}
    (h : st.arrives type = true) (hnext : type.status? = some next) : st.isTerminal = false := by
  cases type <;> cases hnext <;> cases st <;> first | rfl | cases h

theorem terminal_step (hst : st.isTerminal = true) (h : s.status? id = some st)
    (hbelongs : Belongs s e) (he : reduceEvent s e = .ok s') : s'.status? id = some st := by
  have hstep := status_step he id
  rw [h] at hstep
  revert hstep
  generalize s'.status? id = after
  intro hstep
  cases hstep with
  | kept _ _ => rfl
  | moved _ hev hnext =>
    rw [not_terminal_of_arrives (hbelongs _ _ _ hev h) hnext] at hst
    cases hst

/-- A task has been through what its status asks for. -/
def Earned (id : PyStr) (es : List Event) (s : ProjectState) : Prop :=
  ∀ st, s.status? id = some st → st.trail.Sublist (taskHistory id es)

theorem earned_step (h : Earned id es s) (hbelongs : Belongs s e)
    (he : reduceEvent s e = .ok s') : Earned id (es ++ [e]) s' := by
  intro st hst
  rw [taskHistory_concat]
  have hstep := status_step he id
  rw [hst] at hstep
  generalize hwas : s.status? id = before at hstep
  cases hstep with
  | kept _ _ => exact (h st hwas).trans (List.sublist_append_left _ _)
  | created hev =>
    rw [taskHistory_eq hev]
    exact List.sublist_append_right _ _
  | moved st' hev hnext =>
    rw [taskHistory_eq hev]
    exact (trail_arrives (hbelongs _ _ _ hev hwas) hnext).trans
      ((h st' hwas).append (List.Sublist.refl _))

/-- A task that ends keeps the status it ended with. -/
def TerminalKept (es : List Event) (s : ProjectState) : Prop :=
  ∀ before after mid, es = before ++ after → rebuildState before = .ok mid →
    ∀ id st, mid.status? id = some st → st.isTerminal = true → s.status? id = some st

/-- A completed task was created, authorized, started, executed and verified,
in this order. -/
def CompleteEarned (es : List Event) (s : ProjectState) : Prop :=
  ∀ id, s.status? id = some .complete → [.taskCreated, .taskAuthorized, .taskStarted, .taskExecuted,
      .verificationPassed].Sublist (taskHistory id es)

theorem terminalKept_of_follows
    (h : rebuildState es = .ok s) (hfollows : FollowsLifeCycle es) : TerminalKept es s := by
  rintro before after mid rfl hmid id st hstatus hst
  obtain ⟨mid', hmid', hafter⟩ := replay_append_ok.mp h
  cases hmid.symm.trans hmid'
  exact along_invariant (I := fun s => s.status? id = some st)
    (fun _ _ _ hs hbelongs he => terminal_step hst hs hbelongs he)
    (along_append hmid hfollows).2 hafter hstatus

theorem earned_of_follows
    (h : rebuildState es = .ok s) (hfollows : FollowsLifeCycle es) (id : PyStr) : Earned id es s :=
  have h0 : Earned id [] .empty := fun st hst => by cases hst
  along_history h0 (fun _ _ _ _ hs hbelongs he => earned_step hs hbelongs he) hfollows h

/-- The reducer wants one creation of a task before any of its events, and gives it the status of
the last one. -/
theorem life_cycle {es : List Event} {s : ProjectState} (h : rebuildState es = .ok s) :
    (∀ id, Told id es s) ∧ (FollowsLifeCycle es → TerminalKept es s ∧ CompleteEarned es s) := by
  refine ⟨taskHistory_spec h, fun hfollows =>
    ⟨terminalKept_of_follows h hfollows, fun id hid => ?_⟩⟩
  have htrail := earned_of_follows h hfollows id .complete hid
  exact (by decide : [EventType.taskCreated, .taskAuthorized, .taskStarted,
    .taskExecuted, .verificationPassed].Sublist TaskStatus.complete.trail).trans
    htrail

-- == samples

namespace Sample

/-- An event about one task, at a place of a log. -/
def taskEventAt (seq : Nat) (type : EventType) : Event where
  seq := seq + 1
  eventId := Text.lit "event"
  ts := Text.lit "now"
  type := Text.lit type.value
  entityId := some (Text.lit "task-1")
  payload := .empty
  prevHash := if seq = 0 then genesis else Text.lit (toString seq)
  eventHash := Text.lit (toString (seq + 1))

def taskLog (types : List EventType) : List Event :=
  types.zipIdx.map fun m => taskEventAt m.2 m.1

/-- A task that goes through the whole cycle. -/
def wholeLife : List Event :=
  taskLog [.taskCreated, .taskReady, .taskAuthorized, .taskStarted, .taskExecuted,
    .verificationPassed, .taskCompleted]

/-- A task that is completed at once, and ready again after. -/
def reopened : List Event := taskLog [.taskCreated, .taskCompleted, .taskReady]

end Sample

/-- Nothing was ever done for the task, yet it is complete; and it is complete,
yet it does not stay so. -/
theorem life_cycle_reopened : ∃ mid s, rebuildState (Sample.reopened.take 2) = .ok mid
      ∧ rebuildState Sample.reopened = .ok s
      ∧ ¬CompleteEarned (Sample.reopened.take 2) mid
      ∧ ¬TerminalKept Sample.reopened s := by
  have hmid : (rebuildState (Sample.reopened.take 2)).map
      (fun s => s.status? (py "task-1")) = .ok (some .complete) := by decide +kernel
  have hs : (rebuildState Sample.reopened).map
      (fun s => s.status? (py "task-1")) = .ok (some .ready) := by decide +kernel
  obtain ⟨mid, hmid, hcomplete⟩ := of_map_ok hmid
  obtain ⟨s, hs, hready⟩ := of_map_ok hs
  refine ⟨mid, s, hmid, hs, fun hearned => ?_, fun hkept => ?_⟩
  · exact absurd (hearned _ hcomplete) (by decide +kernel)
  · have := hkept _ (Sample.reopened.drop 2) mid
      (List.take_append_drop 2 _).symm hmid _ _ hcomplete rfl
    rw [hready] at this
    cases this
theorem life_cycle_whole : ∃ s, rebuildState Sample.wholeLife = .ok s
      ∧ s.status? (py "task-1") = some .complete
      ∧ (∀ id, Told id Sample.wholeLife s)
      ∧ TerminalKept Sample.wholeLife s ∧ CompleteEarned Sample.wholeLife s := by
  have hs : (rebuildState Sample.wholeLife).map
      (fun s => s.status? (py "task-1")) = .ok (some .complete) := by decide +kernel
  obtain ⟨s, hs, hcomplete⟩ := of_map_ok hs
  have hall := life_cycle hs
  exact ⟨s, hs, hcomplete, hall.1, hall.2 (by decide +kernel)⟩

end Centinal26.Events
