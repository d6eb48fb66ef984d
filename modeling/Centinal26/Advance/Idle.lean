/-
A run that has come to rest.
-/
import Centinal26.Advance.Once

namespace Centinal26.Advance

open Py Steps Events Replay
open Pipeline (AutomatedEngine)
open Gateway (payloadMember)
open Relation (ReflTransGen)

variable {H : Hosts} {E : AutomatedEngine} {S : Settings} {w w' : World}

-- == what is read

/-- The tasks are those of the other state, and none of its blockers is
missing. -/
structure Covers (t s : ProjectState) : Prop where
  tasks : t.tasks = s.tasks
  blockers : ∀ b, s.blockers.contains b = true → t.blockers.contains b = true

theorem Covers.refl (s : ProjectState) : Covers s s := ⟨rfl, fun _ h => h⟩

theorem Covers.trans {s t u : ProjectState} (h : Covers u t) (h' : Covers t s) : Covers u s :=
  ⟨h.tasks.trans h'.tasks, fun b hb => h.blockers b (h'.blockers b hb)⟩

theorem deriveReadyTasks_congr {s t : ProjectState} (h : t.tasks = s.tasks) :
    deriveReadyTasks t = deriveReadyTasks s := by
  unfold deriveReadyTasks isReady
  rw [h]

theorem nodup_deriveReadyTasks (s : ProjectState) : (deriveReadyTasks s).Nodup := by
  unfold deriveReadyTasks
  rw [(List.perm_insertionSort _ _).nodup_iff]
  exact s.tasks.nodup.sublist (List.filter_sublist.map _)

theorem contains_set {α β : Type} [DecidableEq α] {d : Dict α β} {k j : α} {v : β} :
    (d.set k v).contains j = true ↔ j = k ∨ d.contains j = true := by
  unfold Dict.contains
  rw [Dict.get?_set]
  by_cases hj : j = k
  · rw [if_pos hj]
    exact ⟨fun _ => Or.inl hj, fun _ => rfl⟩
  · rw [if_neg hj]
    exact ⟨Or.inr, fun h => h.resolve_left hj⟩

-- == what is written

/-- An append of the event that went through. -/
def Wrote (H : Host) (r : NewEvent) (log log' : EventLog) : Prop :=
  ∃ fields eventId ts e, r.fields = .ok fields
    ∧ EventLog.Appended H log log' r.type fields r.entityId eventId ts e

def Adds (H : Host) (P : NewEvent → Prop) (log log' : EventLog) : Prop :=
  ∃ r, P r ∧ Wrote H r log log'

theorem verifyStep_run (w : World) :
    (verifyStep H).run w = ((verifyChain H.store w.store.log.rows).mapError .py, w) :=
  Prog.run_block _ _ _

theorem rebuildStep_run (w : World) :
    rebuildStep.run w = ((stateOf w.store.log).mapError .event, w) :=
  Prog.run_block _ _ _

theorem appendStep_run (r : NewEvent) (w : World) :
    (∃ err w', (appendStep H r).run w = (.error err, w') ∧ w'.store.log = w.store.log)
      ∨ ∃ w', (appendStep H r).run w = (.ok (), w') ∧ Wrote H.store r w.store.log w'.store.log := by
  have heq : (appendStep H r).run w
      = (((appendEvent H.store r w.store).1.map fun _ => ()).mapError .event,
        { w with store := (appendEvent H.store r w.store).2 }) := Prog.run_block _ _ _
  rw [heq]
  cases hacc : accepted H.store w.store r with
  | false =>
    obtain ⟨err, w', hrun, hlog⟩ := appendEvent_refused hacc
    rw [hrun]
    exact Or.inl ⟨_, _, rfl, hlog⟩
  | true =>
    obtain ⟨fields, e, log, hfields, ha, hrun⟩ := appendEvent_accepted hacc
    rw [hrun]
    exact Or.inr ⟨_, rfl, fields, _, _, e, hfields, ha⟩

/-- Whatever happens, the program only appends events of this kind. -/
def Writes (H : Hosts) (P : NewEvent → Prop) {α : Type} (p : AProg α) : Prop :=
  ∀ w, ReflTransGen (Adds H.store P) w.store.log (p.run w).2.store.log

section Writes

variable {P : NewEvent → Prop} {α β : Type}

theorem Writes.bind {p : AProg α} {f : α → AProg β} (hp : Writes H P p)
    (hf : ∀ a, Writes H P (f a)) : Writes H P (p >>= f) := fun w =>
  Prog.run_bind_leaves
    (J := fun w' : World => ReflTransGen (Adds H.store P) w.store.log w'.store.log) (hp w)
    fun a w' _ h => h.trans (hf a w')

theorem Writes.pure (a : α) : Writes H P (pure a : AProg α) := fun _ => .refl

theorem Writes.throw (e : AdvanceError) : Writes H P (throw e : AProg α) := fun _ => .refl

theorem writes_raisePy (r : Except PyErr α) : Writes H P (raisePy r) := fun w => by
  unfold raisePy
  rw [Prog.run_ofExcept]

theorem writes_rebuild : Writes H P rebuildStep := fun w => by
  rw [rebuildStep_run]

theorem writes_append {r : NewEvent} (hr : P r) : Writes H P (appendStep H r) := fun w => by
  rcases appendStep_run (H := H) r w with ⟨err, w', hrun, hlog⟩ | ⟨w', hrun, hwrote⟩
  · rw [hrun, hlog]
  · rw [hrun]
    exact .single ⟨r, hr, hwrote⟩

theorem runtimePart_log (key : Option PyStr) (p : Pipeline.RProg α) (w : World) :
    ((runtimePart key p).run w).2.store = w.store := by
  have hthrough : (runtimePart key p).Through (fun _ _ => True) (fun v => v.store = w.store)
      (fun _ v => v.store = w.store) (fun _ v => v.store = w.store) w := by
    unfold runtimePart
    refine Prog.Through.within ?_ p rfl
    exact fun _ _ h => h
  have h := hthrough.run fun _ _ => trivial
  split at h
  · next heq => rw [heq]; exact h
  · next heq => rw [heq]; exact h

theorem writes_runtime (key : Option PyStr) (p : Pipeline.RProg α) :
    Writes H P (runtimePart key p) := fun w => by rw [runtimePart_log]

-- ------------------------------------------------ the parts of a run

theorem writes_drive (jobId : Text) (fuel : Nat) : Writes H P (drive H E jobId fuel) := by
  induction fuel with
  | zero => exact .throw _
  | succ fuel ih =>
    refine (writes_runtime _ _).bind fun row => ?_
    split
    · exact .pure _
    · refine (writes_runtime _ _).bind fun executed => ?_
      split
      · exact .throw _
      · split
        · exact .throw _
        · exact ih

section Task

variable {taskId : PyStr} (hP : ∀ type fields, type ≠ .blockerRecorded →
  P (taskEvent type taskId fields))

include hP in
theorem writes_endTask (state : Pipeline.JobState) (fields : List (PyKey × PyVal)) :
    Writes H P (endTask H taskId state fields) := by
  have hevent : ∀ type fields, type ≠ .blockerRecorded →
      Writes H P (appendStep H (taskEvent type taskId fields)) :=
    fun type fields htype => writes_append (hP type fields htype)
  unfold endTask
  split
  · refine (hevent _ _ (by decide)).bind fun _ => ?_
    refine (hevent _ _ (by decide)).bind fun _ => ?_
    exact (hevent _ _ (by decide)).bind fun _ => .pure _
  · refine (hevent _ _ (by decide)).bind fun _ => ?_
    exact (hevent _ _ (by decide)).bind fun _ => .pure _
  · exact (hevent _ _ (by decide)).bind fun _ => .pure _

include hP in
theorem writes_runTask (fuel : Nat) (capability : PyStr) (task : Task) (source : Source) :
    Writes H P (runTask H E fuel taskId capability task source) := by
  have hevent : ∀ type fields, type ≠ .blockerRecorded →
      Writes H P (appendStep H (taskEvent type taskId fields)) :=
    fun type fields htype => writes_append (hP type fields htype)
  refine (writes_raisePy _).bind fun payload => ?_
  refine (writes_runtime _ _).bind fun grant => ?_
  have hrest : Writes H P (do
      appendStep H (taskEvent .taskAuthorized taskId
        [item "capability" (.str capability), item "grant_id" (.str grant.grantId),
          item "expires_at" (.str grant.expiresAt.raw),
          item "authorization_source" (.str (py source.value))])
      let jobId ← runtimePart (some (taskKey taskId)) (Pipeline.engineSubmit H.runtime E
        (deterministicIntent taskId capability payload) grant (some (taskKey taskId)))
      appendStep H (taskEvent .taskStarted taskId
        [item "job_id" jobId.val, item "capability" (.str capability)])
      let row ← drive H E jobId fuel
      let fields ← raisePy (endFields H jobId row)
      endTask H taskId row.state fields) := by
    refine (hevent _ _ (by decide)).bind fun _ => ?_
    refine (writes_runtime _ _).bind fun jobId => ?_
    refine (hevent _ _ (by decide)).bind fun _ => ?_
    refine (writes_drive jobId fuel).bind fun row => ?_
    refine (writes_raisePy _).bind fun fields => ?_
    exact writes_endTask hP row.state fields
  show Writes H P (if task.status ≠ .ready then _ else _)
  split
  · exact (hevent _ _ (by decide)).bind fun _ => hrest
  · exact hrest

end Task

end Writes

-- == the whole run

def anyEvent (_ : NewEvent) : Prop := True

theorem writes_blocker (state : ProjectState) (id : PyStr) (reason : Reason)
    (detail : PyStr) : Writes H anyEvent (recordBlockerOnce H state id reason detail) := by
  refine (writes_raisePy _).bind fun blockerId => ?_
  split
  · exact .pure _
  · exact writes_append trivial

theorem writes_survey (state : ProjectState) (ready : List PyStr) :
    Writes H anyEvent (survey H E S state ready) := by
  induction ready with
  | nil => exact .pure _
  | cons id rest ih =>
    unfold survey
    split
    · exact .throw _
    · refine (writes_raisePy _).bind fun g => ?_
      cases g with
      | blocked reason detail =>
        exact (writes_blocker _ _ _ _).bind fun _ => ih.bind fun found => .pure _
      | runnable source => exact ih.bind fun found => .pure _

theorem writes_loop (fuel left : Nat) (report : AdvanceReport) :
    Writes H anyEvent (advanceLoop H E S fuel left report) := by
  induction left generalizing report with
  | zero => exact .pure _
  | succ left ih =>
    refine writes_rebuild.bind fun state => ?_
    refine (writes_survey _ _).bind fun found => ?_
    obtain ⟨runnable, blockers⟩ := found
    cases runnable with
    | nil => exact .pure _
    | cons m rest =>
      refine writes_rebuild.bind fun state => ?_
      cases htask : state.tasks.get? m.1 with
      | none => exact .throw _
      | some task =>
        exact (writes_runTask (fun _ _ _ => trivial) _ _ _ _).bind fun ok => ih _

-- == verification

variable {log log' : EventLog} {reason : Reason} {b detail : PyStr} {s t : ProjectState}
  {report : AdvanceReport}

theorem verifies_adds {P : NewEvent → Prop}
    (h : verifyChain H.store log.rows = .ok true) (ha : Adds H.store P log log') :
    verifyChain H.store log'.rows = .ok true := by
  obtain ⟨r, -, fields, eventId, ts, e, -, ha⟩ := ha
  obtain ⟨es, hes, hlinked, hsound⟩ := verifyChain_eq_true.mp h
  refine verifyChain_eq_true.mpr ⟨es ++ [e], ?_, (Chain.linked_concat _ _).mpr ⟨hlinked, ?_⟩, ?_⟩
  · rw [ha.rows]
    exact events_concat hes
  · rw [ha.prevHash, EventLog.lastHash_eq, last_events hes]
  · rw [List.forall_mem_append]
    exact ⟨hsound, fun d hd => List.mem_singleton.mp hd ▸ ha.sound⟩

theorem verifies_written {P : NewEvent → Prop}
    (h : verifyChain H.store log.rows = .ok true) (hw : ReflTransGen (Adds H.store P) log log') :
    verifyChain H.store log'.rows = .ok true := by
  induction hw with
  | refl => exact h
  | tail _ ha ih => exact verifies_adds ih ha

-- == blockers

/-- The event `_record_blocker_once` appends. -/
def blockerEvent (blockerId taskId : PyStr) (reason : Reason) (detail : PyStr) : NewEvent :=
  ⟨.blockerRecorded, .dict [item "blocker_id" (.str blockerId),
    item "task_id" (.str taskId), item "reason" (.str (py reason.value)),
    item "detail" (.str detail)], some blockerId⟩

theorem blockerIdOf_ne_nil {id : PyStr} (h : blockerIdOf H id reason = .ok b) : b ≠ [] := by
  obtain ⟨text, -, heq⟩ := of_bind_ok h
  cases heq
  exact List.cons_ne_nil _ _

theorem recordBlockerOnce_known {id : PyStr} (hid : blockerIdOf H id reason = .ok b)
    (hb : s.blockers.contains b = true) (detail : PyStr) (w : World) :
    (recordBlockerOnce H s id reason detail).run w = (.ok (), w) := by
  unfold recordBlockerOnce
  rw [hid]
  show (if s.blockers.contains b = true then _ else _ : AProg Unit).run w = _
  rw [if_pos hb]
  rfl

theorem recordBlockerOnce_new {id : PyStr} (hid : blockerIdOf H id reason = .ok b)
    (hb : ¬s.blockers.contains b = true) (w : World) :
    (recordBlockerOnce H s id reason detail).run w
      = (appendStep H (blockerEvent b id reason detail)).run w := by
  unfold recordBlockerOnce
  rw [hid]
  show (if s.blockers.contains b = true then _ else _ : AProg Unit).run w = _
  rw [if_neg hb]
  rfl

theorem recordBlockerOnce_error {id : PyStr}
    {e : PyErr} (hid : blockerIdOf H id reason = .error e) (w : World) :
    (recordBlockerOnce H s id reason detail).run w = (.error (.py e), w) := by
  unfold recordBlockerOnce
  rw [hid]
  rfl

theorem rebuilt_blocker {id : PyStr} (hid : blockerIdOf H id reason = .ok b) (h : Rebuilt log s)
    (hw : Wrote H.store (blockerEvent b id reason detail) log log') :
    ∃ s', Rebuilt log' s' ∧ Covers s' s ∧ s'.blockers.contains b = true := by
  obtain ⟨fields, eventId, ts, e, -, ha⟩ := hw
  have hentity : Events.entityId e "blocker_id" = .ok b :=
    entityId_of_column ha.entityId (blockerIdOf_ne_nil hid)
  have hreduce : reduceType s e .blockerRecorded
      = .ok { s with blockers := s.blockers.set b e.payload } := by
    simp only [reduceType, hentity, bind_ok_eq]
  refine ⟨_, rebuilt_append h ha hreduce, ⟨rfl, fun c hc => ?_⟩, ?_⟩
  · exact contains_set.mpr (Or.inr hc)
  · exact contains_set.mpr (Or.inl rfl)

theorem recordBlockerOnce_ok {id : PyStr}
    (h : (recordBlockerOnce H s id reason detail).run w = (.ok (), w'))
    (ht : Rebuilt w.store.log t) (hcovers : Covers t s) :
    ∃ b t', blockerIdOf H id reason = .ok b ∧ Rebuilt w'.store.log t' ∧ Covers t' t
      ∧ t'.blockers.contains b = true := by
  cases hid : blockerIdOf H id reason with
  | error e =>
    rw [recordBlockerOnce_error hid] at h
    cases h
  | ok b =>
    by_cases hb : s.blockers.contains b = true
    · rw [recordBlockerOnce_known hid hb] at h
      cases h
      exact ⟨b, t, rfl, ht, .refl t, hcovers.blockers b hb⟩
    · rw [recordBlockerOnce_new hid hb] at h
      rcases appendStep_run (H := H) (blockerEvent b id reason detail) w with
        ⟨err, v, hrun, -⟩ | ⟨v, hrun, hwrote⟩
      · rw [hrun] at h
        cases h
      · rw [hrun] at h
        cases h
        obtain ⟨t', ht', hcovers', hb'⟩ := rebuilt_blocker hid ht hwrote
        exact ⟨b, t', rfl, ht', hcovers', hb'⟩

-- == at rest

theorem raisePy_ok_inv {α : Type} {r : Except PyErr α} {a : α}
    (h : (raisePy r).run w = (.ok a, w')) : r = .ok a ∧ w' = w := by
  unfold raisePy at h
  rw [Prog.run_ofExcept] at h
  cases r with
  | error e => cases h
  | ok b =>
    cases h
    exact ⟨rfl, rfl⟩

/-- Every task of the list is blocked in the state, for the reason given, and its
blocker is there: to survey them changes nothing. -/
def AtRest (H : Hosts) (E : AutomatedEngine) (S : Settings) (t : ProjectState)
    (ready : List PyStr) (blockers : List (PyStr × Reason)) : Prop :=
  ∀ s w, Covers s t → (survey H E S s ready).run w = (.ok ([], blockers), w)

theorem survey_rests {ready : List PyStr} {blockers : List (PyStr × Reason)}
    (h : (survey H E S s ready).run w = (.ok ([], blockers), w'))
    (ht : Rebuilt w.store.log t) (hcovers : Covers t s) :
    ∃ t', Rebuilt w'.store.log t' ∧ Covers t' t ∧ blockers.map Prod.fst = ready
      ∧ AtRest H E S t' ready blockers := by
  induction ready generalizing w t blockers with
  | nil =>
    cases h
    exact ⟨t, ht, .refl t, rfl, fun _ _ _ => rfl⟩
  | cons id rest ih =>
    unfold survey at h
    cases htask : s.tasks.get? id with
    | none =>
      rw [htask] at h
      cases h
    | some task =>
      rw [htask] at h
      obtain ⟨g, v, hg, h⟩ := Prog.run_bind_ok_inv h
      obtain ⟨hgate, rfl⟩ := raisePy_ok_inv hg
      cases g with
      | runnable source =>
        obtain ⟨found, v, -, h⟩ := Prog.run_bind_ok_inv h
        cases h
      | blocked reason detail =>
        obtain ⟨⟨⟩, v, hrecord, h⟩ := Prog.run_bind_ok_inv h
        obtain ⟨found, v', hfound, h⟩ := Prog.run_bind_ok_inv h
        obtain ⟨runnable, others⟩ := found
        cases h
        obtain ⟨b, t₁, hid, ht₁, hcovers₁, hb⟩ := recordBlockerOnce_ok hrecord ht hcovers
        obtain ⟨t₂, ht₂, hcovers₂, hkeys, hrest⟩ :=
          ih hfound ht₁ (hcovers₁.trans hcovers)
        have hall : Covers t₂ s := hcovers₂.trans (hcovers₁.trans hcovers)
        refine ⟨t₂, ht₂, hcovers₂.trans hcovers₁, by rw [List.map_cons, hkeys], fun u x hu => ?_⟩
        have hsame : u.tasks.get? id = some task := by
          rw [hu.tasks, hall.tasks, htask]
        unfold survey
        rw [hsame]
        have hknown := recordBlockerOnce_known hid (hu.blockers b (hcovers₂.blockers b hb)) detail x
        have hgated : (raisePy (gate E S task)).run x = (.ok (.blocked reason detail), x) := by
          unfold raisePy
          rw [Prog.run_ofExcept, hgate]
          rfl
        refine (Prog.run_bind_ok hgated).trans ?_
        refine (Prog.run_bind_ok hknown).trans ?_
        exact Prog.run_bind_ok (hrest u x hu)

theorem rebuildStep_ok_inv (h : rebuildStep.run w = (.ok s, w')) :
    Rebuilt w.store.log s ∧ w' = w := by
  rw [rebuildStep_run] at h
  cases hs : stateOf w.store.log with
  | error e =>
    rw [hs] at h
    cases h
  | ok t =>
    rw [hs] at h
    cases h
    exact ⟨Gateway.stateOf_ok.mp hs, rfl⟩

theorem rebuildStep_ok (h : Rebuilt w.store.log s) : rebuildStep.run w = (.ok s, w) := by
  have hs : stateOf w.store.log = .ok s := Gateway.stateOf_ok.mpr h
  rw [rebuildStep_run, hs]
  rfl

/-- What the last survey of a run has left. -/
structure Rested (H : Hosts) (E : AutomatedEngine) (S : Settings) (w : World)
    (report : AdvanceReport) (t : ProjectState) (blockers : List (PyStr × Reason)) : Prop where
  rebuilt : Rebuilt w.store.log t
  keys : blockers.map Prod.fst = deriveReadyTasks t
  rest : AtRest H E S t (deriveReadyTasks t) blockers
  blocked : ∃ before : AdvanceReport, report = addBlocked before blockers

theorem loop_rests {fuel left : Nat} {after : AdvanceReport}
    (h : (advanceLoop H E S fuel left report).run w = (.ok after, w'))
    (hleft : after.executed.length < report.executed.length + left) :
    ∃ t blockers, Rested H E S w' after t blockers := by
  induction left generalizing w report with
  | zero =>
    cases h
    exact absurd hleft (lt_irrefl _)
  | succ left ih =>
    unfold advanceLoop at h
    obtain ⟨s, v, hs, hloop⟩ := Prog.run_bind_ok_inv h
    obtain ⟨hrebuilt, rfl⟩ := rebuildStep_ok_inv hs
    obtain ⟨found, v, hfound, hnext⟩ := Prog.run_bind_ok_inv hloop
    obtain ⟨runnable, blockers⟩ := found
    cases runnable with
    | nil =>
      cases hnext
      obtain ⟨t, ht, hcovers, hkeys, hrest⟩ := survey_rests hfound hrebuilt (.refl s)
      have hready := deriveReadyTasks_congr hcovers.tasks
      exact ⟨t, blockers, ht, by rw [hready, hkeys], by rw [hready]; exact hrest, report, rfl⟩
    | cons m rest =>
      obtain ⟨s', v', hs', htry⟩ := Prog.run_bind_ok_inv hnext
      obtain ⟨-, rfl⟩ := rebuildStep_ok_inv hs'
      cases htask : s'.tasks.get? m.1 with
      | none =>
        simp only [htask] at htry
        cases htry
      | some task =>
        simp only [htask] at htry
        obtain ⟨ok, v', -, hagain⟩ := Prog.run_bind_ok_inv htry
        refine ih hagain ?_
        have hgrown : ((addExecuted (addBlocked report blockers) m.1 ok).executed).length
            = report.executed.length + 1 := List.length_append
        omega

-- == the next run

theorem getItem?_blocked {id : PyStr} {blockers : List (PyStr × Reason)}
    (h : id ∈ blockers.map Prod.fst) (d d' : List (PyStr × Reason)) :
    getItem? (blockers.foldl (fun d m => setItem d m.1 m.2) d) id
      = getItem? (blockers.foldl (fun d m => setItem d m.1 m.2) d') id := by
  induction blockers using List.reverseRecOn with
  | nil => cases h
  | append_singleton rest m ih =>
    rw [List.foldl_append, List.foldl_append, List.foldl_cons, List.foldl_nil,
      List.foldl_cons, List.foldl_nil, getItem?_setItem, getItem?_setItem]
    by_cases hid : id = m.1
    · rw [if_pos hid, if_pos hid]
    · rw [if_neg hid, if_neg hid]
      refine ih ?_
      rw [List.map_append, List.mem_append] at h
      exact h.resolve_right fun hm => hid (List.mem_singleton.mp hm)

theorem stopReason_congr {report' : AdvanceReport} (h : (report.executed.length : Int) < S.maxTasks)
    (h' : (report'.executed.length : Int) < S.maxTasks) (hblocked : ∀ id ∈ deriveReadyTasks t,
      getItem? report.blocked id = getItem? report'.blocked id) :
    stopReason S t report = stopReason S t report' := by
  have hreasons : (deriveReadyTasks t).filterMap (fun id => getItem? report.blocked id)
      = (deriveReadyTasks t).filterMap fun id => getItem? report'.blocked id :=
    List.filterMap_congr hblocked
  unfold stopReason
  dsimp only
  rw [hreasons, decide_eq_false (not_le.mpr h), decide_eq_false (not_le.mpr h')]

theorem loop_at_rest {fuel left : Nat}
    {blockers : List (PyStr × Reason)} (ht : Rebuilt w.store.log t)
    (hrest : AtRest H E S t (deriveReadyTasks t) blockers) :
    (advanceLoop H E S fuel (left + 1) report).run w = (.ok (addBlocked report blockers), w) := by
  unfold advanceLoop
  refine (Prog.run_bind_ok (rebuildStep_ok ht)).trans ?_
  exact Prog.run_bind_ok (hrest t w (.refl t))

def newReport : AdvanceReport := ⟨[], [], [], [], "IDLE", []⟩

theorem advance_ok_inv {fuel : Nat} (h : (advanceUntilIdle H E S fuel).run w = (.ok report, w')) :
    ¬S.maxTasks < 1 ∧ verifyChain H.store w.store.log.rows = .ok true ∧ validModes S = .ok ()
      ∧ ∃ found v t, (advanceLoop H E S fuel S.maxTasks.toNat newReport).run w = (.ok found, v)
        ∧ Rebuilt v.store.log t ∧ w' = v
        ∧ report = { found with
            remainingReady := deriveReadyTasks t
            stopReason := stopReason S t found } := by
  unfold advanceUntilIdle at h
  split at h
  · cases h
  · next hmax =>
    obtain ⟨valid, v₀, hverify, hrun⟩ := Prog.run_bind_ok_inv h
    rw [verifyStep_run] at hverify
    cases hvalid : verifyChain H.store w.store.log.rows with
    | error e =>
      rw [hvalid] at hverify
      cases hverify
    | ok answer =>
      rw [hvalid] at hverify
      cases hverify
      cases valid with
      | false => cases hrun
      | true =>
        obtain ⟨⟨⟩, v₁, hchecked, hrun₁⟩ := Prog.run_bind_ok_inv hrun
        obtain ⟨hmodes, rfl⟩ := raisePy_ok_inv hchecked
        obtain ⟨found, v, hloop, hrun₂⟩ := Prog.run_bind_ok_inv hrun₁
        obtain ⟨t, v₂, hread, hend⟩ := Prog.run_bind_ok_inv hrun₂
        obtain ⟨ht, rfl⟩ := rebuildStep_ok_inv hread
        cases hend
        exact ⟨hmax, rfl, hmodes, found, _, t, hloop, ht, rfl, rfl⟩

theorem advance_at_rest {fuel : Nat} {blockers : List (PyStr × Reason)}
    (hmax : ¬S.maxTasks < 1) (hverify : verifyChain H.store w.store.log.rows = .ok true)
    (hmodes : validModes S = .ok ()) (ht : Rebuilt w.store.log t)
    (hrest : AtRest H E S t (deriveReadyTasks t) blockers) :
    (advanceUntilIdle H E S fuel).run w = (.ok { addBlocked newReport blockers with
        remainingReady := deriveReadyTasks t
        stopReason := stopReason S t (addBlocked newReport blockers) }, w) := by
  have hverified : (verifyStep H).run w = (.ok true, w) := by
    rw [verifyStep_run, hverify]
    rfl
  have hvalid : (raisePy (validModes S)).run w = (.ok (), w) := by
    rw [hmodes]
    rfl
  obtain ⟨left, hleft⟩ : ∃ left, S.maxTasks.toNat = left + 1 :=
    ⟨S.maxTasks.toNat - 1, by omega⟩
  unfold advanceUntilIdle
  rw [if_neg hmax]
  refine (Prog.run_bind_ok hverified).trans ?_
  refine (Prog.run_bind_ok hvalid).trans ?_
  rw [hleft]
  refine (Prog.run_bind_ok (loop_at_rest ht hrest)).trans ?_
  exact Prog.run_bind_ok (rebuildStep_ok ht)

/-- After a run that stopped because nothing may be started, the next one with
the same arguments changes nothing and stops for the same reason. -/
theorem advance_again {fuel : Nat} (h : (advanceUntilIdle H E S fuel).run w = (.ok report, w'))
    (hidle : (report.executed.length : Int) < S.maxTasks) (fuel' : Nat) :
    ∃ again, (advanceUntilIdle H E S fuel').run w' = (.ok again, w')
      ∧ again.executed = [] ∧ again.stopReason = report.stopReason
      ∧ again.remainingReady = report.remainingReady := by
  obtain ⟨hmax, hverify, hmodes, found, v, t, hloop, ht, rfl, rfl⟩ := advance_ok_inv h
  have hidle : (found.executed.length : Int) < S.maxTasks := hidle
  have hleft : found.executed.length < newReport.executed.length + S.maxTasks.toNat := by
    have hnone : newReport.executed.length = 0 := rfl
    omega
  obtain ⟨t', blockers, hrested⟩ := loop_rests hloop hleft
  obtain rfl : t' = t := rebuilt_unique hrested.rebuilt ht
  have hwritten := writes_loop (H := H) (E := E) (S := S) fuel S.maxTasks.toNat newReport w
  rw [hloop] at hwritten
  have hverified := verifies_written hverify hwritten
  refine ⟨_, advance_at_rest hmax hverified hmodes ht hrested.rest, rfl, ?_, rfl⟩
  refine stopReason_congr ?_ hidle fun id hid => ?_
  · show ((0 : Nat) : Int) < S.maxTasks
    omega
  · obtain ⟨before, rfl⟩ := hrested.blocked
    exact getItem?_blocked (hrested.keys ▸ hid) _ _

-- == recorded once

/-- What a row that records a blocker says: of which task, and why. -/
def recordedBlocker (row : EventRow) : Option (Option Json × Option Json) :=
  if row.type = Text.lit EventType.blockerRecorded.value then
    some (payloadMember row "task_id", payloadMember row "reason")
  else none

def pairOf (m : PyStr × Reason) : Option Json × Option Json :=
  (some (.str m.1), some (.str (py m.2.value)))

theorem pairOf_injective : Function.Injective pairOf := by
  rintro ⟨id, reason⟩ ⟨id', reason'⟩ h
  unfold pairOf at h
  simp only [Prod.mk.injEq, Option.some.injEq, Json.str.injEq] at h
  obtain ⟨rfl, hreason⟩ := h
  have hvalues : ∀ r r' : Reason, py r.value = py r'.value → r = r' := by
    intro r r'
    cases r <;> cases r' <;> decide +kernel
  rw [hvalues reason reason' hreason]

structure RecordsBlocker (H : Hosts) (m : PyStr × Reason) (row : EventRow) : Prop where
  pair : recordedBlocker row = some (pairOf m)
  id : ∃ b, blockerIdOf H m.1 m.2 = .ok b ∧ row.entityId.map Text.str = some b

theorem appended_blocker {id : PyStr} (hid : blockerIdOf H id reason = .ok b)
    (h : Wrote H.store (blockerEvent b id reason detail) log log') :
    ∃ row, log'.rows = log.rows ++ [row] ∧ RecordsBlocker H (id, reason) row := by
  obtain ⟨fields, eventId, ts, e, hfields, ha⟩ := h
  refine ⟨EventLog.rowOf e, ha.rows, ?_, b, hid, ha.entityId⟩
  have hnames : ([(py "blocker_id", PyVal.str b), (py "task_id", .str id),
      (py "reason", .str (py reason.value)), (py "detail", .str detail)].map Prod.fst).Nodup := by
    simp only [List.map_cons, List.map_nil]
    decide +kernel
  have hmember : ∀ (key : String) (s : PyStr), (py key, PyVal.str s)
      ∈ [(py "blocker_id", PyVal.str b), (py "task_id", .str id),
        (py "reason", .str (py reason.value)), (py "detail", .str detail)] →
      payloadMember (EventLog.rowOf e) key = some (.str s) := by
    intro key s hm
    obtain ⟨d, hd, hget⟩ := Gateway.get?_normalized hnames hfields hm
    rw [dumps] at hd
    cases hd
    unfold payloadMember EventLog.rowOf
    rw [ha.payload, Option.bind_some, Fields.fields?_doc, Option.bind_some, hget]
    rfl
  unfold recordedBlocker pairOf
  have htype : (EventLog.rowOf e).type = Text.lit EventType.blockerRecorded.value := ha.type
  rw [if_pos htype]
  rw [hmember "task_id" id (by simp), hmember "reason" (py reason.value) (by simp)]

theorem recordedBlocker_other {r : NewEvent}
    (hr : r.type ≠ .blockerRecorded) (h : Wrote H.store r log log') :
    ∃ row, log'.rows = log.rows ++ [row] ∧ recordedBlocker row = none := by
  obtain ⟨fields, eventId, ts, e, -, ha⟩ := h
  refine ⟨EventLog.rowOf e, ha.rows, if_neg fun htype => hr ?_⟩
  have hsame : (Text.lit r.type.value).str = (Text.lit EventType.blockerRecorded.value).str :=
    congrArg Text.str (ha.type.symm.trans htype)
  have hname := congrArg EventType.ofName? hsame
  rw [Text.lit, Text.lit, EventLog.ofName?_value, EventLog.ofName?_value] at hname
  exact Option.some.inj hname

-- ------------------------------------------------ the blockers of a state

theorem event_of_mem {rows : List EventRow} {es : List Events.Event} {row : EventRow}
    (h : events rows = .ok es) (hrow : row ∈ rows) : ∃ e ∈ es, row.toEvent = .ok e := by
  induction rows generalizing es with
  | nil => cases hrow
  | cons r rest ih =>
    rw [events_cons] at h
    obtain ⟨d, hd, h⟩ := of_bind_ok h
    obtain ⟨ds, hds, h⟩ := of_bind_ok h
    cases h
    rcases List.mem_cons.mp hrow with rfl | hrow
    · exact ⟨d, List.mem_cons_self .., hd⟩
    · obtain ⟨e, he, hevent⟩ := ih hds hrow
      exact ⟨e, List.mem_cons_of_mem _ he, hevent⟩

theorem blockers_mono {s' : ProjectState} {e : Events.Event} {type : EventType}
    (h : reduceType s e type = .ok s') (hb : s.blockers.contains b = true) :
    s'.blockers.contains b = true := by
  have hmove : ∀ {status : TaskStatus}, moveTask s e status = .ok s' →
      s'.blockers.contains b = true := by
    intro status h
    obtain ⟨id, -, h⟩ := of_bind_ok h
    split at h
    · cases h
    · cases h
      exact hb
  cases type with
  | sourceIngested | goalDiscovered | artifactCreated | decisionRecorded =>
    obtain ⟨id, -, h⟩ := of_bind_ok h
    cases h
    exact hb
  | taskCreated =>
    obtain ⟨id, -, h⟩ := of_bind_ok h
    split at h
    · cases h
    · cases h
      exact hb
  | dependencyAdded =>
    have h : dependTask s e = .ok s' := h
    unfold dependTask at h
    split at h
    · split at h
      · cases h
      · cases h
        exact hb
    · cases h
  | blockerRecorded =>
    obtain ⟨id, -, h⟩ := of_bind_ok h
    cases h
    exact contains_set.mpr (Or.inr hb)
  | _ => exact hmove h

theorem contains_recorded (hb : b ≠ []) (h : Rebuilt log s) {row : EventRow} (hrow : row ∈ log.rows)
    (htype : row.type = Text.lit EventType.blockerRecorded.value)
    (hid : row.entityId.map Text.str = some b) : s.blockers.contains b = true := by
  obtain ⟨es, hes, hs⟩ := h
  have hall : ∀ e ∈ es, e.type = Text.lit EventType.blockerRecorded.value →
      e.entityId.map Text.str = some b → s.blockers.contains b = true := by
    refine replay_history reduceEvent (P := fun es s =>
      ∀ e ∈ es, e.type = Text.lit EventType.blockerRecorded.value →
        e.entityId.map Text.str = some b → s.blockers.contains b = true)
      (nofun) (fun es s e s' hP he d hd htype hid => ?_) hs
    obtain ⟨⟨type, hnamed, -, -, mid, hmid, rfl⟩⟩ := reduceEvent_ok he
    show mid.blockers.contains b = true
    rcases List.mem_append.mp hd with hd | hd
    · exact blockers_mono hmid (hP d hd htype hid)
    · cases List.mem_singleton.mp hd
      have hname := EventLog.ofName?_value .blockerRecorded
      rw [htype] at hnamed
      obtain rfl : type = .blockerRecorded := Option.some.inj (hnamed.symm.trans hname)
      obtain ⟨id, hentity, h⟩ := of_bind_ok hmid
      cases h
      rw [entityId_of_column hid hb] at hentity
      cases hentity
      exact contains_set.mpr (Or.inl rfl)
  obtain ⟨e, he, hrowe⟩ := event_of_mem hes hrow
  obtain ⟨htypes, hids⟩ := toEvent_columns hrowe
  exact hall e he (htypes.trans htype) (hids ▸ hid)

-- -------------------------------------------------------- one survey

/-- What a survey of the tasks appends: at most one blocker for each, and none the
surveyed state has. -/
def Surveyed (H : Hosts) (s : ProjectState) (ready : List PyStr) (log log' : EventLog) : Prop :=
  ∃ ms rows, log'.rows = log.rows ++ rows ∧ (ms.map Prod.fst).Sublist ready
    ∧ List.Forall₂ (RecordsBlocker H) ms rows
    ∧ ∀ m ∈ ms, ∀ b, blockerIdOf H m.1 m.2 = .ok b → ¬s.blockers.contains b = true

section Surveyed

variable {s : ProjectState} {ready : List PyStr} {log log' : EventLog} {id : PyStr}

theorem Surveyed.refl : Surveyed H s ready log log :=
  ⟨[], [], (List.append_nil _).symm, List.nil_sublist _, .nil, nofun⟩

theorem Surveyed.skip (h : Surveyed H s ready log log') : Surveyed H s (id :: ready) log log' := by
  obtain ⟨ms, rows, hrows, hsub, hrecords, hnew⟩ := h
  exact ⟨ms, rows, hrows, hsub.cons _, hrecords, hnew⟩

theorem Surveyed.cons {mid : EventLog} {reason : Reason} {row : EventRow}
    (hrow : mid.rows = log.rows ++ [row]) (hrecords : RecordsBlocker H (id, reason) row)
    (hnew : ∀ b, blockerIdOf H id reason = .ok b → ¬s.blockers.contains b = true)
    (h : Surveyed H s ready mid log') : Surveyed H s (id :: ready) log log' := by
  obtain ⟨ms, rows, hrows, hsub, hrest, hothers⟩ := h
  refine ⟨(id, reason) :: ms, row :: rows, ?_, hsub.cons_cons _, .cons hrecords hrest, ?_⟩
  · rw [hrows, hrow, List.append_assoc, List.singleton_append]
  · rw [List.forall_mem_cons]
    exact ⟨hnew, hothers⟩

theorem recordBlockerOnce_log (s : ProjectState) (id : PyStr) (reason : Reason)
    (detail : PyStr) (w : World) :
    ((recordBlockerOnce H s id reason detail).run w).2.store.log = w.store.log
      ∨ ∃ row, ((recordBlockerOnce H s id reason detail).run w).2.store.log.rows
          = w.store.log.rows ++ [row]
        ∧ RecordsBlocker H (id, reason) row
        ∧ ∀ b, blockerIdOf H id reason = .ok b → ¬s.blockers.contains b = true := by
  cases hid : blockerIdOf H id reason with
  | error e =>
    rw [recordBlockerOnce_error hid]
    exact Or.inl rfl
  | ok b =>
    by_cases hb : s.blockers.contains b = true
    · rw [recordBlockerOnce_known hid hb]
      exact Or.inl rfl
    · rw [recordBlockerOnce_new hid hb]
      rcases appendStep_run (H := H) (blockerEvent b id reason detail) w with
        ⟨err, v, hrun, hlog⟩ | ⟨v, hrun, hwrote⟩
      · rw [hrun]
        exact Or.inl hlog
      · rw [hrun]
        obtain ⟨row, hrow, hrecords⟩ := appended_blocker hid hwrote
        refine Or.inr ⟨row, hrow, hrecords, fun c hc => ?_⟩
        cases hc
        exact hb

theorem survey_surveyed (ready : List PyStr) (w : World) :
    Surveyed H s ready w.store.log ((survey H E S s ready).run w).2.store.log := by
  induction ready generalizing w with
  | nil => exact .refl
  | cons id rest ih =>
    unfold survey
    split
    · exact .refl
    · refine Prog.run_bind_leaves
        (J := fun v : World => Surveyed H s (id :: rest) w.store.log v.store.log) ?_
        fun g v hg _ => ?_
      · unfold raisePy
        rw [Prog.run_ofExcept]
        exact .refl
      · obtain ⟨-, rfl⟩ := raisePy_ok_inv hg
        cases g with
        | runnable source =>
          exact Prog.run_bind_leaves
            (J := fun x : World => Surveyed H s (id :: rest) v.store.log x.store.log)
            (ih v).skip fun found x _ h => h
        | blocked reason detail =>
          refine Prog.run_bind_leaves
            (J := fun x : World => Surveyed H s (id :: rest) v.store.log x.store.log) ?_
            fun _ x hrecord _ => ?_
          · rcases recordBlockerOnce_log (H := H) s id reason detail v with
              hsame | ⟨row, hrow, hrecords, hnew⟩
            · rw [hsame]
              exact .refl
            · exact .cons hrow hrecords hnew .refl
          · refine Prog.run_bind_leaves
              (J := fun y : World => Surveyed H s (id :: rest) v.store.log y.store.log) ?_
              fun found y _ h => h
            have hlog := recordBlockerOnce_log (H := H) s id reason detail v
            rw [hrecord] at hlog
            rcases hlog with hsame | ⟨row, hrow, hrecords, hnew⟩
            · rw [← hsame]
              exact (ih x).skip
            · exact .cons hrow hrecords hnew (ih x)

end Surveyed

-- ---------------------------------------------------------- any number

/-- What has been appended records no blocker twice, and each under its
identifier. -/
def RecordedOnce (H : Hosts) (base : List EventRow) (log : EventLog) : Prop :=
  ∃ rows, log.rows = base ++ rows ∧ (rows.filterMap recordedBlocker).Nodup
    ∧ ∀ row ∈ rows, recordedBlocker row = none ∨ ∃ m, RecordsBlocker H m row

section RecordedOnce

variable {base : List EventRow} {log log' : EventLog}

theorem filterMap_recorded {ms : List (PyStr × Reason)} {rows : List EventRow}
    (h : List.Forall₂ (RecordsBlocker H) ms rows) :
    rows.filterMap recordedBlocker = ms.map pairOf := by
  induction h with
  | nil => rfl
  | cons hm _ ih => rw [List.filterMap_cons_some hm.pair, ih, List.map_cons]

theorem type_of_recorded {row : EventRow} {p : Option Json × Option Json}
    (h : recordedBlocker row = some p) : row.type = Text.lit EventType.blockerRecorded.value := by
  unfold recordedBlocker at h
  split at h
  · next htype => exact htype
  · cases h

theorem RecordedOnce.survey {s : ProjectState} {ready : List PyStr}
    (h : RecordedOnce H base log) (hs : Rebuilt log s) (hready : ready.Nodup)
    (hsurvey : Surveyed H s ready log log') : RecordedOnce H base log' := by
  obtain ⟨rows, hrows, hnodup, hknown⟩ := h
  obtain ⟨ms, added, hadded, hsub, hrecords, hnew⟩ := hsurvey
  have hpairs := filterMap_recorded hrecords
  refine ⟨rows ++ added, by rw [hadded, hrows, List.append_assoc], ?_, ?_⟩
  · rw [List.filterMap_append, hpairs]
    have hms : ms.Nodup := (hready.sublist hsub).of_map _
    refine hnodup.append (hms.map pairOf_injective) fun p hold hmem => ?_
    obtain ⟨m, hm, rfl⟩ := List.mem_map.mp hmem
    obtain ⟨row, hrow, hpair⟩ := List.mem_filterMap.mp hold
    rcases hknown row hrow with hnone | ⟨m', hm'⟩
    · rw [hnone] at hpair
      cases hpair
    · obtain rfl : m' = m := pairOf_injective (Option.some.inj (hm'.pair.symm.trans hpair))
      obtain ⟨b, hb, hid⟩ := hm'.id
      refine hnew m' hm b hb (contains_recorded (blockerIdOf_ne_nil hb) hs ?_
        (type_of_recorded hpair) hid)
      rw [hrows]
      exact List.mem_append_right _ hrow
  · rw [List.forall_mem_append]
    refine ⟨hknown, fun row hrow => ?_⟩
    obtain ⟨i, hi, rfl⟩ := List.getElem_of_mem hrow
    exact Or.inr ⟨_, hrecords.get (by rw [hrecords.length_eq]; exact hi) hi⟩

theorem RecordedOnce.others (h : RecordedOnce H base log)
    (hw : ReflTransGen (Adds H.store fun r => r.type ≠ .blockerRecorded) log log') :
    RecordedOnce H base log' := by
  induction hw with
  | refl => exact h
  | tail _ hadds ih =>
    obtain ⟨r, hr, hwrote⟩ := hadds
    obtain ⟨row, hrow, hnone⟩ := recordedBlocker_other hr hwrote
    obtain ⟨rows, hrows, hnodup, hknown⟩ := ih
    refine ⟨rows ++ [row], by rw [hrow, hrows, List.append_assoc], ?_, ?_⟩
    · rw [List.filterMap_append, List.filterMap_cons_none hnone, List.filterMap_nil,
        List.append_nil]
      exact hnodup
    · rw [List.forall_mem_append]
      exact ⟨hknown, fun d hd => List.mem_singleton.mp hd ▸ Or.inl hnone⟩

theorem loop_recordedOnce (fuel left : Nat) (report : AdvanceReport) {w : World}
    (h : RecordedOnce H base w.store.log) :
    RecordedOnce H base ((advanceLoop H E S fuel left report).run w).2.store.log := by
  induction left generalizing report w with
  | zero => exact h
  | succ left ih =>
    have hread : ∀ v : World, RecordedOnce H base v.store.log →
        RecordedOnce H base (rebuildStep.run v).2.store.log := by
      intro v hv
      rw [rebuildStep_run]
      exact hv
    unfold advanceLoop
    refine Prog.run_bind_leaves (J := fun v : World => RecordedOnce H base v.store.log)
      (hread w h) fun s v hs _ => ?_
    obtain ⟨hrebuilt, rfl⟩ := rebuildStep_ok_inv hs
    refine Prog.run_bind_leaves (J := fun v : World => RecordedOnce H base v.store.log)
      (h.survey hrebuilt (nodup_deriveReadyTasks s) (survey_surveyed _ _))
      fun found x _ hx => ?_
    obtain ⟨runnable, blockers⟩ := found
    cases runnable with
    | nil => exact hx
    | cons m rest =>
      refine Prog.run_bind_leaves (J := fun v : World => RecordedOnce H base v.store.log)
        (hread x hx) fun s' y _ hy => ?_
      cases htask : s'.tasks.get? m.1 with
      | none => exact hy
      | some task =>
        refine Prog.run_bind_leaves (J := fun v : World => RecordedOnce H base v.store.log)
          (hy.others ?_) fun ok z _ hz => ih _ hz
        exact writes_runTask (fun _ _ htype => htype) _ _ _ _ y

theorem advance_recordedOnce (fuel : Nat) (h : RecordedOnce H base w.store.log) :
    RecordedOnce H base ((advanceUntilIdle H E S fuel).run w).2.store.log := by
  unfold advanceUntilIdle
  split
  · exact h
  · have hverify : ((verifyStep H).run w).2 = w := by rw [verifyStep_run]
    refine Prog.run_bind_leaves (J := fun v : World => RecordedOnce H base v.store.log)
      (by rw [hverify]; exact h) fun valid v _ hv => ?_
    split
    · refine Prog.run_bind_leaves (J := fun v : World => RecordedOnce H base v.store.log) ?_
        fun _ x _ hx => ?_
      · unfold raisePy
        rw [Prog.run_ofExcept]
        exact hv
      · refine Prog.run_bind_leaves (J := fun v : World => RecordedOnce H base v.store.log)
          (loop_recordedOnce _ _ _ hx) fun found y _ hy => ?_
        refine Prog.run_bind_leaves (J := fun v : World => RecordedOnce H base v.store.log) ?_
          fun s z _ hz => hz
        rw [rebuildStep_run]
        exact hy
    · exact hv

end RecordedOnce

-- == calls

structure Arguments where
  engine : AutomatedEngine
  settings : Settings
  fuel : Nat

/-- The stores after a number of calls, whether they return or raise. -/
def afterCalls (H : Hosts) (calls : List Arguments) (w : World) : World :=
  calls.foldl (fun w c => ((advanceUntilIdle H c.engine c.settings c.fuel).run w).2) w

theorem afterCalls_recordedOnce {base : List EventRow} (calls : List Arguments)
    (h : RecordedOnce H base w.store.log) :
    RecordedOnce H base (afterCalls H calls w).store.log := by
  induction calls generalizing w with
  | nil => exact h
  | cons c rest ih => exact ih (advance_recordedOnce c.fuel h)

-- == a sample

/-- A log with one task, which has no capability. -/
def blockedWorld : World :=
  { newWorld with store := { newWorld.store with
      log := EventLog.appendAll tellingHosts.store [⟨py "TASK_CREATED", .dict [],
        some (py "task-1"), py "e-1", py "now"⟩] } }

/-- What is told of a run that returned, and the events there are then. -/
def told (out : Except AdvanceError AdvanceReport × World) :
    Option (List PyStr × String × List PyStr × Nat) :=
  out.1.toOption.map fun report => (report.executed, report.stopReason, report.remainingReady,
    out.2.store.log.rows.length)

theorem told_eq {out : Except AdvanceError AdvanceReport × World} {executed ready : List PyStr}
    {reason : String} {events : Nat} (h : told out = some (executed, reason, ready, events)) :
    ∃ report w, out = (.ok report, w) ∧ report.executed = executed
      ∧ report.stopReason = reason ∧ report.remainingReady = ready
      ∧ w.store.log.rows.length = events := by
  obtain ⟨r, w⟩ := out
  cases r with
  | error e => cases h
  | ok report =>
    cases h
    exact ⟨report, w, rfl, rfl, rfl, rfl, rfl⟩

/-- A run that stops because nothing may be started rests: the next one with the same arguments
changes neither store, executes nothing and returns the same reason and the same ready tasks. -/
theorem advance_rests (H : Hosts) :
    (∀ (E : AutomatedEngine) (S : Settings) (fuel : Nat) (w w' : World) (report : AdvanceReport),
      (advanceUntilIdle H E S fuel).run w = (.ok report, w') →
      (report.executed.length : Int) < S.maxTasks →
      ∀ fuel' : Nat, ∃ again, (advanceUntilIdle H E S fuel').run w' = (.ok again, w')
        ∧ again.executed = [] ∧ again.stopReason = report.stopReason
        ∧ again.remainingReady = report.remainingReady)
    ∧ ∀ (calls : List Arguments) (w : World), ∃ rows,
        (afterCalls H calls w).store.log.rows = w.store.log.rows ++ rows
        ∧ (rows.filterMap recordedBlocker).Nodup := by
  refine ⟨fun E S fuel w w' report h hidle fuel' => advance_again h hidle fuel', fun calls w => ?_⟩
  have hstart : RecordedOnce H w.store.log.rows w.store.log :=
    ⟨[], (List.append_nil _).symm, List.nodup_nil, fun _ h => (by cases h)⟩
  obtain ⟨rows, hrows, hnodup, -⟩ := afterCalls_recordedOnce calls hstart
  exact ⟨rows, hrows, hnodup⟩

theorem advance_rests_blocked :
    ∃ w report, (advanceUntilIdle tellingHosts echoEngine (echoSettings false) 0).run blockedWorld
        = (.ok report, w) ∧ report.stopReason = "NO_CAPABILITY" ∧ w.store.log.rows.length = 2
      ∧ ∃ again, (advanceUntilIdle tellingHosts echoEngine (echoSettings false) 0).run w
          = (.ok again, w) ∧ again.executed = [] ∧ again.stopReason = "NO_CAPABILITY"
        ∧ again.remainingReady = [py "task-1"] := by
  have htold : told ((advanceUntilIdle tellingHosts echoEngine (echoSettings false) 0).run
      blockedWorld) = some ([], "NO_CAPABILITY", [py "task-1"], 2) := by decide +kernel
  obtain ⟨report, w, hrun, hexecuted, hreason, hready, hrows⟩ := told_eq htold
  have hidle : (report.executed.length : Int) < (echoSettings false).maxTasks := by
    rw [hexecuted]
    decide
  obtain ⟨again, hagain, hnone, hsame, hleft⟩ :=
    (advance_rests tellingHosts).1 _ _ _ _ _ _ hrun hidle 0
  exact ⟨w, report, hrun, hreason, hrows, again, hagain, hnone, hsame.trans hreason,
    hleft.trans hready⟩

end Centinal26.Advance
