/-
What `run_once` leaves of the job it picks: out of the queue, or where it was.
-/
import Centinal26.Core.Engine
import Centinal26.Lib.Ends

namespace Centinal26.Core

open Py Steps

variable {H : Host} {E : Engine}

/-- The job is on file, and no longer queued. -/
def Dequeued (id : Text) (w : World) : Prop :=
  ∃ row, w.jobs.find? id = some row ∧ row.state ≠ .queued

/-- The outcome of a capability can be filed: an output is filed in a dictionary, one deeper. -/
def recordable (nesting : Nat) : Outcome PyVal → Bool
  | .returned output => (dumpsWithin (nesting - 1) output).isOk
  | .raised _ _ => true
  | .escaped => false

/-- `run_once` reaches its first transition with a job whose row parses. -/
def reachesWith (H : Host) (E : Engine) (w : World) (row : JobRow)
    (grant : Grant) (data : PyVal) : Bool :=
  match grant.permits row.capability.str (H.clock w.ticks) with
  | .error _ => false
  | .ok false => true
  | .ok true =>
    match E.capabilities row.capability.str with
    | none => true
    | some registered => w.audit.readable && recordable E.nesting
        (registered.execute w.executed.length data)

/-- `run_once` reaches its first transition with the job it picks. -/
def reaches (H : Host) (E : Engine) (w : World) (row : JobRow) : Bool :=
  match row.grant, row.input with
  | some grant, some data => reachesWith H E w row grant data
  | _, _ => false

-- == preservation

/-- These jobs have left the queue, and these are the executions. -/
def Past (gone : Text → Prop) (calls : List Text) (w : World) : Prop :=
  (∀ j, gone j → Dequeued j w) ∧ w.executed = calls

variable {gone : Text → Prop} {id : Text} {calls : List Text}

theorem keeps_auditAppend (event : String) (payload : List (PyKey × PyVal)) :
    (auditAppend H E event payload).Keeps (Past gone calls) := by
  refine .bind (fun _ h => h) fun now w h => ?_
  unfold writeAudit
  split
  · split
    · exact h
    · exact h
  · exact h

theorem find?_updateJob (j : Text) (state : JobState) (result : Json)
    (stamp : Instant) (w : World) (id : Text) :
    (updateJob j state result stamp w).2.jobs.find? id
      = if id = j then (w.jobs.find? j).map (transitionColumns state result stamp)
        else w.jobs.find? id :=
  Table.find?_modify w.jobs j (transitionColumns state result stamp) (fun _ => rfl) id

theorem keeps_updateJob {j : Text} {state : JobState} (hs : state ≠ .queued)
    (result : Json) (stamp : Instant) :
    (updateJob j state result stamp).Keeps (Past gone calls) := by
  intro w h
  refine ⟨fun id hid => ?_, h.2⟩
  obtain ⟨row, hrow, hq⟩ := h.1 id hid
  unfold Dequeued
  rw [find?_updateJob]
  split
  · next hj =>
    rw [← hj, hrow]
    exact ⟨_, rfl, hs⟩
  · exact ⟨row, hrow, hq⟩

theorem keeps_transition {j : Text} {state : JobState} (hs : state ≠ .queued)
    (result : PyVal) : (transition H E j state result).Keeps (Past gone calls) :=
  .bind (fun _ h => h) fun doc => .bind (fun _ h => h) fun stamp =>
    keeps_updateJob hs doc stamp

theorem keeps_conclude {j : Text} {state : JobState} (hs : state ≠ .queued)
    (result : List (PyKey × PyVal)) : (conclude H E j state result).Keeps (Past gone calls) :=
  .bind (keeps_transition hs _) fun _ => keeps_auditAppend _ _

theorem keeps_verifyOutput (row : JobRow) (registered : RegisteredCapability)
    (data output : PyVal) :
    (verifyOutput H E row registered data output).Keeps (Past gone calls) := by
  refine .bind (fun _ h => h) fun verified => ?_
  cases verified with
  | escaped => exact .throw _
  | raised name message => exact keeps_conclude (by decide) _
  | returned verdict =>
    cases verdict with
    | other => exact keeps_conclude (by decide) _
    | verification v =>
      refine keeps_conclude ?_ _
      split <;> decide

theorem keeps_storeSubmit (capability : PyStr) (data : PyVal) (grant : Grant) :
    (storeSubmit H E capability data grant).Keeps (Past gone calls) := by
  refine .bind (fun _ h => h) fun job => .bind (fun _ h => h) fun stamp =>
    .bind (fun _ h => h) fun input => .bind (fun _ h => h) fun capability =>
    .bind (fun w h => ?_) fun _ => .pure _
  unfold insertRow
  split
  · next jobs hins =>
    refine ⟨fun id hid => ?_, h.2⟩
    obtain ⟨row, hrow, hq⟩ := h.1 id hid
    refine ⟨row, ?_, hq⟩
    show jobs.find? id = some row
    rw [Table.find?_insert hins]
    split
    · next hj =>
      -- the key of the new row was free
      rw [hj, Table.find?_of_insert hins] at hrow
      cases hrow
    · exact hrow
  · exact h

theorem keeps_submit (capability : PyStr) (data : PyVal) (grant : Grant) :
    (submit H E capability data grant).Keeps (Past gone calls) := by
  refine .bind (.bind (fun _ h => h) fun _ _ h => h) fun permitted => ?_
  split
  · exact .bind (keeps_auditAppend _ _) fun _ => .throw _
  · split
    · exact .throw _
    · exact .bind (keeps_storeSubmit _ _ _) fun _ =>
        .bind (keeps_auditAppend _ _) fun _ => .pure _

-- == one call

/-- How `run_once` ends with the job it has picked. -/
structure Ending (id : Text) (reached : Prop) (w w' : World) : Prop where
  dequeued : reached → Dequeued id w'
  stuck : ¬ reached → w'.jobs = w.jobs
  executed : w'.executed = w.executed ∨ w'.executed = w.executed ++ [id]
  others : ∀ j, Dequeued j w → Dequeued j w'

theorem Ending.missed {reached : Prop} {w w' : World} (h : ¬ reached) (hjobs : w'.jobs = w.jobs)
    (hcalls : w'.executed = w.executed ∨ w'.executed = w.executed ++ [id]) :
    Ending id reached w w' :=
  ⟨fun hr => absurd hr h, fun _ => hjobs, hcalls, fun _ ⟨row, hrow, hq⟩ =>
    ⟨row, hjobs ▸ hrow, hq⟩⟩

theorem Ending.past {reached : Prop} {w w' : World} (h : reached)
    (hpast : Past (fun j => Dequeued j w ∨ j = id) calls w')
    (hcalls : calls = w.executed ∨ calls = w.executed ++ [id]) : Ending id reached w w' :=
  ⟨fun _ => hpast.1 id (Or.inr rfl), fun hr => absurd h hr, hpast.2 ▸ hcalls,
    fun j hj => hpast.1 j (Or.inl hj)⟩

-- == documents

theorem dumpsWithin_isOk {n : Nat} {v : PyVal} :
    (dumpsWithin n v).isOk = true ↔ v.nesting ≤ n ∧ (dumpsPlain v).isOk = true := by
  unfold dumpsWithin
  split
  · next h => exact ⟨fun hok => ⟨h, hok⟩, fun hok => hok.2⟩
  · next h => exact ⟨nofun, fun hok => absurd hok.1 h⟩

theorem nesting_record (n : Nat) (ms : List (PyStr × PyVal)) :
    (PyVal.dict (strItems ms)).nesting ≤ n + 1 ↔ ∀ m ∈ ms, m.2.nesting ≤ n := by
  have hitems : PyVal.nestingItems (strItems ms) ≤ n ↔ ∀ m ∈ ms, m.2.nesting ≤ n := by
    induction ms with
    | nil => exact iff_of_true (Nat.zero_le n) nofun
    | cons m rest ih =>
      rw [List.forall_mem_cons, ← ih]
      exact Nat.max_le
  rw [← hitems, PyVal.nesting]
  omega

/-- A record can be written where the values in it can, one deeper. -/
theorem dumpsWithin_record_isOk {ms : List (PyStr × PyVal)} :
    (dumpsWithin E.nesting (.dict (strItems ms))).isOk = true
      ↔ ∀ m ∈ ms, (dumpsWithin (E.nesting - 1) m.2).isOk = true := by
  have hroomy := E.roomy
  obtain ⟨n, hn⟩ : ∃ n, E.nesting = n + 1 := ⟨E.nesting - 1, by omega⟩
  rw [dumpsWithin_isOk, hn, nesting_record, dumpsPlain_record_isOk, Nat.add_sub_cancel]
  simp only [dumpsWithin_isOk]
  exact forall₂_and.symm

theorem dumpsWithin_str_isOk (n : Nat) (s : PyStr) : (dumpsWithin n (.str s)).isOk = true :=
  dumpsWithin_isOk.mpr ⟨Nat.zero_le n, by rw [dumpsPlain]; rfl⟩

theorem dumpsWithin_bool_isOk (n : Nat) (b : Bool) : (dumpsWithin n (.bool b)).isOk = true :=
  dumpsWithin_isOk.mpr ⟨Nat.zero_le n, by rw [dumpsPlain]; rfl⟩

-- == transitions

theorem conclude_dequeues {state : JobState} {w : World}
    {result : List (PyStr × PyVal)} (hs : state ≠ .queued)
    (hrow : ∃ row, w.jobs.find? id = some row) (hpast : Past gone calls w)
    (hd : ∀ m ∈ result, (dumpsWithin (E.nesting - 1) m.2).isOk = true) : Past
      (fun j => gone j ∨ j = id) calls
      (conclude H E id state (strItems result) w).2 := by
  obtain ⟨doc, hdoc⟩ := exists_ok (dumpsWithin_record_isOk.mpr hd)
  obtain ⟨row, hrow⟩ := hrow
  have htransition : transition H E id state (.dict (strItems result)) w
      = updateJob id state doc (H.clock w.ticks) { w with ticks := w.ticks + 1 } := by
    unfold transition
    rw [hdoc]
    rfl
  have hleft : Past (fun j => gone j ∨ j = id) calls
      (updateJob id state doc (H.clock w.ticks) { w with ticks := w.ticks + 1 }).2 := by
    have hkept := @keeps_updateJob gone calls id state hs doc (H.clock w.ticks)
      { w with ticks := w.ticks + 1 } hpast
    refine ⟨fun j hj => hj.elim (hkept.1 j) fun hid => ?_, hkept.2⟩
    unfold Dequeued
    rw [find?_updateJob, if_pos hid, hrow]
    exact ⟨_, rfl, hs⟩
  unfold conclude
  rw [Block.bind_apply, htransition]
  exact keeps_auditAppend _ _ _ hleft

theorem conclude_stays {state : JobState} {w : World} {result : List (PyKey × PyVal)}
    (hd : ¬ (dumpsWithin E.nesting (.dict result)).isOk = true) :
    ∃ e, conclude H E id state result w = (.error e, w) := by
  cases hdoc : dumpsWithin E.nesting (.dict result) with
  | ok doc =>
    rw [hdoc] at hd
    exact absurd rfl hd
  | error e =>
    refine ⟨.py e, ?_⟩
    unfold conclude transition
    rw [hdoc]
    rfl

section Append

variable {event : String} {payload : List (PyKey × PyVal)} {w : World}

theorem auditAppend_readable (h : w.audit.readable = true)
    (hp : (dumps (.dict payload)).isOk = true) (hn : (PyVal.dict payload).nesting ≤ 1) : ∃ audit,
      auditAppend H E event payload w
      = (.ok (), { w with ticks := w.ticks + 1, audit }) := by
  obtain ⟨audit, haudit⟩ := exists_ok (@AuditLog.append_isOk H w.audit event _
    (H.clock w.ticks) |>.mpr ⟨h, hp⟩)
  refine ⟨audit, ?_⟩
  show writeAudit H E event payload (H.clock w.ticks) { w with ticks := w.ticks + 1 } = _
  unfold writeAudit
  rw [if_pos ((Nat.add_le_add_right hn 1).trans E.roomy), haudit]

theorem auditAppend_unreadable (h : ¬ w.audit.readable = true) : ∃ e, auditAppend H E event payload w
      = (.error e, { w with ticks := w.ticks + 1 }) := by
  cases haudit : w.audit.append H event (.dict payload) (H.clock w.ticks) with
  | ok audit =>
    exact absurd (AuditLog.append_isOk.mp (by rw [haudit]; rfl)).1 h
  | error e =>
    by_cases hn : (PyVal.dict payload).nesting + 1 ≤ E.nesting
    · refine ⟨.py e, ?_⟩
      show writeAudit H E event payload (H.clock w.ticks) { w with ticks := w.ticks + 1 } = _
      unfold writeAudit
      rw [if_pos hn, haudit]
    · refine ⟨.py .recursionError, ?_⟩
      show writeAudit H E event payload (H.clock w.ticks) { w with ticks := w.ticks + 1 } = _
      unfold writeAudit
      rw [if_neg hn]

end Append

-- == the branches

theorem settleOutcome_dequeues {w : World} {row : JobRow}
    (hrow : ∃ r, w.jobs.find? row.id = some r) (hpast : Past gone calls w)
    (registered : RegisteredCapability) (data : PyVal) {outcome : Outcome PyVal}
    (h : recordable E.nesting outcome = true) : Past (fun j => gone j ∨ j = row.id) calls
      (settleOutcome H E row registered data outcome w).2 := by
  cases outcome with
  | escaped => cases h
  | raised name message =>
    refine @conclude_dequeues H E _ row.id _ .failed w
      [(py "ok", .bool false), (py "error", .str name),
        (py "message", .str message)] (by decide) hrow hpast ?_
    simp only [List.forall_mem_cons, dumpsWithin_str_isOk, dumpsWithin_bool_isOk,
      List.not_mem_nil, false_implies, implies_true, and_self]
  | returned output =>
    refine Block.Keeps.after (fun _ => keeps_verifyOutput _ _ _ _)
      (@conclude_dequeues H E _ row.id _ .executed w
        [(py "ok", .bool true), (py "output", output)] (by decide) hrow hpast ?_)
    simp only [List.forall_mem_cons, dumpsWithin_bool_isOk, true_and,
      List.not_mem_nil, false_implies, implies_true, and_true]
    exact h

theorem settleOutcome_stays {w : World} {row : JobRow}
    (registered : RegisteredCapability) (data : PyVal) {outcome : Outcome PyVal}
    (h : ¬ recordable E.nesting outcome = true) :
      (settleOutcome H E row registered data outcome w).2 = w := by
  cases outcome with
  | escaped => rfl
  | raised name message => exact absurd rfl h
  | returned output =>
    have hd : ¬ (dumpsWithin E.nesting (.dict (strItems [(py "ok", .bool true),
        (py "output", output)]))).isOk = true := by
      rw [dumpsWithin_record_isOk]
      exact fun hall => h (hall (py "output", output)
        (List.mem_cons_of_mem _ (List.mem_singleton_self _)))
    obtain ⟨e, hrun⟩ := @conclude_stays H E row.id .executed w _ hd
    exact congrArg Prod.snd (Block.bind_error hrun)

theorem execute_ending {w : World} {row : JobRow}
    (hrow : w.jobs.find? row.id = some row) (registered : RegisteredCapability)
    (data : PyVal) (n : Nat) : Ending row.id ((w.audit.readable
        && recordable E.nesting (registered.execute w.executed.length data)) = true) w
      (execute H E row registered data { w with ticks := n }).2 := by
  by_cases hlog : w.audit.readable = true
  · obtain ⟨audit, happend⟩ := @auditAppend_readable H E "job_started"
      (strItems [(py "job_id", row.id.val), (py "capability", row.capability.val)])
      { w with ticks := n } hlog (dumps_record_isOk.mpr (by
        simp only [List.forall_mem_cons, Text.val, AuditLog.dumps_str_isOk,
          List.not_mem_nil, false_implies, implies_true, and_self]))
      ((nesting_record 0 _).mpr (by
        simp only [List.forall_mem_cons, Text.val, PyVal.nesting,
          List.not_mem_nil, false_implies, implies_true, and_self, le_refl]))
    let called : World := { w with
      ticks := n + 1
      audit
      executed := w.executed ++ [row.id] }
    have hrun : execute H E row registered data { w with ticks := n }
        = settleOutcome H E row registered data (registered.execute w.executed.length data) called :=
      Block.bind_ok happend
    rw [hrun]
    by_cases hout : recordable E.nesting (registered.execute w.executed.length data) = true
    · have hpast : Past (fun j => Dequeued j w) (w.executed ++ [row.id]) called :=
        ⟨fun _ hj => hj, rfl⟩
      have hleft := @settleOutcome_dequeues H E _ _ called row ⟨row, hrow⟩ hpast
        registered data _ hout
      exact .past (Bool.and_eq_true_iff.mpr ⟨hlog, hout⟩) hleft (Or.inr rfl)
    · rw [settleOutcome_stays registered data hout]
      exact .missed (fun h => hout (Bool.and_eq_true_iff.mp h).2) rfl (Or.inr rfl)
  · obtain ⟨e, happend⟩ := @auditAppend_unreadable H E "job_started"
      [item "job_id" row.id.val, item "capability" row.capability.val]
      { w with ticks := n } hlog
    have hrun : execute H E row registered data { w with ticks := n }
        = (.error e, { w with ticks := n + 1 }) := Block.bind_error happend
    rw [hrun]
    exact .missed (fun h => hlog (Bool.and_eq_true_iff.mp h).1) rfl (Or.inl rfl)

theorem reject_ending {reached : Prop} (h : reached) {w : World} {row : JobRow}
    (hrow : w.jobs.find? row.id = some row) (error : String) :
    Ending row.id reached w (conclude H E row.id .rejected
      [item "error" (.str (py error))] { w with ticks := w.ticks + 1 }).2 := by
  refine .past h (@conclude_dequeues H E _ row.id _ .rejected
    { w with ticks := w.ticks + 1 } [(py "error", .str (py error))] (by decide)
    ⟨row, hrow⟩ ⟨fun _ hj => hj, rfl⟩ ?_) (Or.inl rfl)
  simp only [List.forall_mem_singleton, dumpsWithin_str_isOk]

theorem runRow_ending {w : World} {row : JobRow}
    (hrow : w.jobs.find? row.id = some row) (grant : Grant) (data : PyVal) :
    Ending row.id (reachesWith H E w row grant data = true) w (runRow H E row grant data w).2 := by
  have hasked : permits H grant row.capability.str w
      = ((grant.permits row.capability.str (H.clock w.ticks)).mapError .py,
        { w with ticks := w.ticks + 1 }) := rfl
  unfold reachesWith runRow
  cases hp : grant.permits row.capability.str (H.clock w.ticks) with
  | error e =>
    rw [hp] at hasked
    rw [Block.bind_error hasked]
    exact .missed Bool.false_ne_true rfl (Or.inl rfl)
  | ok permitted =>
    rw [hp] at hasked
    rw [Block.bind_ok hasked]
    cases permitted with
    | false => exact reject_ending rfl hrow _
    | true =>
      cases E.capabilities row.capability.str with
      | none => exact reject_ending rfl hrow _
      | some registered => exact execute_ending hrow registered data _

theorem runJob_ending {w : World} {row : JobRow} (hrow : w.jobs.find? row.id = some row) :
    Ending row.id (reaches H E w row = true) w (runJob H E row w).2 := by
  unfold reaches runJob column
  cases row.grant with
  | none => exact .missed Bool.false_ne_true rfl (Or.inl rfl)
  | some grant =>
    cases row.input with
    | none => exact .missed Bool.false_ne_true rfl (Or.inl rfl)
    | some data => exact runRow_ending hrow grant data

-- == runs

/-- What is asked of the engine. -/
inductive CoreCall : Type
  | register (name : PyStr) (registered : RegisteredCapability)
  | submit (capability : PyStr) (data : PyVal) (grant : Grant)
  | runOnce

/-- The engine and its surroundings. -/
structure CoreProcess where
  world : World
  engine : Engine

/-- An engine without capabilities on a store and a log that are there. -/
def CoreProcess.start (nesting : Nat) (roomy : 2 ≤ nesting) (jobs : Table JobRow.id)
    (audit : AuditLog) (ticks draws : Nat) : CoreProcess :=
  ⟨⟨jobs, audit, ticks, draws, []⟩, ⟨fun _ => none, nesting, roomy⟩⟩

/-- One call, with what it returns or raises. -/
def coreStep (H : Host) : CoreCall → CoreProcess → Except CoreError (Option Text) × CoreProcess
  | .register name registered, p =>
    (.ok none, { p with engine := p.engine.register name registered })
  | .submit capability data grant, p =>
    (((submit H p.engine capability data grant p.world).1.map some),
      { p with world := (submit H p.engine capability data grant p.world).2 })
  | .runOnce, p =>
    ((runOnce H p.engine p.world).1, { p with world := (runOnce H p.engine p.world).2 })

abbrev CoreEntry :=
  Machine.Entry CoreCall (Except CoreError (Option Text)) CoreProcess

/-- A `run_once` that picks a job reaches its first transition. -/
def CoreEntry.reaches (H : Host) (e : CoreEntry) : Bool :=
  match e.input, e.before.world.nextJob with
  | .runOnce, some row =>
    Centinal26.Core.reaches H e.before.engine e.before.world row
  | _, _ => true

theorem nextJob_spec {w : World} {row : JobRow} (h : w.nextJob = some row) :
    w.jobs.find? row.id = some row ∧ row.state = .queued :=
  ⟨Table.find?_minBy? h, of_decide_eq_true (Table.minBy?_spec h).2⟩

theorem nextJob_run {w : World} {picked : Option JobRow}
    (h : w.nextJob = picked) : nextJob w = (.ok picked, w) := by
  unfold nextJob
  rw [h]

theorem runOnce_ending {w : World} {row : JobRow} (h : w.nextJob = some row) :
    Ending row.id (reaches H E w row = true) w (runOnce H E w).2 := by
  have hending := @runJob_ending H E w row (nextJob_spec h).1
  have hrun : runOnce H E w = (runJob H E row >>= fun _ => pure (some row.id)) w :=
    Block.bind_ok (nextJob_run h)
  rw [hrun]
  show Ending _ _ w ((runJob H E row >>= fun _ => pure (some row.id)) w).2
  rw [Block.bind_apply]
  cases heq : runJob H E row w with
  | mk r w' =>
    rw [heq] at hending
    cases r <;> exact hending

theorem not_dequeued_nextJob {w : World} {row : JobRow}
    (h : w.nextJob = some row) : ¬ Dequeued row.id w := by
  obtain ⟨hrow, hq⟩ := nextJob_spec h
  rintro ⟨row', hrow', hne⟩
  rw [hrow] at hrow'
  cases hrow'
  exact hne hq

/-- Every execution so far was of another job, and each of these has left the
queue. -/
structure OnceEach (p : CoreProcess) : Prop where
  nodup : p.world.executed.Nodup
  dequeued : ∀ j ∈ p.world.executed, Dequeued j p.world

theorem OnceEach.step {e : CoreEntry} (hv : e.Valid (coreStep H))
    (hr : e.reaches H = true) (h : OnceEach e.before) : OnceEach e.after := by
  obtain ⟨call, ⟨w, E⟩, reply, p'⟩ := e
  have hstep : coreStep H call ⟨w, E⟩ = (reply, p') := hv
  have hpast : Past (fun j => j ∈ w.executed) w.executed w := ⟨h.dequeued, rfl⟩
  cases call with
  | register name registered =>
    cases hstep
    exact ⟨h.nodup, h.dequeued⟩
  | submit capability data grant =>
    cases hstep
    have hkept := keeps_submit (H := H) (E := E) capability data grant w hpast
    refine ⟨?_, fun j hj => hkept.1 j ?_⟩
    · show (submit H E capability data grant w).2.executed.Nodup
      rw [hkept.2]
      exact h.nodup
    · exact hkept.2 ▸ hj
  | runOnce =>
    cases hstep
    show OnceEach ⟨(runOnce H E w).2, E⟩
    cases hpick : w.nextJob with
    | none =>
      have hidle : runOnce H E w = (.ok none, w) :=
        Block.bind_ok (nextJob_run hpick)
      rw [hidle]
      exact ⟨h.nodup, h.dequeued⟩
    | some row =>
      have hend := @runOnce_ending H E w row hpick
      have hleft := hend.dequeued (by
        simpa only [CoreEntry.reaches, hpick] using hr)
      -- a job that is picked is queued, so it was not executed before
      have hnew : row.id ∉ w.executed := fun hmem =>
        not_dequeued_nextJob hpick (h.dequeued _ hmem)
      rcases hend.executed with hcalls | hcalls
      · exact ⟨by rw [hcalls]; exact h.nodup,
          fun j hj => hend.others j (h.dequeued j (hcalls ▸ hj))⟩
      · refine ⟨?_, fun j hj => ?_⟩
        · rw [hcalls, List.nodup_append_comm]
          exact List.nodup_cons.mpr ⟨hnew, h.nodup⟩
        · replace hj : j ∈ w.executed ++ [row.id] := hcalls ▸ hj
          rcases List.mem_append.mp hj with hj | hj
          · exact hend.others j (h.dequeued j hj)
          · rw [List.mem_singleton.mp hj]
            exact hleft

/-- A call of `run_once` takes the job it picks out of the queue exactly if it
reaches the first transition, and in every run whose calls do, no job is
executed twice. -/
theorem dequeues_what_it_picks (H : Host) :
    (∀ (E : Engine) (w : World) (row : JobRow), w.nextJob = some row →
      (Dequeued row.id (runOnce H E w).2 ↔ reaches H E w row = true))
    ∧ ∀ (nesting : Nat) (roomy : 2 ≤ nesting) (jobs : Table JobRow.id) (audit : AuditLog)
        (ticks draws : Nat) (calls : List CoreCall),
      (∀ e ∈ Machine.trace (coreStep H) calls (.start nesting roomy jobs audit ticks draws),
        CoreEntry.reaches H e = true) →
      (Machine.exec (coreStep H) calls
        (.start nesting roomy jobs audit ticks draws)).world.executed.Nodup := by
  refine ⟨fun E w row hpick => ?_, fun nesting roomy jobs audit ticks draws calls hcalls => ?_⟩
  · have hend := @runOnce_ending H E w row hpick
    refine ⟨fun hleft => ?_, hend.dequeued⟩
    by_contra hmiss
    refine not_dequeued_nextJob hpick ?_
    obtain ⟨row', hrow', hne⟩ := hleft
    exact ⟨row', hend.stuck hmiss ▸ hrow', hne⟩
  · have honce := Machine.invariant (coreStep H) (I := OnceEach)
      (.start nesting roomy jobs audit ticks draws) ⟨List.nodup_nil, nofun⟩
      (fun _ hv hr h => h.step hv hr) calls hcalls
    exact honce.nodup

-- == samples

namespace Sample

def host : Host := .sample fun n => 1000000 * n

def grant : Grant := ⟨py "grant-1", py "system.now",
  ⟨py "2026-01-01T00:00:00+00:00", some (.aware 63902908800000000)⟩⟩

/-- A capability with one output, whatever it is given. -/
def returning (output : PyVal) : RegisteredCapability where
  execute _ _ := .returned output
  verify _ _ _ := .returned (.verification ⟨.bool true, .dict []⟩)

/-- One job and two calls of `run_once`. -/
def requests (output : PyVal) : List CoreCall :=
  [.register (py "system.now") (returning output),
    .submit (py "system.now") (.dict []) grant, .runOnce, .runOnce]

/-- The stack that Python has by default. -/
def start : CoreProcess := .start 990 (by decide) Table.empty AuditLog.empty 0 0

def waiting : CoreProcess :=
  Machine.exec (coreStep host) ((requests (.str (py "noon"))).take 2) start

end Sample

/-- A job whose output is text leaves the queue, and is executed once. -/
theorem dequeues_what_it_picks_text :
    (∃ row, Sample.waiting.world.nextJob = some row ∧ Dequeued row.id
      (runOnce Sample.host Sample.waiting.engine Sample.waiting.world).2)
    ∧ (Machine.exec (coreStep Sample.host) (Sample.requests (.str (py "noon")))
      Sample.start).world.executed.Nodup := by
  have hall := dequeues_what_it_picks Sample.host
  have hruns : (Machine.trace (coreStep Sample.host) (Sample.requests (.str (py "noon")))
      Sample.start).all (CoreEntry.reaches Sample.host) = true := by
    decide +kernel
  refine ⟨?_, hall.2 990 (by decide) Table.empty AuditLog.empty 0 0
    (Sample.requests (.str (py "noon"))) (List.all_eq_true.mp hruns)⟩
  have hreaches : (Sample.waiting.world.nextJob.map (reaches Sample.host
      Sample.waiting.engine Sample.waiting.world)) = some true := by
    decide +kernel
  obtain ⟨row, hpick, hrow⟩ := Option.map_eq_some_iff.mp hreaches
  exact ⟨row, hpick, (hall.1 _ _ row hpick).mpr hrow⟩

/-- A job whose output is a datetime stays queued, and is executed again. -/
theorem executed_twice : ¬ (Machine.exec (coreStep Sample.host) (Sample.requests .object)
      Sample.start).world.executed.Nodup := by
  decide +kernel

end Centinal26.Core
