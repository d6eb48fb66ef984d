/-
The life of a job.
-/
import Centinal26.Lib.Since
import Centinal26.Supervisor.Queue

namespace Centinal26.Supervisor

open Py

variable {τ : Type} {H : Host} {F : Floats τ}

namespace Queue

def last? (q : Queue τ) (id : Text) : Option JobState :=
  (q.history.filter fun row => decide (row.jobId = id)).getLast?.map HistoryRow.state

-- == lookups

@[simp] theorem jobs_record (q : Queue τ) (id : Text) (state : JobState) (payload : Json)
    (time : τ) : (q.record id state payload time).jobs = q.jobs := rfl

@[simp] theorem last?_update (q : Queue τ) (id : Text) (f : Job τ → Job τ)
    (hf : ∀ job, (f job).id = job.id) (j : Text) :
    (q.update id f hf).last? j = q.last? j := rfl

theorem find?_update (q : Queue τ) (id : Text) (f : Job τ → Job τ)
    (hf : ∀ job, (f job).id = job.id) (j : Text) :
    (q.update id f hf).jobs.find? j = if j = id then (q.jobs.find? id).map f else q.jobs.find? j :=
  Table.find?_modify q.jobs id f hf j

theorem last?_record (q : Queue τ) (id : Text) (state : JobState) (payload : Json)
    (time : τ) (j : Text) :
    (q.record id state payload time).last? j = if j = id then some state else q.last? j := by
  unfold last? record
  rw [List.filter_append]
  split
  · next hj =>
    subst hj
    simp
  · next hj => simp [Ne.symm hj]

theorem find?_write {q : Queue τ} {id : Text} {f : Job τ → Job τ} {job : Job τ}
    (hf : ∀ job, (f job).id = job.id) (h : q.jobs.find? id = some job) (j : Text) :
    (q.update id f hf).jobs.find? j = if j = id then some (f job) else q.jobs.find? j := by
  rw [find?_update, h, Option.map_some]

end Queue

-- == operations

variable {q : Queue τ} {count : Text → Nat} {id : Text} {n : Nat} {last : Option JobState}

theorem recoverJob_find? {job : Job τ} (now : τ) (h : q.jobs.find? job.id = some job) (j : Text) :
    (recoverJob now q job).jobs.find? j
      = if j = job.id then some (job.recovered now) else q.jobs.find? j := by
  unfold recoverJob
  rw [Queue.jobs_record, Queue.find?_write _ h]

theorem recoverJob_last? (q : Queue τ) (job : Job τ) (now : τ) (j : Text) :
    (recoverJob now q job).last? j
      = if j = job.id then some (job.recovered now).state else q.last? j :=
  Queue.last?_record ..

theorem foldl_recoverJob (now : τ) (rows : List (Job τ)) (q : Queue τ)
    (hnodup : (rows.map Job.id).Nodup)
    (hrows : ∀ job ∈ rows, q.jobs.find? job.id = some job) (j : Text) :
    (rows.foldl (recoverJob now) q).jobs.find? j
        = ((rows.find? fun job => decide (job.id = j)).map (Job.recovered · now)).or
            (q.jobs.find? j)
      ∧ (rows.foldl (recoverJob now) q).last? j = ((rows.find? fun job => decide (job.id = j)).map
            fun job => (job.recovered now).state).or (q.last? j) := by
  induction rows generalizing q with
  | nil => exact ⟨rfl, rfl⟩
  | cons job rows ih =>
    rw [List.map_cons, List.nodup_cons] at hnodup
    have hjob := hrows job (List.mem_cons_self ..)
    have hother : ∀ r ∈ rows, (recoverJob now q job).jobs.find? r.id = some r := by
      intro r hr
      have hne : r.id ≠ job.id := fun h => hnodup.1 (h ▸ List.mem_map_of_mem hr)
      rw [recoverJob_find? now hjob, if_neg hne]
      exact hrows r (List.mem_cons_of_mem _ hr)
    obtain ⟨hfind, hlast⟩ := ih (recoverJob now q job) hnodup.2 hother
    rw [List.foldl_cons, hfind, hlast, recoverJob_find? now hjob, recoverJob_last?]
    by_cases hj : job.id = j
    · have hnone : rows.find? (fun r => decide (r.id = j)) = none := by
        rw [List.find?_eq_none]
        intro r hr hrj
        exact hnodup.1 ((hj.trans (of_decide_eq_true hrj).symm) ▸ List.mem_map_of_mem hr)
      rw [hnone, List.find?_cons_of_pos (by simpa using hj)]
      simp [hj]
    · rw [List.find?_cons_of_neg (by simpa using hj), if_neg (Ne.symm hj), if_neg (Ne.symm hj)]
      exact ⟨rfl, rfl⟩

theorem recoverExpired_spec (now : τ) (q : Queue τ) (j : Text) :
    (recoverExpired F now q).2.jobs.find? j
        = (((q.jobs.find? j).filter fun job => job.isExpired F now).map
            (Job.recovered · now)).or (q.jobs.find? j)
      ∧ (recoverExpired F now q).2.last? j
        = (((q.jobs.find? j).filter fun job => job.isExpired F now).map
            fun job => (job.recovered now).state).or (q.last? j) := by
  have hspec := foldl_recoverJob now (q.jobs.rows.filter fun job => job.isExpired F now) q
    (q.jobs.filter fun job => job.isExpired F now).nodup
      (fun job hjob => Table.find?_of_mem (List.mem_of_mem_filter hjob)) j
  rw [← Table.find?_filter]
  exact hspec

inductive Claimed (F : Floats τ) (worker : PyStr) (lease now : τ) (q : Queue τ) :
    Except PyErr (Option (Job τ)) × Queue τ → Prop
  | nothing {r : Except PyErr (Option (Job τ))} (h : ∀ job, r ≠ .ok (some job)) :
      Claimed F worker lease now q (r, q)
  | granted {job : Job τ} {owner : Text} (hfind : q.jobs.find? job.id = some job)
      (hstate : job.state = .queued) (howner : owner.str = worker) :
      Claimed F worker lease now q
        (.ok (some { job with attempts := job.attempts + 1 }), (q.update job.id
            (fun r => r.claimedBy owner (F.column (F.add now lease)) now)
            (Job.claimedBy_id owner _ now)).record job.id .running
              (claimJson owner (job.attempts + 1)) now)

theorem claim_spec (worker : PyStr) (lease now : τ) (q : Queue τ) :
    Claimed F worker lease now q (claim F worker lease now q) := by
  unfold claim
  split
  · exact .nothing fun _ h => (by cases h)
  · split
    · exact .nothing fun _ h => (by cases h)
    · next job hmin =>
      split
      · exact .nothing fun _ h => (by cases h)
      · next owner henc =>
        exact .granted (Table.find?_minBy? hmin)
          (of_decide_eq_true (Table.minBy?_spec hmin).2) (encode_eq_ok.mp henc)

/-- What `heartbeat` does. -/
inductive Beaten (F : Floats τ) (jobId worker : PyStr) (lease now : τ) (q : Queue τ) :
    Except PyErr Unit × Queue τ → Prop
  | refused (e : PyErr) : Beaten F jobId worker lease now q (.error e, q)
  | extended {id : Text} {job : Job τ} (hid : id.str = jobId)
      (hfind : q.jobs.find? id = some job) (hleased : job.isLeasedBy worker = true) :
      Beaten F jobId worker lease now q
        (.ok (), q.update id (fun r => r.beaten (F.column (F.add now lease)) now)
          (Job.beaten_id _ now))

theorem heartbeat_spec (jobId worker : PyStr) (lease now : τ) (q : Queue τ) :
    Beaten F jobId worker lease now q (heartbeat F jobId worker lease now q) := by
  unfold heartbeat
  split
  · next id _ hid _ =>
    split
    · exact .refused _
    · next job hfind =>
      split
      · next hleased => exact .extended (encode_eq_ok.mp hid) hfind hleased
      · exact .refused _
  · exact .refused _
  · exact .refused _

inductive Finished (jobId worker : PyStr) (result : SupervisorResult) (now : τ)
    (q : Queue τ) : Except PyErr Unit × Queue τ → Prop
  | refused (e : PyErr) : Finished jobId worker result now q (.error e, q)
  | stored {id : Text} {job : Job τ} {payload : Json} (hid : id.str = jobId)
      (hpayload : dumps result.payload = .ok payload)
      (hfind : q.jobs.find? id = some job) (hleased : job.isLeasedBy worker = true) :
      Finished jobId worker result now q
        (.ok (), (q.update id (fun r => r.finished result.state payload now)
          (Job.finished_id _ payload now)).record id (job.next result.state) payload now)

theorem finish_spec (jobId worker : PyStr) (result : SupervisorResult) (now : τ)
    (q : Queue τ) : Finished jobId worker result now q (finish jobId worker result now q) := by
  unfold finish
  split
  · next payload id hpayload hid =>
    split
    · exact .refused _
    · next job hfind =>
      split
      · next hleased => exact .stored (encode_eq_ok.mp hid) hpayload hfind hleased
      · exact .refused _
  · exact .refused _
  · exact .refused _

/-- What the transaction of `submit` does. -/
inductive Inserted (H : Host) (b : Bound) (now : τ) (q : Queue τ) :
    Except PyErr Text × Queue τ → Prop
  | refused (e : PyErr) : Inserted H b now q (.error e, q.drawn)
  | stored {operation : Text} {jobs : Table (Job.id (τ := τ))}
      (hoperation : operation.str = b.operation)
      (hfree : ∀ key, b.key = some key → q.keyed? key = none)
      (hjobs : q.jobs.insert? (b.job (H.uuid4 q.draws) operation now) = some jobs) :
      Inserted H b now q (.ok (H.uuid4 q.draws), { q.drawn with jobs := jobs }.record
          (H.uuid4 q.draws) .queued b.input now)

theorem insertJob_spec (b : Bound) (now : τ) (q : Queue τ) :
    Inserted H b now q (insertJob H b now q) := by
  unfold insertJob
  split
  · exact .refused _
  · next operation hop =>
    split
    · exact .refused _
    · split
      · exact .refused _
      · next hfree =>
        split
        · exact .refused _
        · next jobs hjobs =>
          refine .stored (encode_eq_ok.mp hop) (fun key hkey => ?_) hjobs
          rw [hkey] at hfree
          simpa using hfree

-- == invariant

/-- What holds of a job that has been claimed `n` times and whose last recorded
state is `last` (module header). -/
structure Job.Ok (n : Nat) (last : Option JobState) (job : Job τ) : Prop where
  bounded : job.attempts ≤ job.maxAttempts
  counted : job.attempts = n
  queued : job.state = .queued → job.attempts < job.maxAttempts
  leased : job.leaseOwner.isSome = true ↔ job.state = .running
  recorded : last = some job.state

/-- Every job is as it should be, and what is no job was never claimed. -/
def Queue.Ok (count : Text → Nat) (q : Queue τ) : Prop :=
  ∀ id, match q.jobs.find? id with
    | some job => job.Ok (count id) (q.last? id)
    | none => count id = 0

theorem Queue.Ok.job (h : q.Ok count)
    {job : Job τ} (hfind : q.jobs.find? id = some job) : job.Ok (count id) (q.last? id) := by
  have hid := h id
  rw [hfind] at hid
  exact hid

theorem Queue.Ok.write {count' : Text → Nat} {q' : Queue τ}
    {job : Job τ} (h : q.Ok count) (hcount : ∀ j, j ≠ id → count' j = count j)
    (hfind : ∀ j, q'.jobs.find? j = if j = id then some job else q.jobs.find? j)
    (hlast : ∀ j, j ≠ id → q'.last? j = q.last? j)
    (hok : job.Ok (count' id) (q'.last? id)) : q'.Ok count' := by
  intro j
  rw [hfind]
  by_cases hj : j = id
  · subst hj
    rw [if_pos rfl]
    exact hok
  · rw [if_neg hj, hlast j hj, hcount j hj]
    exact h j

theorem JobState.running_ne_terminal {s : JobState} (h : s.isTerminal = true) :
    s ≠ .running ∧ s ≠ .queued := by
  constructor
  · rintro rfl
    cases h
  · rintro rfl
    cases h

theorem Job.Ok.recovered {job : Job τ}
    (h : job.Ok n last) (now : τ) : (job.recovered now).Ok n (some (job.recovered now).state) where
  bounded := h.bounded
  counted := h.counted
  queued hq := by
    by_contra hmax
    refine hmax ?_
    simpa [Job.recovered] using hq
  leased := by
    unfold Job.recovered
    split <;> simp
  recorded := rfl

theorem Job.Ok.claimed {job : Job τ}
    (h : job.Ok n last) (hstate : job.state = .queued) (owner : Text) (expires : Option τ)
    (now : τ) : (job.claimedBy owner expires now).Ok (n + 1) (some .running) := by
  have hlt := h.queued hstate
  have hn := h.counted
  rw [Job.claimedBy, if_pos hstate]
  exact
    { bounded := by show job.attempts + 1 ≤ job.maxAttempts; omega
      counted := by show job.attempts + 1 = ((n + 1 : Nat) : Int); omega
      queued := nofun
      leased := iff_of_true rfl rfl
      recorded := rfl }

theorem Job.Ok.beaten {job : Job τ}
    (h : job.Ok n last) (expires : Option τ) (now : τ) : (job.beaten expires now).Ok n last :=
  ⟨h.bounded, h.counted, h.queued, h.leased, h.recorded⟩

theorem Job.Ok.finished {job : Job τ}
    (h : job.Ok n last) (result : SupervisorResult) (payload : Json) (now : τ) :
    (job.finished result.state payload now).Ok n (some (job.next result.state)) where
  bounded := h.bounded
  counted := h.counted
  queued hq := by
    by_contra hmax
    have hnext : job.next result.state = result.state := if_neg fun hr => hmax hr.2
    exact (JobState.running_ne_terminal result.terminal).2 (hnext.symm.trans hq)
  leased := by
    refine iff_of_false nofun fun hrun => ?_
    replace hrun : job.next result.state = .running := hrun
    unfold Job.next at hrun
    split at hrun
    · cases hrun
    · exact (JobState.running_ne_terminal result.terminal).1 hrun
  recorded := rfl

-- == steps

abbrev Step (τ : Type) := Machine.Entry (Op τ) (Except PyErr (Reply τ)) (Queue τ)

def grants (id : Text) : Except PyErr (Option (Job τ)) → Bool
  | .ok (some job) => decide (job.id = id)
  | _ => false

/-- A reply that hands the job to a worker. -/
def Reply.grants (id : Text) : Except PyErr (Reply τ) → Bool
  | .ok (.claimed (some job)) => decide (job.id = id)
  | _ => false

def claimCount (es : List (Step τ)) (id : Text) : Nat :=
  es.countP fun e => Reply.grants id e.output

theorem grants_of_nothing {r : Except PyErr (Option (Job τ))} (hr : ∀ job, r ≠ .ok (some job))
    (id : Text) : Reply.grants id (r.map Reply.claimed) = false := by
  cases r with
  | error e => rfl
  | ok claimed =>
    cases claimed with
    | none => rfl
    | some job => exact absurd rfl (hr job)

theorem claimCount_append (es : List (Step τ)) (e : Step τ) (id : Text) : claimCount (es ++ [e]) id
      = claimCount es id + if Reply.grants id e.output = true then 1 else 0 := by
  exact List.countP_concat _ es e

theorem Queue.Ok.recover (h : q.Ok count) (now : τ) : (recoverExpired F now q).2.Ok count := by
  intro id
  obtain ⟨hfind, hlast⟩ := recoverExpired_spec (F := F) now q id
  have hid := h id
  rw [hfind, hlast]
  cases hq : q.jobs.find? id with
  | none =>
    rw [hq] at hid
    exact hid
  | some job =>
    rw [hq] at hid
    cases hexp : job.isExpired F now with
    | true =>
      rw [Option.filter_some_pos (by exact hexp)]
      exact hid.recovered now
    | false =>
      rw [Option.filter_some_neg (by simp [hexp])]
      exact hid

theorem Queue.Ok.insert (h : q.Ok count) (b : Bound)
    (now : τ) : (insertJob H b now q).2.Ok count := by
  cases hrun : insertJob H b now q with
  | mk r q' =>
    have hspec := insertJob_spec (H := H) b now q
    rw [hrun] at hspec
    cases hspec with
    | refused e => exact h
    | @stored operation jobs hop hfree hjobs =>
      have hold : q.jobs.find? (H.uuid4 q.draws) = none := Table.find?_of_insert hjobs
      have hnone := h (H.uuid4 q.draws)
      rw [hold] at hnone
      have hput : ∀ j, jobs.find? j = if j = H.uuid4 q.draws
          then some (b.job (H.uuid4 q.draws) operation now) else q.jobs.find? j :=
        Table.find?_insert hjobs
      refine h.write (fun _ _ => rfl) hput (fun j hj => ?_) ?_
      · rw [Queue.last?_record, if_neg hj]
        rfl
      · rw [Queue.last?_record, if_pos rfl, hnone]
        have hpos := b.positive
        exact
          { bounded := by show (0 : Int) ≤ b.maxAttempts; omega
            counted := rfl
            queued := fun _ => by show (0 : Int) < b.maxAttempts; omega
            leased := iff_of_false nofun nofun
            recorded := rfl }

theorem Queue.Ok.claim (h : q.Ok count) (worker : PyStr) (lease now : τ) :
    (Supervisor.claim F worker lease now q).2.Ok fun id => count id
      + if Reply.grants id ((Supervisor.claim F worker lease now q).1.map .claimed) = true
        then 1 else 0 := by
  cases hrun : Supervisor.claim F worker lease now q with
  | mk r q' =>
    have hspec := claim_spec (F := F) worker lease now q
    rw [hrun] at hspec
    cases hspec with
    | nothing hr =>
      intro id
      simp only [grants_of_nothing hr]
      exact h id
    | @granted job owner hfind hstate _ =>
      refine h.write (fun j hj => ?_) (Queue.find?_write (Job.claimedBy_id owner _ now) hfind)
        (fun j hj => ?_) ?_
      · simp [Reply.grants, Except.map, Ne.symm hj]
      · rw [Queue.last?_record, if_neg hj]
        rfl
      · rw [Queue.last?_record, if_pos rfl]
        simp only [Reply.grants, Except.map, decide_true, if_true]
        exact (h.job hfind).claimed hstate owner _ now

theorem Queue.Ok.heartbeat (h : q.Ok count) (jobId worker : PyStr) (lease now : τ) :
    (Supervisor.heartbeat F jobId worker lease now q).2.Ok count := by
  cases hrun : Supervisor.heartbeat F jobId worker lease now q with
  | mk r q' =>
    have hspec := heartbeat_spec (F := F) jobId worker lease now q
    rw [hrun] at hspec
    cases hspec with
    | refused e => exact h
    | @extended id job _ hfind _ =>
      refine h.write (fun _ _ => rfl) (Queue.find?_write (Job.beaten_id _ now) hfind)
        (fun _ _ => rfl) ?_
      rw [Queue.last?_update]
      exact (h.job hfind).beaten _ now

theorem Queue.Ok.finish (h : q.Ok count)
    (jobId worker : PyStr) (result : SupervisorResult) (now : τ) :
    (Supervisor.finish jobId worker result now q).2.Ok count := by
  cases hrun : Supervisor.finish jobId worker result now q with
  | mk r q' =>
    have hspec := finish_spec jobId worker result now q
    rw [hrun] at hspec
    cases hspec with
    | refused e => exact h
    | @stored id job payload _ _ hfind _ =>
      refine h.write (fun _ _ => rfl) (Queue.find?_write (Job.finished_id _ _ now) hfind)
        (fun j hj => ?_) ?_
      · rw [Queue.last?_record, if_neg hj]
        rfl
      · rw [Queue.last?_record, if_pos rfl]
        exact (h.job hfind).finished result payload now

theorem ok_perform (h : q.Ok count) (op : Op τ) : (perform H F op q).2.Ok fun id =>
      count id + if Reply.grants id (perform H F op q).1 = true then 1 else 0 := by
  have quiet : ∀ {r : Except PyErr (Reply τ)} {q' : Queue τ}, q'.Ok count →
      (∀ id, Reply.grants id r = false) →
      q'.Ok fun id => count id + if Reply.grants id r = true then 1 else 0 := by
    intro r q' hq hr id
    simp only [hr]
    exact hq id
  cases op with
  | find key => exact h
  | insert b now =>
    refine quiet (h.insert b now) fun id => ?_
    show Reply.grants id ((insertJob H b now q).1.map .inserted) = false
    cases (insertJob H b now q).1 <;> rfl
  | recover now => exact h.recover now
  | claim worker lease now => exact h.claim worker lease now
  | heartbeat jobId worker lease now =>
    refine quiet (h.heartbeat jobId worker lease now) fun id => ?_
    show Reply.grants id ((heartbeat F jobId worker lease now q).1.map fun _ => .unit) = false
    cases (heartbeat F jobId worker lease now q).1 <;> rfl
  | finish jobId worker result now =>
    refine quiet (h.finish jobId worker result now) fun id => ?_
    show Reply.grants id ((finish jobId worker result now q).1.map fun _ => .unit) = false
    cases (finish jobId worker result now q).1 <;> rfl

-- == terminals

theorem Job.running_of_leased {job : Job τ} {worker : PyStr}
    (h : job.isLeasedBy worker = true) : job.state = .running :=
  of_decide_eq_true (Bool.and_eq_true_iff.mp h).1

theorem ne_of_state {id' : Text} {job job' : Job τ}
    (hfind : q.jobs.find? id = some job) (hfind' : q.jobs.find? id' = some job')
    (h : job'.state ≠ job.state) : id ≠ id' := by
  rintro rfl
  rw [hfind] at hfind'
  cases hfind'
  exact h rfl

theorem terminal_step {job : Job τ}
    (hfind : q.jobs.find? id = some job) (hterm : job.state.isTerminal = true) (op : Op τ) :
    (perform H F op q).2.jobs.find? id = some job
      ∧ Reply.grants id (perform H F op q).1 = false := by
  obtain ⟨hrunning, hqueued⟩ := JobState.running_ne_terminal hterm
  cases op with
  | find key => exact ⟨hfind, rfl⟩
  | insert b now =>
    show (insertJob H b now q).2.jobs.find? id = some job
      ∧ Reply.grants id ((insertJob H b now q).1.map .inserted) = false
    have hspec := insertJob_spec (H := H) b now q
    cases hrun : insertJob H b now q with
    | mk r q' =>
      rw [hrun] at hspec
      cases hspec with
      | refused e => exact ⟨hfind, rfl⟩
      | stored _ _ hjobs =>
        refine ⟨(Table.find?_insert hjobs id).trans ?_, rfl⟩
        split
        · next hid =>
          have hfree := Table.find?_of_insert hjobs
          rw [← hid, hfind] at hfree
          cases hfree
        · exact hfind
  | recover now =>
    have hexp : job.isExpired F now = false := by
      unfold Job.isExpired
      rw [decide_eq_false hrunning]
      rfl
    refine ⟨?_, rfl⟩
    show (recoverExpired F now q).2.jobs.find? id = some job
    rw [(recoverExpired_spec now q id).1, hfind, Option.filter_some_neg (by simp [hexp])]
    rfl
  | claim worker lease now =>
    show (claim F worker lease now q).2.jobs.find? id = some job
      ∧ Reply.grants id ((claim F worker lease now q).1.map .claimed) = false
    have hspec := claim_spec (F := F) worker lease now q
    cases hrun : claim F worker lease now q with
    | mk r q' =>
      rw [hrun] at hspec
      cases hspec with
      | nothing hr =>
        exact ⟨hfind, grants_of_nothing hr id⟩
      | @granted job' owner hfind' hstate _ =>
        have hne : id ≠ job'.id :=
          ne_of_state hfind hfind' (by rw [hstate]; exact Ne.symm hqueued)
        refine ⟨(Queue.find?_write (Job.claimedBy_id owner _ now) hfind' id).trans ?_,
          by simp [Reply.grants, Except.map, Ne.symm hne]⟩
        rw [if_neg hne, hfind]
  | heartbeat jobId worker lease now =>
    show (heartbeat F jobId worker lease now q).2.jobs.find? id = some job
      ∧ Reply.grants id ((heartbeat F jobId worker lease now q).1.map fun _ => .unit) = false
    have hspec := heartbeat_spec (F := F) jobId worker lease now q
    cases hrun : heartbeat F jobId worker lease now q with
    | mk r q' =>
      rw [hrun] at hspec
      cases hspec with
      | refused e => exact ⟨hfind, rfl⟩
      | extended _ hfind' hleased =>
        have hne := ne_of_state hfind hfind'
          (by rw [Job.running_of_leased hleased]; exact Ne.symm hrunning)
        refine ⟨(Queue.find?_write (Job.beaten_id _ now) hfind' id).trans ?_, rfl⟩
        rw [if_neg hne, hfind]
  | finish jobId worker result now =>
    show (finish jobId worker result now q).2.jobs.find? id = some job
      ∧ Reply.grants id ((finish jobId worker result now q).1.map fun _ => .unit) = false
    have hspec := finish_spec jobId worker result now q
    cases hrun : finish jobId worker result now q with
    | mk r q' =>
      rw [hrun] at hspec
      cases hspec with
      | refused e => exact ⟨hfind, rfl⟩
      | stored _ _ hfind' hleased =>
        have hne := ne_of_state hfind hfind'
          (by rw [Job.running_of_leased hleased]; exact Ne.symm hrunning)
        refine ⟨(Queue.find?_write (Job.finished_id _ _ now) hfind' id).trans ?_, rfl⟩
        rw [if_neg hne, hfind]

-- == runs

section Runs

variable (H) (F)

/-- The queue after a list of operations, from an empty one. -/
abbrev queueOf (ops : List (Op τ)) : Queue τ := Machine.exec (perform H F) ops .empty

abbrev traceOf (ops : List (Op τ)) : List (Step τ) :=
  Machine.trace (perform H F) ops .empty

theorem queue_ok (ops : List (Op τ)) : (queueOf H F ops).Ok (claimCount (traceOf H F ops)) := by
  refine Machine.history_invariant (perform H F) (C := fun _ => True)
    (I := fun es q => q.Ok (claimCount es)) .empty ?_ ?_ ops fun _ _ => trivial
  · exact fun id => rfl
  · intro past e hv _ h
    have hstep := ok_perform (H := H) (F := F) h e.input
    rw [hv] at hstep
    have hcount : claimCount (past ++ [e]) = fun id =>
        claimCount past id + if Reply.grants id e.output = true then 1 else 0 :=
      funext fun id => claimCount_append past e id
    rw [hcount]
    exact hstep

theorem terminal_run {q : Queue τ} {id : Text} {job : Job τ}
    (hfind : q.jobs.find? id = some job) (hterm : job.state.isTerminal = true) (ops : List (Op τ)) :
    (Machine.exec (perform H F) ops q).jobs.find? id = some job
      ∧ claimCount (Machine.trace (perform H F) ops q) id = 0 := by
  refine Machine.history_invariant (perform H F) (C := fun _ => True)
    (I := fun es q => q.jobs.find? id = some job ∧ claimCount es id = 0) q
    ⟨hfind, rfl⟩ ?_ ops fun _ _ => trivial
  rintro past e hv - ⟨hsame, hnone⟩
  have hstep := terminal_step (H := H) (F := F) hsame hterm e.input
  rw [hv] at hstep
  refine ⟨hstep.1, ?_⟩
  rw [claimCount_append, hnone, hstep.2]
  rfl

/-- The life cycle of the jobs, in every run of operations from an empty queue. -/
theorem job_lifeCycle (ops : List (Op τ)) : (∀ id job, (queueOf H F ops).jobs.find? id = some job →
      job.attempts ≤ job.maxAttempts ∧ job.attempts = claimCount (traceOf H F ops) id
        ∧ (job.leaseOwner.isSome = true ↔ job.state = .running)
        ∧ (queueOf H F ops).last? id = some job.state)
    ∧ ∀ id job more, (queueOf H F ops).jobs.find? id = some job → job.state.isTerminal = true →
      (queueOf H F (ops ++ more)).jobs.find? id = some job
        ∧ claimCount (Machine.trace (perform H F) more (queueOf H F ops)) id = 0 := by
  refine ⟨fun id job hfind => ?_, fun id job more hfind hterm => ?_⟩
  · have hok := (queue_ok H F ops).job hfind
    exact ⟨hok.bounded, hok.counted, hok.leased, hok.recorded⟩
  · have hexec : queueOf H F (ops ++ more)
        = Machine.exec (perform H F) more (queueOf H F ops) := Machine.exec_append ..
    rw [hexec]
    exact terminal_run H F hfind hterm more

end Runs

end Centinal26.Supervisor
