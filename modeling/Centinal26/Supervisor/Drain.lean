/-
`run_until_idle`: one supervisor, alone on the queue, until a batch finds nothing to claim.
-/
import Centinal26.Lib.Program
import Centinal26.Supervisor.Batches
import Mathlib.Algebra.Order.BigOperators.Group.List
import Mathlib.Algebra.Order.Ring.Int

namespace Centinal26.Supervisor

open Py Steps

variable {τ : Type}

-- == batches

/-- `AsyncSupervisor`, with its `max_concurrency`. -/
structure Dispatcher (τ : Type) extends AsyncSupervisor τ where
  maxConcurrency : Nat
  positive : 1 ≤ maxConcurrency

/-- What a batch meets: the times it reads, how the handlers of its jobs end, and in what order
the tasks of so many jobs are done. -/
structure Surroundings (τ : Type) where
  recoverAt : τ
  claimAt : Nat → τ
  handlerEnd : Nat → HandlerEnd
  finishAt : Nat → τ
  order : Nat → List Nat
  order_perm : ∀ n, (order n).Perm (List.range n)

/-- The queue, and what has been done in the run. -/
structure Ledger (τ : Type) where
  queue : Queue τ
  /-- when expired jobs were recovered -/
  recoveries : List τ
  /-- the jobs whose handlers were called -/
  invoked : List Text
  /-- the jobs of which an attempt was finished -/
  finished : List Text

def Queue.open (q : Queue τ) : Ledger τ := ⟨q, [], [], []⟩

abbrev Run (τ α : Type) := Block PyErr (Ledger τ) α

/-- A claimed job, with how its handler ends and when it is finished. -/
structure Task (τ : Type) where
  job : Job τ
  handlerEnd : HandlerEnd
  finishAt : τ

/-- The tasks of `gather`, in the order in which they are done. -/
def Surroundings.tasks (b : Surroundings τ) (jobs : List (Job τ)) : List (Task τ) :=
  (b.order jobs.length).filterMap fun i =>
    jobs[i]?.map fun job => ⟨job, b.handlerEnd i, b.finishAt i⟩

section Program

variable (F : Floats τ) (s : Dispatcher τ)

def recoverStep (now : τ) : Run τ Int := fun l =>
  ((recoverExpired F now l.queue).1,
    { l with queue := (recoverExpired F now l.queue).2, recoveries := l.recoveries ++ [now] })

def claimOne (now : τ) : Run τ (Option (Job τ)) := fun l =>
  ((claim F s.workerId s.leaseSeconds now l.queue).1,
    { l with queue := (claim F s.workerId s.leaseSeconds now l.queue).2 })

/-- The loop of claims, with the slots that are left. -/
def claimUpTo (claimAt : Nat → τ) : Nat → Nat → Run τ (List (Job τ))
  | 0, _ => pure []
  | n + 1, i => do
    match ← claimOne F s (claimAt i) with
    | none => pure []
    | some job => do
      let rest ← claimUpTo claimAt n (i + 1)
      pure (job :: rest)

def runClaimed (t : Task τ) : Run τ Text := fun l =>
  let registered := s.operations.contains t.job.operation
  let result := if registered then t.handlerEnd.result else unregistered t.job.operation
  let invoked := if registered then l.invoked ++ [t.job.id] else l.invoked
  match finish t.job.id.str s.workerId result t.finishAt l.queue with
  | (.ok (), q) =>
    (.ok t.job.id, { l with queue := q, invoked := invoked, finished := l.finished ++ [t.job.id] })
  | (.error e, q) => (.error e, { l with queue := q, invoked := invoked })

/-- `gather`; what is not done when one raises is abandoned. -/
def gather : List (Task τ) → Run τ Unit
  | [] => pure ()
  | t :: rest => do
    let _ ← runClaimed s t
    gather rest

def runBatch (b : Surroundings τ) : Run τ (List Text) := do
  let _ ← recoverStep F b.recoverAt
  let claimed ← claimUpTo F s b.claimAt s.maxConcurrency 0
  if claimed.isEmpty then pure []
  else do
    gather s (b.tasks claimed)
    pure (claimed.map Job.id)

/-- The loop of `run_until_idle`, with the batches that are left. -/
def batchLoop (env : Nat → Surroundings τ) : Nat → Nat → Int → Run τ Int
  | 0, _, processed => pure processed
  | n + 1, k, processed => do
    let batch ← runBatch F s (env k)
    if batch.isEmpty then pure processed
    else batchLoop env n (k + 1) (processed + batch.length)

def runUntilIdle (env : Nat → Surroundings τ) (maxBatches : Nat) : Run τ Int :=
  batchLoop F s env maxBatches 0 0

end Program

-- == statements

/-- What the jobs have left of their attempts. -/
def attemptsLeft (q : Queue τ) : Int :=
  (q.jobs.rows.map fun job => job.maxAttempts - job.attempts).sum

/-- What the handler returns can be stored, if it returns a result. -/
def HandlerEnd.Serialisable (a : HandlerEnd) : Prop := (dumps a.result.payload).isOk = true

/-- The supervisor can claim: its lease is positive, and its name can be stored. -/
structure Dispatcher.Able (F : Floats τ) (s : Dispatcher τ) : Prop where
  lease : F.le s.leaseSeconds F.zero = false
  worker : Encodable s.workerId

/-- A run of the supervisor on the queue of some operations. -/
structure Drained (H : Host) (F : Floats τ) (s : Dispatcher τ) (env : Nat → Surroundings τ)
    (maxBatches : Nat) (ops : List (Op τ)) (processed : Int) (l : Ledger τ) : Prop where
  ends : runUntilIdle F s env maxBatches (queueOf H F ops).open = (.ok processed, l)
  processed : processed = l.finished.length
  invoked : (l.invoked.length : Int) ≤ attemptsLeft (queueOf H F ops)
  reached : ∃ more, l.queue = queueOf H F (ops ++ more)
    ∧ ∀ id job, l.queue.jobs.find? id = some job → job.state = .error →
      claimCount (traceOf H F (ops ++ more)) id = job.maxAttempts
  queued : ∀ id job, l.queue.jobs.find? id = some job → job.state ≠ .queued
  running : ∀ id job, job.state = .running → (l.queue.jobs.find? id = some job
    ↔ (queueOf H F ops).jobs.find? id = some job ∧ ∀ t ∈ l.recoveries, job.isExpired F t = false)

-- == measure

variable {α κ : Type} {id : Text} {key : α → κ}

theorem sum_modify [DecidableEq κ] {t : Table key} {k : κ} {a : α}
    (h : t.find? k = some a) (f : α → α) (hf : ∀ a, key (f a) = key a) (g : α → Int) :
    ((t.modify k f hf).rows.map g).sum = (t.rows.map g).sum - g a + g (f a) := by
  obtain ⟨rows, hnodup⟩ := t
  replace h : rows.find? (fun r => decide (key r = k)) = some a := h
  show ((rows.map fun r => if key r = k then f r else r).map g).sum
    = (rows.map g).sum - g a + g (f a)
  induction rows with
  | nil => cases h
  | cons b rows ih =>
    rw [List.map_cons, List.nodup_cons] at hnodup
    simp only [List.map_cons, List.sum_cons]
    by_cases hb : key b = k
    · rw [List.find?_cons_of_pos (by simpa using hb)] at h
      cases h
      -- no later row has the key
      have hrest : (rows.map fun r => if key r = k then f r else r) = rows := by
        refine (List.map_congr_left fun r hr => if_neg fun hrk => hnodup.1 ?_).trans
          (List.map_id' rows)
        exact List.mem_map.mpr ⟨r, hr, hrk.trans hb.symm⟩
      rw [hrest, if_pos hb]
      omega
    · rw [List.find?_cons_of_neg (by simpa using hb)] at h
      rw [if_neg hb, ih hnodup.2 h]
      omega

theorem sum_modify_same [DecidableEq κ] (t : Table key) (k : κ)
    (f : α → α) (hf : ∀ a, key (f a) = key a) (g : α → Int) (hg : ∀ a, g (f a) = g a) :
    ((t.modify k f hf).rows.map g).sum = (t.rows.map g).sum := by
  refine congrArg List.sum ((List.map_map ..).trans (List.map_congr_left fun r _ => ?_))
  show g (if key r = k then f r else r) = g r
  split
  · exact hg r
  · rfl

variable {H : Host} {F : Floats τ} {s : Dispatcher τ} {q q' : Queue τ}

theorem attemptsLeft_write {f : Job τ → Job τ} {hf : ∀ job, (f job).id = job.id}
    {job : Job τ} (h : q.jobs.find? id = some job) (state : JobState) (payload : Json) (now : τ) :
    attemptsLeft ((q.update id f hf).record id state payload now)
      = attemptsLeft q - (job.maxAttempts - job.attempts)
        + ((f job).maxAttempts - (f job).attempts) :=
  sum_modify h f hf _

theorem attemptsLeft_recover (now : τ) (q : Queue τ) :
    attemptsLeft (recoverExpired F now q).2 = attemptsLeft q := by
  show attemptsLeft ((q.jobs.rows.filter fun job => job.isExpired F now).foldl (recoverJob now) q)
    = attemptsLeft q
  generalize q.jobs.rows.filter (fun job => job.isExpired F now) = rows
  induction rows generalizing q with
  | nil => rfl
  | cons job rows ih =>
    rw [List.foldl_cons, ih]
    exact sum_modify_same q.jobs job.id (Job.recovered · now) (Job.recovered_id now) _ fun _ => rfl

theorem attemptsLeft_nonneg (ops : List (Op τ)) : 0 ≤ attemptsLeft (queueOf H F ops) := by
  refine List.sum_nonneg fun n hn => ?_
  obtain ⟨job, hjob, rfl⟩ := List.mem_map.mp hn
  have hbounded := ((queue_ok H F ops).job (Table.find?_of_mem hjob)).bounded
  omega

-- == operations

/-- The queue has been brought on by operations of its own. -/
def Brought (H : Host) (F : Floats τ) (q q' : Queue τ) : Prop :=
  ∃ more, q' = Machine.exec (perform H F) more q

theorem Brought.refl (q : Queue τ) : Brought H F q q := ⟨[], rfl⟩

theorem Brought.trans {q₁ q₂ q₃ : Queue τ} (h : Brought H F q₁ q₂) (h' : Brought H F q₂ q₃) :
    Brought H F q₁ q₃ := by
  obtain ⟨more, rfl⟩ := h
  obtain ⟨more', rfl⟩ := h'
  exact ⟨more ++ more', (Machine.exec_append ..).symm⟩

theorem Brought.of_perform (op : Op τ) (q : Queue τ) : Brought H F q (perform H F op q).2 :=
  ⟨[op], rfl⟩

/-- The job has been claimed. -/
structure Taken (s : Dispatcher τ) (q q' : Queue τ) (job : Job τ) : Prop where
  was : ∃ row, q.jobs.find? job.id = some row ∧ row.state = .queued
  leased : ∃ row, q'.jobs.find? job.id = some row ∧ row.isLeasedBy s.workerId = true
  others : ∀ id, id ≠ job.id → q'.jobs.find? id = q.jobs.find? id
  left : attemptsLeft q' + 1 = attemptsLeft q

theorem claim_takes (hs : s.Able F) (now : τ) (q : Queue τ) :
    (claim F s.workerId s.leaseSeconds now q = (.ok none, q)
      ∧ ∀ id job, q.jobs.find? id = some job → job.state ≠ .queued)
    ∨ ∃ job q', claim F s.workerId s.leaseSeconds now q = (.ok (some job), q')
      ∧ Taken s q q' job := by
  unfold claim
  rw [if_neg (by rw [hs.lease]; exact Bool.false_ne_true)]
  cases hmin : q.jobs.minBy? (fun job => decide (job.state = .queued)) (Job.before F) with
  | none =>
    refine Or.inl ⟨rfl, fun id job hjob => ?_⟩
    exact of_decide_eq_false (Table.minBy?_none hmin job (Table.mem_of_find? hjob))
  | some job =>
    right
    have hfind := Table.find?_minBy? hmin
    have hqueued : job.state = .queued := of_decide_eq_true (Table.minBy?_spec hmin).2
    simp only [encode, dif_pos hs.worker]
    refine ⟨_, _, rfl, ⟨job, hfind, hqueued⟩, ?_, fun id hid => ?_, ?_⟩
    · refine ⟨_, (Queue.find?_write (Job.claimedBy_id _ _ now) hfind job.id).trans (if_pos rfl), ?_⟩
      rw [Job.claimedBy, if_pos hqueued]
      exact Bool.and_eq_true_iff.mpr ⟨rfl, decide_eq_true rfl⟩
    · exact (Queue.find?_write (Job.claimedBy_id _ _ now) hfind id).trans (if_neg hid)
    · rw [attemptsLeft_write hfind, Job.claimedBy, if_pos hqueued]
      show attemptsLeft q - (job.maxAttempts - job.attempts)
        + (job.maxAttempts - (job.attempts + 1)) + 1 = _
      omega

theorem finish_ends {job : Job τ} (hfind : q.jobs.find? id = some job)
    (hleased : job.isLeasedBy s.workerId = true) {result : SupervisorResult}
    (hpayload : (dumps result.payload).isOk = true) (now : τ) :
    ∃ q', finish id.str s.workerId result now q = (.ok (), q')
      ∧ (∀ row, q'.jobs.find? id = some row → row.state ≠ .running)
      ∧ (∀ j, j ≠ id → q'.jobs.find? j = q.jobs.find? j)
      ∧ attemptsLeft q' = attemptsLeft q := by
  obtain ⟨payload, hpayload⟩ := exists_ok hpayload
  unfold finish
  rw [hpayload, encode_str]
  simp only [hfind, hleased, if_true]
  have hput := Queue.find?_write (Job.finished_id result.state payload now) hfind
  refine ⟨_, rfl, fun row hrow => ?_, fun j hj => (hput j).trans (if_neg hj), ?_⟩
  · have hrow' := (hput id).symm.trans hrow
    rw [if_pos rfl] at hrow'
    cases hrow'
    show job.next result.state ≠ .running
    unfold Job.next
    split
    · exact fun h => (by cases h)
    · exact (JobState.running_ne_terminal result.terminal).1
  · rw [attemptsLeft_write hfind]
    exact Int.sub_add_cancel ..

-- == batches

/-- The jobs have been claimed, one after the other. -/
structure Claims (s : Dispatcher τ) (q q' : Queue τ) (jobs : List (Job τ)) : Prop where
  nodup : (jobs.map Job.id).Nodup
  was : ∀ job ∈ jobs, ∃ row, q.jobs.find? job.id = some row ∧ row.state = .queued
  leased : ∀ job ∈ jobs, ∃ row, q'.jobs.find? job.id = some row ∧ row.isLeasedBy s.workerId = true
  others : ∀ id, id ∉ jobs.map Job.id → q'.jobs.find? id = q.jobs.find? id
  left : attemptsLeft q' + jobs.length = attemptsLeft q

theorem Claims.nil (q : Queue τ) : Claims s q q [] where
  nodup := List.nodup_nil
  was _ h := by cases h
  leased _ h := by cases h
  others _ _ := rfl
  left := Int.add_zero _

theorem Taken.then_claims {job : Job τ} {jobs : List (Job τ)} {mid : Queue τ}
    (h : Taken s q mid job) (hs : Claims s mid q' jobs) : Claims s q q' (job :: jobs) := by
  obtain ⟨row, hrow, hleased⟩ := h.leased
  have hfresh : job.id ∉ jobs.map Job.id := by
    intro hmem
    obtain ⟨other, hother, hid⟩ := List.mem_map.mp hmem
    obtain ⟨row', hrow', hqueued⟩ := hs.was other hother
    rw [hid, hrow] at hrow'
    cases hrow'
    rw [Job.running_of_leased hleased] at hqueued
    cases hqueued
  have hne (other : Job τ) (hother : other ∈ jobs) : other.id ≠ job.id := fun hid =>
    hfresh (List.mem_map.mpr ⟨other, hother, hid⟩)
  refine ⟨List.nodup_cons.mpr ⟨hfresh, hs.nodup⟩, ?_, ?_, ?_, ?_⟩
  · refine List.forall_mem_cons.mpr ⟨h.was, fun other hother => ?_⟩
    rw [← h.others other.id (hne other hother)]
    exact hs.was other hother
  · refine List.forall_mem_cons.mpr ⟨⟨row, ?_, hleased⟩, hs.leased⟩
    rw [hs.others job.id hfresh, hrow]
  · intro id hid
    rw [List.map_cons, List.mem_cons, not_or] at hid
    rw [hs.others id hid.2, h.others id hid.1]
  · have hleft := h.left
    have hleft' := hs.left
    rw [List.length_cons]
    omega

theorem claimUpTo_claims (H : Host) (hs : s.Able F) (claimAt : Nat → τ) (n i : Nat) (l : Ledger τ) :
    ∃ jobs q', claimUpTo F s claimAt n i l = (.ok jobs, { l with queue := q' })
      ∧ Claims s l.queue q' jobs ∧ Brought H F l.queue q'
      ∧ (jobs = [] → n = 0 ∨ ∀ id job, l.queue.jobs.find? id = some job → job.state ≠ .queued) := by
  induction n generalizing i l with
  | zero => exact ⟨[], l.queue, rfl, .nil _, .refl _, fun _ => Or.inl rfl⟩
  | succ n ih =>
    have hbrought := Brought.of_perform (H := H) (F := F)
      (.claim s.workerId s.leaseSeconds (claimAt i)) l.queue
    rcases claim_takes hs (claimAt i) l.queue with ⟨hclaim, hidle⟩ | ⟨job, mid, hclaim, htaken⟩
    · have hone : claimOne F s (claimAt i) l = (.ok none, l) := by
        unfold claimOne
        rw [hclaim]
      refine ⟨[], l.queue, ?_, .nil _, .refl _, fun _ => Or.inr hidle⟩
      unfold claimUpTo
      rw [Block.bind_ok hone]
      rfl
    · have hone : claimOne F s (claimAt i) l = (.ok (some job), { l with queue := mid }) := by
        unfold claimOne
        rw [hclaim]
      obtain ⟨jobs, q', hrest, hclaims, hmore, -⟩ := ih (i + 1) { l with queue := mid }
      have hmid : Brought H F l.queue mid := by
        have hperform : (perform H F (.claim s.workerId s.leaseSeconds (claimAt i)) l.queue).2
            = (claim F s.workerId s.leaseSeconds (claimAt i) l.queue).2 := rfl
        rw [hperform, hclaim] at hbrought
        exact hbrought
      refine ⟨job :: jobs, q', ?_, htaken.then_claims hclaims, hmid.trans hmore,
        fun h => (by cases h)⟩
      unfold claimUpTo
      rw [Block.bind_ok hone]
      exact Block.bind_ok hrest

/-- The tasks have been done. -/
structure Gathered (H : Host) (F : Floats τ) (tasks : List (Task τ)) (l l' : Ledger τ) : Prop where
  ended : ∀ t ∈ tasks, ∀ row, l'.queue.jobs.find? t.job.id = some row → row.state ≠ .running
  others : ∀ id, (∀ t ∈ tasks, t.job.id ≠ id) → l'.queue.jobs.find? id = l.queue.jobs.find? id
  left : attemptsLeft l'.queue = attemptsLeft l.queue
  invoked : l'.invoked.length ≤ l.invoked.length + tasks.length
  finished : l'.finished.length = l.finished.length + tasks.length
  recoveries : l'.recoveries = l.recoveries
  brought : Brought H F l.queue l'.queue

theorem runClaimed_done (H : Host) (F : Floats τ) {t : Task τ} {l : Ledger τ} {row : Job τ}
    (hfind : l.queue.jobs.find? t.job.id = some row)
    (hleased : row.isLeasedBy s.workerId = true) (hends : t.handlerEnd.Serialisable) :
    ∃ l', runClaimed s t l = (.ok t.job.id, l') ∧ Gathered H F [t] l l' := by
  have hpayload (registered : Bool) : (dumps (if registered = true then t.handlerEnd.result
      else unregistered t.job.operation).payload).isOk = true := by
    cases registered with
    | true => exact hends
    | false => rfl
  obtain ⟨q', hfinish, hended, hothers, hleft⟩ := finish_ends hfind hleased
    (hpayload (s.operations.contains t.job.operation)) t.finishAt
  refine ⟨{ l with
    queue := q'
    invoked := if s.operations.contains t.job.operation = true then l.invoked ++ [t.job.id]
      else l.invoked
    finished := l.finished ++ [t.job.id] }, by unfold runClaimed; simp only [hfinish], ?_⟩
  have hbrought := Brought.of_perform (H := H) (F := F) (.finish t.job.id.str s.workerId
    (if s.operations.contains t.job.operation = true then t.handlerEnd.result
      else unregistered t.job.operation) t.finishAt) l.queue
  refine ⟨?_, ?_, hleft, ?_, ?_, rfl, ?_⟩
  · intro t' ht'
    rw [List.mem_singleton.mp ht']
    exact hended
  · intro id hid
    exact hothers id (Ne.symm (hid t (List.mem_singleton_self t)))
  · show (if s.operations.contains t.job.operation = true then l.invoked ++ [t.job.id]
      else l.invoked).length ≤ _
    split
    · rw [List.length_append]
      exact Nat.le_refl _
    · exact Nat.le_add_right ..
  · exact List.length_append
  · have hperform : ∀ result, (perform H F (.finish t.job.id.str s.workerId result t.finishAt)
        l.queue).2 = (finish t.job.id.str s.workerId result t.finishAt l.queue).2 := fun _ => rfl
    rw [hperform, hfinish] at hbrought
    exact hbrought

theorem gather_done (H : Host) (F : Floats τ) (tasks : List (Task τ)) (l : Ledger τ)
    (hnodup : (tasks.map fun t => t.job.id).Nodup)
    (hleased : ∀ t ∈ tasks, ∃ row, l.queue.jobs.find? t.job.id = some row
      ∧ row.isLeasedBy s.workerId = true) (hends : ∀ t ∈ tasks, t.handlerEnd.Serialisable) :
    ∃ l', gather s tasks l = (.ok (), l') ∧ Gathered H F tasks l l' := by
  induction tasks generalizing l with
  | nil =>
    exact ⟨l, rfl, fun _ h => (by cases h), fun _ _ => rfl, rfl, Nat.le_refl _, rfl, rfl, .refl _⟩
  | cons t tasks ih =>
    rw [List.map_cons, List.nodup_cons] at hnodup
    rw [List.forall_mem_cons] at hleased hends
    obtain ⟨row, hfind, hrow⟩ := hleased.1
    obtain ⟨mid, hrun, hdone⟩ := runClaimed_done H F hfind hrow hends.1
    have hne (t' : Task τ) (ht' : t' ∈ tasks) : t.job.id ≠ t'.job.id := fun hid =>
      hnodup.1 (List.mem_map.mpr ⟨t', ht', hid.symm⟩)
    have hkept (id : Text) (hid : t.job.id ≠ id) :
        mid.queue.jobs.find? id = l.queue.jobs.find? id :=
      hdone.others id fun t' ht' => List.mem_singleton.mp ht' ▸ hid
    obtain ⟨l', hgather, hrest⟩ := ih mid hnodup.2
      (fun t' ht' => by rw [hkept _ (hne t' ht')]; exact hleased.2 t' ht') hends.2
    refine ⟨l', ?_, ?_, ?_, ?_, ?_, ?_, ?_, ?_⟩
    · unfold gather
      rw [Block.bind_ok hrun]
      exact hgather
    · refine List.forall_mem_cons.mpr ⟨fun row' hrow' => ?_, hrest.ended⟩
      rw [hrest.others _ fun t' ht' => (hne t' ht').symm] at hrow'
      exact hdone.ended t (List.mem_singleton_self t) row' hrow'
    · intro id hid
      rw [List.forall_mem_cons] at hid
      rw [hrest.others id hid.2, hkept id hid.1]
    · rw [hrest.left, hdone.left]
    · have hinvoked := hrest.invoked
      have hinvoked' := hdone.invoked
      rw [List.length_singleton] at hinvoked'
      rw [List.length_cons]
      omega
    · rw [hrest.finished, hdone.finished, List.length_singleton, List.length_cons]
      omega
    · rw [hrest.recoveries, hdone.recoveries]
    · exact hdone.brought.trans hrest.brought

theorem tasks_perm (b : Surroundings τ) (jobs : List (Job τ)) :
    ((b.tasks jobs).map Task.job).Perm jobs := by
  have hall : (List.range jobs.length).filterMap (fun i => jobs[i]?) = jobs := by
    induction jobs with
    | nil => rfl
    | cons job jobs ih =>
      rw [List.length_cons, List.range_succ_eq_map,
        List.filterMap_cons_some (f := fun i => (job :: jobs)[i]?) (b := job) rfl,
        List.filterMap_map]
      exact congrArg (job :: ·) ih
  have htasks : (b.tasks jobs).map Task.job
      = (b.order jobs.length).filterMap fun i => jobs[i]? := by
    unfold Surroundings.tasks
    rw [List.map_filterMap]
    refine congrFun (congrArg List.filterMap (funext fun i => ?_)) _
    rw [Option.map_map]
    exact Option.map_id' ..
  rw [htasks]
  conv => rhs; rw [← hall]
  exact (b.order_perm jobs.length).filterMap _

theorem tasks_serialisable {b : Surroundings τ} (h : ∀ i, (b.handlerEnd i).Serialisable)
    (jobs : List (Job τ)) : ∀ t ∈ b.tasks jobs, t.handlerEnd.Serialisable := by
  intro t ht
  obtain ⟨i, -, hi⟩ := List.mem_filterMap.mp ht
  obtain ⟨job, -, rfl⟩ := Option.map_eq_some_iff.mp hi
  exact h i

/-- A batch: what it claims it finishes. -/
structure Batched (H : Host) (F : Floats τ) (b : Surroundings τ) (l l' : Ledger τ)
    (batch : List Text) : Prop where
  recoveries : l'.recoveries = l.recoveries ++ [b.recoverAt]
  left : attemptsLeft l'.queue + batch.length = attemptsLeft l.queue
  invoked : l'.invoked.length ≤ l.invoked.length + batch.length
  finished : l'.finished.length = l.finished.length + batch.length
  running : ∀ id job, job.state = .running → (l'.queue.jobs.find? id = some job
    ↔ l.queue.jobs.find? id = some job ∧ job.isExpired F b.recoverAt = false)
  idle : batch = [] → ∀ id job, l'.queue.jobs.find? id = some job → job.state ≠ .queued
  brought : Brought H F l.queue l'.queue

theorem running_recover {now : τ} {job : Job τ} (hjob : job.state = .running) :
    (recoverExpired F now q).2.jobs.find? id = some job
      ↔ q.jobs.find? id = some job ∧ job.isExpired F now = false := by
  rw [(recoverExpired_spec (F := F) now q id).1]
  cases hfind : q.jobs.find? id with
  | none => exact ⟨fun h => (by cases h), fun h => (by cases h.1)⟩
  | some row =>
    cases hexpired : row.isExpired F now with
    | false =>
      rw [Option.filter_some_neg (by simp [hexpired]), Option.map_none, Option.none_or]
      constructor
      · rintro ⟨⟩
        exact ⟨rfl, hexpired⟩
      · exact fun h => h.1
    | true =>
      rw [Option.filter_some_pos (by exact hexpired), Option.map_some, Option.some_or]
      constructor
      · rintro ⟨⟩
        unfold Job.recovered at hjob
        simp only at hjob
        split at hjob <;> cases hjob
      · rintro ⟨⟨⟩, hlive⟩
        rw [hexpired] at hlive
        cases hlive

theorem runBatch_batched (H : Host) (hs : s.Able F) (b : Surroundings τ) (l : Ledger τ)
    (hends : ∀ i, (b.handlerEnd i).Serialisable) :
    ∃ batch l', runBatch F s b l = (.ok batch, l') ∧ Batched H F b l l' batch := by
  let start : Ledger τ := { l with
    queue := (recoverExpired F b.recoverAt l.queue).2
    recoveries := l.recoveries ++ [b.recoverAt] }
  have hrecover : recoverStep F b.recoverAt l = (.ok _, start) := rfl
  have hbegun : Brought H F l.queue start.queue := .of_perform (.recover b.recoverAt) l.queue
  have hstart : attemptsLeft start.queue = attemptsLeft l.queue := attemptsLeft_recover ..
  obtain ⟨jobs, q', hclaimed, hclaims, hbrought, hidle⟩ :=
    claimUpTo_claims H hs b.claimAt s.maxConcurrency 0 start
  have hrun : runBatch F s b l = (if jobs.isEmpty then pure [] else do
      gather s (b.tasks jobs)
      pure (jobs.map Job.id) : Run τ (List Text)) { start with queue := q' } := by
    unfold runBatch
    rw [Block.bind_ok hrecover]
    exact Block.bind_ok hclaimed
  have hleft := hclaims.left
  by_cases hne : jobs = []
  · subst hne
    have hsame (id : Text) : q'.jobs.find? id = start.queue.jobs.find? id :=
      hclaims.others id List.not_mem_nil
    refine ⟨[], { start with queue := q' }, hrun, rfl, ?_, Nat.le_refl _, rfl,
      fun id job hjob => ?_, fun _ id job hjob => ?_, hbegun.trans hbrought⟩
    · rw [← hstart, ← hleft]
      rfl
    · show q'.jobs.find? id = some job ↔ _
      rw [hsame]
      exact running_recover hjob
    · rcases hidle rfl with hnone | hidle
      · exact absurd s.positive (by omega)
      · exact hidle id job ((hsame id).symm.trans hjob)
  · have hperm := tasks_perm b jobs
    have hids : ((b.tasks jobs).map fun t => t.job.id).Perm (jobs.map Job.id) := by
      have hmap := hperm.map Job.id
      rw [List.map_map] at hmap
      exact hmap
    have hlength : (b.tasks jobs).length = jobs.length := by
      rw [← hperm.length_eq, List.length_map]
    obtain ⟨l', hgather, hdone⟩ := gather_done (s := s) H F (b.tasks jobs)
      { start with queue := q' } (hids.nodup_iff.mpr hclaims.nodup)
      (fun t ht => hclaims.leased t.job (hperm.mem_iff.mp (List.mem_map_of_mem ht)))
      (tasks_serialisable hends jobs)
    have hinvoked := hdone.invoked
    have hfinished := hdone.finished
    refine ⟨jobs.map Job.id, l', ?_, hdone.recoveries, ?_, ?_, ?_, fun id row hrow => ?_,
      fun h => absurd (List.map_eq_nil_iff.mp h) hne,
      (hbegun.trans hbrought).trans hdone.brought⟩
    · rw [hrun, if_neg (by rw [List.isEmpty_iff]; exact hne)]
      exact Block.bind_ok hgather
    · rw [hdone.left, List.length_map, ← hstart]
      exact hleft
    · rw [List.length_map, ← hlength]
      exact hinvoked
    · rw [List.length_map, ← hlength]
      exact hfinished
    · refine Iff.trans ?_ (running_recover hrow)
      by_cases hid : id ∈ jobs.map Job.id
      · -- a claimed job was queued before, and has ended since
        obtain ⟨t, ht, rfl⟩ := List.mem_map.mp (hids.mem_iff.mpr hid)
        obtain ⟨row', hrow', hqueued⟩ :=
          hclaims.was t.job (hperm.mem_iff.mp (List.mem_map_of_mem ht))
        refine iff_of_false (fun h => hdone.ended t ht row h hrow) fun h => ?_
        rw [hrow'] at h
        cases h
        rw [hrow] at hqueued
        cases hqueued
      · have hother : l'.queue.jobs.find? id = start.queue.jobs.find? id :=
          (hdone.others id fun t ht h => hid (hids.mem_iff.mp
            (List.mem_map.mpr ⟨t, ht, h⟩))).trans (hclaims.others id hid)
        rw [hother]

-- == loop

/-- Batches, until one claims nothing. -/
structure Looped (H : Host) (F : Floats τ) (l l' : Ledger τ) (count : Int) : Prop where
  left : attemptsLeft l'.queue + count = attemptsLeft l.queue
  invoked : (l'.invoked.length : Int) ≤ l.invoked.length + count
  finished : (l'.finished.length : Int) = l.finished.length + count
  queued : ∀ id job, l'.queue.jobs.find? id = some job → job.state ≠ .queued
  running : ∃ times, l'.recoveries = l.recoveries ++ times ∧ ∀ id job, job.state = .running →
    (l'.queue.jobs.find? id = some job
      ↔ l.queue.jobs.find? id = some job ∧ ∀ t ∈ times, job.isExpired F t = false)
  brought : Brought H F l.queue l'.queue

variable {b : Surroundings τ} {l mid l' : Ledger τ} {batch : List Text} {count : Int}

theorem Batched.looped (h : Batched H F b l l' []) : Looped H F l l' 0 where
  left := h.left
  invoked := by
    have hinvoked := h.invoked
    rw [List.length_nil] at hinvoked
    omega
  finished := by
    have hfinished := h.finished
    rw [List.length_nil] at hfinished
    omega
  queued := h.idle rfl
  running := by
    refine ⟨[b.recoverAt], h.recoveries, fun id job hjob => ?_⟩
    rw [h.running id job hjob, List.forall_mem_singleton]
  brought := h.brought

theorem Batched.then_looped (h : Batched H F b l mid batch) (hs : Looped H F mid l' count) :
    Looped H F l l' (batch.length + count) where
  left := by
    have hleft := h.left
    have hleft' := hs.left
    omega
  invoked := by
    have hinvoked := h.invoked
    have hinvoked' := hs.invoked
    omega
  finished := by
    have hfinished := h.finished
    have hfinished' := hs.finished
    omega
  queued := hs.queued
  running := by
    obtain ⟨times, htimes, hrunning⟩ := hs.running
    refine ⟨b.recoverAt :: times, ?_, fun id job hjob => ?_⟩
    · rw [htimes, h.recoveries, List.append_assoc, List.singleton_append]
    · rw [hrunning id job hjob, h.running id job hjob, List.forall_mem_cons, and_assoc]
  brought := h.brought.trans hs.brought

theorem queueOf_brought {ops : List (Op τ)} (h : Brought H F (queueOf H F ops) q) :
    ∃ more, q = queueOf H F (ops ++ more) := by
  obtain ⟨more, rfl⟩ := h
  exact ⟨more, (Machine.exec_append ..).symm⟩

theorem batchLoop_looped (hs : s.Able F) {env : Nat → Surroundings τ}
    (hends : ∀ k i, ((env k).handlerEnd i).Serialisable) (n k : Nat) (processed : Int)
    (ops : List (Op τ)) (l : Ledger τ) (hreached : Brought H F (queueOf H F ops) l.queue)
    (hn : attemptsLeft l.queue < n) :
    ∃ count l', batchLoop F s env n k processed l = (.ok (processed + count), l')
      ∧ Looped H F l l' count := by
  induction n generalizing k processed l with
  | zero =>
    obtain ⟨more, hmore⟩ := queueOf_brought hreached
    have hnonneg := attemptsLeft_nonneg (H := H) (F := F) (ops ++ more)
    rw [← hmore] at hnonneg
    omega
  | succ n ih =>
    obtain ⟨batch, mid, hrun, hbatch⟩ := runBatch_batched H hs (env k) l (hends k)
    cases batch with
    | nil =>
      refine ⟨0, mid, ?_, hbatch.looped⟩
      unfold batchLoop
      rw [Block.bind_ok hrun, Int.add_zero]
      rfl
    | cons id batch =>
      have hleft := hbatch.left
      rw [List.length_cons] at hleft
      obtain ⟨count, l', hloop, hlooped⟩ := ih (k + 1)
        (processed + (id :: batch).length) mid (hreached.trans hbatch.brought) (by omega)
      refine ⟨(id :: batch).length + count, l', ?_, hbatch.then_looped hlooped⟩
      unfold batchLoop
      rw [Block.bind_ok hrun, ← Int.add_assoc]
      exact hloop

-- == errors

/-- A job ends in ERROR when it has no attempt left. -/
def Spent (q : Queue τ) : Prop :=
  ∀ id job, q.jobs.find? id = some job → job.state = .error → job.maxAttempts ≤ job.attempts

theorem Spent.write {job : Job τ} (h : Spent q)
    (hfind : ∀ j, q'.jobs.find? j = if j = id then some job else q.jobs.find? j)
    (hjob : job.state = .error → job.maxAttempts ≤ job.attempts) : Spent q' := by
  intro j row hrow
  rw [hfind] at hrow
  split at hrow
  · cases hrow
    exact hjob
  · exact h j row hrow

theorem Spent.perform (h : Spent q) (op : Op τ) : Spent (perform H F op q).2 := by
  cases op with
  | find key => exact h
  | insert b now =>
    show Spent (insertJob H b now q).2
    have hspec := insertJob_spec (H := H) b now q
    cases hrun : insertJob H b now q with
    | mk r q' =>
      rw [hrun] at hspec
      cases hspec with
      | refused e => exact h
      | stored _ _ hjobs =>
        exact h.write (Table.find?_insert hjobs) fun herror => (by cases herror)
  | recover now =>
    intro id job hjob herror
    have hfind := (recoverExpired_spec (F := F) now q id).1.symm.trans hjob
    rcases Option.or_eq_some_iff.mp hfind with hrecovered | ⟨-, hold⟩
    · obtain ⟨row, -, rfl⟩ := Option.map_eq_some_iff.mp hrecovered
      by_contra hless
      have hqueued : (row.recovered now).state = .queued := if_pos (Int.not_le.mp hless)
      rw [hqueued] at herror
      cases herror
    · exact h id job hold herror
  | claim worker lease now =>
    show Spent (claim F worker lease now q).2
    have hspec := claim_spec (F := F) worker lease now q
    cases hrun : claim F worker lease now q with
    | mk r q' =>
      rw [hrun] at hspec
      cases hspec with
      | nothing _ => exact h
      | @granted job owner hfind hstate _ =>
        refine h.write (Queue.find?_write (Job.claimedBy_id owner _ now) hfind) ?_
        rw [Job.claimedBy, if_pos hstate]
        exact fun herror => (by cases herror)
  | heartbeat jobId worker lease now =>
    show Spent (heartbeat F jobId worker lease now q).2
    have hspec := heartbeat_spec (F := F) jobId worker lease now q
    cases hrun : heartbeat F jobId worker lease now q with
    | mk r q' =>
      rw [hrun] at hspec
      cases hspec with
      | refused _ => exact h
      | @extended id job _ hfind _ =>
        exact h.write (Queue.find?_write (Job.beaten_id _ now) hfind) (h id job hfind)
  | finish jobId worker result now =>
    show Spent (finish jobId worker result now q).2
    have hspec := finish_spec jobId worker result now q
    cases hrun : finish jobId worker result now q with
    | mk r q' =>
      rw [hrun] at hspec
      cases hspec with
      | refused _ => exact h
      | @stored id job payload _ _ hfind _ =>
        refine h.write (Queue.find?_write (Job.finished_id _ _ now) hfind) fun herror => ?_
        replace herror : job.next result.state = .error := herror
        show job.maxAttempts ≤ job.attempts
        unfold Job.next at herror
        split at herror
        · cases herror
        · next hnext => exact Int.not_lt.mp fun hless => hnext ⟨herror, hless⟩

theorem spent_run (ops : List (Op τ)) : Spent (queueOf H F ops) := by
  refine Machine.invariant (perform H F) (C := fun _ => True) (I := Spent) .empty ?_ ?_ ops
    fun _ _ => trivial
  · intro id job hjob
    cases hjob
  · intro e hvalid _ h
    have hstep := h.perform (H := H) (F := F) e.input
    rw [hvalid] at hstep
    exact hstep

/-- With more batches than the jobs have attempts left, the run ends with nothing queued, and
nothing running but the jobs of others whose leases have not run out. -/
theorem run_drains (hs : s.Able F) {env : Nat → Surroundings τ}
    (hends : ∀ k i, ((env k).handlerEnd i).Serialisable) {maxBatches : Nat} {ops : List (Op τ)}
    (hmax : attemptsLeft (queueOf H F ops) < maxBatches) :
    ∃ processed l, Drained H F s env maxBatches ops processed l := by
  obtain ⟨count, l, hrun, hlooped⟩ := batchLoop_looped hs hends maxBatches 0 0 ops
    (queueOf H F ops).open (.refl _) hmax
  obtain ⟨more, hmore⟩ := queueOf_brought hlooped.brought
  obtain ⟨times, htimes, hrunning⟩ := hlooped.running
  have hleft : attemptsLeft l.queue + count = attemptsLeft (queueOf H F ops) := hlooped.left
  have hinvoked : (l.invoked.length : Int) ≤ 0 + count := hlooped.invoked
  have hfinished : (l.finished.length : Int) = 0 + count := hlooped.finished
  have hnonneg := attemptsLeft_nonneg (H := H) (F := F) (ops ++ more)
  rw [← hmore] at hnonneg
  refine ⟨0 + count, l, hrun, hfinished.symm, by omega, ⟨more, hmore, ?_⟩, hlooped.queued, ?_⟩
  · intro id job hjob herror
    rw [hmore] at hjob
    have hok := (queue_ok H F (ops ++ more)).job hjob
    have hspent := spent_run (ops ++ more) id job hjob herror
    have hbounded := hok.bounded
    have hcounted := hok.counted
    omega
  · rw [htimes]
    exact hrunning

-- == sample

namespace Drain

def errand : Bound := ⟨py "errand", .obj [], none, 0, 2, by decide⟩

/-- Seconds of a clock that stands still, every task done in its turn. -/
def still (handlerEnd : HandlerEnd) : Surroundings Int where
  recoverAt := 20
  claimAt _ := 20
  handlerEnd _ := handlerEnd
  finishAt _ := 20
  order := List.range
  order_perm _ := List.Perm.refl _

theorem terminal_pass : JobState.isTerminal .pass = true := rfl

/-- Handlers raise at first, and pass from the third batch on. -/
def moody (k : Nat) : Surroundings Int :=
  still (if k < 2 then .raised (py "OSError") (py "busy")
    else .returned ⟨.pass, .dict [], terminal_pass⟩)

def runner (leaseSeconds : Int) : Dispatcher Int where
  operations := [.lit "errand"]
  workerId := py "runner"
  leaseSeconds := leaseSeconds
  maxConcurrency := 1
  positive := Nat.le_refl 1

theorem serialisable_moody (k i : Nat) : ((moody k).handlerEnd i).Serialisable := by
  unfold moody
  split <;> rfl

/-- Two jobs, one of which another worker has claimed for an hour. -/
def abandoned : List (Op Int) :=
  [.insert errand 0, .insert errand 0, .claim (py "gone") 3600 10]

theorem runner_drains : ∃ processed l,
    Drained machine Floats.sample (runner 60) moody 4 abandoned processed l :=
  run_drains ⟨by decide, encodable_py _⟩ serialisable_moody (by decide +kernel)

/-- The job of the worker that is gone is still running after the run, and a supervisor whose
lease is no time at all raises before it has claimed anything. -/
theorem undrained : attemptsLeft (queueOf machine Floats.sample abandoned) + 1 ≤ 4
    ∧ (∀ k i, ((moody k).handlerEnd i).Serialisable)
    ∧ (runUntilIdle Floats.sample (runner 60) moody 4
        (queueOf machine Floats.sample abandoned).open).1.toOption = some 2
    ∧ (runUntilIdle Floats.sample (runner 60) moody 4
        (queueOf machine Floats.sample abandoned).open).2.queue.jobs.rows.map Job.state
      = [.running, .error] ∧ (runUntilIdle Floats.sample (runner 0) moody 4
        (queueOf machine Floats.sample abandoned).open).1.toOption = none
    ∧ (runUntilIdle Floats.sample (runner 0) moody 4
        (queueOf machine Floats.sample abandoned).open).2.queue.jobs.rows.map Job.state
      = [.running, .queued] :=
  ⟨by decide +kernel, serialisable_moody, by decide +kernel, by decide +kernel,
    by decide +kernel, by decide +kernel⟩

end Drain

end Centinal26.Supervisor
