/-
`AsyncSupervisor`: batches of jobs, by several supervisors on one queue.
-/
import Centinal26.Supervisor.LifeCycle

namespace Centinal26.Supervisor

open Py

variable {τ : Type}

-- == invocations

/-- A supervisor: the operations it has handlers for. -/
structure AsyncSupervisor (τ : Type) where
  operations : List Text
  workerId : PyStr
  leaseSeconds : τ

/-- How a handler ends. -/
inductive HandlerEnd : Type
  | returned (result : SupervisorResult)
  | other
  | raised (type message : PyStr)

def errorResult (type message : PyStr) : SupervisorResult :=
  ⟨.error, .dict [(.str (py "error"), .str type), (.str (py "message"), .str message)], rfl⟩

/-- The result `_run_claimed` stores. -/
def HandlerEnd.result : HandlerEnd → SupervisorResult
  | .returned result => result
  | .other => errorResult (py "TypeError") (py "handler must return SupervisorResult")
  | .raised type message => errorResult type message

/-- The result where there is no handler. -/
def unregistered (operation : Text) : SupervisorResult :=
  ⟨.fail, .dict [(.str (py "error"), .str (py "unregistered_operation")),
    (.str (py "operation"), .str operation.str)], rfl⟩

/-- How far a claimed job has come. -/
inductive Phase : Type
  | claimed
  | executing
  | returned (result : SupervisorResult)
  | ended

/-- A claimed job in a batch: the row as it was handed out. -/
structure Invocation (τ : Type) where
  supervisor : AsyncSupervisor τ
  job : Job τ
  phase : Phase

/-- The queue and all invocations so far. -/
structure World (τ : Type) where
  queue : Queue τ
  invocations : List (Invocation τ)

namespace World

def empty : World τ := ⟨.empty, []⟩

def enter (w : World τ) (k : Nat) (phase : Phase) : World τ :=
  { w with invocations := w.invocations.modify k fun inv => { inv with phase := phase } }

def call {α : Type} (w : World τ) (out : Except PyErr α × Queue τ) : Except PyErr Unit × World τ :=
  (out.1.map fun _ => (), { w with queue := out.2 })

end World

-- == steps

/-- The steps of batches, and what other callers do to the queue. -/
inductive Input (τ : Type) : Type
  | submit (b : Bound) (now : τ)
  | recover (now : τ)
  | claim (s : AsyncSupervisor τ) (now : τ)
  | invoke (k : Nat)
  | answer (k : Nat) (a : HandlerEnd)
  | heartbeat (k : Nat) (lease now : τ)
  | finish (k : Nat) (now : τ)

section Steps

variable (H : Host) (F : Floats τ)

/-- `claim` in a batch: what is handed out becomes an invocation. -/
def claimStep (s : AsyncSupervisor τ) (now : τ) (w : World τ) : Except PyErr Unit × World τ :=
  match claim F s.workerId s.leaseSeconds now w.queue with
  | (.ok (some job), q) => (.ok (), ⟨q, w.invocations ++ [⟨s, job, .claimed⟩]⟩)
  | (.ok none, q) => (.ok (), { w with queue := q })
  | (.error e, q) => (.error e, { w with queue := q })

def Invocation.registered (inv : Invocation τ) : Bool :=
  inv.supervisor.operations.contains inv.job.operation

/-- What the invocation does next, without the queue. -/
def Invocation.invoked (inv : Invocation τ) : Phase :=
  if inv.registered then .executing else .returned (unregistered inv.job.operation)

def stepWorld (w : World τ) : Input τ → Except PyErr Unit × World τ
  | .submit b now => w.call (insertJob H b now w.queue)
  | .recover now => w.call (recoverExpired F now w.queue)
  | .claim s now => claimStep F s now w
  | .invoke k =>
    match w.invocations[k]? with
    | some ⟨s, job, .claimed⟩ =>
      (.ok (), w.enter k (Invocation.invoked ⟨s, job, .claimed⟩))
    | _ => (.ok (), w)
  | .answer k a =>
    match w.invocations[k]? with
    | some ⟨_, _, .executing⟩ => (.ok (), w.enter k (.returned a.result))
    | _ => (.ok (), w)
  | .heartbeat k lease now =>
    match w.invocations[k]? with
    | some ⟨s, job, .executing⟩ =>
      w.call (heartbeat F job.id.str s.workerId lease now w.queue)
    | _ => (.ok (), w)
  | .finish k now =>
    match w.invocations[k]? with
    | some ⟨s, job, .returned result⟩ =>
      (w.enter k .ended).call (finish job.id.str s.workerId result now w.queue)
    | _ => (.ok (), w)

end Steps

abbrev WorldStep (τ : Type) := Machine.Entry (Input τ) (Except PyErr Unit) (World τ)

section Runs

variable (H : Host) (F : Floats τ)

def worldTrace (ins : List (Input τ)) : List (WorldStep τ) :=
  Machine.trace (fun i w => stepWorld H F w i) ins .empty

end Runs

/-- `run_batch`, up to its handlers: the times it reads for its claims, at most
`max_concurrency` of them. -/
def AsyncSupervisor.batch (s : AsyncSupervisor τ) (now : τ) (claims : List τ) : List (Input τ) :=
  .recover now :: claims.map (.claim s)

-- == the law

/-- The job whose handler the step calls. -/
def executes (w : World τ) : Input τ → Option Text
  | .invoke k =>
    match w.invocations[k]? with
    | some ⟨s, job, .claimed⟩ =>
      if Invocation.registered ⟨s, job, .claimed⟩ then some job.id else none
    | _ => none
  | _ => none

/-- The job a handler of which returns FAIL. -/
def fails (w : World τ) : Input τ → Option Text
  | .answer k (.returned result) =>
    match w.invocations[k]? with
    | some ⟨_, job, .executing⟩ => if result.state = .fail then some job.id else none
    | _ => none
  | _ => none

def Invocation.isStale (inv : Invocation τ) (q : Queue τ) : Bool :=
  (q.jobs.find? inv.job.id).any fun row => decide (inv.job.attempts < row.attempts)

/-- The attempt that calls `finish` or `heartbeat`. -/
def calls (w : World τ) : Input τ → Option (Invocation τ)
  | .heartbeat k _ _ => w.invocations[k]?
  | .finish k _ => w.invocations[k]?
  | _ => none

/-- A FAIL is final: no handler of the job is called afterwards. -/
structure Lawful (es : List (WorldStep τ)) : Prop where
  final : ∀ pre e post, es = pre ++ e :: post → ∀ id, fails e.before e.input = some id →
    ∀ e' ∈ post, executes e'.before e'.input ≠ some id
  fenced : ∀ e ∈ es, ∀ inv, calls e.before e.input = some inv → inv.isStale e.before.queue = true →
    e.after.queue.jobs.find? inv.job.id = e.before.queue.jobs.find? inv.job.id

-- == condition

/-- The attempt is the one the job runs under. -/
def Invocation.holds (inv : Invocation τ) (q : Queue τ) : Bool :=
  (q.jobs.find? inv.job.id).any fun row =>
    decide (row.state = .running) && decide (row.attempts = inv.job.attempts)

/-- The handler has returned FAIL, and `finish` is still to come. -/
def Invocation.isFailing (inv : Invocation τ) : Bool :=
  match inv.phase with
  | .returned result => inv.registered && decide (result.state = .fail)
  | _ => false

/-- A FAIL can be stored: the attempt holds its job, and the payload can be written;
or the job is done already. -/
def Invocation.mayFail (inv : Invocation τ) (result : SupervisorResult) (q : Queue τ) : Bool :=
  (inv.holds q && (dumps result.payload).isOk)
    || (q.jobs.find? inv.job.id).any fun row => row.state.isTerminal

/-- The step lets no FAIL go, and no stale attempt through (module header). -/
def proper (F : Floats τ) (w : World τ) : Input τ → Bool
  | .recover now => w.invocations.all fun inv =>
    !(inv.isFailing && inv.holds w.queue)
      || !(w.queue.jobs.find? inv.job.id).any fun row => row.isExpired F now
  | .invoke k => (w.invocations[k]?).all fun inv => inv.holds w.queue
  | .answer k (.returned result) => (w.invocations[k]?).all fun inv =>
    decide (result.state ≠ .fail) || inv.mayFail result w.queue
  | .heartbeat k _ _ | .finish k _ => (w.invocations[k]?).all fun inv =>
    !inv.isStale w.queue || !(w.queue.jobs.find? inv.job.id).any fun row =>
      row.isLeasedBy inv.supervisor.workerId
  | _ => true

-- == the queue

variable {H : Host} {F : Floats τ}

def performs (w : World τ) : Input τ → Option (Op τ)
  | .submit b now => some (.insert b now)
  | .recover now => some (.recover now)
  | .claim s now => some (.claim s.workerId s.leaseSeconds now)
  | .invoke _ => none
  | .answer _ _ => none
  | .heartbeat k lease now =>
    match w.invocations[k]? with
    | some ⟨s, job, .executing⟩ => some (.heartbeat job.id.str s.workerId lease now)
    | _ => none
  | .finish k now =>
    match w.invocations[k]? with
    | some ⟨s, job, .returned result⟩ => some (.finish job.id.str s.workerId result now)
    | _ => none

theorem claimStep_queue (s : AsyncSupervisor τ) (now : τ) (w : World τ) :
    (claimStep F s now w).2.queue = (claim F s.workerId s.leaseSeconds now w.queue).2 := by
  unfold claimStep
  split
  · next h => rw [h]
  · next h => rw [h]
  · next h => rw [h]

theorem stepWorld_queue (w : World τ) (i : Input τ) : (stepWorld H F w i).2.queue
      = match performs w i with
        | some op => (perform H F op w.queue).2
        | none => w.queue := by
  cases i with
  | submit b now => rfl
  | recover now => rfl
  | claim s now => exact claimStep_queue s now w
  | invoke k =>
    unfold stepWorld
    dsimp only
    split <;> rfl
  | answer k a =>
    unfold stepWorld
    dsimp only
    split <;> rfl
  | heartbeat k lease now =>
    unfold stepWorld performs
    dsimp only
    split <;> rfl
  | finish k now =>
    unfold stepWorld performs
    dsimp only
    split <;> rfl

variable {q : Queue τ} {id j : Text} {k : Nat} {w w' : World τ} {inv' inv : Invocation τ}

variable {worker : PyStr} {k' : Nat} {es : List (WorldStep Int)}

theorem heartbeat_find? (lease now : τ)
    (h : id = j → (q.jobs.find? j).any (fun row => row.isLeasedBy worker) = false) :
    (heartbeat F j.str worker lease now q).2.jobs.find? id = q.jobs.find? id := by
  have hspec := heartbeat_spec (F := F) j.str worker lease now q
  generalize heartbeat F j.str worker lease now q = out at hspec ⊢
  cases hspec with
  | refused e => rfl
  | @extended id' job hid hfind hleased =>
    obtain rfl := Text.ext hid
    refine (Queue.find?_write (Job.beaten_id _ now) hfind id).trans (if_neg fun hj => ?_)
    have hnot := h hj
    rw [hfind] at hnot
    rw [show job.isLeasedBy worker = false from hnot] at hleased
    cases hleased

theorem finish_find? (result : SupervisorResult) (now : τ)
    (h : id = j → (q.jobs.find? j).any (fun row => row.isLeasedBy worker) = false) :
    (finish j.str worker result now q).2.jobs.find? id = q.jobs.find? id := by
  have hspec := finish_spec j.str worker result now q
  generalize finish j.str worker result now q = out at hspec ⊢
  cases hspec with
  | refused e => rfl
  | @stored id' job payload hid hpayload hfind hleased =>
    obtain rfl := Text.ext hid
    refine (Queue.find?_write (Job.finished_id _ _ now) hfind id).trans (if_neg fun hj => ?_)
    have hnot := h hj
    rw [hfind] at hnot
    rw [show job.isLeasedBy worker = false from hnot] at hleased
    cases hleased

/-- What an operation other than a claim leaves of a row. -/
structure Job.Kept (row row' : Job τ) : Prop where
  attempts : row'.attempts = row.attempts
  owner : row'.state = .running → row.state = .running ∧ row'.leaseOwner = row.leaseOwner

theorem Job.Kept.refl (row : Job τ) : row.Kept row := ⟨rfl, fun h => ⟨h, rfl⟩⟩

theorem Job.kept_recovered (row : Job τ) (now : τ) : row.Kept (row.recovered now) where
  attempts := rfl
  owner h := by
    unfold recovered at h
    dsimp only at h
    split at h <;> cases h

theorem Job.kept_finished (row : Job τ) (result : SupervisorResult) (payload : Json)
    (now : τ) : row.Kept (row.finished result.state payload now) where
  attempts := rfl
  owner h := by
    replace h : row.next result.state = .running := h
    unfold next at h
    split at h
    · cases h
    · exact absurd h (JobState.running_ne_terminal result.terminal).1

def KeepsRows (q q' : Queue τ) : Prop :=
  ∀ id row, q.jobs.find? id = some row → ∃ row', q'.jobs.find? id = some row' ∧ row.Kept row'

theorem KeepsRows.refl (q : Queue τ) : KeepsRows q q :=
  fun _ row h => ⟨row, h, .refl row⟩

theorem KeepsRows.write {q' : Queue τ} {job job' : Job τ} (hj : q.jobs.find? j = some job)
    (hfind : ∀ id, q'.jobs.find? id = if id = j then some job' else q.jobs.find? id)
    (hkept : job.Kept job') : KeepsRows q q' := by
  intro id row hrow
  rw [hfind]
  split
  · next hid =>
    subst hid
    rw [hj] at hrow
    cases hrow
    exact ⟨job', rfl, hkept⟩
  · exact ⟨row, hrow, .refl row⟩

theorem insertJob_find? (b : Bound) (now : τ) {row : Job τ}
    (h : q.jobs.find? id = some row) : (insertJob H b now q).2.jobs.find? id = some row := by
  have hspec := insertJob_spec (H := H) b now q
  generalize insertJob H b now q = out at hspec ⊢
  cases hspec with
  | refused e => exact h
  | stored _ _ hjobs =>
    refine (Table.find?_insert hjobs id).trans ?_
    split
    · next hid =>
      have hfree := Table.find?_of_insert hjobs
      rw [← hid, h] at hfree
      cases hfree
    · exact h

theorem insertJob_keepsRows (b : Bound) (now : τ) (q : Queue τ) :
    KeepsRows q (insertJob H b now q).2 :=
  fun _ row h => ⟨row, insertJob_find? b now h, .refl row⟩

theorem recoverExpired_keepsRows (now : τ) (q : Queue τ) :
    KeepsRows q (recoverExpired F now q).2 := by
  intro id row hrow
  rw [(recoverExpired_spec now q id).1, hrow]
  cases hexp : row.isExpired F now with
  | true =>
    rw [Option.filter_some_pos (by exact hexp)]
    exact ⟨_, rfl, row.kept_recovered now⟩
  | false =>
    rw [Option.filter_some_neg (by simp [hexp])]
    exact ⟨_, rfl, .refl row⟩

theorem heartbeat_keepsRows (jobId worker : PyStr) (lease now : τ) (q : Queue τ) :
    KeepsRows q (heartbeat F jobId worker lease now q).2 := by
  have hspec := heartbeat_spec (F := F) jobId worker lease now q
  generalize heartbeat F jobId worker lease now q = out at hspec ⊢
  cases hspec with
  | refused e => exact .refl q
  | extended _ hfind _ =>
    exact .write hfind (Queue.find?_write (Job.beaten_id _ now) hfind) ⟨rfl, fun h => ⟨h, rfl⟩⟩

theorem finish_keepsRows (jobId worker : PyStr) (result : SupervisorResult) (now : τ)
    (q : Queue τ) : KeepsRows q (finish jobId worker result now q).2 := by
  have hspec := finish_spec jobId worker result now q
  generalize finish jobId worker result now q = out at hspec ⊢
  cases hspec with
  | refused e => exact .refl q
  | stored _ _ hfind _ =>
    exact .write hfind (Queue.find?_write (Job.finished_id _ _ now) hfind)
      (Job.kept_finished _ result _ now)

-- == the world

theorem getElem?_concat_cases {α : Type} {l : List α} {a b : α}
    (h : (l ++ [a])[k]? = some b) : l[k]? = some b ∨ k = l.length ∧ b = a := by
  rw [List.getElem?_append] at h
  split at h
  · exact Or.inl h
  · next hk =>
    have hlast : k - l.length = 0 := by
      cases hn : k - l.length with
      | zero => rfl
      | succ n =>
        rw [hn] at h
        cases h
    rw [hlast] at h
    cases h
    exact Or.inr ⟨by omega, rfl⟩

def Invocation.carried (inv : Invocation τ) : AsyncSupervisor τ × Job τ :=
  (inv.supervisor, inv.job)

/-- Each invocation is an attempt of its job, no two are the same, and who holds a
job is its lease's owner. -/
structure World.Ok (w : World τ) : Prop where
  known : ∀ (k : Nat) (inv : Invocation τ), w.invocations[k]? = some inv →
    ∃ row, w.queue.jobs.find? inv.job.id = some row ∧ inv.job.attempts ≤ row.attempts
      ∧ (row.state = .running → row.attempts = inv.job.attempts →
        row.leaseOwner.map Text.str = some inv.supervisor.workerId)
  distinct : ∀ (k k' : Nat) (inv inv' : Invocation τ), w.invocations[k]? = some inv →
    w.invocations[k']? = some inv' → inv.job.id = inv'.job.id →
    inv.job.attempts = inv'.job.attempts → k = k'

/-- The invocations are those from before, further on. -/
def SameInvocations (w w' : World τ) : Prop :=
  w'.invocations.map Invocation.carried = w.invocations.map Invocation.carried

theorem SameInvocations.back (h : SameInvocations w w') (hk : w'.invocations[k]? = some inv') :
    ∃ inv, w.invocations[k]? = some inv ∧ inv.supervisor = inv'.supervisor
      ∧ inv.job = inv'.job := by
  have hmap := congrArg (fun l => l[k]?) h
  simp only [List.getElem?_map, hk, Option.map_some] at hmap
  obtain ⟨inv, hinv, hcarried⟩ := Option.map_eq_some_iff.mp hmap.symm
  exact ⟨inv, hinv, congrArg Prod.fst hcarried, congrArg Prod.snd hcarried⟩

theorem sameInvocations_enter (w : World τ) (k : Nat) (phase : Phase) :
    SameInvocations w (w.enter k phase) := by
  refine List.ext_getElem? fun j => ?_
  show ((w.invocations.modify k _).map Invocation.carried)[j]? = _
  simp only [List.getElem?_map, List.getElem?_modify]
  split
  · cases w.invocations[j]? <;> rfl
  · rw [id_map']

theorem World.Ok.kept (h : w.Ok) (hrows : KeepsRows w.queue w'.queue)
    (hsame : SameInvocations w w') : w'.Ok where
  known k inv' hk := by
    obtain ⟨inv, hinv, hs, hj⟩ := hsame.back hk
    obtain ⟨row, hrow, hle, howner⟩ := h.known k inv hinv
    obtain ⟨row', hrow', hkept⟩ := hrows _ row hrow
    rw [← hs, ← hj]
    refine ⟨row', hrow', by rw [hkept.attempts]; exact hle, fun hrun hatt => ?_⟩
    obtain ⟨hrun', hlease⟩ := hkept.owner hrun
    rw [hlease]
    exact howner hrun' (by rw [← hkept.attempts]; exact hatt)
  distinct k k' inv inv' hk hk' hid hatt := by
    obtain ⟨inv₁, hinv₁, -, hj₁⟩ := hsame.back hk
    obtain ⟨inv₂, hinv₂, -, hj₂⟩ := hsame.back hk'
    exact h.distinct k k' inv₁ inv₂ hinv₁ hinv₂ (by rw [hj₁, hj₂, hid]) (by rw [hj₁, hj₂, hatt])

theorem World.Ok.claim (h : w.Ok) (s : AsyncSupervisor τ) (now : τ) :
    (claimStep F s now w).2.Ok := by
  have hspec := claim_spec (F := F) s.workerId s.leaseSeconds now w.queue
  unfold claimStep
  generalize Supervisor.claim F s.workerId s.leaseSeconds now w.queue = out at hspec ⊢
  cases hspec with
  | @nothing r hr =>
    match r with
    | .error e => exact h
    | .ok none => exact h
    | .ok (some job) => exact absurd rfl (hr job)
  | @granted job owner hfind hstate howner =>
    have hwrite := Queue.find?_write (Job.claimedBy_id owner
      (F.column (F.add now s.leaseSeconds)) now) hfind
    have hold : ∀ (k : Nat) (inv : Invocation τ), w.invocations[k]? = some inv →
        inv.job.id = job.id → inv.job.attempts ≤ job.attempts := by
      intro k inv hk hid
      obtain ⟨row, hrow, hle, -⟩ := h.known k inv hk
      rw [hid, hfind] at hrow
      cases hrow
      exact hle
    have hclaimed : job.claimedBy owner (F.column (F.add now s.leaseSeconds)) now
        = job.claimed owner (F.column (F.add now s.leaseSeconds)) now := if_pos hstate
    rw [hclaimed] at hwrite
    refine ⟨fun k inv hk => ?_, fun k k' inv inv' hk hk' hid hatt => ?_⟩
    · rcases getElem?_concat_cases hk with hk | ⟨-, rfl⟩
      · obtain ⟨row, hrow, hle, hholder⟩ := h.known k inv hk
        by_cases hid : inv.job.id = job.id
        · have hle' := hold k inv hk hid
          refine ⟨_, (hwrite _).trans (if_pos hid), ?_, fun _ hatt => ?_⟩
          · show inv.job.attempts ≤ job.attempts + 1
            omega
          · replace hatt : job.attempts + 1 = inv.job.attempts := hatt
            omega
        · exact ⟨row, (hwrite _).trans ((if_neg hid).trans hrow), hle, hholder⟩
      · exact ⟨_, (hwrite _).trans (if_pos rfl), Int.le_refl _, fun _ _ => congrArg some howner⟩
    · rcases getElem?_concat_cases hk with hk | ⟨rfl, rfl⟩
      · rcases getElem?_concat_cases hk' with hk' | ⟨rfl, rfl⟩
        · exact h.distinct k k' inv inv' hk hk' hid hatt
        · have hle' := hold k inv hk hid
          replace hatt : inv.job.attempts = job.attempts + 1 := hatt
          omega
      · rcases getElem?_concat_cases hk' with hk' | ⟨rfl, rfl⟩
        · have hle' := hold k' inv' hk' hid.symm
          replace hatt : job.attempts + 1 = inv'.job.attempts := hatt
          omega
        · rfl

theorem ok_step (h : w.Ok) (i : Input τ) : (stepWorld H F w i).2.Ok := by
  cases i with
  | submit b now => exact h.kept (insertJob_keepsRows b now w.queue) rfl
  | recover now => exact h.kept (recoverExpired_keepsRows now w.queue) rfl
  | claim s now => exact h.claim s now
  | invoke k =>
    unfold stepWorld
    dsimp only
    split
    · exact h.kept (.refl _) (sameInvocations_enter w k _)
    · exact h
  | answer k a =>
    unfold stepWorld
    dsimp only
    split
    · exact h.kept (.refl _) (sameInvocations_enter w k _)
    · exact h
  | heartbeat k lease now =>
    unfold stepWorld
    dsimp only
    split
    · exact h.kept (heartbeat_keepsRows _ _ lease now w.queue) rfl
    · exact h
  | finish k now =>
    unfold stepWorld
    dsimp only
    split
    · exact h.kept (finish_keepsRows _ _ _ now w.queue) (sameInvocations_enter w k _)
    · exact h

-- == deciding

def Done (id : Text) (q : Queue τ) : Prop :=
  ∃ row, q.jobs.find? id = some row ∧ row.state.isTerminal = true

/-- An invocation that holds its job is about to store a FAIL that can be stored. -/
structure Failing (w : World τ) (k : Nat) (inv : Invocation τ) : Prop where
  here : w.invocations[k]? = some inv
  registered : inv.registered = true
  result : ∃ result payload, inv.phase = .returned result ∧ result.state = .fail
    ∧ dumps result.payload = .ok payload
  holds : inv.holds w.queue = true

/-- A handler of the job has returned FAIL, and it will not be called again. -/
def Decided (id : Text) (w : World τ) : Prop :=
  Done id w.queue ∨ ∃ k inv, inv.job.id = id ∧ Failing w k inv

theorem Invocation.holds_iff :
    inv.holds q = true ↔ ∃ row, q.jobs.find? inv.job.id = some row ∧ row.state = .running
      ∧ row.attempts = inv.job.attempts := by
  unfold holds
  cases q.jobs.find? inv.job.id with
  | none => simp
  | some row => simp

theorem Done.step (h : Done id w.queue) (i : Input τ) : Done id (stepWorld H F w i).2.queue := by
  obtain ⟨row, hrow, hterm⟩ := h
  refine ⟨row, ?_, hterm⟩
  rw [stepWorld_queue]
  split
  · next op _ => exact (terminal_step hrow hterm op).1
  · exact hrow

theorem Failing.stale (hok : w.Ok)
    (h : Failing w k inv) (hk' : w.invocations[k']? = some inv') (hne : k ≠ k')
    (hid : inv.job.id = inv'.job.id) : inv'.isStale w.queue = true := by
  obtain ⟨row, hrow, -, hatt⟩ := Invocation.holds_iff.mp h.holds
  obtain ⟨row', hrow', hle, -⟩ := hok.known k' inv' hk'
  rw [← hid, hrow] at hrow'
  cases hrow'
  unfold Invocation.isStale
  rw [← hid, hrow]
  refine decide_eq_true ?_
  have hne' : inv.job.attempts ≠ inv'.job.attempts := fun hsame =>
    hne (hok.distinct k k' inv inv' h.here hk' hid hsame)
  omega

theorem Failing.of_same (h : Failing w k inv) (hinv : w'.invocations[k]? = some inv)
    (hrow : w'.queue.jobs.find? inv.job.id = w.queue.jobs.find? inv.job.id) : Failing w' k inv :=
  ⟨hinv, h.registered, h.result, by
    unfold Invocation.holds
    rw [hrow]
    exact h.holds⟩

theorem getElem?_enter_of_ne (h : k ≠ k') (phase : Phase) :
    (w.enter k' phase).invocations[k]? = w.invocations[k]? := by
  show (w.invocations.modify k' _)[k]? = _
  simp [Ne.symm h]

theorem Failing.phase (h : Failing w k inv) {s : AsyncSupervisor τ} {job : Job τ} {phase : Phase}
    (hk : w.invocations[k]? = some ⟨s, job, phase⟩) : ∃ result, phase = .returned result := by
  obtain ⟨result, payload, hphase, -, -⟩ := h.result
  rw [h.here] at hk
  cases hk
  exact ⟨result, hphase⟩

theorem Failing.ne (h : Failing w k inv) {s : AsyncSupervisor τ} {job : Job τ} {phase : Phase}
    (hk : w.invocations[k']? = some ⟨s, job, phase⟩) (hphase : ∀ r, phase ≠ .returned r) :
    k ≠ k' := by
  rintro rfl
  obtain ⟨r, hr⟩ := h.phase hk
  exact hphase r hr

theorem Failing.finish (hok : w.Ok)
    (h : Failing w k inv) {result : SupervisorResult} (hphase : inv.phase = .returned result)
    (now : τ) : Done inv.job.id
      (finish inv.job.id.str inv.supervisor.workerId result now w.queue).2 := by
  obtain ⟨row, hrow, hrun, hatt⟩ := Invocation.holds_iff.mp h.holds
  obtain ⟨result', payload, hphase', hfail, hdumps⟩ := h.result
  rw [hphase] at hphase'
  cases hphase'
  obtain ⟨row', hrow', -, howner⟩ := hok.known k inv h.here
  rw [hrow] at hrow'
  cases hrow'
  have hleased : row.isLeasedBy inv.supervisor.workerId = true := by
    unfold Job.isLeasedBy
    rw [decide_eq_true hrun, decide_eq_true (howner hrun hatt)]
    rfl
  have hnext : row.next result.state = .fail := by
    unfold Job.next
    rw [hfail, if_neg fun hbad => by cases hbad.1]
  unfold Supervisor.finish
  simp only [hdumps, encode_str, hrow, hleased, if_true]
  refine ⟨row.finished result.state payload now, ?_, ?_⟩
  · rw [Queue.jobs_record, Queue.find?_write _ hrow, if_pos rfl]
  · show (row.next result.state).isTerminal = true
    rw [hnext]
    rfl

theorem Failing.step (hok : w.Ok)
    (h : Failing w k inv) (i : Input τ) (hproper : proper F w i = true) :
    Decided inv.job.id (stepWorld H F w i).2 := by
  obtain ⟨row, hrow, hrun, hatt⟩ := Invocation.holds_iff.mp h.holds
  -- another attempt of the job is stale, and gets nothing done
  have hother : ∀ (k' : Nat) (inv' : Invocation τ), w.invocations[k']? = some inv' →
      k ≠ k' → (!inv'.isStale w.queue || !(w.queue.jobs.find? inv'.job.id).any
        (fun row => row.isLeasedBy inv'.supervisor.workerId)) = true →
      inv.job.id = inv'.job.id → (w.queue.jobs.find? inv'.job.id).any
        (fun row => row.isLeasedBy inv'.supervisor.workerId) = false := by
    intro k' inv' hk' hne hstale hid
    rw [h.stale hok hk' hne hid] at hstale
    simpa using hstale
  cases i with
  | submit b now =>
    refine Or.inr ⟨k, inv, rfl, h.of_same h.here ?_⟩
    rw [hrow]
    exact insertJob_find? b now hrow
  | recover now =>
    refine Or.inr ⟨k, inv, rfl, h.of_same h.here ?_⟩
    have hmem : inv ∈ w.invocations := List.mem_of_getElem? h.here
    have hall := List.all_eq_true.mp hproper inv hmem
    obtain ⟨result, payload, hphase, hfail, -⟩ := h.result
    have hfailing : inv.isFailing = true := by
      unfold Invocation.isFailing
      rw [hphase]
      simp [h.registered, hfail]
    have hexp : row.isExpired F now = false := by
      have hholds := h.holds
      simp only [hfailing, hholds, hrow] at hall
      simpa using hall
    show (recoverExpired F now w.queue).2.jobs.find? inv.job.id = _
    rw [(recoverExpired_spec now w.queue _).1, hrow, Option.filter_some_neg (by simp [hexp])]
    rfl
  | claim s now =>
    have hspec := claim_spec (F := F) s.workerId s.leaseSeconds now w.queue
    refine Or.inr ⟨k, inv, rfl, ?_⟩
    show Failing (claimStep F s now w).2 k inv
    unfold claimStep
    generalize Supervisor.claim F s.workerId s.leaseSeconds now w.queue = out at hspec ⊢
    cases hspec with
    | @nothing r hr =>
      cases r with
      | error e => exact h
      | ok claimed =>
        cases claimed with
        | none => exact h
        | some job => exact absurd rfl (hr job)
    | @granted job owner hfind hstate howner =>
      have hne : inv.job.id ≠ job.id :=
        ne_of_state hrow hfind (by rw [hstate, hrun]; exact fun h => by cases h)
      refine h.of_same ?_ ((Queue.find?_write (Job.claimedBy_id owner _ now) hfind
        _).trans (if_neg hne))
      have hlt : k < w.invocations.length := (List.getElem?_eq_some_iff.mp h.here).1
      exact (List.getElem?_append_left hlt).trans h.here
  | invoke k' =>
    refine Or.inr ⟨k, inv, rfl, ?_⟩
    unfold stepWorld
    dsimp only
    split
    · next s job hk' =>
      have hne : k ≠ k' := h.ne hk' fun _ h => by cases h
      exact h.of_same ((getElem?_enter_of_ne hne _).trans h.here) rfl
    · exact h
  | answer k' a =>
    refine Or.inr ⟨k, inv, rfl, ?_⟩
    unfold stepWorld
    dsimp only
    split
    · next s job hk' =>
      have hne : k ≠ k' := h.ne hk' fun _ h => by cases h
      exact h.of_same ((getElem?_enter_of_ne hne _).trans h.here) rfl
    · exact h
  | heartbeat k' lease now =>
    refine Or.inr ⟨k, inv, rfl, ?_⟩
    unfold stepWorld
    dsimp only
    split
    · next s job hk' =>
      have hne : k ≠ k' := h.ne hk' fun _ h => by cases h
      have hprop : (w.invocations[k']?).all _ = true := hproper
      rw [hk'] at hprop
      exact h.of_same h.here (heartbeat_find? lease now (hother k' _ hk' hne hprop))
    · exact h
  | finish k' now =>
    unfold stepWorld
    dsimp only
    split
    · next s job result hk' =>
      by_cases hne : k = k'
      · subst hne
        have hinv := h.here
        rw [hk'] at hinv
        cases hinv
        exact Or.inl (h.finish hok rfl now)
      · have hprop : (w.invocations[k']?).all _ = true := hproper
        rw [hk'] at hprop
        exact Or.inr ⟨k, inv, rfl, h.of_same ((getElem?_enter_of_ne hne _).trans h.here)
          (finish_find? result now (hother k' _ hk' hne hprop))⟩
    · exact Or.inr ⟨k, inv, rfl, h⟩

theorem Decided.step (hok : w.Ok) (h : Decided id w) (i : Input τ)
    (hproper : proper F w i = true) : Decided id (stepWorld H F w i).2 := by
  rcases h with h | ⟨k, inv, rfl, h⟩
  · exact Or.inl (h.step i)
  · exact h.step hok i hproper

def ExecutesRegistered (w : World τ) : Prop :=
  ∀ (k : Nat) (inv : Invocation τ), w.invocations[k]? = some inv → inv.phase = .executing →
    inv.registered = true

theorem decided_of_failed (i : Input τ) (hproper : proper F w i = true)
    (hregistered : ExecutesRegistered w) (hfailed : fails w i = some id) :
    Decided id (stepWorld H F w i).2 := by
  unfold fails at hfailed
  split at hfailed
  · next k result =>
    split at hfailed
    · next s job hk =>
      split at hfailed
      · next hfail =>
        cases hfailed
        have hprop : (w.invocations[k]?).all _ = true := hproper
        rw [hk] at hprop
        replace hprop : (decide (result.state ≠ .fail)
          || Invocation.mayFail ⟨s, job, .executing⟩ result w.queue) = true := hprop
        rw [decide_eq_false (by simpa using hfail), Bool.false_or] at hprop
        have hworld : (stepWorld H F w (.answer k (.returned result))).2
            = w.enter k (.returned result) := by
          unfold stepWorld
          simp only [hk]
          rfl
        rw [hworld]
        rcases Bool.or_eq_true_iff.mp hprop with hholds | hdone
        · obtain ⟨hholds, hdumps⟩ := Bool.and_eq_true_iff.mp hholds
          have hpayload : ∃ payload, dumps result.payload = .ok payload := by
            cases hd : dumps result.payload with
            | ok payload => exact ⟨payload, rfl⟩
            | error e =>
              rw [hd] at hdumps
              cases hdumps
          obtain ⟨payload, hpayload⟩ := hpayload
          refine Or.inr ⟨k, ⟨s, job, .returned result⟩, rfl, ?_, ?_,
            ⟨result, payload, rfl, hfail, hpayload⟩, hholds⟩
          · show (w.invocations.modify k _)[k]? = _
            rw [List.getElem?_modify_eq, hk]
            rfl
          · exact hregistered k ⟨s, job, .executing⟩ hk rfl
        · left
          cases hrow : w.queue.jobs.find? job.id with
          | none =>
            rw [show w.queue.jobs.find? (Invocation.job ⟨s, job, .executing⟩).id = none
              from hrow] at hdone
            cases hdone
          | some row =>
            rw [show w.queue.jobs.find? (Invocation.job ⟨s, job, .executing⟩).id
              = some row from hrow] at hdone
            exact ⟨row, hrow, hdone⟩
      · cases hfailed
    · cases hfailed
  · cases hfailed

theorem Decided.not_executed (hok : w.Ok) (h : Decided id w) (i : Input τ)
    (hproper : proper F w i = true) : executes w i ≠ some id := by
  intro hexec
  unfold executes at hexec
  split at hexec
  · next k =>
    split at hexec
    · next s job hk =>
      split at hexec
      · cases hexec
        have hprop : (w.invocations[k]?).all _ = true := hproper
        rw [hk] at hprop
        obtain ⟨row, hrow, hrun, hatt⟩ := Invocation.holds_iff.mp hprop
        rcases h with ⟨row', hrow', hterm⟩ | ⟨k', inv, hid, hfailing⟩
        · rw [show w.queue.jobs.find? job.id = some row from hrow] at hrow'
          cases hrow'
          exact (JobState.running_ne_terminal hterm).1 hrun
        · have hne : k' ≠ k := by
            rintro rfl
            obtain ⟨_, hbad⟩ := hfailing.phase hk
            cases hbad
          have hstale := hfailing.stale hok hk hne hid
          unfold Invocation.isStale at hstale
          rw [hrow] at hstale
          have hlt := of_decide_eq_true hstale
          omega
      · cases hexec
    · cases hexec
  · cases hexec

theorem fenced_step (i : Input τ) (hproper : proper F w i = true)
    (hcalls : calls w i = some inv) (hstale : inv.isStale w.queue = true) :
    (stepWorld H F w i).2.queue.jobs.find? inv.job.id = w.queue.jobs.find? inv.job.id := by
  cases i with
  | heartbeat k lease now =>
    have hk : w.invocations[k]? = some inv := hcalls
    have hprop : (w.invocations[k]?).all _ = true := hproper
    rw [hk] at hprop
    unfold stepWorld
    simp only [hk]
    split
    · next s job hinv =>
      cases hinv
      refine heartbeat_find? lease now fun _ => ?_
      simpa [hstale] using hprop
    · rfl
  | finish k now =>
    have hk : w.invocations[k]? = some inv := hcalls
    have hprop : (w.invocations[k]?).all _ = true := hproper
    rw [hk] at hprop
    unfold stepWorld
    simp only [hk]
    split
    · next s job result hinv =>
      cases hinv
      refine finish_find? result now fun _ => ?_
      simpa [hstale] using hprop
    · rfl
  | submit | recover | claim | invoke | answer => cases hcalls

-- == runs

theorem enter_cases {j : Nat} {phase : Phase}
    (h : (w.enter k phase).invocations[j]? = some inv') : w.invocations[j]? = some inv'
      ∨ ∃ inv, w.invocations[j]? = some inv ∧ j = k ∧ inv' = ⟨inv.supervisor, inv.job, phase⟩ := by
  by_cases hj : j = k
  · subst hj
    right
    replace h : (w.invocations.modify j _)[j]? = some inv' := h
    rw [List.getElem?_modify_eq] at h
    obtain ⟨inv, hinv, rfl⟩ := Option.map_eq_some_iff.mp h
    exact ⟨inv, hinv, rfl, rfl⟩
  · rw [getElem?_enter_of_ne hj] at h
    exact Or.inl h

theorem executesRegistered_step (h : ExecutesRegistered w) (i : Input τ) :
    ExecutesRegistered (stepWorld H F w i).2 := by
  have henter : ∀ (k : Nat) (phase : Phase) (q : Queue τ),
      (∀ inv, w.invocations[k]? = some inv → phase = .executing → inv.registered = true) →
      ExecutesRegistered { w.enter k phase with queue := q } := by
    intro k phase q hphase j inv' hj hexec
    rcases enter_cases hj with hold | ⟨inv, hinv, rfl, rfl⟩
    · exact h j inv' hold hexec
    · exact hphase inv hinv hexec
  cases i with
  | submit b now => exact h
  | recover now => exact h
  | claim s now =>
    show ExecutesRegistered (claimStep F s now w).2
    unfold claimStep
    split
    · intro j inv hj hexec
      rcases getElem?_concat_cases hj with hold | ⟨-, rfl⟩
      · exact h j inv hold hexec
      · cases hexec
    · exact h
    · exact h
  | invoke k =>
    unfold stepWorld
    dsimp only
    split
    · next s job hk =>
      refine henter k _ w.queue fun inv hinv hexec => ?_
      rw [hk] at hinv
      cases hinv
      unfold Invocation.invoked at hexec
      split at hexec
      · next hreg => exact hreg
      · cases hexec
    · exact h
  | answer k a =>
    unfold stepWorld
    dsimp only
    split
    · exact henter k _ w.queue fun _ _ hexec => by cases hexec
    · exact h
  | heartbeat k lease now =>
    unfold stepWorld
    dsimp only
    split <;> exact h
  | finish k now =>
    unfold stepWorld
    dsimp only
    split
    · exact henter k _ _ fun _ _ hexec => by cases hexec
    · exact h

/-- What holds of a run of proper steps. -/
structure BatchesOk (past : List (WorldStep τ)) (w : World τ) : Prop where
  world : w.Ok
  registered : ExecutesRegistered w
  decided : ∀ e ∈ past, ∀ id, fails e.before e.input = some id → Decided id w
  lawful : Lawful past

theorem batchesOk_step {past : List (WorldStep τ)} {e : WorldStep τ}
    (hv : e.Valid fun i w => stepWorld H F w i) (hproper : proper F e.before e.input = true)
    (h : BatchesOk past e.before) : BatchesOk (past ++ [e]) e.after := by
  obtain ⟨i, w, out, w'⟩ := e
  obtain ⟨rfl, rfl⟩ := Prod.mk.inj (show stepWorld H F w i = (out, w') from hv)
  have hnew : ∀ id, Decided id w
    → executes w i ≠ some id := fun id hid => hid.not_executed h.world i hproper
  exact
    { world := ok_step h.world i
      registered := executesRegistered_step h.registered i
      decided := by
        intro e' he' id hfailed
        rcases List.mem_append.mp he' with he' | he'
        · exact (h.decided e' he' id hfailed).step h.world i hproper
        · obtain rfl := List.mem_singleton.mp he'
          exact decided_of_failed i hproper h.registered hfailed
      lawful :=
        { final := by
            intro pre x post hcut id hfailed e' he'
            rcases List.concat_cut hcut with ⟨rfl, -, -⟩ | ⟨post', rfl, hpast⟩
            · cases he'
            · rcases List.mem_append.mp he' with he' | he'
              · exact h.lawful.final pre x post' hpast id hfailed e' he'
              · obtain rfl := List.mem_singleton.mp he'
                refine hnew id (h.decided x ?_ id hfailed)
                rw [hpast]
                simp
          fenced := by
            intro e' he' inv hcalls hstale
            rcases List.mem_append.mp he' with he' | he'
            · exact h.lawful.fenced e' he' inv hcalls hstale
            · obtain rfl := List.mem_singleton.mp he'
              exact fenced_step i hproper hcalls hstale } }

/-- In every run of proper steps a FAIL is final, and a stale attempt changes
nothing. -/
theorem fail_final (H : Host) (F : Floats τ) (ins : List (Input τ))
    (hproper : ∀ e ∈ worldTrace H F ins, proper F e.before e.input = true) :
    Lawful (worldTrace H F ins) := by
  have hrun := Machine.history_invariant (fun i w => stepWorld H F w i)
    (C := fun e => proper F e.before e.input = true) (I := BatchesOk) .empty ?_
    (fun past e hv hc h => batchesOk_step hv hc h) ins hproper
  · exact hrun.lawful
  · exact
      { world := ⟨fun _ _ hk => (by cases hk), fun _ _ _ _ hk => (by cases hk)⟩
        registered := fun _ _ hk => by cases hk
        decided := fun _ he => by cases he
        lawful := ⟨fun pre x post hcut => by simp at hcut, fun _ he => by cases he⟩ }

-- == try-outs

def desk (name : String) : AsyncSupervisor Int := ⟨[auditing], py name, 10⟩
where
  auditing : Text := ⟨py "audit", encodable_py "audit"⟩

def audit : Input Int := .submit ⟨py "audit", .obj [], none, 0, 3, by decide⟩ 0

def verdict (state : JobState) (h : state.isTerminal = true) (payload : PyVal) :
    HandlerEnd := .returned ⟨state, payload, h⟩

/-- A FAIL is stored in time, and another supervisor finds nothing to do. -/
def stored : List (Input Int) :=
  audit :: (desk "east").batch 1 [1] ++ [.invoke 0, .answer 0 (verdict .fail rfl .none),
    .finish 0 2] ++ (desk "west").batch 50 [50]

theorem stored_lawful : Lawful (worldTrace machine Floats.sample stored) :=
  fail_final machine Floats.sample stored (List.all_eq_true.mp (by decide +kernel))

/-- The FAIL comes with a payload that `json.dumps` rejects: `finish` raises, the lease
runs out, and the next batch runs the handler again. -/
def unstored : List (Input Int) :=
  audit :: (desk "east").batch 1 [1] ++ [.invoke 0, .answer 0 (verdict .fail rfl .object),
    .finish 0 2] ++ (desk "east").batch 20 [20] ++ [.invoke 1]

/-- The FAIL comes after the lease has run out, and the job has been claimed again. -/
def overdue : List (Input Int) :=
  audit :: (desk "east").batch 1 [1] ++ [.invoke 0] ++ (desk "west").batch 20 [20]
    ++ [.answer 0 (verdict .fail rfl .none), .finish 0 21, .invoke 1]

/-- Two supervisors share a `worker_id`: the first attempt finishes the second. -/
def shared : List (Input Int) :=
  audit :: (desk "local-supervisor").batch 1 [1] ++ [.invoke 0]
    ++ (desk "local-supervisor").batch 20 [20]
    ++ [.invoke 1, .answer 0 (verdict .pass rfl .none), .finish 0 21]

/-- A job is executed after it has failed. -/
def retried : List (WorldStep Int) → Bool
  | [] => false
  | e :: es =>
    ((fails e.before e.input).any fun id =>
      es.any fun e' => decide (executes e'.before e'.input = some id)) || retried es

/-- A stale attempt changes its job's state. -/
def overwritten (e : WorldStep Int) : Bool :=
  (calls e.before e.input).any fun inv => inv.isStale e.before.queue
    && decide ((e.after.queue.jobs.find? inv.job.id).map Job.state
      ≠ (e.before.queue.jobs.find? inv.job.id).map Job.state)

theorem not_final_of_retried (h : retried es = true) :
    ∃ pre e post id e', es = pre ++ e :: post ∧ fails e.before e.input = some id
      ∧ e' ∈ post ∧ executes e'.before e'.input = some id := by
  induction es with
  | nil => cases h
  | cons e es ih =>
    rcases Bool.or_eq_true_iff.mp h with h | h
    · cases hfails : fails e.before e.input with
      | none =>
        rw [hfails] at h
        cases h
      | some id =>
        rw [hfails] at h
        obtain ⟨e', he', hexec⟩ := List.any_eq_true.mp h
        exact ⟨[], e, es, id, e', rfl, hfails, he', of_decide_eq_true hexec⟩
    · obtain ⟨pre, x, post, id, e', rfl, hrest⟩ := ih h
      exact ⟨e :: pre, x, post, id, e', rfl, hrest⟩

theorem not_lawful (h : (retried es || es.any overwritten) = true) : ¬ Lawful es := by
  intro hlaw
  rcases Bool.or_eq_true_iff.mp h with h | h
  · obtain ⟨pre, e, post, id, e', hcut, hfails, he', hexec⟩ := not_final_of_retried h
    exact hlaw.final pre e post hcut id hfails e' he' hexec
  · obtain ⟨e, he, hover⟩ := List.any_eq_true.mp h
    unfold overwritten at hover
    cases hcalls : calls e.before e.input with
    | none =>
      rw [hcalls] at hover
      cases hover
    | some inv =>
      rw [hcalls] at hover
      obtain ⟨hstale, hne⟩ := Bool.and_eq_true_iff.mp hover
      exact of_decide_eq_true hne (by rw [hlaw.fenced e he inv hcalls hstale])

theorem fail_retried : ¬ Lawful (worldTrace machine Floats.sample unstored)
      ∧ ¬ Lawful (worldTrace machine Floats.sample overdue)
      ∧ ¬ Lawful (worldTrace machine Floats.sample shared) :=
  ⟨not_lawful (by decide +kernel), not_lawful (by decide +kernel), not_lawful (by decide +kernel)⟩

end Centinal26.Supervisor
