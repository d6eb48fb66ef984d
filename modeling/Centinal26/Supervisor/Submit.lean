/-
`submit` by several callers.
-/
import Centinal26.Lib.Interleave
import Centinal26.Supervisor.LifeCycle

namespace Centinal26.Supervisor

open Py Steps

variable {τ : Type}

-- == callers

abbrev QProg (τ α : Type) := Prog (Op τ) PyErr (Queue τ) α

inductive Call (τ : Type) : Type
  | submit (s : Submission) (now : τ)
  | recover (now : τ)
  | claim (worker : PyStr) (lease now : τ)
  | heartbeat (jobId worker : PyStr) (lease now : τ)
  | finish (jobId worker : PyStr) (result : SupervisorResult) (now : τ)

section Programs

variable (H : Host) (F : Floats τ)

def opStep (op : Op τ) : QProg τ (Reply τ) := Prog.block op (perform H F op)

/-- `submit`, once it has looked for its key. -/
def submitFound (b : Bound) (now : τ) : Reply τ → QProg τ (Reply τ)
  | .found (some id) => pure (.inserted id)
  | _ => opStep H F (.insert b now)

/-- `submit`: an empty key is not looked for. -/
def submit (s : Submission) (now : τ) : QProg τ (Reply τ) := do
  let b ← Prog.ofExcept s.bound
  match b.key with
  | none => opStep H F (.insert b now)
  | some key =>
    if key.str = [] then opStep H F (.insert b now)
    else do
      let existing ← opStep H F (.find key)
      submitFound H F b now existing

def start : Call τ → QProg τ (Reply τ)
  | .submit s now => submit H F s now
  | .recover now => opStep H F (.recover now)
  | .claim worker lease now => opStep H F (.claim worker lease now)
  | .heartbeat jobId worker lease now => opStep H F (.heartbeat jobId worker lease now)
  | .finish jobId worker result now => opStep H F (.finish jobId worker result now)

end Programs

-- == orders

/-- `json.dumps(.., separators=(",", ":"))`: what the column holds. -/
def columnText (d : Json) : PyStr := d.text ⟨true, py ",", py ":"⟩

/-- What a job is about. -/
structure Order where
  operation : Text
  input : PyStr
  key : Option Text
deriving DecidableEq

def Job.order (job : Job τ) : Order :=
  ⟨job.operation, columnText job.input, job.idempotencyKey⟩

/-- What the job of an identifier is about. -/
def Queue.order? (q : Queue τ) (id : Text) : Option Order :=
  (q.jobs.find? id).map Job.order

/-- The job a submission with a key asks for. -/
def Submission.order (s : Submission) : Option Order :=
  match s.bound with
  | .error _ => none
  | .ok b =>
    match b.key, encode b.operation with
    | some key, .ok operation =>
      if key.str = [] then none else some ⟨operation, columnText b.input, some key⟩
    | _, _ => none

def Call.order : Call τ → Option Order
  | .submit s _ => s.order
  | _ => none

-- == pools

/-- A call under way: the steps it has taken, and the queue after the last. -/
structure Seen (τ : Type) where
  call : Call τ
  steps : Nat
  queue : Option (Queue τ)

abbrev Procs (τ : Type) := Pool (Op τ) PyErr (Queue τ) (Reply τ) (Seen τ)

abbrev PoolStep (τ : Type) :=
  Machine.Entry (Sched (Call τ)) (Event (Op τ) PyErr (Reply τ) (Seen τ)) (Procs τ)

def track (g : Seen τ) (_ : Op τ) (_ q : Queue τ) : Seen τ := ⟨g.call, g.steps + 1, some q⟩

section Runs

variable (H : Host) (F : Floats τ)

def step : Sched (Call τ) → Procs τ → Event (Op τ) PyErr (Reply τ) (Seen τ) × Procs τ :=
  Pool.step (fun _ c => start H F c) (fun _ c _ => ⟨c, 0, none⟩) track fun _ q => q

/-- The callers after a schedule, on a new queue. -/
def poolOf (sched : List (Sched (Call τ))) : Procs τ :=
  Machine.exec (step H F) sched (Pool.idle .empty)

def poolTrace (sched : List (Sched (Call τ))) : List (PoolStep τ) :=
  Machine.trace (step H F) sched (Pool.idle .empty)

end Runs

/-- The entry hands back the outcome of a submission. -/
def answered (e : PoolStep τ) : Option (Submission × Except PyErr (Reply τ)) :=
  match e.output with
  | .returned i r =>
    match e.before.threads i with
    | some ⟨⟨.submit s _, _, _⟩, _⟩ => some (s, r)
    | _ => none
  | _ => none

/-- What is expected of a run: a submission with a key takes two steps at most, and
does not raise; it returns the job it asks for; submissions of one key return one
job; and a key has one job. -/
structure Idempotent (H : Host) (F : Floats τ) (sched : List (Sched (Call τ))) : Prop where
  ends : ∀ e ∈ poolTrace H F sched, ∀ i op g, e.output = .stepped i op g → g.steps < 2
  stored : ∀ e ∈ poolTrace H F sched, ∀ s r o, answered e = some (s, r) → s.order = some o →
    ∃ id, r = .ok (.inserted id) ∧ (poolOf H F sched).shared.order? id = some o
  same : ∀ e ∈ poolTrace H F sched, ∀ e' ∈ poolTrace H F sched, ∀ s r s' r' o o',
    answered e = some (s, r) → answered e' = some (s', r') → s.order = some o →
    s'.order = some o' → o.key = o'.key → r = r'
  unique : ∀ id id' o o' key, (poolOf H F sched).shared.order? id = some o →
    (poolOf H F sched).shared.order? id' = some o' → o.key = some key →
    o'.key = some key → id = id'

-- == condition

/-- The step looks for the key and finds none or the job the submission asks for; or it inserts a
job whose numbers fit, and there is none of the key. -/
def undisturbed (o : Order) (op : Op τ) (q : Queue τ) : Bool :=
  match op with
  | .find key => (q.keyed? key).all fun job => decide (job.order = o)
  | .insert b _ => b.fits && (b.key.bind q.keyed?).isNone
  | _ => true

/-- No submission with a key is disturbed. -/
def calm (e : PoolStep τ) : Bool :=
  match e.output with
  | .stepped _ op g => g.call.order.all fun o => undisturbed o op e.before.shared
  | _ => true

-- == orders

variable {H : Host} {F : Floats τ}

theorem order?_update (q : Queue τ) (id : Text) (f : Job τ → Job τ)
    (hid : ∀ job, (f job).id = job.id) (horder : ∀ job, (f job).order = job.order)
    (j : Text) : (q.update id f hid).order? j = q.order? j := by
  unfold Queue.order?
  rw [Queue.find?_update]
  split
  · next h =>
    subst h
    rw [Option.map_map]
    exact Option.map_congr fun job _ => horder job
  · rfl

theorem Job.claimedBy_order (worker : Text) (expires : Option τ) (now : τ) (job : Job τ) :
    (job.claimedBy worker expires now).order = job.order := by
  unfold claimedBy
  split <;> rfl

variable {q q' : Queue τ} {o : Order} {g : Seen τ} {s : Submission} {b : Bound}

theorem keyed?_some {key : Text} {job : Job τ} (h : q.keyed? key = some job) :
    q.order? job.id = some job.order ∧ job.idempotencyKey = some key := by
  have hkey := List.find?_some h
  refine ⟨?_, of_decide_eq_true hkey⟩
  unfold Queue.order?
  rw [Table.find?_of_mem (List.mem_of_find?_eq_some h)]
  rfl

theorem keyed?_none {key id : Text} (h : q.keyed? key = none)
    (ho : q.order? id = some o) : o.key ≠ some key := by
  obtain ⟨job, hjob, rfl⟩ := Option.map_eq_some_iff.mp ho
  intro hkey
  exact List.find?_eq_none.mp h job (Table.mem_of_find? hjob) (decide_eq_true hkey)

/-- What an operation does to the orders: only an insert adds one, of a key that is
free, under a new identifier. -/
inductive Ordered (H : Host) (q : Queue τ) (q' : Queue τ) : Prop
  | kept (horders : ∀ id, q'.order? id = q.order? id) (hdraws : q.draws ≤ q'.draws)
  | added (o : Order) (hfree : ∀ key, o.key = some key → q.keyed? key = none)
      (hnew : q.order? (H.uuid4 q.draws) = none) (hdraws : q'.draws = q.draws + 1)
      (horders : ∀ id, q'.order? id = if id = H.uuid4 q.draws then some o else q.order? id)

theorem insertJob_ordered (b : Bound) (now : τ) (q : Queue τ) :
    Ordered H q (insertJob H b now q).2 := by
  have hspec := insertJob_spec (H := H) b now q
  generalize insertJob H b now q = out at hspec ⊢
  cases hspec with
  | refused e => exact .kept (fun _ => rfl) (Nat.le_succ _)
  | @stored operation jobs hop hfree hjobs =>
    refine .added ⟨operation, columnText b.input, b.key⟩ hfree ?_ rfl fun id => ?_
    · unfold Queue.order?
      rw [show q.jobs.find? (H.uuid4 q.draws) = none from Table.find?_of_insert hjobs]
      rfl
    · show (jobs.find? id).map Job.order = _
      rw [Table.find?_insert hjobs, apply_ite (Option.map Job.order)]
      rfl

theorem recoverExpired_ordered (now : τ) (q : Queue τ) :
    Ordered H q (recoverExpired F now q).2 := by
  have hdraws : ∀ (rows : List (Job τ)) (q : Queue τ),
      (rows.foldl (recoverJob now) q).draws = q.draws := by
    intro rows
    induction rows with
    | nil => exact fun _ => rfl
    | cons job rows ih => exact fun q => ih _
  refine .kept (fun id => ?_) (hdraws _ q).ge
  unfold Queue.order?
  rw [(recoverExpired_spec now q id).1]
  cases q.jobs.find? id with
  | none => rfl
  | some job =>
    cases hexp : job.isExpired F now with
    | true => rw [Option.filter_some_pos (by exact hexp)]; rfl
    | false => rw [Option.filter_some_neg (by simp [hexp])]; rfl

theorem perform_ordered (op : Op τ) (q : Queue τ) : Ordered H q (perform H F op q).2 := by
  cases op with
  | find key => exact .kept (fun _ => rfl) (le_refl _)
  | insert b now => exact insertJob_ordered b now q
  | recover now => exact recoverExpired_ordered now q
  | claim worker lease now =>
    have hspec := claim_spec (F := F) worker lease now q
    show Ordered H q (claim F worker lease now q).2
    generalize claim F worker lease now q = out at hspec ⊢
    cases hspec with
    | nothing hr => exact .kept (fun _ => rfl) (le_refl _)
    | @granted job owner _ _ _ =>
      exact .kept (order?_update q job.id _ (Job.claimedBy_id owner _ now)
        (Job.claimedBy_order owner _ now)) (le_refl _)
  | heartbeat jobId worker lease now =>
    have hspec := heartbeat_spec (F := F) jobId worker lease now q
    show Ordered H q (heartbeat F jobId worker lease now q).2
    generalize heartbeat F jobId worker lease now q = out at hspec ⊢
    cases hspec with
    | refused e => exact .kept (fun _ => rfl) (le_refl _)
    | extended _ _ _ =>
      exact .kept (order?_update q _ _ (Job.beaten_id _ now) fun _ => rfl) (le_refl _)
  | finish jobId worker result now =>
    have hspec := finish_spec jobId worker result now q
    show Ordered H q (finish jobId worker result now q).2
    generalize finish jobId worker result now q = out at hspec ⊢
    cases hspec with
    | refused e => exact .kept (fun _ => rfl) (le_refl _)
    | stored _ _ _ _ =>
      exact .kept (order?_update q _ _ (Job.finished_id _ _ now) fun _ => rfl) (le_refl _)

-- == invariants

/-- The identifiers of the jobs have been drawn. -/
def Fresh (H : Host) (q : Queue τ) : Prop :=
  ∀ id o, q.order? id = some o → ∃ n, n < q.draws ∧ id = H.uuid4 n

def UniqueKeys (q : Queue τ) : Prop :=
  ∀ id id' o o' key, q.order? id = some o → q.order? id' = some o' → o.key = some key →
    o'.key = some key → id = id'

def Grown (q q' : Queue τ) : Prop := ∀ id o, q.order? id = some o → q'.order? id = some o

theorem Fresh.next (h : Fresh H q) : q.order? (H.uuid4 q.draws) = none := by
  cases ho : q.order? (H.uuid4 q.draws) with
  | none => rfl
  | some o =>
    obtain ⟨n, hn, hid⟩ := h _ o ho
    rw [H.uuid4_injective hid] at hn
    omega

theorem Ordered.grown (h : Ordered H q q') : Grown q q' := by
  intro id o ho
  cases h with
  | kept horders _ => rw [horders, ho]
  | added o' _ hnew _ horders =>
    rw [horders]
    split
    · next hid =>
      rw [hid, hnew] at ho
      cases ho
    · exact ho

theorem Ordered.fresh (h : Ordered H q q') (hq : Fresh H q) : Fresh H q' := by
  intro id o ho
  cases h with
  | kept horders hdraws =>
    rw [horders] at ho
    obtain ⟨n, hn, rfl⟩ := hq id o ho
    exact ⟨n, by omega, rfl⟩
  | added o' _ _ hdraws horders =>
    rw [horders] at ho
    split at ho
    · next hid => exact ⟨q.draws, by omega, hid⟩
    · obtain ⟨n, hn, rfl⟩ := hq id o ho
      exact ⟨n, by omega, rfl⟩

theorem Ordered.uniqueKeys (h : Ordered H q q') (hq : UniqueKeys q) : UniqueKeys q' := by
  intro id id' o o' key ho ho' hkey hkey'
  cases h with
  | kept horders _ =>
    rw [horders] at ho ho'
    exact hq id id' o o' key ho ho' hkey hkey'
  | added new hfree _ _ horders =>
    rw [horders] at ho ho'
    split at ho
    · next hid =>
      cases ho
      split at ho'
      · next hid' => exact hid.trans hid'.symm
      · exact absurd hkey' (keyed?_none (hfree key hkey) ho')
    · split at ho'
      · cases ho'
        exact absurd hkey (keyed?_none (hfree key hkey') ho)
      · exact hq id id' o o' key ho ho' hkey hkey'

-- == outlines

/-- What a step of a call needs: a new identifier is free, and a submission with a
key is not disturbed. -/
def Calm (H : Host) (g : Seen τ) (op : Op τ) (q : Queue τ) : Prop :=
  Fresh H q ∧ ∀ o, g.call.order = some o → undisturbed o op q = true

/-- The answer of a submission with a key is the job it asks for. -/
def Answers (g : Seen τ) (r : Reply τ) : Prop :=
  ∀ o, g.call.order = some o → ∃ id q, r = .inserted id ∧ g.queue = some q ∧ q.order? id = some o

/-- An outline of what is left of a call. -/
abbrev Outlined (H : Host) (F : Floats τ) (p : QProg τ (Reply τ)) (g : Seen τ) : Prop :=
  p.Sat (Calm H) (fun g op q q' => g.steps < 2 ∧ q' = (perform H F op q).2) track Answers
    (fun g _ => g.call.order = none) g

theorem opStep_outlined {op : Op τ} (hsteps : g.steps < 2)
    (hnone : g.call.order = none) : Outlined H F (opStep H F op) g :=
  Prog.Sat.of_block fun q _ => by
    refine ⟨⟨hsteps, rfl⟩, ?_⟩
    cases (perform H F op q).1 with
    | ok r =>
      intro o ho
      rw [show g.call.order = some o from ho] at hnone
      cases hnone
    | error e => exact hnone

theorem order_of_bound (hb : s.bound = .ok b) (ho : s.order = some o) :
    ∃ key operation, b.key = some key ∧ key.str ≠ [] ∧ encode b.operation = .ok operation
      ∧ o = ⟨operation, columnText b.input, some key⟩ := by
  unfold Submission.order at ho
  simp only [hb] at ho
  split at ho
  · next key operation hkey hop =>
    split at ho
    · cases ho
    · next hne =>
      cases ho
      exact ⟨key, operation, hkey, hne, hop, rfl⟩
  · cases ho

theorem key_of_order (ho : s.order = some o) : ∃ key, o.key = some key := by
  cases hb : s.bound with
  | error e =>
    unfold Submission.order at ho
    rw [hb] at ho
    cases ho
  | ok b =>
    obtain ⟨key, operation, -, -, -, rfl⟩ := order_of_bound hb ho
    exact ⟨key, rfl⟩

theorem insertJob_undisturbed (hb : s.bound = .ok b)
    (ho : s.order = some o) {now : τ} (hfresh : Fresh H q)
    (hcalm : undisturbed o (.insert b now) q = true) : ∃ id, (insertJob H b now q).1 = .ok id
      ∧ (insertJob H b now q).2.order? id = some o := by
  obtain ⟨key, operation, hkey, -, hop, rfl⟩ := order_of_bound hb ho
  obtain ⟨hfits, hnone⟩ := Bool.and_eq_true_iff.mp hcalm
  have hfree : q.keyed? key = none := by
    rw [hkey] at hnone
    simpa using hnone
  have hnew := hfresh.next
  unfold insertJob
  rw [hop]
  simp only [hfits, hkey, Option.any_some, hfree, Option.isSome_none, Bool.not_true,
    Bool.false_eq_true, if_false]
  cases hins : q.jobs.insert? (b.job (H.uuid4 q.draws) operation now) with
  | none =>
    obtain ⟨job, hjob⟩ := Table.exists_of_insert_none hins
    unfold Queue.order? at hnew
    rw [show q.jobs.find? (H.uuid4 q.draws) = some job from hjob] at hnew
    cases hnew
  | some jobs =>
    refine ⟨_, rfl, ?_⟩
    show (jobs.find? (b.job (H.uuid4 q.draws) operation now).id).map Job.order = _
    rw [Table.find?_insert hins, if_pos rfl, ← hkey]
    rfl

theorem insertStep_outlined (hb : s.bound = .ok b)
    {now : τ} (hg : g.call.order = s.order) (hsteps : g.steps < 2) :
    Outlined H F (opStep H F (.insert b now)) g := by
  cases ho : s.order with
  | none => exact opStep_outlined hsteps (hg.trans ho)
  | some o =>
    refine Prog.Sat.of_block fun q hcalm => ⟨⟨hsteps, rfl⟩, ?_⟩
    obtain ⟨id, hid, horder⟩ :=
      insertJob_undisturbed hb ho hcalm.1 (hcalm.2 o (hg.trans ho))
    have hout : (perform H F (.insert b now) q).1 = .ok (.inserted id) := by
      show (insertJob H b now q).1.map Reply.inserted = _
      rw [hid]
      rfl
    rw [hout]
    intro o' ho'
    rw [show g.call.order = some o' from ho'] at hg
    rw [← hg] at ho
    cases ho
    exact ⟨id, _, rfl, rfl, horder⟩

theorem outlined_raise {e : PyErr} (h : g.call.order = none) : Outlined H F (Prog.raise e) g := h

theorem submit_outlined (s : Submission) (now : τ) :
    Outlined H F (submit H F s now) ⟨.submit s now, 0, none⟩ := by
  unfold submit
  cases hb : s.bound with
  | error e =>
    refine outlined_raise ?_
    show s.order = none
    unfold Submission.order
    rw [hb]
  | ok b =>
    show Outlined H F (match b.key with
      | none => _
      | some key => _) _
    split
    · exact insertStep_outlined hb rfl Nat.zero_lt_two
    · next key hkey =>
      split
      · exact insertStep_outlined hb rfl Nat.zero_lt_two
      · next hne =>
        intro q hcalm
        refine ⟨⟨Nat.zero_lt_two, rfl⟩, ?_⟩
        show Outlined H F (submitFound H F b now (.found ((q.keyed? key).map Job.id)))
          ⟨.submit s now, 1, some q⟩
        cases hfound : q.keyed? key with
        | none => exact insertStep_outlined hb rfl (Nat.lt_succ_self 1)
        | some job =>
          intro o ho
          obtain ⟨horder, -⟩ := keyed?_some hfound
          have hsame : (q.keyed? key).all (fun job => decide (job.order = o)) = true :=
            hcalm.2 o ho
          rw [hfound] at hsame
          have : job.order = o := of_decide_eq_true hsame
          exact ⟨job.id, q, rfl, rfl, by rw [horder, this]⟩

theorem start_outlined (c : Call τ) : Outlined H F (start H F c) ⟨c, 0, none⟩ := by
  cases c with
  | submit s now => exact submit_outlined s now
  | recover now => exact opStep_outlined Nat.zero_lt_two rfl
  | claim worker lease now => exact opStep_outlined Nat.zero_lt_two rfl
  | heartbeat jobId worker lease now => exact opStep_outlined Nat.zero_lt_two rfl
  | finish jobId worker result now => exact opStep_outlined Nat.zero_lt_two rfl

-- == runs

/-- What a call has seen of the queue is still there. -/
def Current (g : Seen τ) (q : Queue τ) : Prop := ∀ seen, g.queue = some seen → Grown seen q

/-- What holds of a run whose steps are calm. -/
structure RunOk (H : Host) (F : Floats τ) (past : List (PoolStep τ)) (p : Procs τ) : Prop where
  outlined : Pool.AllSat track (Calm H)
    (fun g op q q' => g.steps < 2 ∧ q' = (perform H F op q).2) Answers
    (fun g _ => g.call.order = none) p
  current : Pool.AllGhosts Current p
  fresh : Fresh H p.shared
  unique : UniqueKeys p.shared
  ends : ∀ e ∈ past, ∀ i op g, e.output = .stepped i op g → g.steps < 2
  stored : ∀ e ∈ past, ∀ s r o, answered e = some (s, r) → s.order = some o →
    ∃ id, r = .ok (.inserted id) ∧ p.shared.order? id = some o

theorem answered_eq {e : PoolStep τ} {r : Except PyErr (Reply τ)} (h : answered e = some (s, r)) :
    ∃ i t now, e.output = .returned i r ∧ e.before.threads i = some t
      ∧ t.ghost.call = .submit s now := by
  unfold answered at h
  split at h
  · next i r' hr =>
    split at h
    · next s' now steps queue prog ht =>
      cases h
      exact ⟨i, _, now, hr, ht, rfl⟩
    · cases h
  · cases h

theorem runOk_step {past : List (PoolStep τ)} {e : PoolStep τ}
    (hv : e.Valid (step H F)) (hcalm : calm e = true) (h : RunOk H F past e.before) :
    RunOk H F (past ++ [e]) e.after := by
  have hmeets : Pool.Meets (Calm H) e := by
    intro i op g ho
    refine ⟨h.fresh, fun o horder => ?_⟩
    unfold calm at hcalm
    rw [ho] at hcalm
    simpa [horder] using hcalm
  have hsteps : ∀ i op g, e.output = .stepped i op g →
      g.steps < 2 ∧ e.after.shared = (perform H F op e.before.shared).2 :=
    fun i op g ho => Pool.step_guarantee _ _ _ _ hv hmeets h.outlined ho
  have hordered : e.after.shared = e.before.shared ∨ Ordered H e.before.shared e.after.shared := by
    by_cases ho : ∃ i op g, e.output = .stepped i op g
    · obtain ⟨i, op, g, ho⟩ := ho
      rw [(hsteps i op g ho).2]
      exact Or.inr (perform_ordered op _)
    · have hquiet : ∀ i op g, e.output ≠ .stepped i op g :=
        fun i op g heq => ho ⟨i, op, g, heq⟩
      rcases Pool.shared_of_quiet _ _ _ _ hv hquiet with hs | ⟨i, hs⟩
      · exact Or.inl hs
      · exact Or.inl hs
  have hgrown : Grown e.before.shared e.after.shared := by
    rcases hordered with hs | hs
    · rw [hs]
      exact fun _ _ ho => ho
    · exact hs.grown
  exact
    { outlined := Pool.sat_step _ _ _ _ (fun _ c _ => start_outlined c) hv hmeets h.outlined
      current := by
        refine Pool.ghosts_step _ _ _ _ hv (fun _ _ _ => nofun) (fun i op g ho _ => ?_)
          (fun g hg seen hseen id o ho => hgrown id o (hg seen hseen id o ho)) h.current
        intro seen hseen
        cases hseen
        exact fun _ _ ho => ho
      fresh := by
        rcases hordered with hs | hs
        · rw [hs]
          exact h.fresh
        · exact hs.fresh h.fresh
      unique := by
        rcases hordered with hs | hs
        · rw [hs]
          exact h.unique
        · exact hs.uniqueKeys h.unique
      ends := by
        intro e' he' i op g ho
        rcases List.mem_append.mp he' with he' | he'
        · exact h.ends e' he' i op g ho
        · obtain rfl := List.mem_singleton.mp he'
          exact (hsteps i op g ho).1
      stored := by
        intro e' he' s r o hans horder
        rcases List.mem_append.mp he' with he' | he'
        · obtain ⟨id, hr, hid⟩ := h.stored e' he' s r o hans horder
          exact ⟨id, hr, hgrown id o hid⟩
        · obtain rfl := List.mem_singleton.mp he'
          obtain ⟨i, t, now, ho, ht, hcall⟩ := answered_eq hans
          obtain ⟨t', ht', hout⟩ :=
            Pool.outcome_of_returned _ _ _ _ hv h.outlined ho
          rw [ht] at ht'
          cases ht'
          have hcallOrder : t.ghost.call.order = some o := by
            rw [hcall]
            exact horder
          cases r with
          | error x =>
            rw [show t.ghost.call.order = none from hout] at hcallOrder
            cases hcallOrder
          | ok reply =>
            obtain ⟨id, q, rfl, hq, hid⟩ := hout o hcallOrder
            exact ⟨id, rfl, hgrown id o (h.current i t ht q hq id o hid)⟩ }

/-- In every run whose steps are calm, submissions are idempotent. -/
theorem submit_idempotent (H : Host) (F : Floats τ) (sched : List (Sched (Call τ)))
    (hcalm : ∀ e ∈ poolTrace H F sched, calm e = true) : Idempotent H F sched := by
  have hrun := Machine.history_invariant (step H F) (C := fun e => calm e = true)
    (I := RunOk H F) (Pool.idle .empty) ?_ (fun past e hv hc h => runOk_step hv hc h)
    sched hcalm
  · refine ⟨hrun.ends, hrun.stored, ?_, hrun.unique⟩
    intro e he e' he' s r s' r' o o' hans hans' ho ho' hkey
    obtain ⟨id, rfl, hid⟩ := hrun.stored e he s r o hans ho
    obtain ⟨id', rfl, hid'⟩ := hrun.stored e' he' s' r' o' hans' ho'
    obtain ⟨key, hk⟩ := key_of_order ho
    rw [hrun.unique id id' o o' key hid hid' hk (hkey ▸ hk)]
  · exact
      { outlined := Pool.allSat_idle _ _
        current := Pool.allGhosts_idle _
        fresh := fun _ _ ho => by cases ho
        unique := fun _ _ _ _ _ ho => by cases ho
        ends := fun _ he => by cases he
        stored := fun _ he => by cases he }

-- == try-outs

def nightly (operation : String) : Submission :=
  ⟨py operation, .dict [], some (py "nightly"), 0, 3⟩

/-- The second submission starts when the first has returned. -/
def inTurn : List (Sched (Call Int)) :=
  .spawn 0 (.submit (nightly "audit") 0) :: List.replicate 3 (.advance 0)
    ++ .spawn 1 (.submit (nightly "audit") 1) :: List.replicate 2 (.advance 1)

theorem inTurn_idempotent : Idempotent machine Floats.sample inTurn :=
  submit_idempotent machine Floats.sample inTurn (List.all_eq_true.mp (by decide +kernel))

/-- Both submissions look for the key before either inserts its job. -/
def race : List (Sched (Call Int)) :=
  [.spawn 0 (.submit (nightly "audit") 0), .spawn 1 (.submit (nightly "audit") 0), .advance 0,
    .advance 1, .advance 0, .advance 1, .advance 1]

/-- The second submission is about something else. -/
def mismatch : List (Sched (Call Int)) :=
  .spawn 0 (.submit (nightly "audit") 0) :: List.replicate 3 (.advance 0)
    ++ .spawn 1 (.submit (nightly "sweep") 1) :: List.replicate 2 (.advance 1)

/-- The entry hands back an outcome that is not the job asked for. -/
def disappoints (q : Queue Int) (e : PoolStep Int) : Bool :=
  match answered e with
  | some (s, .ok (.inserted id)) => s.order.any fun o => decide (q.order? id ≠ some o)
  | some (s, _) => s.order.isSome
  | none => false

theorem not_idempotent {sched : List (Sched (Call Int))}
    (h : (poolTrace machine Floats.sample sched).any
      (disappoints (poolOf machine Floats.sample sched).shared) = true) :
    ¬ Idempotent machine Floats.sample sched := by
  intro hidem
  obtain ⟨e, he, hbad⟩ := List.any_eq_true.mp h
  unfold disappoints at hbad
  split at hbad
  · next s id hans =>
    cases ho : s.order with
    | none =>
      rw [ho] at hbad
      cases hbad
    | some o =>
      rw [ho] at hbad
      obtain ⟨id', hid', horder⟩ := hidem.stored e he s _ o hans ho
      cases hid'
      exact of_decide_eq_true hbad horder
  · next s r hnot hans =>
    obtain ⟨o, ho⟩ := Option.isSome_iff_exists.mp hbad
    obtain ⟨id, rfl, -⟩ := hidem.stored e he s r o hans ho
    exact hnot id rfl
  · cases hbad

theorem submit_disturbed :
    ¬ Idempotent machine Floats.sample race ∧ ¬ Idempotent machine Floats.sample mismatch :=
  ⟨not_idempotent (by decide +kernel), not_idempotent (by decide +kernel)⟩

end Centinal26.Supervisor
