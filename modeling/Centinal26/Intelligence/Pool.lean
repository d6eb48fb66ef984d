/-
Controllers on one database, step by step.
-/
import Centinal26.Intelligence.Work
import Centinal26.Lib.Interleave

namespace Centinal26.Intelligence

open Py Steps

-- == transactions

/-- The transactions of the controllers. -/
inductive Write : Type
  | store (c : Change) (policy : CadencePolicy)
  | schedule (s : Schedule)
  | claim (key claimer : PyStr) (lease : Int) (now : Instant)
  | complete (key : PyStr) (result : PyVal) (now : Instant)

/-- What a transaction comes to. -/
inductive Answer : Type
  | stored
  | scheduled (keys : List Text)
  | claimed (key : Option Text)
  | completed

def Write.tx : Write → Update Answer
  | .store c policy => fun db => do .ok (.stored, ← storeChange c policy db)
  | .schedule s => fun db => do
    let out ← ensureScheduledWork s db
    .ok (.scheduled out.1, out.2)
  | .claim key claimer lease now => fun db => do
    let out ← claimWork key claimer lease now db
    .ok (.claimed out.1, out.2)
  | .complete key result now => fun db => do
    let out ← completeWork key result now db
    .ok (.completed, out.2)

-- == programs

/-- The steps of the programs. -/
inductive Access : Type
  | snapshot
  | policy
  | latest
  | item
  | write (w : Write)

abbrev IProg (α : Type) := Prog Access PyErr Db α

def readStep {α : Type} (l : Access) (f : Db → Except PyErr α) : IProg α :=
  Prog.block l fun db => (f db, db)

def writeStep (w : Write) : IProg Answer := Prog.block (.write w) w.tx.commit

/-- What an operation returns. -/
inductive Reply : Type
  | change (c : Option Change)
  | answer (a : Answer)
  | item (i : Option WorkItem)

/-- `observe`; nothing writes the policies, so reading them is one step. -/
def observeSteps (H : Host) (a : Observation) (now : Instant) : IProg Reply :=
  match Severity.ofName? a.severity with
  | none => .raise (.valueError "invalid severity")
  | some severity => do
    Prog.ofExcept (isoTime now)
    let currentHash ← Prog.ofExcept (sha256Json H a.evidence)
    let sourceKind ← Prog.ofExcept (encode a.sourceKind)
    let sourceKey ← Prog.ofExcept (encode a.sourceKey)
    let previousHash ← readStep .snapshot fun db =>
      .ok (db.previousHash (a.sourceKind, a.sourceKey))
    if currentHash = previousHash then .ret (.change none)
    else do
      let policy ← readStep .policy fun db => policyFor db a
      let dedupeKey ← Prog.ofExcept (encode (dedupeKey a currentHash))
      let changeType ← Prog.ofExcept (encode a.changeType)
      let prevEventHash ← readStep .latest fun db => .ok db.lastHash
      let body : ChangeBody := ⟨eventKey H dedupeKey, H.isoformat now, sourceKind, sourceKey,
        changeType, severity, policy.dispatchClass, dedupeKey, previousHash, currentHash,
        a.evidence, a.contradictionDict, prevEventHash⟩
      let digest ← Prog.ofExcept (sha256Json H body.val)
      let _ ← writeStep (.store ⟨body, digest, now⟩ policy)
      .ret (.change (some ⟨body, digest, now⟩))

/-- `claim_work`: the item is read once more. -/
def claimSteps (key claimer : PyStr) (lease : Int) (now : Instant) : IProg Reply := do
  match ← writeStep (.claim key claimer lease now) with
  | .claimed (some key) =>
    let item ← readStep .item fun db => .ok (db.workItems.find? key)
    .ret (.item item)
  | _ => .ret (.item none)

/-- The operations. -/
inductive Op : Type
  | observe (a : Observation) (now : Instant)
  | schedule (s : Schedule)
  | claim (key claimer : PyStr) (lease : Int) (now : Instant)
  | complete (key : PyStr) (result : PyVal) (now : Instant)

def Op.steps (H : Host) : Op → IProg Reply
  | .observe a now => observeSteps H a now
  | .schedule s => do .ret (.answer (← writeStep (.schedule s)))
  | .claim key claimer lease now => claimSteps key claimer lease now
  | .complete key result now => do .ret (.answer (← writeStep (.complete key result now)))

-- == pool

abbrev Procs := Pool Access PyErr Db Reply Unit

abbrev Step := Machine.Entry (Sched Op) (Event Access PyErr Reply Unit) Procs

/-- One scheduled event; a crash keeps what was committed. -/
def step (H : Host) : Sched Op → Procs → Event Access PyErr Reply Unit × Procs :=
  Pool.step (fun _ op => op.steps H) (fun _ _ _ => ()) (fun _ _ _ _ => ()) fun _ db => db

def poolOf (H : Host) (sched : List (Sched Op)) : Procs :=
  Machine.exec (step H) sched (Pool.idle .seeded)

def poolTrace (H : Host) (sched : List (Sched Op)) : List Step :=
  Machine.trace (step H) sched (Pool.idle .seeded)

-- == outlines

/-- A change that is stored is one `observe` has made up: its hash is that of its
body, and its time has a text. -/
structure Change.Made (H : Host) (c : Change) : Prop where
  hash : sha256Json H c.body.val = .ok c.eventHash
  timed : isoTime c.detected = .ok ()

def Write.Made (H : Host) : Write → Prop
  | .store c _ => c.Made H
  | _ => True

def Access.Does (H : Host) (db db' : Db) : Access → Prop
  | .write w => w.Made H ∧ db' = (w.tx.commit db).2
  | _ => db' = db

abbrev Outlined (H : Host) {α : Type} (p : IProg α) : Prop :=
  p.Sat (fun _ _ _ => True) (fun (_ : Unit) l db db' => l.Does H db db')
    (fun _ _ _ _ => ()) (fun _ _ => True) (fun _ _ => True) ()

variable {H : Host}

-- == one controller alone

theorem readStep_run {α : Type} (l : Access) (f : Db → Except PyErr α) (db : Db) :
    (readStep l f).run db = (f db, db) := Prog.run_block ..

theorem writeStep_store (c : Change) (policy : CadencePolicy) (db : Db) :
    (writeStep (.store c policy)).run db = match storeChange c policy db with
      | .ok db' => (.ok .stored, db')
      | .error e => (.error e, db) := by
  refine (Prog.run_block ..).trans ?_
  unfold Tx.commit Write.tx
  cases h : storeChange c policy db <;> simp only [h] <;> rfl

/-- Run in one go, the steps of `observe` come to what `observe` does. -/
theorem observeSteps_run (a : Observation) {now : Instant} (w : World) (hnow : a.now = some now)
    (htime : isoTime now = .ok ()) : (observeSteps H a now).run w.db
      = ((observe H a w).1.map .change, (observe H a w).2.db) := by
  have ht : w.time H a.now = now := by rw [hnow]; rfl
  have hdb := (World.timed_db a.now w).symm
  unfold observeSteps observe
  cases Severity.ofName? a.severity with
  | none => rfl
  | some severity =>
    dsimp only
    rw [ht, htime]
    unfold detect
    simp only [Prog.run_bind, Prog.run_ofExcept, readStep_run]
    cases sha256Json H a.evidence with
    | error e => exact Prod.ext rfl hdb
    | ok currentHash =>
    cases encode a.sourceKind with
    | error e => exact Prod.ext rfl hdb
    | ok sourceKind =>
    cases encode a.sourceKey with
    | error e => exact Prod.ext rfl hdb
    | ok sourceKey =>
    simp only [bind_ok_eq]
    by_cases hsame : currentHash = w.db.previousHash (a.sourceKind, a.sourceKey)
    · simp only [if_pos hsame]
      exact Prod.ext rfl hdb
    simp only [if_neg hsame, Prog.run_bind, Prog.run_ofExcept, readStep_run,
      writeStep_store]
    cases policyFor w.db a with
    | error e => exact Prod.ext rfl hdb
    | ok policy =>
    cases encode (dedupeKey a currentHash) with
    | error e => exact Prod.ext rfl hdb
    | ok key =>
    cases encode a.changeType with
    | error e => exact Prod.ext rfl hdb
    | ok changeType =>
    simp only [bind_ok_eq]
    generalize sha256Json H (ChangeBody.val _) = digest
    cases digest with
    | error e => exact Prod.ext rfl hdb
    | ok digest =>
    simp only [bind_ok_eq]
    generalize storeChange _ policy w.db = stored
    cases stored with
    | error e => exact Prod.ext rfl hdb
    | ok db => rfl
-- == outlines

variable {α β : Type} {f : α → IProg β}

theorem outlined_ofExcept (r : Except PyErr α) :
    Prog.Sat (fun _ _ _ => True) (fun (_ : Unit) l db db' => Access.Does H db db' l)
      (fun _ _ _ _ => ()) (fun _ a => r = .ok a) (fun _ _ => True) ()
      (Prog.ofExcept r : IProg α) := by
  cases r with
  | ok a => exact rfl
  | error e => exact trivial

theorem readStep_outlined {l : Access} {f : Db → Except PyErr α}
    (hl : ∀ db, l.Does H db db) : Outlined H (readStep l f) :=
  Prog.Sat.of_block fun db _ => by
    refine ⟨hl db, ?_⟩
    cases f db <;> exact trivial

theorem writeStep_outlined {w : Write} (hw : w.Made H) : Outlined H (writeStep w) :=
  Prog.Sat.of_block fun db _ => by
    refine ⟨⟨hw, rfl⟩, ?_⟩
    cases (w.tx.commit db).1 <;> exact trivial

theorem Outlined.bind {p : IProg α} (hp : Outlined H p)
    (hf : ∀ a, Outlined H (f a)) : Outlined H (p >>= f) :=
  Prog.Sat.bind hp fun _ a _ => hf a

theorem Outlined.of_except {r : Except PyErr α}
    (hf : ∀ a, r = .ok a → Outlined H (f a)) : Outlined H (Prog.ofExcept r >>= f) :=
  Prog.Sat.bind (outlined_ofExcept r) fun _ a ha => hf a ha

theorem observeSteps_outlined (a : Observation) (now : Instant) :
    Outlined H (observeSteps H a now) := by
  unfold observeSteps
  split
  · exact trivial
  · refine .of_except fun _ htime => ?_
    refine .of_except fun current _ => ?_
    refine .of_except fun kind _ => ?_
    refine .of_except fun key _ => ?_
    refine .bind (readStep_outlined fun _ => rfl) fun previous => ?_
    split
    · exact trivial
    · refine .bind (readStep_outlined fun _ => rfl) fun policy => ?_
      refine .of_except fun dedupe _ => ?_
      refine .of_except fun type _ => ?_
      refine .bind (readStep_outlined fun _ => rfl) fun last => ?_
      refine .of_except fun digest hdigest => ?_
      exact .bind (writeStep_outlined ⟨hdigest, htime⟩) fun _ => trivial

theorem steps_outlined (op : Op) : Outlined H (op.steps H) := by
  cases op with
  | observe a now => exact observeSteps_outlined a now
  | schedule s => exact .bind (writeStep_outlined trivial) fun _ => trivial
  | claim key claimer lease now =>
    refine .bind (writeStep_outlined trivial) fun answer => ?_
    split
    · exact .bind (readStep_outlined fun _ => rfl) fun _ => trivial
    · exact trivial
  | complete key result now => exact .bind (writeStep_outlined trivial) fun _ => trivial

-- == steps

/-- What an entry does to the database. -/
inductive Moves (H : Host) (e : Step) : Prop
  | wrote {i : Nat} {w : Write} (ho : e.output = .stepped i (.write w) ())
      (hmade : w.Made H) (h : e.after.shared = (w.tx.commit e.before.shared).2)
  | still (ho : ∀ i w g, e.output ≠ .stepped i (.write w) g) (h : e.after.shared = e.before.shared)

abbrev AllOutlined (H : Host) (p : Procs) : Prop :=
  Pool.AllSat (fun _ _ _ _ => ()) (fun _ _ _ => True)
    (fun (_ : Unit) l db db' => Access.Does H db db' l) (fun _ _ => True) (fun _ _ => True) p

theorem moves_step {e : Step} (hv : e.Valid (step H)) (hsat : AllOutlined H e.before) :
    Moves H e ∧ AllOutlined H e.after := by
  have hmeets : Pool.Meets (fun (_ : Unit) (_ : Access) (_ : Db) => True) e :=
    fun _ _ _ _ => trivial
  refine ⟨?_, Pool.sat_step _ _ _ _ (fun _ op _ => steps_outlined op) hv hmeets hsat⟩
  by_cases ho : ∃ i l g, e.output = .stepped i l g
  · obtain ⟨i, l, g, ho⟩ := ho
    have hdoes := Pool.step_guarantee _ _ _ _ hv hmeets hsat ho
    cases l with
    | write w => exact .wrote ho hdoes.1 hdoes.2
    | snapshot | policy | latest | item =>
      exact .still (fun j w g' heq => by rw [ho] at heq; cases heq) hdoes
  · have hquiet : ∀ i l g, e.output ≠ .stepped i l g :=
      fun i l g heq => ho ⟨i, l, g, heq⟩
    refine .still (fun i w g => hquiet i _ g) ?_
    rcases Pool.shared_of_quiet _ _ _ _ hv hquiet with hs | ⟨i, hs⟩
    · exact hs
    · exact hs

/-- The history rule of the pool: an invariant that no transaction breaks holds in
every run whose entries meet `C`. -/
theorem run_invariant {C : Step → Prop} {I : List Step → Db → Prop} {p : Procs}
    (hsat : AllOutlined H p) (hinit : I [] p.shared)
    (hstep : ∀ past e, Moves H e → C e → I past e.before.shared → I (past ++ [e]) e.after.shared)
    (sched : List (Sched Op)) (hC : ∀ e ∈ Machine.trace (step H) sched p, C e) :
    AllOutlined H (Machine.exec (step H) sched p)
      ∧ I (Machine.trace (step H) sched p) (Machine.exec (step H) sched p).shared := by
  refine Machine.history_invariant (step H) (C := C)
    (I := fun past p => AllOutlined H p ∧ I past p.shared) p ⟨hsat, hinit⟩
    (fun past e hv hc hI => ?_) sched hC
  obtain ⟨hmoves, hsat⟩ := moves_step hv hI.1
  exact ⟨hsat, hstep past e hmoves hc hI.2⟩

theorem idle_outlined : AllOutlined H (Pool.idle .seeded) := Pool.allSat_idle _ _

end Centinal26.Intelligence
