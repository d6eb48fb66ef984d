/-
Workers sharing one runtime store.
-/
import Centinal26.Lib.Interleave
import Centinal26.Pipeline.Steps

namespace Centinal26.Pipeline

open Py Centinal26.Core Steps

-- == workers

/-- What a worker does about the job it has claimed. -/
inductive Response : Type
  | finish (state : JobState) (result : PyVal) (evidence : Option EvidencePath)
  | retry (result : PyVal) (evidence : EvidencePath)
  | abandon

inductive Call : Type
  | submit (intent : Intent) (grant : Grant) (key : PyStr) (maxAttempts : Int)
  | recover
  | work (leaseSeconds : Int) (respond : JobRow → Response)

section Programs

variable (H : Host) (me : Nat)

def answer (id : Text) : Response → RProg Unit
  | .finish state result evidence => finish H me id state result evidence
  | .retry result evidence => do
    let _ ← retry H me id result evidence
    pure ()
  | .abandon => pure ()

def work (leaseSeconds : Int) (respond : JobRow → Response) : RProg Unit := do
  let picked ← claim H me leaseSeconds
  match picked with
  | none => pure ()
  | some row => answer H me row.id (respond row)

def start : Call → RProg Unit
  | .submit intent grant key maxAttempts => do
    let _ ← submit H me intent grant key maxAttempts
    pure ()
  | .recover => do
    let _ ← recover H me
    pure ()
  | .work leaseSeconds respond => work H me leaseSeconds respond

end Programs

theorem keeps_start (H : Host) (me : Nat) (call : Call) : Keeps me (start H me call) := by
  cases call with
  | submit intent grant key maxAttempts =>
    exact .bind (keeps_submit _ _ _ _) fun _ => .ret _
  | recover => exact .bind keeps_recover fun _ => .ret _
  | work leaseSeconds respond =>
    refine .bind (keeps_claim _) fun picked => ?_
    cases picked with
    | none => exact .ret _
    | some row =>
      show Keeps me (answer H me row.id (respond row))
      cases respond row with
      | finish state result evidence => exact keeps_finish _ _ _ _
      | retry result evidence =>
        exact .bind (keeps_retry _ _ _) fun _ => .ret _
      | abandon => exact .ret _

-- == runs

section Runs

/-- The store as a new process finds it: nothing pending. -/
def World.reopened (w : World) : World :=
  { w with disk := ⟨w.disk.file, none⟩ }

/-- A crash rolls the transaction of its process back. -/
def World.crash (i : Nat) (w : World) : World :=
  { w with disk := w.disk.rollback i }

variable {α χ : Type} (programs : Nat → χ → RProg α)

abbrev Procs (α : Type) := Pool Access EngineError World α Ghost

abbrev Step (α χ : Type) :=
  Machine.Entry (Sched χ) (Event Access EngineError α Ghost) (Procs α)

def step : Sched χ → Procs α → Event Access EngineError α Ghost × Procs α :=
  Pool.step programs (fun i _ _ => ⟨i, none⟩) Ghost.next World.crash

/-- The pool after a schedule, from a store just opened. -/
def runFrom (w : World) (sched : List (Sched χ)) : Procs α :=
  Machine.exec (step programs) sched (Pool.idle w.reopened)

def traceFrom (w : World) (sched : List (Sched χ)) : List (Step α χ) :=
  Machine.trace (step programs) sched (Pool.idle w.reopened)

/-- What an entry does to the disk. -/
inductive Moves (e : Step α χ) : Prop
  | stepped {i : Nat} {l : Access} {g : Ghost} (ho : e.output = .stepped i l g)
      (hd : Does g.me l e.before.shared.disk e.after.shared.disk)
  | quiet (ho : ∀ i l g, e.output ≠ .stepped i l g) (me : Nat)
      (hd : Disk.Step me Eq e.before.shared.disk e.after.shared.disk)

/-- The rule for runs of programs whose steps do what their labels say: a
relation between the entries so far and the world, kept by every entry that
meets `C`, holds after every run whose entries all meet `C`. -/
theorem run_history (hkeeps : ∀ i c, Keeps i (programs i c)) {w : World}
    {C : Step α χ → Prop} {I : List (Step α χ) → World → Prop} (hinit : I [] w.reopened)
    (hstep : ∀ past e, Moves e → C e → I past e.before.shared → I (past ++ [e]) e.after.shared)
    (sched : List (Sched χ)) (hC : ∀ e ∈ traceFrom programs w sched, C e) :
    I (traceFrom programs w sched) (runFrom programs w sched).shared := by
  have hstart : ∀ i c (s : World), (programs i c).Sat (fun _ _ _ => True)
      (fun g l w w' => Does g.me l w.disk w'.disk) Ghost.next
      (fun _ _ => True) (fun _ _ => True) ⟨i, none⟩ := fun i c _ =>
    (hkeeps i c ⟨i, none⟩ rfl).imp (fun _ _ _ => trivial) fun _ _ _ => trivial
  have hrun := Machine.history_invariant (step programs) (C := C)
    (I := fun past p => I past p.shared ∧ Pool.AllSat Ghost.next (fun _ _ _ => True)
        (fun g l w w' => Does g.me l w.disk w'.disk)
        (fun _ _ => True) (fun _ _ => True) p)
    (Pool.idle w.reopened) ⟨hinit, Pool.allSat_idle _ _⟩
    (fun past e hv hCe hpast => ?_) sched hC
  · exact hrun.1
  · obtain ⟨hI, hsat⟩ := hpast
    refine ⟨hstep past e ?_ hCe hI, Pool.sat_step _ _ _ _ hstart hv (fun _ _ _ _ => trivial) hsat⟩
    by_cases ho : ∃ i l g, e.output = .stepped i l g
    · obtain ⟨i, l, g, ho⟩ := ho
      exact .stepped ho (Pool.step_guarantee _ _ _ _ hv (fun _ _ _ _ => trivial) hsat ho)
    · have hquiet : ∀ i l g, e.output ≠ .stepped i l g :=
        fun i l g heq => ho ⟨i, l, g, heq⟩
      rcases Pool.shared_of_quiet _ _ _ _ hv hquiet with hs | ⟨i, hs⟩
      · exact .quiet hquiet 0 (hs ▸ .none)
      · exact .quiet hquiet i (hs ▸ Disk.step_rollback)

end Runs

-- == samples

namespace Sample

/-- The process takes `n` steps. -/
def advances (i n : Nat) : List (Sched Call) := List.replicate n (.advance i)

def submitted (maxAttempts : Int) : List (Sched Call) :=
  .spawn 0 (.submit intent grant (py "key-1") maxAttempts) :: advances 0 2

/-- Process `i` claims a job for a minute, and answers that it ended so. -/
def working (i : Nat) (state : JobState) : Sched Call :=
  .spawn i (.work 60 fun _ => .finish state .none none)

end Sample

end Centinal26.Pipeline
