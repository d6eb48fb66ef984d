/-
What each step of the runtime store does to the images of its database.
-/
import Centinal26.Pipeline.Store

namespace Centinal26.Pipeline

open Py Centinal26.Core Steps

variable {H : Host} {me : Nat}

-- == statements

variable {α β : Type} {w : World} {row : JobRow} {l : Access} {m : RBlock α} {f : α → RBlock β}

@[simp] theorem select_bind (query : Db → α) (f : α → RBlock β)
    (w : World) : (select me query >>= f) w = f (query (w.view me)) w := rfl

@[simp] theorem readClock_bind (f : Instant → RBlock β) (w : World) :
    (readClock H >>= f) w = f (H.clock w.ticks) { w with ticks := w.ticks + 1 } := rfl

@[simp] theorem liftPy_ok_bind (a : α) (f : α → RBlock β)
    (w : World) : (liftPy (.ok a) >>= f) w = f a w := rfl

@[simp] theorem liftPy_error_bind (e : PyErr) (f : α → RBlock β)
    (w : World) : (liftPy (.error e) >>= f) w = (.error (.py e), w) := rfl

@[simp] theorem commit_bind (f : Unit → RBlock β) (w : World) :
    (commit me >>= f) w = f () { w with disk := w.disk.commit me } := rfl

@[simp] theorem rollback_bind (f : Unit → RBlock β) (w : World) :
    (rollback me >>= f) w = f () { w with disk := w.disk.rollback me } := rfl

theorem execute_bind (ho : w.disk.OwnedBy me) (f : Db → Db) (k : Unit → RBlock β) :
    (execute me f >>= k) w = k () { w with disk := w.disk.write me f } := by
  have hrun : execute me f w = (.ok (), { w with disk := w.disk.write me f }) := by
    unfold execute
    rw [ho]
    rfl
  rw [Block.bind_ok hrun]

theorem execute_bind_locked (ho : ¬ w.disk.OwnedBy me)
    (f : Db → Db) (k : Unit → RBlock β) : (execute me f >>= k) w = (.error databaseLocked, w) := by
  have hlocked : w.disk.lockedFor me = true := by
    simpa only [Disk.OwnedBy, Bool.not_eq_false] using ho
  have hrun : execute me f w = (.error databaseLocked, w) := by
    unfold execute
    rw [hlocked]
    rfl
  rw [Block.bind_error hrun]

theorem execute_step {f : Db → Db} {I : Db → Db → Prop}
    (hI : I (w.view me) (f (w.view me))) : Disk.Step me I w.disk (execute me f w).2.disk := by
  unfold execute
  split
  · exact .none
  · next ho => exact Disk.step_write (Bool.eq_false_iff.mpr ho) hI

theorem beginImmediate_ok {w' : World} {u : Unit} (h : beginImmediate me w = (.ok u, w')) :
    w.disk.tx = none ∧ w' = { w with disk := w.disk.write me id } := by
  unfold beginImmediate at h
  split at h
  · next htx =>
    cases h
    exact ⟨htx, rfl⟩
  · cases h

-- == labels

/-- What a step labelled so makes of the image it reads. -/
inductive Writes : Access → Db → Db → Prop
  | same {l : Access} {db : Db} : Writes l db db
  | submit {row : JobRow} {db db' : Db} (hq : row.state = .queued)
      (ha : row.attempts = 0) (hi : db.insertJob? row = some db') :
      Writes .submit db db'
  | recover {id : Text} {state : JobState} {stamp : Instant} {db : Db} :
      Writes (.recover id state) db (db.updateJob id (recoverColumns state stamp) fun _ => rfl)
  | finish {id : Text} {state : JobState} {result : PyVal}
      {evidence : Option EvidencePath} {stamp : Instant} {db : Db} :
      Writes (.finish id state) db (db.updateJob id (finishColumns state result evidence stamp)
          fun _ => rfl)
  | setState {row : StateRow} {db : Db} : Writes (.setState row.key) db (db.upsertState row)
  | record {row : RunRow} {db db' : Db} (hi : db.insertRun? row = some db') : Writes .record db db'

def claimed (row : JobRow) (lease stamp : Instant) (db : Db) : Db :=
  db.updateJob row.id (claimColumns lease stamp) (claimColumns_id lease stamp)

theorem job?_claimed {db : Db} (hq : db.nextQueued = some row) (lease stamp : Instant) (j : Text) :
    (claimed row lease stamp db).job? j = if j = row.id then
          some { row with
            state := .running
            attempts := row.attempts + 1
            leaseUntil := some lease
            updatedAt := stamp }
        else db.job? j := by
  obtain ⟨hrow, hs⟩ := Db.nextQueued_spec hq
  unfold claimed
  rw [Db.job?_updateJob, hrow]
  split
  · simp only [Option.map_some, claimColumns, hs, if_true]
  · rfl

inductive Does (me : Nat) (l : Access) (d : Disk Db) : Disk Db → Prop
  | wrote {d' : Disk Db} (h : Disk.Step me (Writes l) d d') : Does me l d d'
  | claimed {row : JobRow} {lease stamp : Instant} (hl : l = .claim)
      (htx : d.tx = none) (hq : d.file.nextQueued = some row) :
      Does me l d ⟨claimed row lease stamp d.file, none⟩

theorem Does.eq_of_locked {d d' : Disk Db} (h : Does me l d d')
    (hl : d.lockedFor me = true) : d' = d := by
  cases h with
  | wrote hstep => exact hstep.eq_of_locked hl
  | claimed _ htx _ =>
    simp only [Disk.lockedFor, htx] at hl
    cases hl

-- == ghosts

/-- The process, and the claim it acts for. -/
structure Ghost where
  me : Nat
  held : Option (Text × Nat)

/-- The claim a transaction of `claim` took. -/
def taken (me : Nat) (w w' : World) : Option (Text × Nat) :=
  match (w.view me).nextQueued with
  | none => none
  | some row =>
    match w'.disk.file.job? row.id with
    | none => none
    | some row' =>
      if row'.attempts = row.attempts + 1 then some (row.id, row'.attempts)
      else none

def Ghost.next (g : Ghost) (l : Access) (w w' : World) : Ghost :=
  match l with
  | .claim => { g with held := taken g.me w w' }
  | _ => g

@[simp] theorem Ghost.next_me (g : Ghost) (l : Access) (w w' : World) :
    (g.next l w w').me = g.me := by
  cases l <;> rfl

-- == outlines

/-- A program whose steps do what their labels say. -/
def Keeps {α : Type} (me : Nat) (p : RProg α) : Prop :=
  ∀ g : Ghost, g.me = me → p.Sat (fun _ _ _ => True) (fun g l w w' => Does g.me l w.disk w'.disk)
      Ghost.next (fun g _ => g.me = me) (fun g _ => g.me = me) g

theorem Keeps.ret (a : α) : Keeps me (pure a : RProg α) :=
  fun _ hg => hg

theorem Keeps.raise (e : EngineError) : Keeps me (Prog.raise e : RProg α) :=
  fun _ hg => hg

theorem Keeps.bind {p : RProg α} {f : α → RProg β}
    (hp : Keeps me p) (hf : ∀ a, Keeps me (f a)) : Keeps me (p >>= f) :=
  fun g hg => (hp g hg).bind fun g' a hg' => hf a g' hg'

theorem Keeps.block
    (h : ∀ w, Does me l w.disk (m w).2.disk) : Keeps me (Prog.block l m : RProg α) := by
  intro g hg
  refine Prog.Sat.of_block fun w _ => ⟨hg ▸ h w, ?_⟩
  split
  · exact (Ghost.next_me ..).trans hg
  · exact (Ghost.next_me ..).trans hg

theorem Keeps.quiet (h : ∀ w, (m w).2.disk = w.disk) : Keeps me (Prog.block l m : RProg α) :=
  .block fun w => by
    rw [h w]
    exact .wrote .none

-- == methods

theorem does_bind
    (hm : ∀ w, (m w).2.disk = w.disk) (hf : ∀ a w, Does me l w.disk (f a w).2.disk) (w : World) :
    Does me l w.disk ((m >>= f) w).2.disk := by
  have hfirst := hm w
  rw [Block.bind_apply]
  split
  · next a w' heq =>
    rw [heq] at hfirst
    exact hfirst ▸ hf a w'
  · next e w' heq =>
    rw [heq] at hfirst
    exact hfirst ▸ .wrote .none

theorem quiet_bind (hm : ∀ w, (m w).2.disk = w.disk) (hf : ∀ a w, (f a w).2.disk = w.disk)
    (w : World) : ((m >>= f) w).2.disk = w.disk := by
  have hfirst := hm w
  rw [Block.bind_apply]
  split
  · next a w' heq =>
    rw [heq] at hfirst
    exact (hf a w').trans hfirst
  · next e w' heq =>
    rw [heq] at hfirst
    exact hfirst

theorem keeps_committed : Keeps me (committed me) :=
  .block fun _ => .wrote (Disk.step_commit .same)

theorem insertRow_does (hq : row.state = .queued)
    (ha : row.attempts = 0) (w : World) : Does me .submit w.disk (insertRow me row w).2.disk := by
  unfold insertRow
  rw [select_bind]
  cases hi : (w.view me).insertJob? row with
  | none =>
    by_cases ho : w.disk.OwnedBy me
    · simp only [execute_bind ho, rollback_bind]
      show Does me .submit w.disk ((w.disk.write me id).rollback me)
      rw [Disk.rollback_eq (Disk.ownedBy_write ..)]
      exact .wrote (.dropped ho)
    · simp only [execute_bind_locked ho]
      exact .wrote .none
  | some db =>
    by_cases ho : w.disk.OwnedBy me
    · simp only [execute_bind ho, commit_bind]
      show Does me .submit w.disk ((w.disk.write me fun _ => db).commit me)
      rw [Disk.commit_write]
      exact .wrote (.published ho (.submit hq ha hi))
    · simp only [execute_bind_locked ho]
      exact .wrote .none

theorem keeps_submit (intent : Intent) (grant : Grant) (key : PyStr)
    (maxAttempts : Int) : Keeps me (submit H me intent grant key maxAttempts) := by
  unfold submit
  split
  · exact .raise _
  · refine .bind (.block fun w => ?_) fun inserted => ?_
    · refine does_bind (fun _ => rfl) (fun id w => ?_) w
      refine does_bind (fun _ => rfl) (fun stamp w => ?_) w
      refine does_bind (fun _ => rfl) (fun stored w => ?_) w
      refine does_bind (fun _ => rfl) (fun sha w => ?_) w
      refine does_bind (fun _ => rfl) (fun key w => ?_) w
      refine does_bind (fun _ => rfl) (fun capability w => ?_) w
      split
      · exact insertRow_does rfl rfl w
      · exact .wrote .none
    · cases inserted with
      | some id => exact .ret _
      | none =>
        refine .quiet fun w => quiet_bind (fun _ => rfl) (fun found w => ?_) w
        cases found with
        | none => rfl
        | some row =>
          refine quiet_bind (fun _ => rfl) (fun sha w => ?_) w
          refine quiet_bind (fun _ => rfl) (fun existing w => ?_) w
          split <;> rfl

theorem keeps_recoverRows (stamp : Instant) (rows : List JobRow) :
    Keeps me (recoverRows me stamp rows) := by
  induction rows with
  | nil => exact .ret _
  | cons row rest ih =>
    exact .bind (.block fun w => .wrote (execute_step .recover)) fun _ => ih

theorem keeps_recover : Keeps me (recover H me) := by
  unfold recover
  refine .bind (.quiet fun _ => rfl) fun picked => ?_
  obtain ⟨stamp, rows⟩ := picked
  exact .bind (keeps_recoverRows stamp rows) fun _ =>
    .bind keeps_committed fun _ => .ret _

theorem claimRow_does (leaseSeconds : Int) (w : World) :
    Does me .claim w.disk (claimRow H me leaseSeconds w).2.disk := by
  unfold claimRow
  rw [Block.bind_apply]
  split
  · next u w₁ hbegin =>
    obtain ⟨htx, rfl⟩ := beginImmediate_ok hbegin
    have ho : w.disk.OwnedBy me := by
      simp only [Disk.OwnedBy, Disk.lockedFor, htx]
    have hview : w.disk.view me = w.disk.file := by
      simp only [Disk.view, htx]
    have hbegun : (w.disk.write me id).OwnedBy me := Disk.ownedBy_write ..
    rw [select_bind]
    simp only [World.view, Disk.view_write, hview, id]
    cases hq : w.disk.file.nextQueued with
    | none =>
      show Does me .claim w.disk ((w.disk.write me id).commit me)
      rw [Disk.commit_write]
      exact .wrote (.published ho .same)
    | some row =>
      simp only [readClock_bind]
      cases hlease : addSeconds (H.clock w.ticks) leaseSeconds with
      | error e => exact .wrote (Disk.step_write ho .same)
      | ok lease =>
        simp only [liftPy_ok_bind, readClock_bind, select_bind]
        rw [execute_bind hbegun, commit_bind]
        have hdone : Does me .claim w.disk (((w.disk.write me id).write me
            (claimed row lease (H.clock (w.ticks + 1)))).commit me) := by
          rw [Disk.write_write, Disk.commit_write, hview]
          exact .claimed rfl htx hq
        split
        · exact hdone
        · exact hdone
  · next e w₁ hbegin =>
    unfold beginImmediate at hbegin
    split at hbegin
    · cases hbegin
    · cases hbegin
      exact .wrote .none

theorem keeps_claim (leaseSeconds : Int) : Keeps me (claim H me leaseSeconds) := by
  unfold claim
  split
  · exact .raise _
  · refine .bind keeps_recover fun _ =>
      .bind (.block (claimRow_does leaseSeconds)) fun picked => ?_
    cases picked with
    | none => exact .ret _
    | some id => exact .quiet fun _ => rfl

theorem keeps_finish (id : Text) (state : JobState) (result : PyVal)
    (evidence : Option EvidencePath) : Keeps me (finish H me id state result evidence) := by
  unfold finish
  refine .bind (.block fun w => ?_) fun _ => keeps_committed
  refine does_bind (fun _ => rfl) (fun result w => ?_) w
  refine does_bind (fun _ => rfl) (fun stamp w => ?_) w
  exact .wrote (execute_step .finish)

theorem keeps_retry (id : Text) (result : PyVal) (evidence : EvidencePath) :
    Keeps me (retry H me id result evidence) := by
  unfold retry
  refine .bind (.quiet fun _ => rfl) fun found => ?_
  cases found with
  | none => exact .raise _
  | some row =>
    exact .bind (keeps_finish _ _ _ _) fun _ => .ret _

end Centinal26.Pipeline
