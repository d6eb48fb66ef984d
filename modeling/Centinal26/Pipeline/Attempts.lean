/-
The attempt budget of a job.
-/
import Centinal26.Pipeline.Workers

namespace Centinal26.Pipeline

open Py Centinal26.Core Steps

-- == vocabulary

def spare (db : Db) (id : Text) : Bool :=
  match db.job? id with
  | some row =>
    decide (row.maxAttempts < 1 ∨ (row.attempts : Int) < row.maxAttempts)
  | none => true

/-- A write that goes through queues no job whose attempts are used up. -/
def budgeted {α χ : Type} (e : Step α χ) : Bool :=
  match e.output with
  | .stepped _ (.finish id .queued) g =>
    e.before.shared.disk.lockedFor g.me || spare (e.before.shared.view g.me) id
  | .stepped _ (.recover id .queued) g =>
    e.before.shared.disk.lockedFor g.me || spare (e.before.shared.view g.me) id
  | _ => true

/-- The entry is a claim that takes the job. -/
def takes {α χ : Type} (j : Text) (e : Step α χ) : Bool :=
  match e.output with
  | .stepped _ .claim g =>
    match taken g.me e.before.shared e.after.shared with
    | some (id, _) => decide (id = j)
    | none => false
  | _ => false

def claims {α χ : Type} (j : Text) (past : List (Step α χ)) : Nat :=
  past.countP (takes j)

/-- No job submitted with a positive maximum has more attempts than that, nor
has been claimed more often. -/
structure WithinBudget {α χ : Type} (programs : Nat → χ → RProg α) (w : World)
    (sched : List (Sched χ)) : Prop where
  attempts : ∀ j row, (runFrom programs w sched).shared.disk.file.job? j = some row →
    1 ≤ row.maxAttempts → (row.attempts : Int) ≤ row.maxAttempts
  claims : ∀ j row, (runFrom programs w sched).shared.disk.file.job? j = some row →
    1 ≤ row.maxAttempts →
    (claims j (traceFrom programs w sched) : Int) ≤ row.maxAttempts

-- == rows

inductive RowWrite (l : Access) (j : Text) : Option JobRow → Option JobRow → Prop
  | same {r : Option JobRow} : RowWrite l j r r
  | new {row : JobRow} (hq : row.state = .queued) (ha : row.attempts = 0) :
      RowWrite l j none (some row)
  | rewritten {row row' : JobRow} (hl : l = .recover j row'.state ∨ l = .finish j row'.state)
      (ha : row'.attempts = row.attempts)
      (hm : row'.maxAttempts = row.maxAttempts) :
      RowWrite l j (some row) (some row')

variable {l : Access} {db db' : Db} {α χ : Type}

theorem rowWrite_updateJob {id : Text} {f : JobRow → JobRow} {hf : ∀ r, (f r).id = r.id}
    (h : ∀ row, RowWrite l id (some row) (some (f row))) (j : Text) :
    RowWrite l j (db.job? j) ((db.updateJob id f hf).job? j) := by
  rw [Db.job?_updateJob]
  split
  · next hj =>
    subst hj
    cases db.job? j with
    | none => exact .same
    | some row => exact h row
  · exact .same

theorem Writes.row (h : Writes l db db') (j : Text) : RowWrite l j (db.job? j) (db'.job? j) := by
  cases h with
  | same => exact .same
  | submit hq ha hi =>
    obtain ⟨hnone, _, hjobs⟩ := Db.insertJob?_spec hi
    rw [hjobs j]
    split
    · next hj =>
      rw [hj, hnone]
      exact .new hq ha
    · exact .same
  | recover =>
    refine rowWrite_updateJob (fun row => ?_) j
    exact .rewritten (Or.inl rfl) rfl rfl
  | finish =>
    refine rowWrite_updateJob (fun row => ?_) j
    exact .rewritten (Or.inr rfl) rfl rfl
  | setState =>
    rw [Db.job?_upsertState]
    exact .same
  | record hi =>
    rw [(Db.insertRun?_spec hi).1]
    exact .same

-- == the counter

/-- The counter of a job, zero before it is submitted. -/
def attemptsOf (db : Db) (j : Text) : Nat :=
  match db.job? j with
  | some row => row.attempts
  | none => 0

variable {j : Text} {me : Nat} {w w' : World} {lease stamp : Instant} {e : Step α χ}

theorem attemptsOf_of_job? {row : JobRow}
    (h : db.job? j = some row) : attemptsOf db j = row.attempts := by
  unfold attemptsOf
  rw [h]

theorem RowWrite.attempts
    (h : RowWrite l j (db.job? j) (db'.job? j)) : attemptsOf db' j = attemptsOf db j := by
  unfold attemptsOf
  generalize db.job? j = r at h ⊢
  generalize db'.job? j = r' at h ⊢
  cases h with
  | same => rfl
  | new _ ha => exact ha
  | rewritten _ ha _ => exact ha

/-- The counters of an image are the claims so far. -/
def Tallied {α χ : Type} (past : List (Step α χ)) (db : Db) : Prop :=
  ∀ j, attemptsOf db j = claims j past

theorem taken_eq_none
    (h : ∀ j, attemptsOf w'.disk.file j = attemptsOf (w.view me) j) : taken me w w' = none := by
  unfold taken
  split
  · rfl
  · next row hq =>
    split
    · rfl
    · next row' hrow' =>
      split
      · next hsucc =>
        have hsame := h row.id
        rw [attemptsOf_of_job? hrow', attemptsOf_of_job? (Db.nextQueued_spec hq).1] at hsame
        omega
      · rfl

theorem taken_claimed {row : JobRow}
    (htx : w.disk.tx = none) (hq : w.disk.file.nextQueued = some row)
    (hw' : w'.disk = ⟨claimed row lease stamp w.disk.file, none⟩) :
    taken me w w' = some (row.id, row.attempts + 1) := by
  have hview : w.view me = w.disk.file := by
    simp only [World.view, Disk.view, htx]
  unfold taken
  rw [hview, hq, hw']
  simp only [job?_claimed hq, if_true]

theorem Moves.tallied {past : List (Step α χ)}
    (h : Moves e) (hI : e.before.shared.disk.Every (Tallied past)) :
    e.after.shared.disk.Every (Tallied (past ++ [e])) := by
  have hconcat : ∀ j, claims j (past ++ [e])
      = claims j past + if takes j e then 1 else 0 := fun j => by
    unfold claims
    rw [List.countP_append, List.countP_singleton]
  -- an entry that claims nothing has only its images to account for
  have hquiet : (∀ j, takes j e = false) → e.after.shared.disk.Every (Tallied past) →
      e.after.shared.disk.Every (Tallied (past ++ [e])) := fun hno hd =>
    hd.imp fun db hdb j => by
      rw [hconcat, hno j]
      exact hdb j
  cases h with
  | @stepped i l g ho hdoes =>
    generalize hdisk : e.after.shared.disk = d' at hdoes
    cases hdoes with
    | wrote hstep =>
      have hafter := hstep.every hI fun db hw j =>
        (hw.row j).attempts.trans (hI.view g.me j)
      rw [← hdisk] at hafter ⊢
      refine hquiet (fun j => ?_) hafter
      unfold takes
      rw [ho]
      cases l with
      | claim =>
        have hnone : taken g.me e.before.shared e.after.shared = none :=
          taken_eq_none fun k =>
            (hafter.file k).trans (hI.view g.me k).symm
        simp only [hnone]
      | _ => rfl
    | @claimed row lease stamp hl htx hq =>
      subst hl
      have htaken := @taken_claimed g.me _ _ _ _ _ htx hq hdisk
      refine Disk.every_mk_none fun j => ?_
      have htakes : takes j e = decide (row.id = j) := by
        unfold takes
        rw [ho]
        simp only [htaken]
      rw [hconcat, htakes, ← hI.file j]
      unfold attemptsOf
      rw [job?_claimed hq]
      by_cases hj : j = row.id
      · subst hj
        simp only [(Db.nextQueued_spec hq).1, if_true, decide_true]
      · have hne : ¬ row.id = j := fun h => hj h.symm
        simp only [hj, hne, if_false, decide_false, Bool.false_eq_true, Nat.add_zero]
  | quiet ho me hstep =>
    refine hquiet (fun j => ?_) ?_
    · unfold takes
      split
      · next heq => exact absurd heq (ho _ _ _)
      · rfl
    · exact hstep.every hI fun db heq => heq ▸ hI.view me

-- == the budget

/-- A job is within its budget, and has an attempt left while it waits. -/
def Within (row : JobRow) : Prop :=
  1 ≤ row.maxAttempts → (row.attempts : Int) ≤ row.maxAttempts
    ∧ (row.state = .queued → (row.attempts : Int) < row.maxAttempts)

def AllWithin (db : Db) : Prop :=
  ∀ j row, db.job? j = some row → Within row

theorem Writes.within (h : Writes l db db')
    (hspare : ∀ id, l = .recover id .queued ∨ l = .finish id .queued →
      spare db id = true) (hI : AllWithin db) : AllWithin db' := by
  intro j row' hrow'
  have hw := h.row j
  cases hrow : db.job? j with
  | none =>
    rw [hrow, hrow'] at hw
    cases hw with
    | new _ ha =>
      intro hmax
      rw [ha]
      omega
  | some row =>
    rw [hrow, hrow'] at hw
    cases hw with
    | same => exact hI j _ hrow
    | rewritten hl ha hm =>
      intro hmax
      rw [ha, hm]
      rw [hm] at hmax
      obtain ⟨hle, _⟩ := hI j row hrow hmax
      refine ⟨hle, fun hq => ?_⟩
      rw [hq] at hl
      have hleft := hspare j hl
      unfold spare at hleft
      rw [hrow] at hleft
      have hcases := of_decide_eq_true hleft
      omega

theorem within_claimed {row : JobRow} (hq : db.nextQueued = some row) (hI : AllWithin db) :
    AllWithin (claimed row lease stamp db) := by
  intro j row' hrow'
  rw [job?_claimed hq] at hrow'
  split at hrow'
  · cases hrow'
    obtain ⟨hrow, hs⟩ := Db.nextQueued_spec hq
    intro hmax
    obtain ⟨_, hlt⟩ := hI _ row hrow hmax
    have := hlt hs
    refine ⟨?_, nofun⟩
    show ((row.attempts + 1 : Nat) : Int) ≤ row.maxAttempts
    omega
  · exact hI j row' hrow'

theorem Moves.within (h : Moves e)
    (hb : budgeted e = true) (hI : e.before.shared.disk.Every AllWithin) :
    e.after.shared.disk.Every AllWithin := by
  cases h with
  | @stepped i l g ho hdoes =>
    unfold budgeted at hb
    rw [ho] at hb
    cases hlocked : e.before.shared.disk.lockedFor g.me with
    | true =>
      rw [hdoes.eq_of_locked hlocked]
      exact hI
    | false =>
      generalize e.after.shared.disk = d' at hdoes ⊢
      cases hdoes with
      | wrote hstep =>
        refine hstep.every hI fun db hw =>
          hw.within (fun id hl => ?_) (hI.view g.me)
        rcases hl with hl | hl
        · subst hl
          simp only [hlocked, Bool.false_or] at hb
          exact hb
        · subst hl
          simp only [hlocked, Bool.false_or] at hb
          exact hb
      | claimed _ _ hq =>
        exact Disk.every_mk_none (within_claimed hq hI.file)
  | quiet _ me hstep =>
    exact hstep.every hI fun db heq => heq ▸ hI.view me

-- == runs

theorem within_of_keeps {programs : Nat → χ → RProg α}
    (hkeeps : ∀ i c, Keeps i (programs i c)) (sched : List (Sched χ))
    (hC : ∀ e ∈ traceFrom programs World.init sched, budgeted e = true) :
    WithinBudget programs World.init sched := by
  have hrun := run_history programs hkeeps (w := World.init) (C := fun e => budgeted e = true)
    (I := fun past w => w.disk.Every (Tallied past) ∧ w.disk.Every AllWithin)
    ⟨Disk.every_mk_none fun j => rfl, Disk.every_mk_none fun j row h => by
      cases h⟩
    (fun past e hm hb hI => ⟨hm.tallied hI.1, hm.within hb hI.2⟩) sched hC
  obtain ⟨htally, hwithin⟩ := hrun
  refine ⟨fun j row hrow hmax => (hwithin.file j row hrow hmax).1, fun j row hrow hmax => ?_⟩
  have hcount := htally.file j
  rw [attemptsOf_of_job? hrow] at hcount
  rw [← hcount]
  exact (hwithin.file j row hrow hmax).1

/-- In every run of workers that queue a job again only while it has an
attempt left, no job is executed more often than its maximum. -/
theorem within_budget (H : Host) (sched : List (Sched Call))
    (hC : ∀ e ∈ traceFrom (start H) World.init sched, budgeted e = true) :
    WithinBudget (start H) World.init sched :=
  within_of_keeps (keeps_start H) sched hC

/-- A job allowed two attempts uses both, each lapsing. -/
def Sample.exhausted : List (Sched Call) :=
  Sample.submitted 2 ++ [Sample.working 1 .verified] ++ Sample.advances 1 4
    ++ [.crash 1, Sample.working 1 .verified] ++ Sample.advances 1 5
    ++ [.crash 1, Sample.working 1 .verified] ++ Sample.advances 1 5

/-- The third worker finds it failed. -/
theorem within_budget_exhausted : WithinBudget (start Sample.host) World.init Sample.exhausted
      ∧ (runFrom (start Sample.host) World.init Sample.exhausted).shared.disk.file.jobs.rows.map
          (fun r => (r.state, r.attempts)) = [(.failed, 2)] := by
  refine ⟨within_budget _ _ (List.all_eq_true.mp ?_), ?_⟩
  · decide +kernel
  · decide +kernel

/-- A recovery reads the lapsed first attempt of a job allowed two; a second
worker recovers the job and claims it; then the recovery writes, and a third
worker claims. -/
def Sample.overdrawn : List (Sched Call) :=
  Sample.submitted 2 ++ [Sample.working 1 .verified] ++ Sample.advances 1 4
    ++ [.crash 1, .spawn 3 .recover] ++ Sample.advances 3 1
    ++ [Sample.working 1 .verified] ++ Sample.advances 1 5
    ++ Sample.advances 3 2 ++ [Sample.working 2 .verified]
    ++ Sample.advances 2 4

/-- The job is claimed a third time. -/
theorem budget_overdrawn : ¬ WithinBudget (start Sample.host) World.init Sample.overdrawn := by
  intro h
  have hrun : ((runFrom (start Sample.host) World.init
      Sample.overdrawn).shared.disk.file.job? (Sample.host.uuid4 0)).map
        (fun r => (r.attempts, r.maxAttempts)) = some (3, 2) := by
    decide +kernel
  obtain ⟨row, hrow, hcols⟩ := Option.map_eq_some_iff.mp hrun
  simp only [Prod.mk.injEq] at hcols
  have hle := h.attempts _ row hrow (by rw [hcols.2]; decide)
  rw [hcols.1, hcols.2] at hle
  exact absurd hle (by decide)

end Centinal26.Pipeline
