/-
Terminal job states, and who may write them.
-/
import Centinal26.Pipeline.Workers

namespace Centinal26.Pipeline

open Py Centinal26.Core Steps

variable {H : Host}

-- == vocabulary

/-- The job is running the attempt that was claimed. -/
def current (db : Db) (held : Option (Text × Nat)) (id : Text) : Bool :=
  match held, db.job? id with
  | some (j, n), some row =>
    decide (j = id ∧ row.state = .running ∧ row.attempts = n)
  | _, _ => false

/-- The job has reached a terminal state. -/
def finished (db : Db) (id : Text) : Bool :=
  match db.job? id with
  | some row => row.state.isTerminal
  | none => false

/-- A write that goes through finds its job as its worker knows it. -/
def timely {α χ : Type} (e : Step α χ) : Bool :=
  match e.output with
  | .stepped _ (.finish id _) g =>
    e.before.shared.disk.lockedFor g.me || current (e.before.shared.view g.me) g.held id
  | .stepped _ (.recover id _) g =>
    e.before.shared.disk.lockedFor g.me || !finished (e.before.shared.view g.me) id
  | _ => true

/-- Every job in a terminal state is still exactly as it was. -/
def Settled (a b : Db) : Prop :=
  ∀ j row, a.job? j = some row → row.state.isTerminal = true → b.job? j = some row

/-- Terminal states are final, and a finish on behalf of a claim that is not
current leaves its job alone. -/
structure FinalStates {α χ : Type} (programs : Nat → χ → RProg α) (w : World)
    (sched : List (Sched χ)) : Prop where
  settled : ∀ e ∈ traceFrom programs w sched,
    Settled e.before.shared.disk.file (runFrom programs w sched).shared.disk.file
  fenced : ∀ e ∈ traceFrom programs w sched, ∀ i id state g,
    e.output = .stepped i (.finish id state) g →
    current (e.before.shared.view g.me) g.held id = false →
    (e.after.shared.view g.me).job? id = (e.before.shared.view g.me).job? id

-- == settled

theorem Settled.refl (db : Db) : Settled db db :=
  fun _ _ h _ => h

theorem Settled.trans (a b c : Db) (hab : Settled a b) (hbc : Settled b c) : Settled a c :=
  fun j row h ht => hbc j row (hab j row h ht) ht

theorem settled_of_eq {a b : Db} (h : ∀ j, b.job? j = a.job? j) : Settled a b :=
  fun j _ hrow _ => (h j).trans hrow

variable {db db' : Db} {id : Text} {row : JobRow} {α χ : Type}

theorem settled_updateJob {f : JobRow → JobRow}
    {hf : ∀ r, (f r).id = r.id} (h : finished db id = false) :
    Settled db (db.updateJob id f hf) := by
  intro j row hrow ht
  rw [Db.job?_updateJob]
  split
  · next hj =>
    subst hj
    have hno : row.state.isTerminal = false := by
      simpa only [finished, hrow] using h
    rw [hno] at ht
    cases ht
  · exact hrow

theorem settled_insertJob (h : db.insertJob? row = some db') : Settled db db' := by
  obtain ⟨hnone, _, hjobs⟩ := Db.insertJob?_spec h
  intro j r hr _
  rw [hjobs j]
  split
  · next hj =>
    rw [hj, hnone] at hr
    cases hr
  · exact hr

theorem not_finished_nextQueued (h : db.nextQueued = some row) : finished db row.id = false := by
  obtain ⟨hrow, hq⟩ := Db.nextQueued_spec h
  unfold finished
  rw [hrow]
  show row.state.isTerminal = false
  rw [hq]
  rfl

theorem not_finished_current {held : Option (Text × Nat)}
    (h : current db held id = true) : finished db id = false := by
  unfold current at h
  unfold finished
  split at h
  · next hrow =>
    rw [hrow]
    obtain ⟨_, hs, _⟩ := of_decide_eq_true h
    simp only [hs]
    rfl
  · cases h

-- == steps

theorem Writes.settled {l : Access} (h : Writes l db db')
    (hfinish : ∀ id state, l = .finish id state → finished db id = false)
    (hrecover : ∀ id state, l = .recover id state → finished db id = false) : Settled db db' := by
  cases h with
  | same => exact .refl db
  | submit _ _ hi => exact settled_insertJob hi
  | recover => exact settled_updateJob (hrecover _ _ rfl)
  | finish => exact settled_updateJob (hfinish _ _ rfl)
  | setState => exact settled_of_eq fun j => Db.job?_upsertState ..
  | record hi => exact settled_of_eq (Db.insertRun?_spec hi).1

/-- A timely entry keeps the pending image ahead of the file and settles the
jobs on file. -/
theorem Moves.settled {e : Step α χ} (h : Moves e)
    (ht : timely e = true) (hd : e.before.shared.disk.Ahead Settled) :
    e.after.shared.disk.Ahead Settled
      ∧ Settled e.before.shared.disk.file e.after.shared.disk.file := by
  cases h with
  | @stepped i l g ho hdoes =>
    unfold timely at ht
    rw [ho] at ht
    cases hlocked : e.before.shared.disk.lockedFor g.me with
    | true =>
      -- somebody else writes, so this step does not
      rw [hdoes.eq_of_locked hlocked]
      exact ⟨hd, .refl _⟩
    | false =>
      generalize e.after.shared.disk = d' at hdoes ⊢
      cases hdoes with
      | wrote hstep =>
        refine hstep.ahead Settled.refl Settled.trans hd fun db hw => ?_
        refine hw.settled (fun id state hl => ?_) fun id state hl => ?_
        · subst hl
          simp only [hlocked, Bool.false_or] at ht
          exact not_finished_current ht
        · subst hl
          simp only [hlocked, Bool.false_or, Bool.not_eq_true'] at ht
          exact ht
      | claimed _ htx hq =>
        refine ⟨fun c db heq => ?_, ?_⟩
        · cases heq
        · exact settled_updateJob (not_finished_nextQueued hq)
  | quiet _ me hstep =>
    exact hstep.ahead Settled.refl Settled.trans hd fun db heq =>
      heq ▸ Settled.refl _

-- == runs

theorem final_of_keeps {programs : Nat → χ → RProg α}
    (hkeeps : ∀ i c, Keeps i (programs i c)) (w : World) (sched : List (Sched χ))
    (hC : ∀ e ∈ traceFrom programs w sched, timely e = true) : FinalStates programs w sched := by
  have hrun := run_history programs hkeeps (w := w) (C := fun e => timely e = true)
    (I := fun past w => w.disk.Ahead Settled
      ∧ (∀ e ∈ past, Settled e.before.shared.disk.file w.disk.file)
      ∧ ∀ e ∈ past, Moves e ∧ timely e = true)
    ⟨fun c db heq => (by cases heq), fun e he => (by cases he), fun e he => (by cases he)⟩
    (fun past e hm ht hI => ?_) sched hC
  · refine ⟨hrun.2.1, fun e he i id state g ho hcur => ?_⟩
    obtain ⟨hm, ht⟩ := hrun.2.2 e he
    unfold timely at ht
    rw [ho] at ht
    simp only [hcur, Bool.or_false] at ht
    cases hm with
    | stepped ho' hdoes =>
      rw [ho] at ho'
      cases ho'
      -- the claim is not current, so the write did not go through
      have hsame := hdoes.eq_of_locked ht
      unfold World.view
      rw [hsame]
    | quiet hquiet _ _ => exact absurd ho (hquiet _ _ _)
  · obtain ⟨hahead, hpast, hmoves⟩ := hI
    obtain ⟨hahead', hstep⟩ := hm.settled ht hahead
    refine ⟨hahead', fun e' he' => ?_, fun e' he' => ?_⟩
    · rcases List.mem_append.mp he' with he' | he'
      · exact (hpast e' he').trans _ _ _ hstep
      · rw [List.mem_singleton.mp he']
        exact hstep
    · rcases List.mem_append.mp he' with he' | he'
      · exact hmoves e' he'
      · rw [List.mem_singleton.mp he']
        exact ⟨hm, ht⟩

/-- In every run of workers whose writes are timely, terminal job states are
final and a finish for a lost claim leaves the job alone. -/
theorem final_states (H : Host) (w : World) (sched : List (Sched Call))
    (hC : ∀ e ∈ traceFrom (start H) w sched, timely e = true) : FinalStates (start H) w sched :=
  final_of_keeps (keeps_start H) w sched hC

/-- A worker's lease lapses, and a second worker takes the job and verifies
it. -/
def Sample.replaced : List (Sched Call) :=
  Sample.submitted 3 ++ [Sample.working 1 .failed] ++ Sample.advances 1 4
    ++ [Sample.working 2 .verified] ++ Sample.advances 2 8

/-- The first worker is gone by the time the second has finished. -/
theorem final_states_replaced :
    FinalStates (start Sample.host) World.init (Sample.replaced ++ [.crash 1])
      ∧ (runFrom (start Sample.host) World.init
          (Sample.replaced ++ [.crash 1])).shared.disk.file.jobs.rows.map
          (fun r => (r.state, r.attempts)) = [(.verified, 2)] := by
  refine ⟨final_states _ _ _ (List.all_eq_true.mp ?_), ?_⟩
  · decide +kernel
  · decide +kernel

/-- The first worker finishes after the second has. -/
def Sample.outlived : List (Sched Call) :=
  Sample.replaced ++ Sample.advances 1 1 ++ [.advance 1]

/-- A verified job ends up failed. -/
theorem states_overwritten : ¬ FinalStates (start Sample.host) World.init Sample.outlived := by
  intro h
  let last := Machine.entry (step (start Sample.host)) (.advance 1)
    (runFrom (start Sample.host) World.init (Sample.replaced ++ Sample.advances 1 1))
  have hmem : last ∈ traceFrom (start Sample.host) World.init Sample.outlived := by
    unfold traceFrom Sample.outlived
    rw [Machine.trace_concat]
    exact List.mem_append_right _ (List.mem_singleton_self _)
  have hrun : (last.before.shared.disk.file.job? (Sample.host.uuid4 0)).map
        JobRow.state = some .verified
      ∧ ((runFrom (start Sample.host) World.init
          Sample.outlived).shared.disk.file.job? (Sample.host.uuid4 0)).map
        JobRow.state = some .failed := by
    decide +kernel
  obtain ⟨row, hrow, hs⟩ := Option.map_eq_some_iff.mp hrun.1
  have hkept := h.settled last hmem _ row hrow (by rw [hs]; rfl)
  rw [hkept, Option.map_some, hs] at hrun
  exact absurd hrun.2 (by decide)

end Centinal26.Pipeline
