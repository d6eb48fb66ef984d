/-
Runs of many controllers.
-/
import Centinal26.Fleet.Steps

namespace Centinal26.Fleet

open Py Steps

variable {H : Host} {F : FleetHost}

-- == outlines

def Access.Does (H : Host) (l : Access) (db db' : Db) : Prop :=
  match l with
  | .write w => db' = (transaction (w.block H) db).2
  | _ => db' = db

def Access.Fits : Access → Prop
  | .write (.claim a) => 1 ≤ a.leaseSeconds
  | _ => True

/-- The window of the error budget starts at a time there is; `T` waives it. -/
def InTime (T : Prop) (_ : Bool) (l : Access) (_ : Db) : Prop :=
  match l with
  | .budget now => T ∨ 86400000000 ≤ now
  | _ => True

/-- An outline of an operation that has not committed yet. -/
abbrev Outlined (H : Host) (T : Prop) {α : Type} (p : FProg α) (Q : Bool → α → Prop) : Prop :=
  p.Sat (InTime T) (fun _ l db db' => l.Does H db db' ∧ l.Fits) (track H) Q
    (fun g _ => T ∨ g = false) false

variable {T : Prop}

variable {α : Type} {l : Access} {Q : Bool → Reply → Prop}

theorem outlined_ofExcept (r : Except PyErr α) :
    Outlined H T (Prog.ofExcept r) fun g _ => g = false := by
  cases r with
  | ok a => exact rfl
  | error e => exact Or.inr rfl

theorem outlined_read {f : Db → Except PyErr α}
    (hdoes : ∀ db, l.Does H db db) (hfits : l.Fits) (hcommits : ∀ db, l.commits H db = false) :
    Outlined H T (read l f) fun g _ => g = false := by
  refine Prog.Sat.of_block fun db _ => ⟨⟨hdoes db, hfits⟩, ?_⟩
  have hg : track H false l db db = false := by
    unfold track
    rw [hcommits db]
    rfl
  cases f db with
  | ok a => exact hg
  | error e => exact Or.inr hg

theorem outlined_write {w : Write} (hfits : (Access.write w).Fits)
    (hQ : ∀ db reply db', Wrote H w db reply db' → Q true reply) : Outlined H T (write H w) Q := by
  refine Prog.Sat.of_block fun db _ => ⟨⟨rfl, hfits⟩, ?_⟩
  rcases transaction_cases (H := H) w db with
    ⟨reply, db', hrun, hok, hwrote⟩ | ⟨e, hrun, hok⟩
  · rw [hrun]
    show Q (false || (w.block H db).1.isOk) reply
    rw [hok]
    exact hQ db reply db' hwrote
  · rw [hrun]
    show T ∨ (false || (w.block H db).1.isOk) = false
    rw [hok]
    exact Or.inr rfl

theorem Outlined.bind {β : Type} {p : FProg α} {f : α → FProg β}
    {Q : Bool → β → Prop} (hp : Outlined H T p fun g _ => g = false)
    (hf : ∀ a, Outlined H T (f a) Q) : Outlined H T (p >>= f) Q :=
  Prog.Sat.bind hp fun g a hg => by
    subst hg
    exact hf a

theorem outlined_raise {e : PyErr} : Outlined H T (throw e : FProg Reply) Q := Or.inr rfl

theorem createContract_outlined (a : ContractArgs) :
    Outlined F.toHost T (createContract F a) fun _ _ => True := by
  refine Outlined.bind (outlined_ofExcept _) fun roles => ?_
  refine Outlined.bind (outlined_ofExcept _) fun key => ?_
  refine Outlined.bind (outlined_read (fun _ => rfl) trivial fun _ => rfl) fun existing => ?_
  cases existing with
  | some row => exact trivial
  | none =>
    refine Outlined.bind (outlined_ofExcept _) fun score => ?_
    refine Outlined.bind (outlined_ofExcept _) fun contractHash => ?_
    exact outlined_write (by exact trivial) fun _ _ _ _ => trivial

theorem claimNext_outlined (role claimer : PyStr) (leaseSeconds batchLimit : Int) (now : Instant) :
    Outlined H T (claimNext H role claimer leaseSeconds batchLimit now) fun _ _ => True := by
  unfold claimNext
  split
  · exact outlined_raise
  · split
    · exact outlined_raise
    · next hbounds =>
      refine Outlined.bind (outlined_read (fun _ => rfl) trivial fun _ => rfl) fun rows => ?_
      refine outlined_write ?_ fun _ _ _ _ => trivial
      show 1 ≤ leaseSeconds
      omega

theorem recordResult_outlined (c : ResultCall) :
    Outlined H T (recordResult H c) fun _ _ => True := by
  unfold recordResult
  split
  · exact outlined_raise
  · refine Outlined.bind (outlined_ofExcept _) fun id => ?_
    refine Outlined.bind (outlined_read (fun _ => rfl) trivial fun _ => rfl) fun state => ?_
    split
    · exact outlined_raise
    · split
      · exact outlined_raise
      · refine Outlined.bind (outlined_ofExcept _) fun resultHash => ?_
        exact outlined_write (by exact trivial) fun _ _ _ _ => trivial

theorem recordVerdict_outlined (c : VerdictCall) :
    Outlined H T (recordVerdict H c) fun _ _ => True := by
  unfold recordVerdict
  split
  · exact outlined_raise
  · refine Outlined.bind (outlined_ofExcept _) fun id => ?_
    refine Outlined.bind (outlined_read (fun _ => rfl) trivial fun _ => rfl) fun row => ?_
    split
    · exact outlined_raise
    · refine Outlined.bind (outlined_read (fun _ => rfl) trivial fun _ => rfl) fun existing => ?_
      cases existing with
      | some v => exact trivial
      | none =>
        refine Outlined.bind (outlined_ofExcept _) fun verdictHash => ?_
        exact outlined_write (by exact trivial) fun _ _ _ _ => trivial

theorem contracted_isOk (db : Db) (subsystem : Text) {now : Instant}
    (h : 86400000000 ≤ now) : ∃ shut, contracted db subsystem now = .ok shut := by
  unfold contracted cutoff
  rw [if_pos h]
  exact ⟨_, rfl⟩

theorem recordErrorEvent_outlined (a : ErrorArgs) :
    Outlined H T (recordErrorEvent H a) fun _ _ => True := by
  refine Outlined.bind (outlined_ofExcept _) fun digest => ?_
  refine Prog.Sat.bind (Q := fun _ _ => ∃ subsystem, encode a.subsystem = .ok subsystem)
    (outlined_write (by exact trivial) fun db reply db' hwrote => ?_) fun g _ henc => ?_
  · cases hwrote with
    | error h =>
      obtain ⟨row, -, -, hsubsystem, -⟩ := h.recorded
      exact ⟨row.subsystem, encode_eq_ok.mpr hsubsystem⟩
  · obtain ⟨subsystem, henc⟩ := henc
    rw [henc]
    intro db htime
    refine ⟨⟨rfl, trivial⟩, ?_⟩
    show Prog.Sat _ _ _ _ _ _ ((Prog.ofExcept (contracted db subsystem a.now)) >>= _)
    rcases htime with hT | htime
    · cases contracted db subsystem a.now with
      | ok shut => exact trivial
      | error e => exact Or.inl hT
    · obtain ⟨shut, hshut⟩ := contracted_isOk db subsystem htime
      rw [hshut]
      exact trivial

theorem start_outlined (c : Call) : Outlined F.toHost T (start F c) fun _ _ => True := by
  cases c with
  | create a => exact createContract_outlined a
  | claim role claimer leaseSeconds batchLimit now =>
    exact claimNext_outlined _ _ _ _ _
  | result c => exact recordResult_outlined c
  | verdict c => exact recordVerdict_outlined c
  | error a => exact recordErrorEvent_outlined a

-- == runs

/-- The block an entry commits, with its answer. -/
def committed (H : Host) (e : Step) : Option (Write × Reply) :=
  match e.output with
  | .stepped _ (.write w) _ =>
    match (transaction (w.block H) e.before.shared).1 with
    | .ok reply => some (w, reply)
    | .error _ => none
  | _ => none

/-- What an entry does to the database. -/
inductive Moves (H : Host) (e : Step) : Prop
  | wrote {w : Write} {reply : Reply} (hc : committed H e = some (w, reply))
      (hfits : (Access.write w).Fits)
      (h : Wrote H w e.before.shared reply e.after.shared)
  | still (hc : committed H e = none) (h : e.after.shared = e.before.shared)

theorem moves_stepped {e : Step} {i : Nat} {g : Bool} (ho : e.output = .stepped i l g)
    (hdoes : l.Does H e.before.shared e.after.shared ∧ l.Fits) : Moves H e := by
  obtain ⟨hdoes, hfits⟩ := hdoes
  cases l with
  | write w =>
    have hc : committed H e = match (transaction (w.block H) e.before.shared).1 with
          | .ok reply => some (w, reply)
          | .error _ => none := by
      unfold committed
      rw [ho]
    replace hdoes : e.after.shared = (transaction (w.block H) e.before.shared).2 :=
      hdoes
    rcases transaction_cases (H := H) w e.before.shared with
      ⟨reply, db', hrun, -, hwrote⟩ | ⟨err, hrun, -⟩
    · rw [hrun] at hc hdoes
      exact .wrote hc hfits (by rw [hdoes]; exact hwrote)
    · rw [hrun] at hc hdoes
      exact .still hc hdoes
  | existing _ | candidates _ _ | contract _ | result _ | verdict _ | budget _ =>
    refine .still ?_ hdoes
    unfold committed
    rw [ho]

/-- The rule for runs: a relation between the entries so far and the database,
kept by every entry that meets `C`, holds after every run whose entries all meet
`C`. -/
theorem run_history {C : Step → Prop} {I : List Step → Db → Prop} (hinit : I [] Db.empty)
    (hstep : ∀ past e, Moves F.toHost e → C e → I past e.before.shared →
      I (past ++ [e]) e.after.shared)
    (sched : List (Sched Call)) (hC : ∀ e ∈ traceOf F sched, C e) :
    I (traceOf F sched) (runOf F sched).shared := by
  have hrun := Machine.history_invariant (step F) (C := C)
    (I := fun past p => I past p.shared ∧ Pool.AllSat (track F.toHost) (InTime True)
        (fun _ l db db' => l.Does F.toHost db db' ∧ l.Fits)
        (fun _ _ => True) (fun g _ => True ∨ g = false) p)
    (Pool.idle Db.empty) ⟨hinit, Pool.allSat_idle _ _⟩
    (fun past e hv hCe hpast => ?_) sched hC
  · exact hrun.1
  · obtain ⟨hI, hsat⟩ := hpast
    have hmeets : Pool.Meets (InTime True) e := by
      intro i l g _
      cases l with
      | budget now => exact Or.inl trivial
      | _ => exact trivial
    refine ⟨hstep past e ?_ hCe hI, Pool.sat_step _ _ _ _
      (fun _ c _ => start_outlined c) hv hmeets hsat⟩
    by_cases ho : ∃ i l g, e.output = .stepped i l g
    · obtain ⟨i, l, g, ho⟩ := ho
      exact moves_stepped ho (Pool.step_guarantee _ _ _ _ hv hmeets hsat ho)
    · have hquiet : ∀ i l g, e.output ≠ .stepped i l g :=
        fun i l g heq => ho ⟨i, l, g, heq⟩
      refine .still ?_ ?_
      · unfold committed
        split
        · next i w g ho => exact absurd ho (hquiet _ _ _)
        · rfl
      · rcases Pool.shared_of_quiet _ _ _ _ hv hquiet with hs | ⟨i, hs⟩
        · exact hs
        · exact hs

end Centinal26.Fleet
