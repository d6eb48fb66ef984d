/-
Gateways on one store, step by step.
-/
import Centinal26.Gateway.Request
import Centinal26.Ingest.Poison

namespace Centinal26.Gateway

open Py Steps Events

variable {H : Host}

-- == outlines

def IsOurs (H : Host) (r : NewEvent) : Prop :=
  ∃ (c : Call) (p : Prepared), prepare H c.1 c.2 = .ok p ∧ (r = p.sourceEvent ∨ r = p.taskEvent)

/-- What a step does to the store: only an append changes it, and what is
appended is an event of a request. -/
def Access.Does (H : Host) (w w' : StoreWorld) : Access → Prop
  | .append r => IsOurs H r ∧ w' = (appendEvent H r w).2
  | _ => w' = w

abbrev Outlined (H : Host) {α : Type} (p : GProg α) (Q : α → Prop) : Prop :=
  p.Sat (fun _ _ _ => True) (fun (_ : Unit) l w w' => l.Does H w w')
    (fun _ _ _ _ => ()) (fun _ a => Q a) (fun _ _ => True) ()

variable {α : Type} {p : Prepared} {r : NewEvent} {c : Call} {e : Step} {Q : α → Prop}

theorem Outlined.bind {β : Type} {p : GProg α} {f : α → GProg β}
    {R : β → Prop} (hp : Outlined H p Q) (hf : ∀ a, Q a → Outlined H (f a) R) :
    Outlined H (p >>= f) R :=
  Prog.Sat.bind hp fun _ a ha => hf a ha

theorem outlined_ofExcept {r : Except GatewayError α}
    (h : ∀ a, r = .ok a → Q a) : Outlined H (Prog.ofExcept r) Q := by
  cases r with
  | ok a => exact h a rfl
  | error e => exact trivial

theorem outlined_read {l : Access} {m : Block GatewayError StoreWorld α}
    (hl : ∀ w, l.Does H w w) (hm : ∀ w, (m w).2 = w) : Outlined H (Prog.block l m) fun _ => True :=
  Prog.Sat.of_block fun w _ => by
    refine ⟨by rw [hm w]; exact hl w, ?_⟩
    cases (m w).1 <;> exact trivial

theorem appendStep_outlined (hr : IsOurs H r) : Outlined H (appendStep H r) fun _ => True :=
  Prog.Sat.of_block fun w _ => by
    refine ⟨⟨hr, rfl⟩, ?_⟩
    cases (appendEvent H r w).1 <;> exact trivial

theorem rebuildStep_outlined : Outlined H rebuildStep fun _ => True :=
  outlined_read (fun _ => rfl) fun _ => rfl

theorem recordSource_outlined
    (hp : prepare H c.1 c.2 = .ok p) : Outlined H (recordSource H p) fun _ => True := by
  refine Outlined.bind rebuildStep_outlined fun state _ => ?_
  split
  · split <;> exact trivial
  · exact Outlined.bind (appendStep_outlined ⟨c, p, hp, Or.inl rfl⟩) fun _ _ => trivial

theorem recordTask_outlined
    (hp : prepare H c.1 c.2 = .ok p) : Outlined H (recordTask H p) fun _ => True := by
  refine Outlined.bind rebuildStep_outlined fun state _ => ?_
  split
  · split <;> exact trivial
  · exact Outlined.bind (appendStep_outlined ⟨c, p, hp, Or.inr rfl⟩) fun _ _ => trivial

theorem confirm_outlined (p : Prepared) : Outlined H (confirm p) fun _ => True := by
  refine Outlined.bind rebuildStep_outlined fun state _ => ?_
  split
  · exact trivial
  · split
    · exact trivial
    · split <;> exact trivial

theorem ingest_outlined (c : Call) : Outlined H (ingest H c) fun _ => True := by
  refine Outlined.bind (outlined_read (fun _ => rfl) fun _ => rfl) fun valid _ => ?_
  split
  · refine Outlined.bind (Q := fun p => prepare H c.1 c.2 = .ok p)
      (outlined_ofExcept fun p hp => ?_) fun p hp => ?_
    · cases h : prepare H c.1 c.2 with
      | ok q =>
        rw [h] at hp
        cases hp
        rfl
      | error e =>
        rw [h] at hp
        cases hp
    · have hcount : Outlined H countStep fun _ => True :=
        outlined_read (fun _ => rfl) fun _ => rfl
      refine Outlined.bind hcount fun start _ => ?_
      refine Outlined.bind (recordSource_outlined hp) fun _ _ => ?_
      refine Outlined.bind (recordTask_outlined hp) fun _ _ => ?_
      refine Outlined.bind (confirm_outlined p) fun _ _ => ?_
      refine Outlined.bind hcount fun now _ => ?_
      exact Outlined.bind hcount fun later _ => trivial
  · exact trivial

-- == steps

/-- What an entry does to the store. -/
inductive Moves (H : Host) (e : Step) : Prop
  | appended {i : Nat} {r : NewEvent} (ho : e.output = .stepped i (.append r) ())
      (hours : IsOurs H r) (h : e.after.shared = (appendEvent H r e.before.shared).2)
  | still (ho : ∀ i r g, e.output ≠ .stepped i (.append r) g) (h : e.after.shared = e.before.shared)

abbrev AllOutlined (H : Host) (p : Procs) : Prop :=
  Pool.AllSat (fun _ _ _ _ => ()) (fun _ _ _ => True)
    (fun (_ : Unit) l w w' => Access.Does H w w' l) (fun _ _ => True) (fun _ _ => True) p

theorem moves_step (hv : e.Valid (step H)) (hsat : AllOutlined H e.before) :
    Moves H e ∧ AllOutlined H e.after := by
  have hmeets : Pool.Meets (fun (_ : Unit) (_ : Access) (_ : StoreWorld) => True) e :=
    fun _ _ _ _ => trivial
  refine ⟨?_, Pool.sat_step _ _ _ _ (fun _ c _ => ingest_outlined c) hv hmeets hsat⟩
  by_cases ho : ∃ i l g, e.output = .stepped i l g
  · obtain ⟨i, l, g, ho⟩ := ho
    have hdoes := Pool.step_guarantee _ _ _ _ hv hmeets hsat ho
    cases l with
    | append r => exact .appended ho hdoes.1 hdoes.2
    | verify | count | rebuild =>
      exact .still (fun j r g' heq => by rw [ho] at heq; cases heq) hdoes
  · have hquiet : ∀ i l g, e.output ≠ .stepped i l g :=
      fun i l g heq => ho ⟨i, l, g, heq⟩
    refine .still (fun i r g => hquiet i _ g) ?_
    rcases Pool.shared_of_quiet _ _ _ _ hv hquiet with hs | ⟨i, hs⟩
    · exact hs
    · exact hs

-- == reduction

def Reduces (log : EventLog) : Prop := ∃ s, Rebuilt log s

theorem stateOf_ok {log : EventLog} {s : ProjectState} : stateOf log = .ok s ↔ Rebuilt log s := by
  constructor
  · intro h
    obtain ⟨es, hes, h⟩ := of_bind_ok h
    exact ⟨es, hes, h⟩
  · rintro ⟨es, hes, h⟩
    unfold stateOf
    rw [hes]
    exact h

theorem IsOurs.record (h : IsOurs H r) : Ingest.IsRecord r := by
  obtain ⟨c, p, hp, hr⟩ := h
  unfold prepare at hp
  obtain ⟨body, -, hp⟩ := of_bind_ok hp
  obtain ⟨status, -, hp⟩ := of_bind_ok hp
  obtain ⟨digest, -, hp⟩ := of_bind_ok hp
  obtain ⟨suffix, -, hp⟩ := of_bind_ok hp
  cases hp
  rcases hr with rfl | rfl
  · exact ⟨nofun, rfl, _, rfl, List.cons_ne_nil _ _⟩
  · exact ⟨nofun, rfl, _, rfl, List.cons_ne_nil _ _⟩

/-- The append creates no task that the log has, or is refused. -/
def creates (H : Host) (w : StoreWorld) (r : NewEvent) : Bool :=
  !accepted H w r || decide (r.type ≠ .taskCreated) || match stateOf w.log with
      | .ok s => r.entityId.all fun id => (s.tasks.get? id).isNone
      | .error _ => true

def unclaimed (H : Host) (e : Step) : Bool :=
  match e.output with
  | .stepped _ (.append r) _ => creates H e.before.shared r
  | _ => true

/-- After an append the log reduces if it did and the task, if one is created,
is new. -/
theorem reduces_append {w : StoreWorld} (hr : Ingest.IsRecord r) :
    Reduces (appendEvent H r w).2.log ↔ Reduces w.log ∧ creates H w r = true := by
  cases hacc : accepted H w r with
  | false =>
    obtain ⟨err, w', hrun, hlog⟩ := appendEvent_refused hacc
    rw [hrun, hlog]
    exact ⟨fun h => ⟨h, by simp [creates, hacc]⟩, And.left⟩
  | true =>
    obtain ⟨fields, e, log, -, happended, hrun⟩ := appendEvent_accepted hacc
    rw [hrun]
    show Reduces log ↔ _
    by_cases hred : Reduces w.log
    · obtain ⟨s, hs⟩ := hred
      have hcreates : creates H w r = (decide (r.type ≠ .taskCreated)
          || r.entityId.all fun id => (s.tasks.get? id).isNone) := by
        simp only [creates, hacc, stateOf_ok.mpr hs, Bool.not_true, Bool.false_or]
      rw [hcreates]
      rcases Ingest.reduceType_record (s := s) hr happended.entityId with
        ⟨hother, mid, hmid, -⟩ | ⟨id, htask, hid, hmid⟩
      · exact ⟨fun _ => ⟨⟨s, hs⟩, by simp [hother]⟩, fun _ => ⟨_, rebuilt_append hs happended hmid⟩⟩
      · cases hold : s.tasks.get? id with
        | none =>
          rw [hold] at hmid
          exact ⟨fun _ => ⟨⟨s, hs⟩, by simp [hid, hold]⟩,
            fun _ => ⟨_, rebuilt_append hs happended hmid⟩⟩
        | some t =>
          rw [hold] at hmid
          constructor
          · rintro ⟨s', hs'⟩
            exact absurd hs' (not_rebuilt_append hs happended hmid s')
          · intro h
            have := h.2
            simp [htask, hid, hold] at this
    · constructor
      · rintro ⟨s', hs'⟩
        exact absurd hs' (not_rebuilt_mono happended (fun s hs => hred ⟨s, hs⟩) s')
      · exact fun h => absurd h.1 hred

theorem Moves.reduces (h : Moves H e) : Reduces e.after.shared.log
      ↔ Reduces e.before.shared.log ∧ unclaimed H e = true := by
  cases h with
  | appended ho hours h =>
    rw [h, reduces_append hours.record]
    unfold unclaimed
    rw [ho]
  | still ho h =>
    have hquiet : unclaimed H e = true := by
      unfold unclaimed
      split
      · next heq => exact absurd heq (ho _ _ _)
      · rfl
    rw [h, hquiet]
    exact (and_iff_left rfl).symm

-- == runs

/-- A log that reduces does so after a run exactly if no append of the run
creates a task the log has. -/
theorem log_reduces (H : Host) (w : StoreWorld) (hw : Reduces w.log) (sched : List (Sched Call)) :
    Reduces (runOf H w sched).shared.log ↔ ∀ e ∈ traceOf H w sched, unclaimed H e = true := by
  have hrun := Machine.history_invariant (step H) (C := fun _ => True)
    (I := fun past p => AllOutlined H p ∧ (Reduces p.shared.log ↔ ∀ e ∈ past, unclaimed H e = true))
    (Pool.idle w) ⟨Pool.allSat_idle _ _, nofun, fun _ => hw⟩
    (fun past e hv _ hI => ?_) sched fun _ _ => trivial
  · exact hrun.2
  · obtain ⟨hsat, hiff⟩ := hI
    obtain ⟨hmoves, hsat'⟩ := moves_step hv hsat
    refine ⟨hsat', ?_⟩
    rw [hmoves.reduces, hiff]
    simp only [List.mem_append, List.mem_singleton, or_imp, forall_and, forall_eq]

-- == try-outs

def newStore : StoreWorld := ⟨.empty, 0, 0⟩

theorem newStore_reduces : Reduces newStore.log := ⟨.empty, [], rfl, rfl⟩

def machine : Host := Host.sample fun n => n

/-- The catalog's descriptor of one adapter. -/
def catalog : FederationCatalog :=
  Dict.empty.set (py "hermes") ⟨[py "agent.invoke", py "intent.submit"], .notConfigured⟩

def request (externalId : String) : Call :=
  (catalog, ⟨py "hermes", py externalId, py "echo", .dict [], .dict [], .none, .none⟩)

def inTurn : List (Sched Call) :=
  .spawn 0 (request "1") :: List.replicate 10 (.advance 0)
    ++ .spawn 1 (request "1") :: List.replicate 8 (.advance 1)

theorem inTurn_reduces : Reduces (runOf machine newStore inTurn).shared.log :=
  (log_reduces machine newStore newStore_reduces inTurn).mpr
    (List.all_eq_true.mp (by decide +kernel))

/-- Two gateways get the same request, and both look for its task before either
creates it. -/
def race : List (Sched Call) :=
  [.spawn 0 (request "1"), .spawn 1 (request "1")] ++ List.replicate 5 (.advance 0)
    ++ List.replicate 4 (.advance 1) ++ [.advance 0, .advance 1]

theorem created_twice : ¬ Reduces (runOf machine newStore race).shared.log := by
  rintro ⟨s, hs⟩
  have hfails : (stateOf (runOf machine newStore race).shared.log).isOk = false := by
    decide +kernel
  rw [stateOf_ok.mpr hs] at hfails
  cases hfails

end Centinal26.Gateway
