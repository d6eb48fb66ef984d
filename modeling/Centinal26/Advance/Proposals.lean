/-
What adapters propose is not started without an approval.
-/
import Centinal26.Advance.Run
import Centinal26.Gateway.Payload
import Centinal26.Gateway.Race

namespace Centinal26.Advance

open Py Steps Events
open Pipeline (AutomatedEngine)
open Gateway (GatewayError AdapterIngestResult IsOurs)

variable {H : Hosts}

-- == pools

/-- Who takes a step. -/
inductive Party : Type
  | gateway
  | advance (authorize : Bool)

/-- A step of a gateway or of an advance run. -/
inductive Label : Type
  | gateway (a : Gateway.Access)
  | advance (a : Access)

/-- A call of a gateway, or of `advance_until_idle`. -/
inductive Call : Type
  | ingest (c : Gateway.Call)
  | advance (E : AutomatedEngine) (S : Settings) (fuel : Nat)

def Call.party : Call → Party
  | .ingest _ => .gateway
  | .advance _ S _ => .advance S.authorize

abbrev LProg (α : Type) := Prog Label (GatewayError ⊕ AdvanceError) World α

/-- The program of a call, on process `i` and its own connection. -/
def start (H : Hosts) (i : Nat) : Call → LProg (AdapterIngestResult ⊕ AdvanceReport)
  | .ingest c => Sum.inl <$> (Gateway.ingest H.store c).within .gateway .inl World.store
      fun s w => { w with store := s }
  | .advance E S fuel => Sum.inr <$>
      (advanceUntilIdle H { E with me := i } S fuel).within .advance .inr id fun s _ => s

abbrev Procs :=
  Pool Label (GatewayError ⊕ AdvanceError) World (AdapterIngestResult ⊕ AdvanceReport) Party

abbrev Step := Machine.Entry (Sched Call)
  (Steps.Event Label (GatewayError ⊕ AdvanceError) (AdapterIngestResult ⊕ AdvanceReport) Party)
  Procs

/-- A process that crashes loses what it has not committed. -/
def crashed (i : Nat) (w : World) : World :=
  { w with runtime := { w.runtime with disk := w.runtime.disk.rollback i } }

def step (H : Hosts) := Pool.step (start H) (fun _ c _ => c.party) (fun g _ _ _ => g) crashed

def runOf (H : Hosts) (w : World) (sched : List (Sched Call)) : Procs :=
  Machine.exec (step H) sched (Pool.idle w)

def traceOf (H : Hosts) (w : World) (sched : List (Sched Call)) : List Step :=
  Machine.trace (step H) sched (Pool.idle w)

-- == vocabulary

/-- The identifier of a task that a gateway creates. -/
def IsAdapterTask (H : Hosts) (id : PyStr) : Prop :=
  ∃ (c : Gateway.Call) (p : Gateway.Prepared),
    Gateway.prepare H.store c.1 c.2 = .ok p ∧ p.taskId = id

def Label.appends : Label → Option NewEvent
  | .gateway (.append r) => some r
  | .advance (.append r) => some r
  | _ => none

/-- The step authorizes or starts a task, or submits a job for it. -/
def Label.begins (l : Label) (id : PyStr) : Prop :=
  (∃ r, l.appends = some r ∧ r.entityId = some id
      ∧ (r.type = .taskAuthorized ∨ r.type = .taskStarted))
    ∨ ∃ a, l = .advance (.runtime (some (taskKey id)) a)

def Marked (t : Task) : Prop :=
  (t.payload.get? (py "authority")).bind Json.str? = some (py "authorization_required")

def Guards (H : Hosts) (s : ProjectState) : Prop :=
  ∀ id t, IsAdapterTask H id → s.tasks.get? id = some t → Marked t

def Guarded (H : Hosts) (w : StoreWorld) : Prop :=
  ∀ s, Rebuilt w.log s → Guards H s

-- == the gate

theorem authority_eq (t : Task) : t.get? (py "authority") = t.payload.get? (py "authority") := by
  unfold Task.get?
  rw [if_neg (by decide +kernel), if_neg (by decide +kernel), if_neg (by decide +kernel)]

theorem mode_of_marked {S : Settings} {capability : PyStr} {t : Task} {mode : Mode}
    (ht : Marked t) (h : authorizationMode S capability t = .ok mode) : mode ≠ .autoSafe := by
  unfold authorizationMode at h
  split at h
  · cases h
  · next name hname =>
    split at h
    · cases h
      decide
    · next hno =>
      cases h
      rintro rfl
      refine hno ?_
      rw [authority_eq, ht]
      simp

theorem gate_of_marked {E : AutomatedEngine} {S : Settings} {t : Task} {source : Source}
    (ht : Marked t) (hS : S.authorize = false) : gate E S t ≠ .ok (.runnable source) := by
  intro h
  unfold gate at h
  split at h
  · cases h
  · cases h
  · split at h
    · cases h
    · split at h
      · cases h
      · obtain ⟨mode, hmode, h⟩ := of_bind_ok h
        have hne := mode_of_marked ht hmode
        split at h
        · cases h
        · rw [hS, if_pos (by simp [hne])] at h
          cases h

-- == outlines

def Access.Does (H : Hosts) (authorize : Bool) (w w' : World) : Access → Prop
  | .append r => w' = { w with store := (appendEvent H.store r w.store).2 } ∧ r.type ≠ .taskCreated
      ∧ (authorize = false → r.type = .taskAuthorized ∨ r.type = .taskStarted →
          ∀ id, r.entityId = some id → ¬ IsAdapterTask H id)
  | .runtime key _ => w'.store = w.store
      ∧ (authorize = false → ∀ id, key = some (taskKey id) → ¬ IsAdapterTask H id)
  | _ => w' = w

abbrev Outlined (H : Hosts) (b : Bool) {α : Type} (p : AProg α) (Q : α → Prop) : Prop :=
  p.Sat (fun _ _ w => Guarded H w.store) (fun (_ : Unit) l w w' => l.Does H b w w')
    (fun g _ _ _ => g) (fun _ a => Q a) (fun _ _ => True) ()

section Outlines

variable {b : Bool} {α β : Type}

variable {Q : α → Prop} {E : AutomatedEngine} {S : Settings} {id : PyStr}

theorem Outlined.bind {p : AProg α} {f : α → AProg β} {R : β → Prop}
    (hp : Outlined H b p Q) (hf : ∀ a, Q a → Outlined H b (f a) R) : Outlined H b (p >>= f) R :=
  Prog.Sat.bind hp fun _ a ha => hf a ha

theorem outlined_raisePy {r : Except PyErr α}
    (h : ∀ a, r = .ok a → Q a) : Outlined H b (raisePy r) Q := by
  cases r with
  | ok a => exact h a rfl
  | error e => exact trivial

theorem appendStep_outlined {r : NewEvent} (htype : r.type ≠ .taskCreated)
    (hstart : b = false → r.type = .taskAuthorized ∨ r.type = .taskStarted →
      ∀ id, r.entityId = some id → ¬ IsAdapterTask H id) :
    Outlined H b (appendStep H r) fun _ => True :=
  Prog.Sat.of_block fun w _ => by
    refine ⟨⟨rfl, htype, hstart⟩, ?_⟩
    cases (appendEvent H.store r w.store).1 <;> exact trivial

theorem verifyStep_outlined : Outlined H b (verifyStep H) fun _ => True :=
  Prog.Sat.of_block fun w _ => by
    refine ⟨rfl, ?_⟩
    cases verifyChain H.store w.store.log.rows <;> exact trivial

theorem stateOf_ok {log : EventLog} {s : ProjectState} (h : stateOf log = .ok s) :
    Rebuilt log s := by
  obtain ⟨es, hes, h⟩ := of_bind_ok h
  exact ⟨es, hes, h⟩

theorem rebuildStep_outlined : Outlined H b rebuildStep (Guards H) :=
  Prog.Sat.of_block fun w hw => by
    refine ⟨rfl, ?_⟩
    cases hs : stateOf w.store.log with
    | error e => exact trivial
    | ok s => exact hw s (stateOf_ok hs)

theorem runtimePart_outlined {key : Option PyStr} {p : Pipeline.RProg α}
    (h : b = false → ∀ id, key = some (taskKey id) → ¬ IsAdapterTask H id) :
    Outlined H b (runtimePart key p) fun _ => True :=
  Prog.Sat.within (g := ()) Prog.sat_true (fun _ _ _ => trivial)
    (fun _ _ _ _ _ => ⟨rfl, h⟩) fun _ _ => trivial

theorem no_key (id : PyStr) (h : (none : Option PyStr) = some (taskKey id)) :
    ¬ IsAdapterTask H id := by
  cases h

theorem recordBlockerOnce_outlined (state : ProjectState) (id : PyStr) (reason : Reason)
    (detail : PyStr) : Outlined H b (recordBlockerOnce H state id reason detail) fun _ => True := by
  refine Outlined.bind (outlined_raisePy fun _ _ => trivial) fun text _ => ?_
  split
  · exact trivial
  · refine appendStep_outlined (fun h => by cases h) fun _ htype => ?_
    rcases htype with htype | htype <;> cases htype

theorem survey_outlined {state : ProjectState} (hstate : Guards H state) (ready : List PyStr) :
    Outlined H b (survey H E S state ready) fun found =>
      S.authorize = false → ∀ m ∈ found.1, ¬ IsAdapterTask H m.1 := by
  induction ready with
  | nil => exact fun _ m hm => (by cases hm)
  | cons id rest ih =>
    unfold survey
    split
    · exact trivial
    · next task htask =>
      refine Outlined.bind (Q := fun g => gate E S task = .ok g)
        (outlined_raisePy fun g hg => hg) fun g hg => ?_
      cases g with
      | blocked reason detail =>
        refine Outlined.bind (recordBlockerOnce_outlined state id reason detail) fun _ _ => ?_
        exact Outlined.bind ih fun found hfound => hfound
      | runnable source =>
        refine Outlined.bind ih fun found hfound => ?_
        intro hS m hm
        rcases List.mem_cons.mp hm with rfl | hm
        · exact fun hid => gate_of_marked (hstate id task hid htask) hS hg
        · exact hfound hS m hm

theorem drive_outlined (jobId : Text) (fuel : Nat) :
    Outlined H b (drive H E jobId fuel) fun _ => True := by
  induction fuel with
  | zero => exact trivial
  | succ fuel ih =>
    refine Outlined.bind (runtimePart_outlined fun _ => no_key) fun row _ => ?_
    split
    · exact trivial
    · refine Outlined.bind (runtimePart_outlined fun _ => no_key) fun executed _ => ?_
      split
      · exact trivial
      · split
        · exact trivial
        · exact ih

theorem endTask_outlined (id : PyStr) (state : Pipeline.JobState) (fields : List (PyKey × PyVal)) :
    Outlined H b (endTask H id state fields) fun _ => True := by
  have hstep : ∀ (type : EventType) (fields : List (PyKey × PyVal)),
      type ≠ .taskCreated → type ≠ .taskAuthorized → type ≠ .taskStarted →
      Outlined H b (appendStep H (taskEvent type id fields)) fun _ => True :=
    fun type fields hc ha hs => appendStep_outlined hc fun _ htype =>
      htype.elim (fun h => absurd h ha) fun h => absurd h hs
  unfold endTask
  split
  · refine Outlined.bind (hstep _ _ nofun nofun nofun) fun _ _ => ?_
    refine Outlined.bind (hstep _ _ nofun nofun nofun) fun _ _ => ?_
    exact Outlined.bind (hstep _ _ nofun nofun nofun) fun _ _ => trivial
  · refine Outlined.bind (hstep _ _ nofun nofun nofun) fun _ _ => ?_
    exact Outlined.bind (hstep _ _ nofun nofun nofun) fun _ _ => trivial
  · exact Outlined.bind (hstep _ _ nofun nofun nofun) fun _ _ => trivial

theorem taskKey_injective {id' : PyStr} (h : some (taskKey id) = some (taskKey id')) : id = id' :=
  List.append_cancel_left (Option.some.inj h)

theorem runTask_outlined {fuel : Nat} {capability : PyStr}
    {task : Task} {source : Source} (hid : b = false → ¬ IsAdapterTask H id) :
    Outlined H b (runTask H E fuel id capability task source) fun _ => True := by
  have hstep : ∀ (type : EventType) (fields : List (PyKey × PyVal)), type ≠ .taskCreated →
      Outlined H b (appendStep H (taskEvent type id fields)) fun _ => True :=
    fun type fields hc => appendStep_outlined hc fun hb _ id' hid' => by
      cases hid'
      exact hid hb
  refine Outlined.bind (outlined_raisePy fun _ _ => trivial) fun payload _ => ?_
  refine Outlined.bind (runtimePart_outlined fun _ => no_key) fun grant _ => ?_
  have hrest : Outlined H b (do
      appendStep H (taskEvent .taskAuthorized id
        [item "capability" (.str capability), item "grant_id" (.str grant.grantId),
          item "expires_at" (.str grant.expiresAt.raw),
          item "authorization_source" (.str (py source.value))])
      let jobId ← runtimePart (some (taskKey id)) (Pipeline.engineSubmit H.runtime E
        (deterministicIntent id capability payload) grant (some (taskKey id)))
      appendStep H (taskEvent .taskStarted id
        [item "job_id" jobId.val, item "capability" (.str capability)])
      let row ← drive H E jobId fuel
      let fields ← raisePy (endFields H jobId row)
      endTask H id row.state fields) fun _ => True := by
    refine Outlined.bind (hstep _ _ nofun) fun _ _ => ?_
    refine Outlined.bind (runtimePart_outlined fun hb id' hid' => ?_) fun jobId _ => ?_
    · rw [← taskKey_injective hid']
      exact hid hb
    · refine Outlined.bind (hstep _ _ nofun) fun _ _ => ?_
      refine Outlined.bind (drive_outlined jobId fuel) fun row _ => ?_
      refine Outlined.bind (outlined_raisePy fun _ _ => trivial) fun fields _ => ?_
      exact endTask_outlined id row.state fields
  show Outlined H b (if task.status ≠ .ready then _ else _) _
  split
  · exact Outlined.bind (hstep _ _ nofun) fun _ _ => hrest
  · exact hrest

theorem advanceLoop_outlined (fuel left : Nat) (report : AdvanceReport) :
    Outlined H S.authorize (advanceLoop H E S fuel left report) fun _ => True := by
  induction left generalizing report with
  | zero => exact trivial
  | succ left ih =>
    refine Outlined.bind rebuildStep_outlined fun state hstate => ?_
    refine Outlined.bind (survey_outlined hstate _) fun found hfound => ?_
    obtain ⟨runnable, blockers⟩ := found
    cases runnable with
    | nil => exact trivial
    | cons m rest =>
      have hid : S.authorize = false → ¬ IsAdapterTask H m.1 := fun hS =>
        hfound hS m (List.mem_cons_self ..)
      refine Outlined.bind rebuildStep_outlined fun state' _ => ?_
      split
      · exact trivial
      · exact Outlined.bind (runTask_outlined hid) fun ok _ => ih _

theorem advanceUntilIdle_outlined (E : AutomatedEngine) (S : Settings) (fuel : Nat) :
    Outlined H S.authorize (advanceUntilIdle H E S fuel) fun _ => True := by
  unfold advanceUntilIdle
  split
  · exact trivial
  · refine Outlined.bind verifyStep_outlined fun valid _ => ?_
    split
    · refine Outlined.bind (outlined_raisePy fun _ _ => trivial) fun _ _ => ?_
      refine Outlined.bind (advanceLoop_outlined fuel _ _) fun report _ => ?_
      exact Outlined.bind rebuildStep_outlined fun state _ => trivial
    · exact trivial

end Outlines

def Label.Does (H : Hosts) (w w' : World) : Party → Label → Prop
  | .gateway, .gateway a =>
    a.Does H.store w.store w'.store
  | .advance b, .advance a => a.Does H b w w'
  | _, _ => False

theorem start_outlined (i : Nat) (c : Call) :
    (start H i c).Sat (fun _ _ w => Guarded H w.store) (fun g l w w' => l.Does H w w' g)
      (fun g _ _ _ => g) (fun _ _ => True) (fun _ _ => True) c.party := by
  cases c with
  | ingest c =>
    refine Prog.Sat.bind (Q := fun _ _ => True) ?_ fun _ _ _ => trivial
    refine Prog.Sat.imp (Prog.Sat.within (g := ()) (Gateway.ingest_outlined c)
      (fun _ _ _ => trivial) (fun _ _ _ _ h => h) (F := fun _ _ => True)
      fun _ _ => trivial) (fun _ _ _ => trivial) fun _ _ _ => trivial
  | advance E S fuel =>
    refine Prog.Sat.bind (Q := fun _ _ => True) ?_ fun _ _ _ => trivial
    refine Prog.Sat.imp (Prog.Sat.within (g := ())
      (advanceUntilIdle_outlined { E with me := i } S fuel)
      (fun _ _ h => h) (fun _ _ _ _ h => h) (F := fun _ _ => True)
      fun _ _ => trivial) (fun _ _ _ => trivial) fun _ _ _ => trivial

-- == preservation

theorem task_of_set {s : ProjectState} {id id' : PyStr} {t t' : Task}
    (h : (s.setTask id t).tasks.get? id' = some t') :
    id' = id ∧ t' = t ∨ s.tasks.get? id' = some t' := by
  unfold ProjectState.setTask at h
  rw [Dict.get?_set] at h
  split at h
  · next heq =>
    cases h
    exact Or.inl ⟨heq, rfl⟩
  · exact Or.inr h

theorem guarded_append {w : StoreWorld} {r : NewEvent}
    (hr : IsOurs H.store r ∨ r.type ≠ .taskCreated) (h : Guarded H w) :
    Guarded H (appendEvent H.store r w).2 := by
  cases hacc : accepted H.store w r with
  | false =>
    obtain ⟨err, w', hrun, hlog⟩ := appendEvent_refused hacc
    rw [hrun]
    unfold Guarded
    rw [hlog]
    exact h
  | true =>
    obtain ⟨fields, e, log, hfields, happended, hrun⟩ := appendEvent_accepted hacc
    rw [hrun]
    intro s' hs' id t hid ht
    obtain ⟨s, mid, hs, hmid, rfl⟩ := rebuilt_of_append happended hs'
    have hguards := h s hs
    replace ht : mid.tasks.get? id = some t := ht
    generalize htype : r.type = type at hmid
    cases reduceType_change hmid with
    | other _ _ htasks =>
      rw [htasks] at ht
      exact hguards id t hid ht
    | depends _ _ hold =>
      rcases task_of_set ht with ⟨rfl, rfl⟩ | ht
      · have hold := hguards id _ hid hold
        exact hold
      · exact hguards id t hid ht
    | moved _ _ hold =>
      rcases task_of_set ht with ⟨rfl, rfl⟩ | ht
      · have hold := hguards id _ hid hold
        exact hold
      · exact hguards id t hid ht
    | created _ _ =>
      rcases task_of_set ht with ⟨rfl, rfl⟩ | ht
      · obtain ⟨c, p, hp, hr⟩ := hr.resolve_right (not_not_intro htype)
        rcases hr with rfl | rfl
        · cases htype
        · obtain ⟨fields', hfields', hmembers⟩ := Gateway.taskEvent_fields hp
          rw [hfields] at hfields'
          cases hfields'
          unfold Marked
          rw [happended.payload, Gateway.get?_of_sorted hmembers
            (k := py "authority") (v := .str (py "authorization_required"))
            (by simp [Gateway.Prepared.taskMembers])]
          rfl
      · exact hguards id t hid ht

variable {w w' : World} {g : Party} {l : Label}

theorem guarded_step (h : l.Does H w w' g) (hw : Guarded H w.store) : Guarded H w'.store := by
  cases g with
  | gateway =>
    cases l with
    | advance a => cases h
    | gateway a =>
      cases a with
      | append r =>
        have hdoes : IsOurs H.store r ∧ w'.store = (appendEvent H.store r w.store).2 := h
        rw [hdoes.2]
        exact guarded_append (Or.inl hdoes.1) hw
      | verify | count | rebuild =>
        have hdoes : w'.store = w.store := h
        rw [hdoes]
        exact hw
  | advance b =>
    cases l with
    | gateway a => cases h
    | advance a =>
      cases a with
      | append r =>
        obtain ⟨rfl, htype, -⟩ := h
        exact guarded_append (Or.inr htype) hw
      | runtime key a =>
        rw [h.1]
        exact hw
      | verify | rebuild =>
        have hdoes : w' = w := h
        rw [hdoes]
        exact hw

-- == runs

theorem proposal_step (h : l.Does H w w' g) :
    (g = .gateway → ∀ r, l.appends = some r → r.type = .sourceIngested ∨ r.type = .taskCreated)
      ∧ (g = .advance false → ∀ id, IsAdapterTask H id → ¬ l.begins id) := by
  constructor
  · rintro rfl r hr
    cases l with
    | advance a => cases h
    | gateway a =>
      cases a with
      | append r' =>
        cases hr
        obtain ⟨c, p, -, rfl | rfl⟩ := h.1
        · exact Or.inl rfl
        · exact Or.inr rfl
      | verify | count | rebuild => cases hr
  · rintro rfl id hid hbegins
    cases l with
    | gateway a => cases h
    | advance a =>
      cases a with
      | append r' =>
        rcases hbegins with ⟨r, hr, hentity, htype⟩ | ⟨a, ha⟩
        · cases hr
          exact h.2.2 rfl htype id hentity hid
        · cases ha
      | runtime key a' =>
        rcases hbegins with ⟨r, hr, -⟩ | ⟨a, ha⟩
        · cases hr
        · cases ha
          exact h.2 rfl id rfl hid
      | verify | rebuild =>
        rcases hbegins with ⟨r, hr, -⟩ | ⟨a, ha⟩
        · cases hr
        · cases ha

/-- A gateway appends sources and tasks only, and a run without authorization
begins no adapter's task. -/
def ProposesOnly (H : Hosts) (e : Step) : Prop :=
  ∀ i l, (e.output = .stepped i l .gateway → ∀ r, l.appends = some r →
      r.type = .sourceIngested ∨ r.type = .taskCreated)
    ∧ (e.output = .stepped i l (.advance false) → ∀ id, IsAdapterTask H id → ¬ l.begins id)

def ProposalsOnly (H : Hosts) (w : World) (sched : List (Sched Call)) : Prop :=
  ∀ e ∈ traceOf H w sched, ProposesOnly H e

/-- In every run of gateways and advance runs, adapters propose only. -/
theorem adapters_propose (H : Hosts) (w : World)
    (hw : ∀ s, Rebuilt w.store.log s → ∀ id, IsAdapterTask H id → s.tasks.get? id = none)
    (sched : List (Sched Call)) : ProposalsOnly H w sched := by
  have hrun := Machine.history_invariant (step H) (C := fun _ => True)
    (I := fun past p => Guarded H p.shared.store
      ∧ Pool.AllSat (fun g _ _ _ => g) (fun _ _ w => Guarded H w.store)
        (fun g l w w' => Label.Does H w w' g l) (fun _ _ => True) (fun _ _ => True) p
      ∧ ∀ e ∈ past, ProposesOnly H e)
    (Pool.idle w) ⟨fun s hs id t hid ht => ?_, Pool.allSat_idle _ _, fun _ he => (by cases he)⟩
    (fun past e hv _ hI => ?_) sched fun _ _ => trivial
  · exact hrun.2.2
  · rw [hw s hs id hid] at ht
    cases ht
  · obtain ⟨hguarded, hsat, hpast⟩ := hI
    have hmeets : Pool.Meets (fun (_ : Party) (_ : Label) w => Guarded H w.store) e :=
      fun _ _ _ _ => hguarded
    have hsat' := Pool.sat_step _ _ _ _ (fun i c _ => start_outlined i c) hv hmeets hsat
    by_cases ho : ∃ i l g, e.output = .stepped i l g
    · obtain ⟨i, l, g, ho⟩ := ho
      have hdoes := Pool.step_guarantee _ _ _ _ hv hmeets hsat ho
      refine ⟨guarded_step hdoes hguarded, hsat', fun d hd => ?_⟩
      rcases List.mem_append.mp hd with hd | hd
      · exact hpast d hd
      · rw [List.mem_singleton.mp hd]
        have hstep := proposal_step hdoes
        refine fun j m => ⟨fun heq => ?_, fun heq => ?_⟩ <;> rw [ho] at heq
        · cases heq
          exact hstep.1 rfl
        · cases heq
          exact hstep.2 rfl
    · have hquiet : ∀ i l g, e.output ≠ .stepped i l g :=
        fun i l g heq => ho ⟨i, l, g, heq⟩
      refine ⟨?_, hsat', fun d hd => ?_⟩
      · rcases Pool.shared_of_quiet _ _ _ _ hv hquiet with hs | ⟨i, hs⟩
        · rw [hs]
          exact hguarded
        · rw [hs]
          exact hguarded
      · rcases List.mem_append.mp hd with hd | hd
        · exact hpast d hd
        · rw [List.mem_singleton.mp hd]
          exact fun j m => ⟨fun heq => absurd heq (hquiet _ _ _),
            fun heq => absurd heq (hquiet _ _ _)⟩

-- == try-outs

def machines : Hosts := ⟨Gateway.machine, Gateway.machine⟩

def newWorld : World := ⟨Gateway.newStore, Pipeline.World.init⟩

/-- An engine with one capability, which gives back what it gets. -/
def echoEngine : AutomatedEngine where
  me := 0
  capabilities := fun name =>
    if name = py "echo" then
      some ⟨name, fun _ v => (.returned v, .infinity), fun _ _ _ => .returned (.bool true),
        none, .infinity, 2, true, py "echo_verifier"⟩
    else none
  describe := fun _ => []

/-- Runs for which the capability is safe, authorized or not. -/
def echoSettings (authorize : Bool) : Settings :=
  ⟨authorize, 100, some (Dict.empty.set (py "echo") (py "AUTO_SAFE"))⟩

/-- A gateway gets a request, then a run without authorization goes over the log,
and then one with it. -/
def proposed : List (Sched Call) :=
  .spawn 0 (.ingest (Gateway.request "1")) :: List.replicate 10 (.advance 0)
    ++ .spawn 1 (.advance echoEngine (echoSettings false) 2) :: List.replicate 10 (.advance 1)
    ++ .spawn 2 (.advance echoEngine (echoSettings true) 2) :: List.replicate 80 (.advance 2)

theorem proposed_only : ProposalsOnly machines newWorld proposed :=
  adapters_propose machines newWorld (fun s hs id _ => by
    obtain ⟨es, hes, hs⟩ := hs
    cases hes
    cases hs
    rfl) proposed

end Centinal26.Advance
