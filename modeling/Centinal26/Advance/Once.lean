/-
Requests are ingested once.
-/
import Centinal26.Advance.Proposals
import Centinal26.Gateway.Once

namespace Centinal26.Advance

open Py Steps Events
open Pipeline (AutomatedEngine)
open Gateway (Prepared Kind Tells Good IsGood CollisionFree AdapterIngestResult GatewayError
  AtMostOnce Agrees missing answer Grown appendText)

variable {H : Hosts}

def Access.text (H : Hosts) (w : World) : Access → Option Text
  | .append r => appendText H.store r w.store
  | _ => none

-- == advance runs

section Advance

variable {P : Prepared → Prop} {T : Text → Prop} {w : World} {id : PyStr}

/-- The program keeps the store good, and leaves `J`. -/
abbrev Keeps (H : Hosts) (P : Prepared → Prop) (T : Text → Prop) {α : Type}
    (J : World → Prop) (p : AProg α) (w : World) : Prop :=
  p.Through (fun l w => ∀ t, l.text H w = some t → T t) (fun w => IsGood H.store P T w.store)
    (fun _ w => J w) (fun _ w => IsGood H.store P T w.store) w

def Has (H : Hosts) (P : Prepared → Prop) (T : Text → Prop) (id : PyStr) (w : World) : Prop :=
  ∃ s, Good H.store P T w.store s ∧ (s.tasks.get? id).isSome = true

theorem Has.good (h : Has H P T id w) : IsGood H.store P T w.store := by
  obtain ⟨s, h, -⟩ := h
  exact ⟨s, h⟩

variable {α : Type} {J : World → Prop} {state : ProjectState} {E : AutomatedEngine} {S : Settings}

theorem Keeps.bind {β : Type} {K : World → Prop} {p : AProg α} {f : α → AProg β}
    (hp : Keeps H P T J p w) (hf : ∀ a w, J w → Keeps H P T K (f a) w) :
    Keeps H P T K (p >>= f) w :=
  Prog.Through.bind hp hf

theorem keeps_append {s : ProjectState} {r : NewEvent} {Q : ProjectState → Prop}
    (h : Good H.store P T w.store s) (hmid : ∀ e : Events.Event, e.type = Text.lit r.type.value →
      e.entityId.map Text.str = r.entityId →
      ∃ mid, reduceType s e r.type = .ok mid ∧ Tells P (w.store.log.rows ++ [EventLog.rowOf e]) mid
        ∧ ∀ seq hash, Q { mid with lastSeq := seq, lastHash := hash }) :
    Keeps H P T (fun w => ∃ s, Good H.store P T w.store s ∧ Q s) (appendStep H r) w := by
  refine Prog.Through.block fun hT => ?_
  have hkept := h.kept.append hT
  cases hacc : accepted H.store w.store r with
  | false =>
    obtain ⟨err, w', hrun, hlog⟩ := appendEvent_refused hacc
    have hsame : Good H.store P T w' s := by
      rw [hrun] at hkept
      refine ⟨hkept, ?_, hlog ▸ h.tells⟩
      unfold Rebuilt
      rw [hlog]
      exact h.rebuilt
    simp only [hrun]
    exact ⟨⟨s, hsame⟩, s, hsame⟩
  | true =>
    obtain ⟨fields, e, log, -, ha, hrun⟩ := appendEvent_accepted hacc
    obtain ⟨mid, hreduce, htells, hmid⟩ := hmid e ha.type ha.entityId
    rw [hrun] at hkept
    have hgood : Good H.store P T { w.store.drawn with log := log }
        { mid with lastSeq := e.seq, lastHash := e.eventHash } := by
      refine ⟨hkept, rebuilt_append h.rebuilt ha hreduce, ?_⟩
      rw [ha.rows]
      exact htells.congr rfl rfl
    simp only [hrun]
    exact ⟨⟨_, hgood⟩, _, hgood, hmid _ _⟩

theorem keeps_taskEvent (hfree : CollisionFree H.store P T) (h : Has H P T id w)
    {type : EventType} {status : TaskStatus} (hstatus : type.status? = some status)
    (fields : List (PyKey × PyVal)) :
    Keeps H P T (Has H P T id) (appendStep H (taskEvent type id fields)) w := by
  obtain ⟨s, hgood, htask⟩ := h
  obtain ⟨t, ht⟩ := Option.isSome_iff_exists.mp htask
  have hne : ∀ k : Kind, type ≠ k.type := by
    rintro k rfl
    cases k <;> cases hstatus
  have hid : id ≠ [] := by
    have hfound : Kind.task.find s id = some t.payload := by
      show (s.tasks.get? id).map Task.payload = _
      rw [ht]
      rfl
    obtain ⟨q, hq, rfl, -⟩ := (hgood.tells.filed .task).of_found hfound
    obtain ⟨catalog, r, hprepared⟩ := hfree.prepared q hq
    exact Gateway.requestId_ne_nil hprepared .task
  refine keeps_append hgood fun e htype hentity => ?_
  have hentity : Events.entityId e "task_id" = .ok id := entityId_of_column hentity hid
  refine ⟨s.setTask id { t with
      status := status
      lastEvent := if e.payload.members.isEmpty then t.lastEvent else some e.payload }, ?_,
    hgood.tells.moved htype hne ht rfl rfl, fun _ _ => ?_⟩
  · have hmove : reduceType s e type = moveTask s e status := by
      cases type <;> cases hstatus <;> rfl
    show reduceType s e type = _
    rw [hmove]
    unfold moveTask
    simp only [hentity, bind_ok_eq, ht]
  · show ((s.tasks.set id _).get? id).isSome = true
    rw [Dict.get?_set, if_pos rfl]
    rfl

theorem keeps_raisePy {r : Except PyErr α}
    (hgood : IsGood H.store P T w.store) (h : J w) : Keeps H P T J (raisePy r) w := by
  cases r with
  | ok a => exact h
  | error e => exact hgood

theorem keeps_runtime {key : Option PyStr} {p : Pipeline.RProg α}
    (h : Has H P T id w) : Keeps H P T (Has H P T id) (runtimePart key p) w := by
  refine Prog.Through.imp (J := Has H P T id) (Q := fun _ => Has H P T id)
    (E := fun _ => Has H P T id) ?_ (fun _ h => h.good) (fun _ _ h => h) fun _ _ h => h.good
  unfold runtimePart
  refine Prog.Through.within ?_ p h
  exact fun _ _ h => h

theorem keeps_verify (h : IsGood H.store P T w.store) :
    Keeps H P T (fun w => IsGood H.store P T w.store) (verifyStep H) w :=
  Prog.Through.block fun _ => by
    refine ⟨h, ?_⟩
    cases verifyChain H.store w.store.log.rows <;> exact h

theorem rebuild_through (h : IsGood H.store P T w.store) :
    (rebuildStep).Through (fun l w => ∀ t, l.text H w = some t → T t)
      (fun w => IsGood H.store P T w.store)
      (fun s w => Good H.store P T w.store s) (fun _ w => IsGood H.store P T w.store) w :=
  Prog.Through.block fun _ => by
    obtain ⟨s, hs⟩ := h
    have hstate : stateOf w.store.log = .ok s := Gateway.stateOf_ok.mpr hs.rebuilt
    rw [hstate]
    exact ⟨⟨s, hs⟩, hs⟩

theorem keeps_blocker {reason : Reason} {detail : PyStr}
    (h : IsGood H.store P T w.store) : Keeps H P T (fun w => IsGood H.store P T w.store)
      (recordBlockerOnce H state id reason detail) w := by
  obtain ⟨s, hs⟩ := h
  cases htext : blockerIdOf H id reason with
  | error e =>
    unfold recordBlockerOnce
    rw [htext]
    exact ⟨s, hs⟩
  | ok blockerId =>
    unfold recordBlockerOnce
    rw [htext]
    show Keeps H P T _ (if state.blockers.contains blockerId then _ else _) w
    split
    · exact ⟨s, hs⟩
    · have hne : blockerId ≠ [] := by
        obtain ⟨text, -, heq⟩ := of_bind_ok htext
        cases heq
        exact List.cons_ne_nil _ _
      have hother : ∀ k : Kind, EventType.blockerRecorded ≠ k.type := by
        intro k
        cases k <;> decide
      have happend := keeps_append (Q := fun _ => True)
        (r := ⟨.blockerRecorded, .dict [item "blocker_id" (.str blockerId),
          item "task_id" (.str id), item "reason" (.str (py reason.value)),
          item "detail" (.str detail)], some blockerId⟩) hs
        fun e htype hentity => by
          have hentity : Events.entityId e "blocker_id" = .ok blockerId :=
            entityId_of_column hentity hne
          refine ⟨{ s with blockers := s.blockers.set blockerId e.payload }, ?_,
            Tells.congr (Tells.skip hs.tells htype hother) rfl rfl, fun _ _ => trivial⟩
          show reduceType s e .blockerRecorded = _
          simp only [reduceType, hentity, bind_ok_eq]
      exact happend.imp (fun _ h => h) (fun _ _ h => h.imp fun _ h => h.1) fun _ _ h => h

theorem keeps_survey (ready : List PyStr) (h : IsGood H.store P T w.store) :
    Keeps H P T (fun w => IsGood H.store P T w.store) (survey H E S state ready) w := by
  induction ready generalizing w with
  | nil => exact h
  | cons id rest ih =>
    unfold survey
    split
    · exact h
    · refine Keeps.bind (J := fun w => IsGood H.store P T w.store) (keeps_raisePy h h) fun g w h => ?_
      cases g with
      | blocked reason detail =>
        refine Keeps.bind (keeps_blocker h) fun _ w h => ?_
        exact Keeps.bind (ih h) fun found w h => h
      | runnable source => exact Keeps.bind (ih h) fun found w h => h

theorem keeps_drive (jobId : Text) (fuel : Nat) (h : Has H P T id w) :
    Keeps H P T (Has H P T id) (drive H E jobId fuel) w := by
  induction fuel generalizing w with
  | zero => exact h.good
  | succ fuel ih =>
    refine Keeps.bind (keeps_runtime h) fun row w h => ?_
    split
    · exact h
    · refine Keeps.bind (keeps_runtime h) fun executed w h => ?_
      split
      · exact h.good
      · split
        · exact h.good
        · exact ih h

theorem keeps_endTask (hfree : CollisionFree H.store P T) (state : Pipeline.JobState)
    (fields : List (PyKey × PyVal)) (h : Has H P T id w) :
    Keeps H P T (Has H P T id) (endTask H id state fields) w := by
  unfold endTask
  split
  · refine Keeps.bind (keeps_taskEvent hfree h rfl _) fun _ w h => ?_
    refine Keeps.bind (keeps_taskEvent hfree h rfl _) fun _ w h => ?_
    exact Keeps.bind (keeps_taskEvent hfree h rfl _) fun _ w h => h
  · refine Keeps.bind (keeps_taskEvent hfree h rfl _) fun _ w h => ?_
    exact Keeps.bind (keeps_taskEvent hfree h rfl _) fun _ w h => h
  · exact Keeps.bind (keeps_taskEvent hfree h rfl _) fun _ w h => h

theorem keeps_runTask (hfree : CollisionFree H.store P T) {fuel : Nat}
    {capability : PyStr} {task : Task} {source : Source} (h : Has H P T id w) :
    Keeps H P T (Has H P T id) (runTask H E fuel id capability task source) w := by
  refine Keeps.bind (keeps_raisePy h.good h) fun payload w h => ?_
  refine Keeps.bind (keeps_runtime h) fun grant w h => ?_
  have hrest : ∀ w, Has H P T id w → Keeps H P T (Has H P T id) (do
      appendStep H (taskEvent .taskAuthorized id
        [item "capability" (.str capability), item "grant_id" (.str grant.grantId),
          item "expires_at" (.str grant.expiresAt.raw),
          item "authorization_source" (.str (py source.value))])
      let jobId ← runtimePart (some (taskKey id)) (Pipeline.engineSubmit H.runtime E
        (deterministicIntent id capability payload) grant (some (taskKey id)))
      appendStep H (taskEvent .taskStarted id
        [item "job_id" jobId.val, item "capability" (.str capability)])
      let row ← drive H E jobId fuel
      let fields ← raisePy (endFields H jobId row)
      endTask H id row.state fields) w := by
    intro w h
    refine Keeps.bind (keeps_taskEvent hfree h rfl _) fun _ w h => ?_
    refine Keeps.bind (keeps_runtime h) fun jobId w h => ?_
    refine Keeps.bind (keeps_taskEvent hfree h rfl _) fun _ w h => ?_
    refine Keeps.bind (keeps_drive jobId fuel h) fun row w h => ?_
    refine Keeps.bind (keeps_raisePy h.good h) fun fields w h => ?_
    exact keeps_endTask hfree row.state fields h
  show Keeps H P T _ (if task.status ≠ .ready then _ else _) w
  split
  · exact Keeps.bind (keeps_taskEvent hfree h rfl _) fun _ w h => hrest w h
  · exact hrest w h

theorem keeps_loop (hfree : CollisionFree H.store P T)
    (fuel left : Nat) (report : AdvanceReport) (h : IsGood H.store P T w.store) :
    Keeps H P T (fun w => IsGood H.store P T w.store) (advanceLoop H E S fuel left report) w := by
  induction left generalizing report w with
  | zero => exact h
  | succ left ih =>
    refine Prog.Through.bind (rebuild_through h) fun state w hs => ?_
    refine Keeps.bind (keeps_survey _ ⟨state, hs⟩) fun found w h => ?_
    obtain ⟨runnable, blockers⟩ := found
    cases runnable with
    | nil => exact h
    | cons m rest =>
      refine Prog.Through.bind (rebuild_through h) fun state w hs => ?_
      cases htask : state.tasks.get? m.1 with
      | none =>
        exact ⟨state, hs⟩
      | some task =>
        have hhas : Has H P T m.1 w := ⟨state, hs, by rw [htask]; rfl⟩
        exact Keeps.bind (keeps_runTask hfree hhas) fun ok w h => ih _ h.good

theorem keeps_advance (hfree : CollisionFree H.store P T) (E : AutomatedEngine) (S : Settings)
    (fuel : Nat) (h : IsGood H.store P T w.store) :
    Keeps H P T (fun w => IsGood H.store P T w.store) (advanceUntilIdle H E S fuel) w := by
  unfold advanceUntilIdle
  split
  · exact h
  · refine Keeps.bind (keeps_verify h) fun valid w h => ?_
    split
    · refine Keeps.bind (J := fun w => IsGood H.store P T w.store) (keeps_raisePy h h) fun _ w h => ?_
      refine Keeps.bind (keeps_loop hfree fuel _ _ h) fun report w h => ?_
      exact Prog.Through.bind (rebuild_through h) fun state w hs => ⟨state, hs⟩
    · exact h

end Advance

-- == runs

/-- What is done to the store: a call that comes to its end, a call that is cut
off after some steps, or an advance run that is. -/
inductive Action : Type
  | ingest (c : Gateway.Call)
  | cut (c : Gateway.Call) (n : Nat)
  | advance (E : AutomatedEngine) (S : Settings) (fuel n : Nat)

abbrev Outcome := Option (Except GatewayError AdapterIngestResult)

def perform (H : Hosts) : Action → World → Outcome × World
  | .ingest c, w =>
    (some ((Gateway.ingest H.store c).run w.store).1,
      { w with store := ((Gateway.ingest H.store c).run w.store).2 })
  | .cut c n, w => (none, { w with store := (Gateway.ingest H.store c).cut n w.store })
  | .advance E S fuel n, w =>
    (none, crashed E.me ((advanceUntilIdle H E S fuel).cut n w))

abbrev ActionEntry := Machine.Entry Action Outcome World

def historyOf (H : Hosts) (w : World) (actions : List Action) : List ActionEntry :=
  Machine.trace (perform H) actions w

namespace Action

def call? : Action → Option Gateway.Call
  | .ingest c => some c
  | .cut c _ => some c
  | .advance _ _ _ _ => none

/-- The texts the log's events are hashed of. -/
def texts (H : Hosts) (w : World) : Action → List Text
  | .ingest c => ((Gateway.ingest H.store c).steps w.store).filterMap fun v =>
    v.1.text H.store v.2
  | .cut c n => (((Gateway.ingest H.store c).steps w.store).take n).filterMap fun v =>
    v.1.text H.store v.2
  | .advance E S fuel n =>
    (((advanceUntilIdle H E S fuel).steps w).take n).filterMap fun v => v.1.text H v.2

end Action

def Requested (H : Hosts) (actions : List Action) (p : Prepared) : Prop :=
  ∃ a ∈ actions, ∃ c, a.call? = some c ∧ Gateway.prepare H.store c.1 c.2 = .ok p

/-- A text that is hashed for the log in a run. -/
def Hashed (H : Hosts) (w : World) (actions : List Action) (t : Text) : Prop :=
  ∃ e ∈ historyOf H w actions, t ∈ e.input.texts H e.before

/-- SHA-256 tells apart what is hashed in a run; for the suffixes, its first 24
digits do. -/
structure NoCollision (H : Hosts) (w : World) (actions : List Action) : Prop where
  requests : ∀ p q t t', Requested H actions p → Requested H actions q →
    canonicalJson p.body.fields.doc.json = .ok t →
    canonicalJson q.body.fields.doc.json = .ok t' →
    H.store.sha256 t = H.store.sha256 t' → t = t'
  suffixes : ∀ p q t t', Requested H actions p → Requested H actions q →
    encode p.identity = .ok t → encode q.identity = .ok t' →
    (H.store.sha256 t).str.take 24 = (H.store.sha256 t').str.take 24 → t = t'
  events : ∀ t t', Hashed H w actions t → Hashed H w actions t' →
    H.store.sha256 t = H.store.sha256 t' → t = t'

/-- A call that comes to its end appends what is missing of its request and says
so; or what is recorded of the pair has another content, and it raises a conflict
and appends nothing. -/
def Answered (H : Hosts) (e : ActionEntry) : Prop :=
  ∀ c, e.input = .ingest c → (∀ err, Gateway.prepare H.store c.1 c.2 = .error err →
      e.output = some (.error (.py err)) ∧ e.after.store.log = e.before.store.log)
    ∧ ∀ p, Gateway.prepare H.store c.1 c.2 = .ok p → (Agrees e.before.store.log.rows p →
        e.output = some (.ok (answer p (missing e.before.store.log.rows p)))
          ∧ Grown (missing e.before.store.log.rows p) e.before.store e.after.store)
      ∧ (¬Agrees e.before.store.log.rows p →
        e.output = some (.error .conflict) ∧ e.after.store.log = e.before.store.log)

/-- Requests with one content have one source, one task and one digest. -/
def SameIds (H : Hosts) (actions : List Action) : Prop :=
  ∀ p q, Requested H actions p → Requested H actions q → p.body.fields = q.body.fields →
    p.requestId = q.requestId ∧ p.taskId = q.taskId ∧ p.digest = q.digest

section Runs

variable {w : World} {actions : List Action}

theorem prepared_of_requested {p : Prepared} (h : Requested H actions p) :
    ∃ catalog r, Gateway.prepare H.store catalog r = .ok p := by
  obtain ⟨a, -, c, -, hprepared⟩ := h
  exact ⟨c.1, c.2, hprepared⟩

theorem collisionFree (h : NoCollision H w actions) :
    CollisionFree H.store (Requested H actions) (Hashed H w actions) where
  prepared p hp := prepared_of_requested hp
  apart p q hp hq := by
    obtain ⟨catalog, r, hprepared⟩ := prepared_of_requested hp
    obtain ⟨catalog', r', hprepared'⟩ := prepared_of_requested hq
    obtain ⟨suffix, -, -, -, hsuffix, -⟩ := Gateway.prepare_ok hprepared
    obtain ⟨suffix', -, -, -, hsuffix', -⟩ := Gateway.prepare_ok hprepared'
    intro heq
    rw [hsuffix, hsuffix'] at heq
    cases heq
    obtain ⟨t, ht, htake⟩ := of_bind_ok hsuffix
    obtain ⟨t', ht', htake'⟩ := of_bind_ok hsuffix'
    have hsame := h.suffixes p q t t' hp hq ht ht'
      ((Except.ok.inj htake).trans (Except.ok.inj htake').symm)
    exact (encode_eq_ok.mp ht).symm.trans ((congrArg Text.str hsame).trans (encode_eq_ok.mp ht'))
  digests p q hp hq hdigest := by
    obtain ⟨catalog, r, hprepared⟩ := prepared_of_requested hp
    obtain ⟨catalog', r', hprepared'⟩ := prepared_of_requested hq
    obtain ⟨-, -, -, hp', -⟩ := Gateway.prepare_ok hprepared
    obtain ⟨-, -, -, hq', -⟩ := Gateway.prepare_ok hprepared'
    obtain ⟨t, ht, hsha⟩ := of_bind_ok hp'
    obtain ⟨t', ht', hsha'⟩ := of_bind_ok hq'
    have hsame := h.requests p q t t' hp hq ht ht'
      ((Except.ok.inj hsha).trans (hdigest.trans (Except.ok.inj hsha').symm))
    exact doc_injective (canonicalJson_injective ht (hsame ▸ ht'))
  texts t t' ht ht' := h.events t t' ht ht'

theorem good_step (hfree : CollisionFree H.store (Requested H actions) (Hashed H w actions))
    {e : ActionEntry} (hv : e.Valid (perform H)) (hinput : e.input ∈ actions)
    (htexts : ∀ t ∈ e.input.texts H e.before, Hashed H w actions t)
    (h : IsGood H.store (Requested H actions) (Hashed H w actions) e.before.store) :
    IsGood H.store (Requested H actions) (Hashed H w actions) e.after.store ∧ Answered H e := by
  obtain ⟨input, before, output, after⟩ := e
  obtain ⟨s, hs⟩ := h
  cases input with
  | ingest c =>
    replace hv : perform H (.ingest c) before = (output, after) := hv
    cases hv
    have hA : ∀ v ∈ (Gateway.ingest H.store c).steps before.store, ∀ t,
        v.1.text H.store v.2 = some t → Hashed H w actions t :=
      fun v hv t ht => htexts t (List.mem_filterMap.mpr ⟨v, hv, ht⟩)
    cases hc : Gateway.prepare H.store c.1 c.2 with
    | error err =>
      have hrun := (Gateway.refused_through hs hc).run hA
      split at hrun
      · exact hrun.elim
      · next err' w' heq =>
        obtain ⟨rfl, rfl⟩ := hrun
        simp only [heq]
        refine ⟨⟨s, hs⟩, fun c' hc' => ?_⟩
        cases hc'
        rw [hc]
        exact ⟨fun e he => by cases he; exact ⟨rfl, rfl⟩, fun p hp => by cases hp⟩
    | ok p =>
      have hrun := (Gateway.ingest_through hfree hs hc ⟨_, hinput, c, rfl, hc⟩).run hA
      split at hrun
      · next a w' heq =>
        obtain ⟨hgood, hagrees, rfl, hgrown⟩ := hrun
        simp only [heq]
        refine ⟨hgood, fun c' hc' => ?_⟩
        cases hc'
        rw [hc]
        refine ⟨fun e he => (by cases he), fun q hq => ?_⟩
        cases hq
        exact ⟨fun _ => ⟨rfl, hgrown⟩, fun hno => absurd hagrees hno⟩
      · next err w' heq =>
        obtain ⟨hgood, rfl, rfl, hno⟩ := hrun
        simp only [heq]
        refine ⟨hgood, fun c' hc' => ?_⟩
        cases hc'
        rw [hc]
        refine ⟨fun e he => (by cases he), fun q hq => ?_⟩
        cases hq
        exact ⟨fun hagrees => absurd hagrees hno, fun _ => ⟨rfl, rfl⟩⟩
  | cut c n =>
    replace hv : perform H (.cut c n) before = (output, after) := hv
    cases hv
    refine ⟨?_, fun c' hc' => by cases hc'⟩
    have hA : ∀ v ∈ ((Gateway.ingest H.store c).steps before.store).take n, ∀ t,
        v.1.text H.store v.2 = some t → Hashed H w actions t :=
      fun v hv t ht => htexts t (List.mem_filterMap.mpr ⟨v, hv, ht⟩)
    cases hc : Gateway.prepare H.store c.1 c.2 with
    | error err => exact (Gateway.refused_through hs hc).cut n ⟨s, hs⟩ hA
    | ok p =>
      exact (Gateway.ingest_through hfree hs hc ⟨_, hinput, c, rfl, hc⟩).cut n ⟨s, hs⟩ hA
  | advance E S fuel n =>
    replace hv : perform H (.advance E S fuel n) before = (output, after) := hv
    cases hv
    refine ⟨?_, fun c' hc' => by cases hc'⟩
    have hA : ∀ v ∈ ((advanceUntilIdle H E S fuel).steps before).take n, ∀ t,
        v.1.text H v.2 = some t → Hashed H w actions t :=
      fun v hv t ht => htexts t (List.mem_filterMap.mpr ⟨v, hv, ht⟩)
    exact Prog.Through.cut n (I := fun (w' : World) => IsGood H.store (Requested H actions)
      (Hashed H w actions) w'.store) ⟨s, hs⟩ hA
      (keeps_advance hfree E S fuel (w := before) ⟨s, hs⟩)

end Runs

/-- In every run from an empty log, no pair has two sources or two tasks, and
every call is answered as its request and the log have it. -/
theorem ingested_once (H : Hosts) (w : World) (hw : w.store.log = .empty)
    (actions : List Action) (hfree : NoCollision H w actions) : (∀ e ∈ historyOf H w actions,
      AtMostOnce e.after.store.log.rows ∧ Answered H e) ∧ SameIds H actions := by
  have hcollision := collisionFree hfree
  have hempty : Good H.store (Requested H actions) (Hashed H w actions) w.store .empty := by
    have hrows : w.store.log.rows = [] := by
      rw [hw]
      rfl
    refine ⟨⟨⟨[], hrows, trivial, fun _ h => (by cases h)⟩, ?_, ?_⟩, ?_, ?_⟩
    · rw [hrows]
      exact fun _ h => (by cases h)
    · rw [hrows]
      exact fun _ h => (by cases h)
    · rw [hw]
      exact ⟨[], rfl, rfl⟩
    · rw [hrows]
      exact Gateway.tells_empty _
  constructor
  · have hrun := Machine.history_invariant (perform H)
      (C := fun e => e.input ∈ actions ∧ ∀ t ∈ e.input.texts H e.before, Hashed H w actions t)
      (I := fun past w' => IsGood H.store (Requested H actions) (Hashed H w actions) w'.store
        ∧ ∀ e ∈ past, AtMostOnce e.after.store.log.rows ∧ Answered H e)
      w ⟨⟨_, hempty⟩, fun _ he => (by cases he)⟩
      (fun past e hv hC hI => ?_) actions
      (fun e he => ⟨Machine.input_mem_of_mem_trace _ he, fun t ht => ⟨e, he, ht⟩⟩)
    · exact hrun.2
    · obtain ⟨hgood, hpast⟩ := hI
      obtain ⟨hgood', hanswered⟩ := good_step hcollision hv hC.1 hC.2 hgood
      refine ⟨hgood', fun d hd => ?_⟩
      rcases List.mem_append.mp hd with hd | hd
      · exact hpast d hd
      · rw [List.mem_singleton.mp hd]
        obtain ⟨s', hs'⟩ := hgood'
        exact ⟨Gateway.atMostOnce_of_tells hcollision hs'.tells, hanswered⟩
  · intro p q hp hq hsame
    obtain ⟨catalog, r, hprepared⟩ := prepared_of_requested hp
    obtain ⟨catalog', r', hprepared'⟩ := prepared_of_requested hq
    obtain ⟨-, hbody, -, hdigest, -⟩ := Gateway.prepare_ok hprepared
    obtain ⟨-, hbody', -, hdigest', -⟩ := Gateway.prepare_ok hprepared'
    obtain ⟨hadapter, hexternal⟩ := (Gateway.requestBody_holds hbody).pair
      (Gateway.requestBody_holds hbody') hsame
    refine ⟨Gateway.id_of_pair hprepared hprepared' hadapter hexternal .source,
      Gateway.id_of_pair hprepared hprepared' hadapter hexternal .task, ?_⟩
    unfold Gateway.requestSha256 at hdigest hdigest'
    rw [hsame, hdigest'] at hdigest
    exact (Except.ok.inj hdigest).symm

-- == try-outs

/-- Machines whose digests are the texts behind a letter. -/
def tellingHosts : Hosts := ⟨Events.Sample.host, Events.Sample.host⟩

/-- A request with the same identifier and another capability. -/
def otherRequest (externalId : String) : Gateway.Call :=
  ((Gateway.request externalId).1, { (Gateway.request externalId).2 with capability := py "other" })

/-- A call that is killed between its two appends, the same call again, and once
more; then a call with another content. -/
def retried : List Action :=
  [.cut (Gateway.request "1") 4, .advance echoEngine (echoSettings true) 2 100,
    .ingest (Gateway.request "1"), .advance echoEngine (echoSettings true) 2 100,
    .ingest (Gateway.request "1"), .ingest (otherRequest "1")]

theorem retried_identity {p : Prepared} (h : Requested tellingHosts retried p) :
    p.identity = py "hermes" ++ [0] ++ py "1" := by
  have hcalls : ∀ c ∈ [Gateway.request "1", otherRequest "1"],
      ((Gateway.prepare tellingHosts.store c.1 c.2).map Prepared.identity).toOption
        = some (py "hermes" ++ [0] ++ py "1") := by
    simp only [List.forall_mem_cons]
    exact ⟨by decide +kernel, by decide +kernel, fun _ h => (by cases h)⟩
  obtain ⟨a, ha, c, hc, hprepared⟩ := h
  have hmem : c ∈ [Gateway.request "1", otherRequest "1"] := by
    simp only [retried, List.mem_cons, List.not_mem_nil, or_false] at ha
    rcases ha with rfl | rfl | rfl | rfl | rfl | rfl <;> cases hc <;> simp
  have hidentity := hcalls c hmem
  rw [hprepared] at hidentity
  exact Option.some.inj hidentity

theorem retried_once : (∀ e ∈ historyOf tellingHosts newWorld retried,
      AtMostOnce e.after.store.log.rows ∧ Answered tellingHosts e)
      ∧ SameIds tellingHosts retried :=
  ingested_once tellingHosts newWorld rfl retried {
    requests := fun _ _ _ _ _ _ _ _ h => Events.Sample.host_injective h
    suffixes := fun p q t t' hp hq ht ht' _ => by
      rw [retried_identity hp] at ht
      rw [retried_identity hq, ht] at ht'
      exact Except.ok.inj ht'
    events := fun _ _ _ _ h => Events.Sample.host_injective h }

end Centinal26.Advance
