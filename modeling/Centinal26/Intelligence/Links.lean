/-
The chain of the change events.
-/
import Centinal26.Intelligence.Pool
import Centinal26.Lib.Chain
import Centinal26.Py.ReadBack

namespace Centinal26.Intelligence

open Py Steps

variable {H : Host}

-- == verification

/-- The body `verify_event_chain` makes of a row. -/
def ChangeEvent.body (e : ChangeEvent) : ChangeBody :=
  ⟨e.eventKey, e.detectedAt, e.sourceKind, e.sourceKey, e.changeType, e.severity,
    e.dispatchClass, e.dedupeKey, e.previousHash, e.currentHash, loads e.evidence,
    loads e.contradiction, e.prevEventHash⟩

def verifyFrom (H : Host) : Text → List ChangeEvent → Except PyErr Bool
  | _, [] => .ok true
  | previous, e :: rest =>
    if e.prevEventHash ≠ previous then .ok false
    else do
      let digest ← sha256Json H e.body.val
      if digest ≠ e.eventHash then .ok false else verifyFrom H e.eventHash rest

def verifyEventChain (H : Host) (db : Db) : Except PyErr Bool :=
  verifyFrom H genesis db.changeEvents

/-- What is read back of the event hashes as it says. -/
def Rehashes (H : Host) (e : ChangeEvent) : Prop := sha256Json H e.body.val = .ok e.eventHash

theorem verifyFrom_eq {events : List ChangeEvent} {previous : Text}
    (hlinked : Chain.Linked ChangeEvent.prevEventHash ChangeEvent.eventHash previous events)
    (hhashes : ∀ e ∈ events, Rehashes H e) : verifyFrom H previous events = .ok true := by
  induction events generalizing previous with
  | nil => rfl
  | cons e rest ih =>
    obtain ⟨hprevious, hrest⟩ := hlinked
    have hhash : sha256Json H e.body.val = .ok e.eventHash := hhashes e List.mem_cons_self
    rw [verifyFrom, if_neg (not_not.mpr hprevious), hhash]
    show (if e.eventHash ≠ e.eventHash then _ else _) = _
    rw [if_neg (not_not.mpr rfl)]
    exact ih hrest fun d hd => hhashes d (List.mem_cons_of_mem _ hd)

-- == steps

/-- The row is dropped by `INSERT OR IGNORE`. -/
def Db.drops (db : Db) (c : Change) : Bool :=
  db.changeEvents.any fun d => decide (d.eventKey = c.body.eventKey)
    || decide (d.dedupeKey = c.body.dedupeKey) || decide (d.eventHash = c.eventHash)

/-- A transaction adds no event, or one that names the last event and can be read
back. -/
def undisturbed (e : Step) : Bool :=
  match e.output with
  | .stepped _ (.write (.store c _)) _ =>
    e.before.shared.drops c || (decide (c.body.prevEventHash = e.before.shared.lastHash)
        && readsBack c.body.evidence && readsBack c.body.contradiction)
  | _ => true

variable {c : Change} {db db' : Db} {now : Instant}

theorem rehashes_row {evidence contradiction : Json} (hmade : c.Made H)
    (he : dumpsStrict c.body.evidence = .ok evidence)
    (hc : dumpsStrict c.body.contradiction = .ok contradiction)
    (hreads : readsBack c.body.evidence = true) (hreads' : readsBack c.body.contradiction = true) :
    Rehashes H (c.row evidence contradiction) := by
  obtain ⟨hdumps, hfinite⟩ := dumps_readsBack he hreads
  obtain ⟨hdumps', hfinite'⟩ := dumps_readsBack hc hreads'
  have hsame : dumpsStrict (c.row evidence contradiction).body.val = dumpsStrict c.body.val := by
    unfold dumpsStrict ChangeBody.val ChangeEvent.body Change.row
    simp only [dumps, dumpsItems, item, PyVal.isFinite, allItemsFinite, hdumps, hdumps',
      hfinite, hfinite']
  unfold Rehashes sha256Json
  rw [hsame]
  exact hmade.hash

theorem enqueueWork_events {item : WorkItem}
    (h : enqueueWork item db = .ok db') : db'.changeEvents = db.changeEvents := by
  unfold enqueueWork at h
  split at h
  · cases h
    rfl
  · split at h
    · cases h
      rfl
    · cases h

theorem storeChange_events {policy : CadencePolicy} (h : storeChange c policy db = .ok db') :
    ∃ evidence contradiction, dumpsStrict c.body.evidence = .ok evidence
      ∧ dumpsStrict c.body.contradiction = .ok contradiction
      ∧ db'.changeEvents = if db.drops c = true then db.changeEvents
        else db.changeEvents ++ [c.row evidence contradiction] := by
  obtain ⟨evidence, he, h⟩ := of_bind_ok h
  obtain ⟨contradiction, hc, h⟩ := of_bind_ok h
  exact ⟨evidence, contradiction, canonicalColumn_ok he, canonicalColumn_ok hc,
    enqueueWork_events h⟩

theorem scheduleOne_events {s : Schedule} {out out' : List Text × Db} {eventClass : String}
    (h : s.one out eventClass = .ok out') : out'.2.changeEvents = out.2.changeEvents := by
  obtain ⟨policy, -, h⟩ := of_bind_ok h
  obtain ⟨payload, -, h⟩ := of_bind_ok h
  obtain ⟨db, hdb, h⟩ := of_bind_ok h
  cases h
  exact enqueueWork_events hdb

theorem claimWork_events {key claimer : PyStr} {lease : Int}
    {r : Option Text} (h : claimWork key claimer lease now db = .ok (r, db')) :
    db'.changeEvents = db.changeEvents := by
  unfold claimWork at h
  split at h
  · cases h
  · obtain ⟨_, -, h⟩ := of_bind_ok h
    obtain ⟨leaseUntil, -, h⟩ := of_bind_ok h
    obtain ⟨text, -, h⟩ := of_bind_ok h
    split at h
    · cases h
      rfl
    · split at h
      · cases h
        rfl
      · obtain ⟨owner, -, h⟩ := of_bind_ok h
        cases h
        rfl

theorem recordProcessed_events {source : Option Text} {result : Json}
    (h : recordProcessed source result now db = .ok db') :
    db'.changeEvents = db.changeEvents := by
  unfold recordProcessed at h
  split at h
  · cases h
    rfl
  · split at h
    · cases h
      rfl
    · cases h

theorem completeWork_events {key : PyStr} {result : PyVal}
    {r : Unit} (h : completeWork key result now db = .ok (r, db')) :
    db'.changeEvents = db.changeEvents := by
  unfold completeWork at h
  obtain ⟨_, -, h⟩ := of_bind_ok h
  obtain ⟨text, -, h⟩ := of_bind_ok h
  split at h
  · cases h
  · split at h
    · cases h
      rfl
    · obtain ⟨column, -, h⟩ := of_bind_ok h
      obtain ⟨mid, hmid, h⟩ := of_bind_ok h
      cases h
      have hevents := recordProcessed_events hmid
      exact hevents

theorem commit_events {w : Write} (hw : ∀ c policy, w ≠ .store c policy) (db : Db) :
    (w.tx.commit db).2.changeEvents = db.changeEvents := by
  rcases Tx.commit_cases w.tx db with ⟨r, db', h, hcommit⟩ | ⟨err, -, hcommit⟩
  · rw [hcommit]
    cases w with
    | store c policy => exact absurd rfl (hw c policy)
    | schedule s =>
      obtain ⟨out, hout, h⟩ := of_bind_ok h
      obtain ⟨_, -, hout⟩ := of_bind_ok hout
      cases h
      exact foldlM_schedule (P := fun d => d.changeEvents = db.changeEvents)
        (fun _ _ _ hone hP => (scheduleOne_events hone).trans hP) hout rfl
    | claim key claimer lease now =>
      obtain ⟨out, hout, h⟩ := of_bind_ok h
      cases h
      exact claimWork_events hout
    | complete key result now =>
      obtain ⟨out, hout, h⟩ := of_bind_ok h
      cases h
      exact completeWork_events hout
  · rw [hcommit]

-- == runs

/-- The chain is what `verify_event_chain` wants. -/
structure Db.Verifiable (H : Host) (db : Db) : Prop where
  linked : Chain.Linked ChangeEvent.prevEventHash ChangeEvent.eventHash genesis db.changeEvents
  hashes : ∀ e ∈ db.changeEvents, Rehashes H e

theorem Db.Verifiable.congr (h : db.Verifiable H)
    (hevents : db'.changeEvents = db.changeEvents) : db'.Verifiable H := by
  refine ⟨?_, ?_⟩ <;> rw [hevents]
  · exact h.linked
  · exact h.hashes

theorem lastHash_eq (db : Db) :
    db.lastHash = Chain.last ChangeEvent.eventHash genesis db.changeEvents := by
  unfold Db.lastHash Chain.last
  cases db.changeEvents.getLast? <;> rfl

theorem Db.Verifiable.store {policy : CadencePolicy} (h : db.Verifiable H) (hmade : c.Made H)
    (hC : (db.drops c || (decide (c.body.prevEventHash = db.lastHash)
      && readsBack c.body.evidence && readsBack c.body.contradiction)) = true) :
    ((Write.store c policy).tx.commit db).2.Verifiable H := by
  rcases Tx.commit_cases (Write.store c policy).tx db with ⟨r, db', hok, hcommit⟩ | ⟨e, -, hcommit⟩
  · rw [hcommit]
    obtain ⟨mid, hmid, hok⟩ := of_bind_ok hok
    cases hok
    obtain ⟨evidence, contradiction, he, hc, hevents⟩ := storeChange_events hmid
    split at hevents
    · exact h.congr hevents
    · next hkeeps =>
      rw [Bool.eq_false_iff.mpr hkeeps, Bool.false_or, Bool.and_eq_true, Bool.and_eq_true,
        decide_eq_true_eq] at hC
      obtain ⟨⟨hlast, hreads⟩, hreads'⟩ := hC
      refine ⟨?_, fun x hx => ?_⟩
      · show Chain.Linked _ _ _ db'.changeEvents
        rw [hevents]
        exact (Chain.linked_concat _ _).mpr ⟨h.linked, hlast.trans (lastHash_eq db)⟩
      · replace hx : x ∈ db'.changeEvents := hx
        rw [hevents, List.mem_append, List.mem_singleton] at hx
        rcases hx with hx | rfl
        · exact h.hashes x hx
        · exact rehashes_row hmade he hc hreads hreads'
  · rw [hcommit]
    exact h

/-- In a run in which every transaction that adds an event is undisturbed, the chain
verifies. -/
theorem chain_verifies (H : Host) (sched : List (Sched Op))
    (hC : ∀ e ∈ poolTrace H sched, undisturbed e = true) :
    verifyEventChain H (poolOf H sched).shared = .ok true := by
  have hrun : (poolOf H sched).shared.Verifiable H := by
    refine (run_invariant (H := H) (C := fun e => undisturbed e = true)
      (I := fun _ db => db.Verifiable H) idle_outlined ⟨trivial, fun _ he => by cases he⟩
      (fun past e hmoves hCe hI => ?_) sched hC).2
    cases hmoves with
    | @wrote i w ho hmade h =>
      rw [h]
      by_cases hw : ∃ c policy, w = .store c policy
      · obtain ⟨c, policy, rfl⟩ := hw
        unfold undisturbed at hCe
        rw [ho] at hCe
        exact hI.store hmade hCe
      · exact hI.congr (commit_events (fun c policy heq => hw ⟨c, policy, heq⟩) _)
    | still ho h =>
      rw [h]
      exact hI
  exact verifyFrom_eq hrun.linked hrun.hashes

-- == try-outs

def clockwork : Host := Host.sample fun n => n

def senses (sensor : String) (reading : PyVal) : Observation :=
  ⟨py "sensor", py sensor, py "STATE_CHANGE", py "HIGH", .dict [item "reading" reading], none,
    true, none⟩

def oneByOne : List (Sched Op) :=
  .spawn 0 (.observe (senses "door" (.str (py "open"))) 1) :: List.replicate 5 (.advance 0)
    ++ .spawn 1 (.observe (senses "lamp" (.str (py "on"))) 2) :: List.replicate 5 (.advance 1)

theorem chain_verifies_oneByOne : (poolOf clockwork oneByOne).shared.changeEvents.length = 2
      ∧ verifyEventChain clockwork (poolOf clockwork oneByOne).shared = .ok true :=
  ⟨by decide +kernel, chain_verifies clockwork oneByOne (List.all_eq_true.mp (by decide +kernel))⟩

/-- Both observers look for the last event before either stores its own. -/
def atOnce : List (Sched Op) :=
  [.spawn 0 (.observe (senses "door" (.str (py "open"))) 1),
    .spawn 1 (.observe (senses "lamp" (.str (py "on"))) 2)]
    ++ List.replicate 3 (.advance 0) ++ List.replicate 3 (.advance 1)
    ++ [.advance 0, .advance 1]

/-- One observer, of a dictionary whose keys are numbers. -/
def numbered : List (Sched Op) :=
  .spawn 0 (.observe (senses "meter" (.dict [(.int 2, .none), (.int 10, .none)])) 1)
    :: List.replicate 5 (.advance 0)

theorem chain_broken : verifyEventChain clockwork (poolOf clockwork atOnce).shared = .ok false
      ∧ verifyEventChain clockwork (poolOf clockwork numbered).shared = .ok false := by
  constructor <;> decide +kernel

end Centinal26.Intelligence
