/-
The event log of the fleet.
-/
import Centinal26.Fleet.Runs
import Centinal26.Lib.Since

namespace Centinal26.Fleet

open Py Steps

variable {H : Host} {F : FleetHost}

-- == vocabulary

/-- How many events of a kind there are about an entity. -/
def Db.logged (db : Db) (kind : EventKind) (id : Text) : Nat :=
  db.events.countP fun e => decide (e.eventType = kind ∧ e.entityId = id)

def present {ρ : Type} {key : ρ → Text} (t : Table key) (id : Text) : Nat :=
  if (t.find? id).isSome then 1 else 0

/-- How many rows there are for the events of a kind about an entity. -/
def Db.rowsFor (db : Db) : EventKind → Text → Nat
  | .contractCreated => present db.contracts
  | .resultRecorded => present db.results
  | .verdictRecorded => present db.verdicts
  | .handoffCreated => present db.handoffs
  | .errorRecorded => present db.errors
  | .contractClaimed | .contractFailed => fun _ => 0

def EventKind.hasRow : EventKind → Bool
  | .contractClaimed | .contractFailed => false
  | _ => true

/-- How often the entry returns the contract to a claimer. -/
def grantsOf (H : Host) (id : Text) (e : Step) : Nat :=
  match committed H e with
  | some (_, .claimed items) => items.countP fun c => decide (c.contract.contractId = id)
  | _ => 0

/-- The log tells what has happened, once. -/
structure FaithfulLog (F : FleetHost) (sched : List (Sched Call)) : Prop where
  verifies : ∀ e ∈ traceOf F sched, verifyEventChain F.toHost e.after.shared = .ok true
  rows : ∀ e ∈ traceOf F sched, ∀ kind, kind.hasRow = true → ∀ id,
    e.after.shared.logged kind id = e.after.shared.rowsFor kind id
  claims : ∀ past e rest, traceOf F sched = past ++ e :: rest → ∀ id,
    e.after.shared.logged .contractClaimed id = ((past ++ [e]).map (grantsOf F.toHost id)).sum
  raised : ∀ e ∈ traceOf F sched, ∀ i x, e.output = .returned i (.error x) →
    ∃ t, e.before.threads i = some t ∧ t.ghost = false

/-- The hash of the handoff a block makes. -/
def Write.handoff? (H : Host) : Write → Option Text
  | .result a resultHash =>
    if a.status ∈ awaitingVerification.map py then
      (handoffDigest H a.contractId (idOf "result:" resultHash) a.role .judge
        "independent verification required" a.now).toOption
    else none
  | .verdict a _ =>
    match a.verdict, a.onVerifiedRole with
    | .verified, some nextRole =>
      (handoffDigest H a.contractId a.resultId .judge nextRole
        "verified result eligible for next operational stage" a.now).toOption
    | .verificationFailed, _ =>
      (handoffDigest H a.contractId a.resultId .judge a.assignedRole
        "verification failed; corrective work required" a.now).toOption
    | _, _ => none
  | _ => none

def Db.newHandoff (db : Db) (digest : Text) : Bool :=
  db.handoffs.rows.all fun h => decide (h.handoffHash ≠ digest)
    && decide (h.handoffId ≠ idOf "handoff:" digest)

def Db.newError (db : Db) (digest : Text) : Bool :=
  db.errors.rows.all fun r => decide (r.eventHash ≠ digest)
    && decide (r.errorId ≠ idOf "error:" digest)

/-- `INSERT OR IGNORE` ignores nothing in the block. -/
def Write.inserts (H : Host) (w : Write) (db : Db) : Bool :=
  (w.handoff? H).all db.newHandoff && match w with
      | .error _ digest => db.newError digest
      | _ => true

def unignored (H : Host) (e : Step) : Bool :=
  match committed H e with
  | some (w, _) => w.inserts H e.before.shared
  | none => true

/-- The window of an error budget that is computed starts at a time there is. -/
def inWindow (e : Step) : Bool :=
  match e.output with
  | .stepped _ (.budget now) _ => decide (86400000000 ≤ now)
  | _ => true

-- == chain

/-- The events are a chain of sound events. -/
def Chained (H : Host) (db : Db) : Prop :=
  Chain.Linked FleetEvent.prevEventHash FleetEvent.eventHash genesis db.events
    ∧ ∀ e ∈ db.events, e.Sound H

theorem verifyEvents_chain {g : Text} {es : List FleetEvent}
    (h : Chain.Linked FleetEvent.prevEventHash FleetEvent.eventHash g es)
    (hsound : ∀ e ∈ es, e.Sound H) : verifyEvents H g es = .ok true := by
  induction es generalizing g with
  | nil => rfl
  | cons e es ih =>
    obtain ⟨hprev, hrest⟩ := (Chain.linked_cons _ _).mp h
    obtain ⟨text, htext, hhash⟩ := hsound e (List.mem_cons_self ..)
    rw [verifyEvents, if_neg (not_not_intro hprev), htext, bind_ok_eq, if_neg (not_not_intro hhash)]
    exact ih hrest fun d hd => hsound d (List.mem_cons_of_mem _ hd)

variable {db db' : Db} {kind k : EventKind} {id : Text} {a : ClaimArgs}

theorem Chained.verifies (h : Chained H db) :
    verifyEventChain H db = .ok true := verifyEvents_chain h.1 h.2

theorem Chained.congr (h : Chained H db) (heq : db'.events = db.events) : Chained H db' := by
  unfold Chained
  rw [heq]
  exact h

theorem Logged.chained (h : Logged H kind id db db') (hchained : Chained H db) : Chained H db' := by
  obtain ⟨e, rfl, -, -, hprev, hsound⟩ := h.appended
  obtain ⟨hlinked, hsounds⟩ := hchained
  refine ⟨(Chain.linked_concat _ _).mpr ⟨hlinked, ?_⟩, ?_⟩
  · rw [hprev]
    unfold Db.lastHash Chain.last
    cases db.events.getLast? <;> rfl
  · rw [List.forall_mem_append]
    exact ⟨hsounds, fun d hd => List.mem_singleton.mp hd ▸ hsound⟩

-- == accounts

/-- The events of a kind about an entity, beyond the rows. -/
def Db.excess (db : Db) (kind : EventKind) (id : Text) : Int :=
  db.logged kind id - db.rowsFor kind id

/-- One event, or row, of the kind about the entity. -/
def bump (kind : EventKind) (id : Text) (k : EventKind) (j : Text) : Int :=
  if kind = k ∧ id = j then 1 else 0

theorem Logged.excess (h : Logged H kind id db db') (k : EventKind) (j : Text) :
    db'.excess k j = db.excess k j + bump kind id k j := by
  obtain ⟨e, rfl, hkind, hid, -, -⟩ := h.appended
  have hlogged : ({ db with events := db.events ++ [e] } : Db).logged k j
      = db.logged k j + if kind = k ∧ id = j then 1 else 0 := by
    unfold Db.logged
    rw [List.countP_append, List.countP_cons, List.countP_nil, hkind, hid]
    simp
  have hrows : ({ db with events := db.events ++ [e] } : Db).rowsFor k j
      = db.rowsFor k j := by cases k <;> rfl
  unfold Db.excess bump
  rw [hlogged, hrows]
  split <;> omega

theorem present_insert {ρ : Type} {key : ρ → Text} {t t' : Table key} {row : ρ}
    (h : t.insert? row = some t') (j : Text) :
    present t' j = present t j + if key row = j then 1 else 0 := by
  have hnone := Table.find?_of_insert h
  unfold present
  rw [Table.find?_insert h j]
  by_cases hj : j = key row
  · subst hj
    rw [if_pos rfl, if_pos rfl, hnone]
    rfl
  · rw [if_neg hj, if_neg (Ne.symm hj)]
    rfl

theorem excess_updateState (db : Db) (id : Text) (f : StateRow → StateRow)
    (hf : ∀ r, (f r).contractId = r.contractId) (k : EventKind) (j : Text) :
    (db.updateState id f hf).excess k j = db.excess k j := by
  cases k <;> rfl

theorem excess_insert (hevents : db'.events = db.events)
    (hrows : ∀ k j, db'.rowsFor k j = db.rowsFor k j + if kind = k ∧ id = j then 1 else 0)
    (k : EventKind) (j : Text) : db'.excess k j = db.excess k j - bump kind id k j := by
  unfold Db.excess Db.logged bump
  rw [hevents, hrows k j]
  split <;> omega

theorem insertHandoff_new {row : HandoffRow} {digest : Text}
    (hnew : db.newHandoff digest = true) (hid : row.handoffId = idOf "handoff:" digest)
    (hhash : row.handoffHash = digest) :
    ∃ handoffs, db.handoffs.insert? row = some handoffs
      ∧ db.insertHandoff row = { db with handoffs := handoffs } := by
  have hall := List.all_eq_true.mp hnew
  have hany : (db.handoffs.rows.any fun h => decide (h.handoffHash = row.handoffHash)) = false := by
    rw [List.any_eq_false]
    intro h hh
    have hne := (Bool.and_eq_true _ _ ▸ hall h hh).1
    rw [hhash]
    simpa using hne
  unfold Db.insertHandoff
  rw [hany]
  cases hinsert : db.handoffs.insert? row with
  | some handoffs => exact ⟨handoffs, rfl, rfl⟩
  | none =>
    obtain ⟨h, hfound⟩ := Table.exists_of_insert_none hinsert
    have hne := (Bool.and_eq_true _ _ ▸ hall h (Table.mem_of_find? hfound)).2
    exact absurd ((Table.key_of_find? hfound).trans hid) (of_decide_eq_true hne)

theorem insertError_new {row : ErrorRow} {digest : Text}
    (hnew : db.newError digest = true) (hid : row.errorId = idOf "error:" digest)
    (hhash : row.eventHash = digest) :
    ∃ errors, db.errors.insert? row = some errors
      ∧ db.insertError row = { db with errors := errors } := by
  have hall := List.all_eq_true.mp hnew
  have hany : (db.errors.rows.any fun r => decide (r.eventHash = row.eventHash)) = false := by
    rw [List.any_eq_false]
    intro r hr
    have hne := (Bool.and_eq_true _ _ ▸ hall r hr).1
    rw [hhash]
    simpa using hne
  unfold Db.insertError
  rw [hany]
  cases hinsert : db.errors.insert? row with
  | some errors => exact ⟨errors, rfl, rfl⟩
  | none =>
    obtain ⟨r, hfound⟩ := Table.exists_of_insert_none hinsert
    have hne := (Bool.and_eq_true _ _ ▸ hall r (Table.mem_of_find? hfound)).2
    exact absurd ((Table.key_of_find? hfound).trans hid) (of_decide_eq_true hne)

-- == blocks

theorem HandedOver.chained {contractId sourceResultId : Text}
    {fromRole toRole : Role} {reason : String} {now : Instant}
    (h : HandedOver H contractId sourceResultId fromRole toRole reason now db db')
    (hchained : Chained H db) : Chained H db' := by
  obtain ⟨digest, row, -, -, -, hlogged⟩ := h.handed
  refine hlogged.chained (hchained.congr ?_)
  show (db.insertHandoff row).events = db.events
  unfold Db.insertHandoff
  split
  · rfl
  · split <;> rfl

theorem HandedOver.excess {contractId sourceResultId : Text}
    {fromRole toRole : Role} {reason : String} {now : Instant}
    (h : HandedOver H contractId sourceResultId fromRole toRole reason now db db')
    (hnew : ∀ digest, handoffDigest H contractId sourceResultId fromRole toRole reason
      now = .ok digest → db.newHandoff digest = true) (k : EventKind) (j : Text) :
    db'.excess k j = db.excess k j := by
  obtain ⟨digest, row, hdigest, hid, hhash, hlogged⟩ := h.handed
  obtain ⟨handoffs, hinsert, heq⟩ := insertHandoff_new (hnew digest hdigest) hid hhash
  have hrow : ({ db with handoffs := handoffs } : Db).excess k j
      = db.excess k j - bump .handoffCreated row.handoffId k j := by
    refine excess_insert (by exact rfl) (fun k j => ?_) k j
    cases k with
    | handoffCreated => simpa [Db.rowsFor] using present_insert hinsert j
    | _ => rfl
  rw [hlogged.excess, excess_updateState, heq, hrow]
  exact Int.sub_add_cancel _ _

theorem Turn.chained {row : Candidate}
    {item : Option Claimed} (h : Turn H a row db db' item) (hchained : Chained H db) :
    Chained H db' := by
  cases h with
  | skipped h => exact h ▸ hchained
  | failed _ h => exact h.chained (hchained.congr rfl)
  | granted _ _ _ h => exact h.chained (hchained.congr rfl)

theorem Turns.chained {rows : List Candidate} {items : List Claimed}
    (h : Turns H a rows items db db') (hchained : Chained H db) : Chained H db' := by
  induction h with
  | done => exact hchained
  | turn hturn _ ih => exact ih (hturn.chained hchained)

def grantsIn (items : List Claimed) (k : EventKind) (j : Text) : Int :=
  if k = .contractClaimed then
    (items.countP fun c => decide (c.contract.contractId = j) : Nat)
  else 0

theorem grantsIn_append (items others : List Claimed) (k : EventKind) (j : Text) :
    grantsIn (items ++ others) k j = grantsIn items k j + grantsIn others k j := by
  unfold grantsIn
  rw [List.countP_append]
  split
  · exact Int.natCast_add _ _
  · rfl

theorem grantsIn_nil (k : EventKind) (j : Text) : grantsIn [] k j = 0 := by
  unfold grantsIn
  split <;> rfl

theorem Turn.excess {row : Candidate} {item : Option Claimed} (h : Turn H a row db db' item)
    (hk : k ≠ .contractFailed) (j : Text) :
    db'.excess k j = db.excess k j + grantsIn item.toList k j := by
  cases h with
  | skipped h => rw [h, Option.toList_none, grantsIn_nil, Int.add_zero]
  | failed _ h =>
    rw [h.excess, excess_updateState, Option.toList_none, grantsIn_nil]
    unfold bump
    rw [if_neg fun h => hk h.1.symm]
  | granted _ _ _ h =>
    rw [h.excess, excess_updateState, Option.toList_some]
    unfold bump grantsIn
    rw [List.countP_cons, List.countP_nil]
    by_cases hkind : k = .contractClaimed
    · subst hkind
      simp only [true_and, if_true, decide_eq_true_eq]
      split <;> rfl
    · rw [if_neg fun h => hkind h.1.symm, if_neg hkind]

theorem Turns.excess {rows : List Candidate} {items : List Claimed}
    (h : Turns H a rows items db db')
    (hk : k ≠ .contractFailed) (j : Text) :
    db'.excess k j = db.excess k j + grantsIn items k j := by
  induction h with
  | done => rw [grantsIn_nil, Int.add_zero]
  | turn hturn _ ih => rw [ih, hturn.excess hk, grantsIn_append, Int.add_assoc]

theorem ResultEffect.chained {a : ResultArgs} {resultId : Text}
    (h : ResultEffect H a resultId db db') (hchained : Chained H db) : Chained H db' := by
  cases h with
  | handed _ h => exact h.chained hchained
  | success _ _ h | closed _ _ h | again _ h => exact h ▸ hchained.congr rfl

theorem VerdictEffect.chained {a : VerdictArgs}
    (h : VerdictEffect H a db db') (hchained : Chained H db) : Chained H db' := by
  cases h with
  | onward _ _ h => exact h.chained hchained
  | back _ h => exact h.chained hchained
  | verified _ h | inconclusive h | blocked h => exact h ▸ hchained.congr rfl

theorem ResultEffect.excess {a : ResultArgs} {resultHash : Text}
    (h : ResultEffect H a (idOf "result:" resultHash) db db')
    (hnew : ((Write.result a resultHash).handoff? H).all db.newHandoff = true)
    (k : EventKind) (j : Text) : db'.excess k j = db.excess k j := by
  cases h with
  | handed hawaits h =>
    refine h.excess (fun digest hdigest => ?_) k j
    unfold Write.handoff? at hnew
    simp only [if_pos hawaits, hdigest] at hnew
    exact hnew
  | success _ _ h | closed _ _ h | again _ h =>
    subst h
    exact excess_updateState ..

theorem VerdictEffect.excess {a : VerdictArgs} (h : VerdictEffect H a db db') (verdictHash : Text)
    (hnew : ((Write.verdict a verdictHash).handoff? H).all db.newHandoff = true)
    (k : EventKind) (j : Text) : db'.excess k j = db.excess k j := by
  cases h with
  | onward hverdict hnext h =>
    refine h.excess (fun digest hdigest => ?_) k j
    unfold Write.handoff? at hnew
    simp only [hverdict, hnext, hdigest] at hnew
    exact hnew
  | back hverdict h =>
    refine h.excess (fun digest hdigest => ?_) k j
    unfold Write.handoff? at hnew
    simp only [hverdict, hdigest] at hnew
    exact hnew
  | verified _ h | inconclusive h | blocked h =>
    subst h
    exact excess_updateState ..

theorem Wrote.chained {w : Write} {reply : Reply}
    (h : Wrote H w db reply db') (hchained : Chained H db) : Chained H db' := by
  cases h with
  | create h =>
    obtain ⟨row, contracts, states, -, -, -, -, hlogged⟩ := h.inserted
    exact hlogged.chained (hchained.congr rfl)
  | claim h => exact h.chained hchained
  | result h =>
    obtain ⟨row, results, mid, -, -, -, -, -, heffect, hlogged⟩ := h.recorded
    exact hlogged.chained (heffect.chained (hchained.congr rfl))
  | verdict h =>
    obtain ⟨row, verdicts, mid, -, -, -, -, -, heffect, hlogged⟩ := h.recorded
    exact hlogged.chained (heffect.chained (hchained.congr rfl))
  | error h =>
    obtain ⟨row, -, -, -, hlogged⟩ := h.recorded
    refine hlogged.chained (hchained.congr ?_)
    unfold Db.insertError
    split
    · rfl
    · split <;> rfl

def Reply.items : Reply → List Claimed
  | .claimed items => items
  | _ => []

theorem Wrote.excess {w : Write} {reply : Reply}
    (h : Wrote H w db reply db') (hinserts : w.inserts H db = true)
    (hk : k ≠ .contractFailed) (j : Text) :
    db'.excess k j = db.excess k j + grantsIn reply.items k j := by
  have hnew := (Bool.and_eq_true _ _ ▸ hinserts).1
  have hnothing : ∀ items, items = [] → db.excess k j = db.excess k j + grantsIn items k j := by
    rintro _ rfl
    rw [grantsIn_nil, Int.add_zero]
  cases h with
  | create h =>
    obtain ⟨row, contracts, states, hid, -, hinsert, -, hlogged⟩ := h.inserted
    have hrow : ({ db with contracts := contracts, states := states } : Db).excess k j
        = db.excess k j - bump .contractCreated row.contractId k j := by
      refine excess_insert (by exact rfl) (fun k j => ?_) k j
      cases k with
      | contractCreated => simpa [Db.rowsFor] using present_insert hinsert j
      | _ => rfl
    rw [hlogged.excess, hrow, hid]
    exact (Int.sub_add_cancel _ _).trans (hnothing _ rfl)
  | claim h => exact h.excess hk j
  | result h =>
    obtain ⟨row, results, mid, hid, -, -, -, hinsert, heffect, hlogged⟩ := h.recorded
    have hrow : ({ db with results := results } : Db).excess k j
        = db.excess k j - bump .resultRecorded row.resultId k j := by
      refine excess_insert (by exact rfl) (fun k j => ?_) k j
      cases k with
      | resultRecorded => simpa [Db.rowsFor] using present_insert hinsert j
      | _ => rfl
    rw [hlogged.excess, heffect.excess hnew, hrow, hid]
    exact (Int.sub_add_cancel _ _).trans (hnothing _ rfl)
  | @verdict a verdictHash _ _ h =>
    obtain ⟨row, verdicts, mid, hid, -, -, -, hinsert, heffect, hlogged⟩ := h.recorded
    have hrow : ({ db with verdicts := verdicts } : Db).excess k j
        = db.excess k j - bump .verdictRecorded row.verdictId k j := by
      refine excess_insert (by exact rfl) (fun k j => ?_) k j
      cases k with
      | verdictRecorded => simpa [Db.rowsFor] using present_insert hinsert j
      | _ => rfl
    rw [hlogged.excess, heffect.excess verdictHash hnew, hrow, hid]
    exact (Int.sub_add_cancel _ _).trans (hnothing _ rfl)
  | error h =>
    obtain ⟨row, hid, hhash, -, hlogged⟩ := h.recorded
    obtain ⟨errors, hinsert, heq⟩ := insertError_new (Bool.and_eq_true _ _ ▸ hinserts).2 hid hhash
    have hrow : ({ db with errors := errors } : Db).excess k j
        = db.excess k j - bump .errorRecorded row.errorId k j := by
      refine excess_insert (by exact rfl) (fun k j => ?_) k j
      cases k with
      | errorRecorded => simpa [Db.rowsFor] using present_insert hinsert j
      | _ => rfl
    rw [hlogged.excess, heq, hrow, hid]
    exact (Int.sub_add_cancel _ _).trans (hnothing _ rfl)

-- == runs

/-- The books are in order. -/
structure Balanced (H : Host) (past : List Step) (db : Db) : Prop where
  chained : Chained H db
  rows : ∀ kind, kind.hasRow = true → ∀ id, db.excess kind id = 0
  claims : ∀ id, db.excess .contractClaimed id = ((past.map (grantsOf H id)).sum : Nat)

theorem Moves.balanced {past : List Step} {e : Step} (h : Moves H e)
    (hC : unignored H e = true) (hb : Balanced H past e.before.shared) :
    Balanced H (past ++ [e]) e.after.shared := by
  have hsum : ∀ id, ((past ++ [e]).map (grantsOf H id)).sum
      = (past.map (grantsOf H id)).sum + grantsOf H id e := by
    intro id
    rw [List.map_append, List.sum_append, List.map_singleton, List.sum_singleton]
  cases h with
  | still hc hsame =>
    have hnone : ∀ id, grantsOf H id e = 0 := by
      intro id
      unfold grantsOf
      rw [hc]
    rw [hsame]
    exact ⟨hb.chained, hb.rows, fun id => by rw [hsum, hnone id]; exact hb.claims id⟩
  | @wrote w reply hc _ hwrote =>
    have hinserts : w.inserts H e.before.shared = true := by
      unfold unignored at hC
      rw [hc] at hC
      exact hC
    have hexcess := fun k hk j => hwrote.excess hinserts (k := k) hk j
    refine ⟨hwrote.chained hb.chained, fun kind hrow id => ?_, fun id => ?_⟩
    · rw [hexcess kind (by rintro rfl; cases hrow), hb.rows kind hrow id]
      unfold grantsIn
      rw [if_neg (by rintro rfl; cases hrow)]
      rfl
    · have hgrants : (grantsOf H id e : Int) = grantsIn reply.items .contractClaimed id := by
        unfold grantsOf grantsIn
        rw [hc, if_pos rfl]
        cases reply <;> rfl
      rw [hexcess .contractClaimed (by decide), hb.claims id, hsum, ← hgrants]
      exact (Int.natCast_add _ _).symm

theorem raised_uncommitted (F : FleetHost) (sched : List (Sched Call))
    (hC : ∀ e ∈ traceOf F sched, inWindow e = true) :
    ∀ e ∈ traceOf F sched, ∀ i x, e.output = .returned i (.error x) →
      ∃ t, e.before.threads i = some t ∧ t.ghost = false := by
  have hrun := Machine.history_invariant (step F) (C := fun e => inWindow e = true)
    (I := fun past p => Pool.AllSat (track F.toHost) (InTime False)
        (fun _ l db db' => l.Does F.toHost db db' ∧ l.Fits)
        (fun _ _ => True) (fun g _ => False ∨ g = false) p
      ∧ ∀ e ∈ past, ∀ i x, e.output = .returned i (.error x) →
        ∃ t, e.before.threads i = some t ∧ t.ghost = false)
    (Pool.idle Db.empty) ⟨Pool.allSat_idle _ _, fun e he => (by cases he)⟩
    (fun past e hv hCe hpast => ?_) sched hC
  · exact hrun.2
  · obtain ⟨hsat, hold⟩ := hpast
    have hmeets : Pool.Meets (InTime False) e := by
      intro i l g ho
      cases l with
      | budget now =>
        unfold inWindow at hCe
        rw [ho] at hCe
        exact Or.inr (of_decide_eq_true hCe)
      | _ => exact trivial
    refine ⟨Pool.sat_step _ _ _ _ (fun _ c _ => start_outlined c) hv hmeets hsat, ?_⟩
    intro d hd i x ho
    rcases List.mem_append.mp hd with hd | hd
    · exact hold d hd i x ho
    · cases List.mem_singleton.mp hd
      obtain ⟨t, ht, hfalse | hg⟩ := Pool.raise_of_returned _ _ _ _ hv hsat ho
      · exact hfalse.elim
      · exact ⟨t, ht, hg⟩

/-- Where nothing is ignored and every window is a window, the log is faithful. -/
theorem faithful_log (F : FleetHost) (sched : List (Sched Call))
    (hC : ∀ e ∈ traceOf F sched, (unignored F.toHost e && inWindow e) = true) :
    FaithfulLog F sched := by
  have hrun := run_history (F := F) (C := fun e => (unignored F.toHost e && inWindow e) = true)
    (I := fun past db => Balanced F.toHost past db
      ∧ past.Throughout fun past e => Balanced F.toHost (past ++ [e]) e.after.shared)
    ⟨⟨⟨trivial, fun e he => (by cases he)⟩,
      fun kind _ id => (by cases kind <;> rfl), fun _ => rfl⟩, List.throughout_nil⟩
    (fun past e hmoves hCe hI => ?_) sched hC
  · have hall : ∀ e ∈ traceOf F sched, ∃ past, Balanced F.toHost (past ++ [e]) e.after.shared := by
      intro e he
      obtain ⟨past, rest, heq⟩ := List.append_of_mem he
      exact ⟨past, hrun.2 past e rest heq⟩
    refine ⟨fun e he => ?_, fun e he kind hrow id => ?_, fun past e rest heq id => ?_,
      raised_uncommitted F sched fun e he => (Bool.and_eq_true _ _ ▸ hC e he).2⟩
    · obtain ⟨past, hb⟩ := hall e he
      exact hb.chained.verifies
    · obtain ⟨past, hb⟩ := hall e he
      have hzero := hb.rows kind hrow id
      unfold Db.excess at hzero
      omega
    · have hclaims := (hrun.2 past e rest heq).claims id
      have hnone : e.after.shared.rowsFor .contractClaimed id = 0 := rfl
      unfold Db.excess at hclaims
      omega
  · have hb := hmoves.balanced (Bool.and_eq_true _ _ ▸ hCe).1 hI.1
    exact ⟨hb, List.throughout_concat.mpr ⟨hI.2, hb⟩⟩

def incident (now : Instant) : ErrorArgs where
  subsystem := py "core"
  eventType := py "TIMEOUT"
  severity := py "WARN"
  recovered := false
  details := .dict []
  now := now

def incidentId (now : Instant) : Text :=
  match sha256Json machine.toHost (errorBody machine.toHost (incident now)) with
  | .ok digest => idOf "error:" digest
  | .error _ => genesis

/-- A contract is created, and an incident recorded, by two controllers. -/
def quietDay : List (Sched Call) :=
  [.spawn 0 (.create (buildContract 1 none)), .spawn 1 (.error (incident dawn)),
    .advance 0, .advance 1, .advance 0, .advance 1, .advance 0, .advance 1]

theorem quietDay_faithful : FaithfulLog machine quietDay :=
  faithful_log machine quietDay (List.all_eq_true.mp (by decide +kernel))

def echo : List (Sched Call) :=
  [.spawn 0 (.error (incident dawn)), .advance 0, .advance 0, .advance 0,
    .spawn 0 (.error (incident dawn)), .advance 0]

/-- There is one row, and two events about it. -/
theorem logged_twice : ¬ FaithfulLog machine echo := by
  intro h
  have htwice : ((traceOf machine echo).any fun e =>
      decide (e.after.shared.logged .errorRecorded (incidentId dawn)
        ≠ e.after.shared.rowsFor .errorRecorded (incidentId dawn))) = true := by
    decide +kernel
  obtain ⟨e, he, hne⟩ := List.any_eq_true.mp htwice
  exact of_decide_eq_true hne (h.rows e he .errorRecorded rfl _)

end Centinal26.Fleet
