/-
What `claim_next` selects, alone on the database.
-/
import Centinal26.Fleet.Budget
import Centinal26.Fleet.Keys
import Centinal26.Events.Writer
import Mathlib.Algebra.Order.Ring.Rat

namespace Centinal26.Fleet

open Py Steps

variable {H : Host}

-- == statements

/-- The contract may be claimed: it is the role's, ready or with a lease that has expired, has
attempts left, its dependencies have succeeded, and the error budget of its subsystem does not
keep the role out. -/
structure Eligible (a : ClaimArgs) (db : Db) (row : Candidate) : Prop where
  stored : row.contract ∈ db.contracts.rows
  state : ∃ s, db.state? row.contract.contractId = some s ∧ s.ownerRole = a.role
    ∧ (s.status = .ready ∨ s.status = .running ∧ ∃ l, s.leaseUntil = some l ∧ l ≤ a.now)
    ∧ row.attemptCount = s.attemptCount
  attempts : (row.attemptCount : Int) < row.contract.retryBudget + 1
  dependencies : ∀ d ∈ row.contract.dependencies, ∃ s, db.state? d = some s
    ∧ s.status ∈ Status.success
  budget : ∃ shut, contracted db row.contract.subsystem a.now = .ok shut
    ∧ (shut = true → a.role = .judge ∨ a.role = .sre)

structure Granted (a : ClaimArgs) (row : Candidate) (item : Claimed) : Prop where
  contract : item.contract = row.contract
  claimedBy : item.claimedBy.str = a.claimer
  leaseUntil : addSeconds a.now a.leaseSeconds = .ok item.leaseUntil
  attemptCount : item.attemptCount = row.attemptCount + 1

/-- What a claim does to the state of a contract. -/
inductive Moved (a : ClaimArgs) (items : List Claimed) (id : Text) (db db' : Db) : Prop
  | claimed (item : Claimed) (hitem : item ∈ items) (hid : item.contract.contractId = id)
      (hstate : db'.state? id = (db.state? id).map (StateRow.claim item.claimedBy item.leaseUntil))
  | failed (row : Candidate) (hitems : ∀ item ∈ items, item.contract.contractId ≠ id)
      (hrow : row ∈ a.rows) (hid : row.contract.contractId = id) (hspent : row.spent = true)
      (hstate : db'.state? id = (db.state? id).map StateRow.fail)
  | left (hitems : ∀ item ∈ items, item.contract.contractId ≠ id)
      (hstate : db'.state? id = db.state? id)

/-- The items are the first of the eligible contracts, and the database has changed by them and
by candidates without attempts left. -/
structure Selected (a : ClaimArgs) (items : List Claimed) (db db' : Db) : Prop where
  chosen : ∃ all : List Candidate, all.Pairwise (fun x y => x.contract.before y.contract = true)
    ∧ (all.map fun row => row.contract.contractId).Nodup
    ∧ (∀ row, row ∈ all ↔ Eligible a db row)
    ∧ List.Forall₂ (Granted a) (all.take a.batchLimit.toNat) items
  records : SameRecords db db'
  states : ∀ id, Moved a items id db db'

-- == turns

/-- One turn. -/
inductive Pick (H : Host) (a : ClaimArgs) (row : Candidate) (db db' : Db) : Option Claimed → Prop
  | failed (hspent : row.spent = true) (h : Logged H .contractFailed row.contract.contractId
        (db.updateState row.contract.contractId StateRow.fail StateRow.fail_contractId) db') :
      Pick H a row db db' none
  | passed (hspent : row.spent = false) (hadmits : a.admits db row = false) (h : db' = db) :
      Pick H a row db db' none
  | granted (item : Claimed) (hspent : row.spent = false) (hadmits : a.admits db row = true)
      (hitem : Granted a row item)
      (h : Logged H .contractClaimed row.contract.contractId (db.updateState row.contract.contractId
          (StateRow.claim item.claimedBy item.leaseUntil) (StateRow.claim_contractId _ _)) db') :
      Pick H a row db db' (some item)

/-- The turns, with the slots that are left. -/
inductive Picks (H : Host) (a : ClaimArgs) : Nat → List Candidate → List Claimed → Db → Db → Prop
  | full {rows : List Candidate} {db : Db} : Picks H a 0 rows [] db db
  | done {n : Nat} {db : Db} : Picks H a n [] [] db db
  | free {n : Nat} {row : Candidate} {rows : List Candidate} {items : List Claimed}
      {db mid db' : Db} (h : Pick H a row db mid none) (hs : Picks H a (n + 1) rows items mid db') :
      Picks H a (n + 1) (row :: rows) items db db'
  | slot {n : Nat} {row : Candidate} {rows : List Candidate} {item : Claimed}
      {items : List Claimed} {db mid db' : Db} (h : Pick H a row db mid (some item))
      (hs : Picks H a n rows items mid db') : Picks H a (n + 1) (row :: rows) (item :: items) db db'

/-- The event that a turn appends is refused: its hash, or the identifier made of it, is one of the
log's. -/
def Refused (H : Host) (now : Instant) (kind : EventKind) (entityId : Text)
    (members : List (PyStr × Json)) (db : Db) : Prop :=
  ∃ text : Text, Events.canonicalJson (eventBody (H.isoformat now).str (py kind.value) entityId.str
      (fieldsOf members) db.lastHash.str) = .ok text
    ∧ ∃ e ∈ db.events, e.eventHash = H.sha256 text
      ∨ e.eventId = idOf ("fleet:" ++ kind.lower ++ ":") (H.sha256 text)

/-- One turn raises: `_error_budget` finds no window, or the lease or the claimer of a contract that
is admitted cannot be stored, or the event of the turn is refused. -/
inductive Raises (H : Host) (a : ClaimArgs) (row : Candidate) (db : Db) : PyErr → Prop
  | early (hspent : row.spent = false) (hdeps : dependenciesSatisfied db row.contract = true)
      (h : a.now < 86400000000) : Raises H a row db .overflowError
  | late (hspent : row.spent = false) (hadmits : a.admits db row = true)
      (h : addSeconds a.now a.leaseSeconds = .error .overflowError) :
      Raises H a row db .overflowError
  | claimer (hspent : row.spent = false) (hadmits : a.admits db row = true)
      (h : encode a.claimer = .error .unicodeEncodeError) : Raises H a row db .unicodeEncodeError
  | failed (hspent : row.spent = true) (h : Refused H a.now .contractFailed row.contract.contractId
        [(py "reason", .str (py "retry budget exhausted"))] db) : Raises H a row db .integrityError
  | granted (item : Claimed) (hspent : row.spent = false) (hadmits : a.admits db row = true)
      (hitem : Granted a row item)
      (h : Refused H a.now .contractClaimed row.contract.contractId
        [(py "role", .str (py a.role.value)), (py "claimer", .str a.claimer),
          (py "lease_until", .str (H.isoformat item.leaseUntil).str)] db) :
      Raises H a row db .integrityError

/-- The turns, with the slots that are left, up to the one that raises. -/
inductive Excused (H : Host) (a : ClaimArgs) (e : PyErr) : Nat → List Candidate → Db → Prop
  | here {n : Nat} {row : Candidate} {rows : List Candidate} {db : Db} (h : Raises H a row db e) :
      Excused H a e (n + 1) (row :: rows) db
  | free {n : Nat} {row : Candidate} {rows : List Candidate} {db mid : Db}
      (h : Pick H a row db mid none) (hs : Excused H a e (n + 1) rows mid) :
      Excused H a e (n + 1) (row :: rows) db
  | slot {n : Nat} {row : Candidate} {rows : List Candidate} {item : Claimed} {db mid : Db}
      (h : Pick H a row db mid (some item)) (hs : Excused H a e n rows mid) :
      Excused H a e (n + 1) (row :: rows) db

-- == events

variable {db mid db' : Db} {now : Instant} {n : Nat} {e : PyErr} {a : ClaimArgs} {role : Role}
  {row : Candidate} {item : Option Claimed} {rows : List Candidate}

theorem eventBody_text (occurredAt entityId prev : Text) (kind : EventKind) (payload : Fields)
    (hfinite : payload.doc.json.isFinite = true)
    (hencodable : payload.doc.json.isEncodable = true) :
    ∃ text, Events.canonicalJson (eventBody occurredAt.str (py kind.value) entityId.str payload
      prev.str) = .ok text := by
  have hbody : eventBody occurredAt.str (py kind.value) entityId.str payload prev.str
      = .obj [(py "entity_id", .str entityId.str), (py "event_type", .str (py kind.value)),
        (py "occurred_at", .str occurredAt.str), (py "payload", payload.doc.json),
        (py "prev_event_hash", .str prev.str)] := rfl
  refine exists_ok (Events.canonicalJson_isOk.mpr ?_)
  rw [hbody, Json.isFinite, Json.isEncodable, allFiniteMembers_eq, allEncodableMembers_eq]
  simp only [List.all_cons, List.all_nil, Json.isFinite, Json.isEncodable, hfinite, hencodable,
    occurredAt.encodable, entityId.encodable, prev.encodable, encodable_py, decide_true,
    Bool.and_true, and_self]

theorem appendEvent_ends {kind : EventKind} {entityId : Text} {members : List (PyStr × Json)}
    (mid : Db) (hfinite : (fieldsOf members).doc.json.isFinite = true)
    (hencodable : (fieldsOf members).doc.json.isEncodable = true) :
    (appendEvent H kind entityId members now).Ends mid (fun _ db' => Logged H kind entityId mid db')
      fun e _ => e = .integrityError ∧ Refused H now kind entityId members mid := by
  obtain ⟨text, htext⟩ := eventBody_text (H.isoformat now) entityId mid.lastHash kind
    (fieldsOf members) hfinite hencodable
  obtain ⟨hlogged⟩ := appendEvent_commits (H := H) kind entityId members now mid
  constructor
  cases hrun : appendEvent H kind entityId members now mid with
  | mk r db' =>
    rw [hrun] at hlogged
    cases r with
    | ok digest => exact hlogged
    | error e =>
      unfold appendEvent at hrun
      simp only [htext] at hrun
      split at hrun
      · next htaken =>
        cases hrun
        refine ⟨rfl, text, htext, ?_⟩
        obtain ⟨ev, hev, hsame⟩ := List.any_eq_true.mp htaken
        rw [Bool.or_eq_true, decide_eq_true_eq, decide_eq_true_eq] at hsame
        exact ⟨ev, hev, hsame.symm⟩
      · cases hrun

-- == the loop

theorem failed_payload :
    (fieldsOf [(py "reason", .str (py "retry budget exhausted"))]).doc.json.isFinite = true
    ∧ (fieldsOf [(py "reason", .str (py "retry budget exhausted"))]).doc.json.isEncodable = true :=
  ⟨rfl, by decide +kernel⟩

theorem claimed_payload (role claimer leaseUntil : Text) :
    (fieldsOf [(py "role", .str role.str), (py "claimer", .str claimer.str),
      (py "lease_until", .str leaseUntil.str)]).doc.json.isFinite = true
    ∧ (fieldsOf [(py "role", .str role.str), (py "claimer", .str claimer.str),
      (py "lease_until", .str leaseUntil.str)]).doc.json.isEncodable = true := by
  have hdoc : (fieldsOf [(py "role", .str role.str), (py "claimer", .str claimer.str),
      (py "lease_until", .str leaseUntil.str)]).doc.json
      = .obj [(py "claimer", .str claimer.str), (py "lease_until", .str leaseUntil.str),
        (py "role", .str role.str)] := rfl
  rw [hdoc, Json.isFinite, Json.isEncodable, allFiniteMembers_eq, allEncodableMembers_eq]
  simp only [List.all_cons, List.all_nil, Json.isFinite, Json.isEncodable, encodable_py,
    role.encodable, claimer.encodable, leaseUntil.encodable, decide_true, Bool.and_true, and_self]

theorem addSeconds_error {n : Int} (h : addSeconds now n = .error e) : e = .overflowError := by
  unfold addSeconds at h
  split at h
  · cases h
  · cases h
    rfl

theorem encode_error {s : PyStr} (h : encode s = .error e) : e = .unicodeEncodeError := by
  unfold encode at h
  split at h
  · cases h
  · cases h
    rfl

theorem contracted_error {subsystem : Text}
    (h : contracted db subsystem now = .error e) : e = .overflowError ∧ now < 86400000000 := by
  unfold contracted cutoff at h
  by_cases hnow : 86400000000 ≤ now
  · rw [if_pos hnow] at h
    cases h
  · rw [if_neg hnow] at h
    cases h
    exact ⟨rfl, Int.not_le.mp hnow⟩

theorem claimOne_ends (mid : Db) (row : Candidate) :
    (claimOne H a row).Ends mid (fun item db' => Pick H a row mid db' item)
      fun e _ => Raises H a row mid e := by
  unfold claimOne
  split
  · next hspent =>
    refine Block.Ends.bind (Q := fun _ mid' => mid'
      = mid.updateState row.contract.contractId StateRow.fail StateRow.fail_contractId)
      ⟨rfl⟩ ?_
    rintro - _ rfl
    refine Block.Ends.bind ((appendEvent_ends (mid.updateState row.contract.contractId
      StateRow.fail StateRow.fail_contractId) failed_payload.1 failed_payload.2).imp
        (fun _ _ h => h) ?_) ?_
    · rintro e _ ⟨rfl, hrefused⟩
      exact .failed hspent hrefused
    · rintro - db' hlogged
      exact ⟨.failed hspent hlogged⟩
  · next hspent =>
    have hspent : row.spent = false := by simpa using hspent
    refine Block.Ends.bind (Q := fun satisfied mid' =>
      satisfied = dependenciesSatisfied mid row.contract ∧ mid' = mid) ⟨⟨rfl, rfl⟩⟩ ?_
    rintro satisfied mid ⟨hsatisfied, rfl⟩
    split
    · next hdeps =>
      have hadmits : a.admits mid row = false := by
        unfold ClaimArgs.admits
        rw [← hsatisfied]
        have hfalse : satisfied = false := by simpa using hdeps
        rw [hfalse, Bool.false_and]
      exact ⟨.passed hspent hadmits rfl⟩
    · next hdeps =>
      have htrue : satisfied = true := by simpa using hdeps
      refine Block.Ends.bind (Q := fun shut mid' =>
        contracted mid row.contract.subsystem a.now = .ok shut ∧ mid' = mid) ?_ ?_
      · constructor
        cases hshut : contracted mid row.contract.subsystem a.now with
        | ok shut => exact ⟨rfl, rfl⟩
        | error e =>
          obtain ⟨rfl, hearly⟩ := contracted_error hshut
          exact .early hspent (hsatisfied.symm.trans htrue) hearly
      · rintro shut mid ⟨hshut, rfl⟩
        have hadmits : a.admits mid row = !a.shutOut shut := by
          unfold ClaimArgs.admits
          rw [hshut, ← hsatisfied, htrue, Bool.true_and]
        split
        · next hclosed =>
          refine ⟨.passed hspent ?_ rfl⟩
          rw [hadmits, hclosed]
          rfl
        · next hopen =>
          have hopen : a.shutOut shut = false := by simpa using hopen
          rw [hopen] at hadmits
          cases hlease : addSeconds a.now a.leaseSeconds with
          | error e =>
            obtain rfl := addSeconds_error hlease
            exact ⟨.late hspent hadmits hlease⟩
          | ok leaseUntil =>
            cases hclaimer : encode a.claimer with
            | error e =>
              obtain rfl := encode_error hclaimer
              exact ⟨.claimer hspent hadmits hclaimer⟩
            | ok claimer =>
              have hitem : Granted a row ⟨row.contract, claimer, leaseUntil,
                  row.attemptCount + 1⟩ := ⟨rfl, encode_eq_ok.mp hclaimer, hlease, rfl⟩
              refine Block.Ends.bind (Q := fun l m => l = leaseUntil ∧ m = mid) ⟨⟨rfl, rfl⟩⟩ ?_
              rintro leaseUntil mid ⟨rfl, rfl⟩
              refine Block.Ends.bind (Q := fun c m => c = claimer ∧ m = mid) ⟨⟨rfl, rfl⟩⟩ ?_
              rintro claimer mid ⟨rfl, rfl⟩
              refine Block.Ends.bind (Q := fun _ m => m = mid.updateState
                row.contract.contractId (StateRow.claim _ _) (StateRow.claim_contractId _ _))
                ⟨rfl⟩ ?_
              rintro - _ rfl
              obtain ⟨hfinite, hencodable⟩ :=
                claimed_payload (Text.lit a.role.value) claimer (H.isoformat leaseUntil)
              rw [encode_eq_ok.mp hclaimer] at hfinite hencodable
              refine Block.Ends.bind ((appendEvent_ends (mid.updateState
                row.contract.contractId (StateRow.claim _ _) (StateRow.claim_contractId _ _))
                hfinite hencodable).imp (fun _ _ h => h) ?_) ?_
              · rintro e _ ⟨rfl, hrefused⟩
                exact .granted _ hspent hadmits hitem hrefused
              · rintro - db' hlogged
                exact ⟨.granted _ hspent hadmits hitem hlogged⟩

theorem claimEach_ends (mid : Db) (rows : List Candidate) (claimed : List Claimed) (n : Nat)
    (hn : a.batchLimit = claimed.length + n) : (claimEach H a rows claimed).Ends mid
      (fun out db' => ∃ items, out = claimed ++ items ∧ Picks H a n rows items mid db')
      fun e _ => Excused H a e n rows mid := by
  induction rows generalizing claimed mid n with
  | nil => exact ⟨⟨[], (List.append_nil _).symm, .done⟩⟩
  | cons row rows ih =>
    unfold claimEach
    cases n with
    | zero =>
      rw [if_pos (by omega)]
      exact ⟨⟨[], (List.append_nil _).symm, .full⟩⟩
    | succ n =>
      rw [if_neg (by omega)]
      refine Block.Ends.bind ((claimOne_ends mid row).imp (fun _ _ h => h)
        fun _ _ hraises => .here hraises) ?_
      rintro item mid' hpick
      cases item with
      | none =>
        refine (ih mid' (claimed ++ []) (n + 1) (by simpa using hn)).imp ?_
          fun _ _ hrest => .free hpick hrest
        rintro out db' ⟨items, rfl, hpicks⟩
        exact ⟨items, by rw [List.append_nil], .free hpick hpicks⟩
      | some item =>
        refine (ih mid' (claimed ++ [item]) n ?_).imp ?_ fun _ _ hrest => .slot hpick hrest
        · rw [List.length_append, List.length_singleton]
          omega
        · rintro out db' ⟨items, rfl, hpicks⟩
          exact ⟨item :: items, by rw [List.append_assoc]; rfl, .slot hpick hpicks⟩

-- == the gates

/-- The candidates that are left are open, as they were read. -/
def StillOpen (a : ClaimArgs) (db : Db) (rows : List Candidate) : Prop :=
  ∀ row ∈ rows, ∃ s, db.state? row.contract.contractId = some s ∧ s.isOpen a.role a.now = true

theorem isOpen_not_success {s : StateRow}
    (h : s.isOpen role now = true) : s.status ∉ Status.success := by
  unfold StateRow.isOpen at h
  rw [Bool.and_eq_true, Bool.or_eq_true, Bool.and_eq_true, decide_eq_true_eq, decide_eq_true_eq,
    decide_eq_true_eq] at h
  rcases h.2 with hready | ⟨hrunning, -⟩
  · rw [hready]
    decide
  · rw [hrunning]
    decide

theorem Pick.state? (h : Pick H a row db db' item) (j : Text) :
    db'.state? j = db.state? j ∨ j = row.contract.contractId
      ∧ (db'.state? j = (db.state? j).map StateRow.fail
        ∨ ∃ c l, db'.state? j = (db.state? j).map (StateRow.claim c l)) := by
  cases h with
  | failed _ h =>
    rw [h.state? j, Db.state?_updateState]
    split
    · next hj =>
      subst hj
      exact Or.inr ⟨rfl, Or.inl rfl⟩
    · exact Or.inl rfl
  | passed _ _ h => exact Or.inl (by rw [h])
  | granted item _ _ _ h =>
    rw [h.state? j, Db.state?_updateState]
    split
    · next hj =>
      subst hj
      exact Or.inr ⟨rfl, Or.inr ⟨_, _, rfl⟩⟩
    · exact Or.inl rfl

theorem Pick.errors (h : Pick H a row db db' item) : db'.errors = db.errors := by
  cases h with
  | passed _ _ h => rw [h]
  | failed _ h | granted _ _ _ _ h =>
    obtain ⟨e, rfl, -⟩ := h.appended
    rfl

theorem Pick.admits (h : Pick H a row db db' item)
    (hopen : ∃ s, db.state? row.contract.contractId = some s ∧ s.isOpen a.role a.now = true)
    (other : Candidate) : a.admits db' other = a.admits db other := by
  obtain ⟨s, hs, hsopen⟩ := hopen
  have hdeps : dependenciesSatisfied db' other.contract
      = dependenciesSatisfied db other.contract := by
    unfold dependenciesSatisfied
    refine List.all_congr rfl fun d => ?_
    rcases h.state? d with hsame | ⟨rfl, hfail | ⟨c, l, hclaim⟩⟩
    · rw [hsame]
    · rw [hfail, hs]
      simp only [Option.map_some, decide_eq_false (isOpen_not_success hsopen)]
      exact decide_eq_false (by decide : Status.failedPreserved ∉ Status.success)
    · rw [hclaim, hs]
      simp only [Option.map_some, decide_eq_false (isOpen_not_success hsopen)]
      exact decide_eq_false (by decide : Status.running ∉ Status.success)
  have hgate : ∀ subsystem, contracted db' subsystem a.now = contracted db subsystem a.now := by
    intro subsystem
    unfold contracted
    rw [h.errors]
  unfold ClaimArgs.admits
  rw [hdeps, hgate]

theorem StillOpen.after (hopen : StillOpen a db rows) (h : Pick H a row db db' item)
    (hrow : row.contract.contractId ∉ rows.map fun row => row.contract.contractId) :
    StillOpen a db' rows := by
  intro other hother
  obtain ⟨s, hs, hsopen⟩ := hopen other hother
  rcases h.state? other.contract.contractId with hsame | ⟨heq, -⟩
  · exact ⟨s, hsame.trans hs, hsopen⟩
  · exact absurd (heq ▸ List.mem_map_of_mem hother) hrow

-- == selections

def passes (a : ClaimArgs) (db : Db) (row : Candidate) : Bool := !row.spent && a.admits db row

theorem Picks.items {items : List Claimed}
    (h : Picks H a n rows items db db') (hopen : StillOpen a db rows)
    (hnodup : (rows.map fun row => row.contract.contractId).Nodup) :
    List.Forall₂ (Granted a) ((rows.filter (passes a db)).take n) items := by
  induction h with
  | full => exact .nil
  | done =>
    rw [List.filter_nil, List.take_nil]
    exact .nil
  | @free n row rows items db mid db' hpick _ ih =>
    rw [List.map_cons, List.nodup_cons] at hnodup
    have hrest : StillOpen a db rows := fun r hr => hopen r (List.mem_cons_of_mem _ hr)
    have hgates : passes a mid = passes a db := by
      funext other
      unfold passes
      rw [hpick.admits (hopen row (List.mem_cons_self ..)) other]
    have hout : passes a db row = false := by
      unfold passes
      cases hpick with
      | failed hspent _ => rw [hspent]; rfl
      | passed _ hadmits _ => rw [hadmits, Bool.and_false]
    rw [List.filter_cons_of_neg (by rw [hout]; decide), ← hgates]
    exact ih (hrest.after hpick hnodup.1) hnodup.2
  | @slot n row rows item items db mid db' hpick _ ih =>
    rw [List.map_cons, List.nodup_cons] at hnodup
    have hrest : StillOpen a db rows := fun r hr => hopen r (List.mem_cons_of_mem _ hr)
    have hgates : passes a mid = passes a db := by
      funext other
      unfold passes
      rw [hpick.admits (hopen row (List.mem_cons_self ..)) other]
    cases hpick with
    | granted _ hspent hadmits hitem hlogged =>
      have hin : passes a db row = true := by
        unfold passes
        rw [hspent, hadmits]
        rfl
      rw [List.filter_cons_of_pos hin, List.take_succ_cons, ← hgates]
      exact .cons hitem (ih (hrest.after (.granted _ hspent hadmits hitem hlogged) hnodup.1)
        hnodup.2)

theorem Picks.mem {items : List Claimed}
    (h : Picks H a n rows items db db') {item : Claimed} (hitem : item ∈ items) :
    item.contract.contractId ∈ rows.map fun row => row.contract.contractId := by
  induction h with
  | full => cases hitem
  | done => cases hitem
  | free _ _ ih => exact List.mem_cons_of_mem _ (ih hitem)
  | slot hpick _ ih =>
    rcases List.mem_cons.mp hitem with rfl | hitem
    · cases hpick with
      | granted _ _ _ hgranted _ =>
        rw [hgranted.contract]
        exact List.mem_cons_self ..
    · exact List.mem_cons_of_mem _ (ih hitem)

theorem Pick.sameRecords (h : Pick H a row db db' item) : SameRecords db db' := by
  cases h with
  | passed _ _ h => exact h ▸ ⟨rfl, rfl, rfl⟩
  | failed _ h | granted _ _ _ _ h =>
    exact (sameRecords_updateState _ _ _ _).trans h.sameRecords

theorem Picks.sameRecords {items : List Claimed} (h : Picks H a n rows items db db') :
    SameRecords db db' := by
  induction h with
  | full => exact ⟨rfl, rfl, rfl⟩
  | done => exact ⟨rfl, rfl, rfl⟩
  | free hpick _ ih => exact hpick.sameRecords.trans ih
  | slot hpick _ ih => exact hpick.sameRecords.trans ih

theorem Picks.left {items : List Claimed} (h : Picks H a n rows items db db') {id : Text}
    (hid : id ∉ rows.map fun row => row.contract.contractId) : db'.state? id = db.state? id := by
  induction h with
  | full => rfl
  | done => rfl
  | free hpick _ ih | slot hpick _ ih =>
    rw [List.map_cons, List.mem_cons, not_or] at hid
    refine (ih hid.2).trans ?_
    rcases hpick.state? id with hsame | ⟨heq, -⟩
    · exact hsame
    · exact absurd heq hid.1

theorem Picks.moved {items : List Claimed} (h : Picks H a n rows items db db')
    (hnodup : (rows.map fun row => row.contract.contractId).Nodup) (hrows : rows ⊆ a.rows)
    (id : Text) : Moved a items id db db' := by
  induction h with
  | full => exact .left (fun _ h => by cases h) rfl
  | done => exact .left (fun _ h => by cases h) rfl
  | @free n row rows items db mid db' hpick hpicks ih =>
    rw [List.map_cons, List.nodup_cons] at hnodup
    obtain ⟨hrow, hrest⟩ := List.cons_subset.mp hrows
    by_cases hid : id = row.contract.contractId
    · subst hid
      have hitems : ∀ item ∈ items, item.contract.contractId ≠ row.contract.contractId :=
        fun item hitem heq => hnodup.1 (heq ▸ hpicks.mem hitem)
      have hlater := hpicks.left hnodup.1
      cases hpick with
      | failed hspent hlogged =>
        refine .failed row hitems hrow rfl hspent ?_
        rw [hlater, hlogged.state?, Db.state?_updateState, if_pos rfl]
      | passed _ _ hsame => exact .left hitems (by rw [hlater, hsame])
    · have hmid : mid.state? id = db.state? id := by
        rcases hpick.state? id with hsame | ⟨heq, -⟩
        · exact hsame
        · exact absurd heq hid
      rcases ih hnodup.2 hrest with ⟨item, hitem, hitemId, hstate⟩
        | ⟨other, hitems, hother, hotherId, hspent, hstate⟩ | ⟨hitems, hstate⟩
      · exact .claimed item hitem hitemId (by rw [hstate, hmid])
      · exact .failed other hitems hother hotherId hspent (by rw [hstate, hmid])
      · exact .left hitems (hstate.trans hmid)
  | @slot n row rows item items db mid db' hpick hpicks ih =>
    rw [List.map_cons, List.nodup_cons] at hnodup
    obtain ⟨hrow, hrest⟩ := List.cons_subset.mp hrows
    cases hpick with
    | granted _ _ _ hgranted hlogged =>
      by_cases hid : id = row.contract.contractId
      · subst hid
        refine .claimed item (List.mem_cons_self ..) (by rw [hgranted.contract]) ?_
        rw [hpicks.left hnodup.1, hlogged.state?, Db.state?_updateState, if_pos rfl]
      · have hmid : mid.state? id = db.state? id := by
          rw [hlogged.state?, Db.state?_updateState, if_neg hid]
        have hitem : item.contract.contractId ≠ id := by
          rw [hgranted.contract]
          exact fun heq => hid heq.symm
        rcases ih hnodup.2 hrest with ⟨other, hother, hotherId, hstate⟩
          | ⟨other, hitems, hother, hotherId, hspent, hstate⟩ | ⟨hitems, hstate⟩
        · exact .claimed other (List.mem_cons_of_mem _ hother) hotherId (by rw [hstate, hmid])
        · exact .failed other (List.forall_mem_cons.mpr ⟨hitem, hitems⟩) hother hotherId hspent
            (by rw [hstate, hmid])
        · exact .left (List.forall_mem_cons.mpr ⟨hitem, hitems⟩) (hstate.trans hmid)

-- == candidates

theorem before_total (x y : ContractRow) : (x.before y || y.before x) = true := by
  rw [Bool.or_eq_true]
  unfold ContractRow.before
  rcases lt_trichotomy x.rankScore.value y.rankScore.value with h | h | h
  · right
    rw [if_neg (ne_of_gt h)]
    exact decide_eq_true h
  · rw [if_pos h, if_pos h.symm]
    rcases lt_trichotomy x.createdAt y.createdAt with h | h | h
    · left
      rw [if_neg (ne_of_lt h)]
      exact decide_eq_true h
    · rw [if_pos h, if_pos h.symm, decide_eq_true_eq, decide_eq_true_eq]
      exact le_total _ _
    · right
      rw [if_neg (ne_of_lt h)]
      exact decide_eq_true h
  · left
    rw [if_neg (ne_of_gt h)]
    exact decide_eq_true h

theorem before_trans (x y z : ContractRow) (hxy : x.before y = true) (hyz : y.before z = true) :
    x.before z = true := by
  unfold ContractRow.before at *
  split at hxy
  · next hrank =>
    rw [hrank]
    split at hyz
    · next hrank' =>
      rw [if_pos hrank']
      split at hxy
      · next hcreated =>
        rw [hcreated]
        split at hyz
        · next hcreated' =>
          rw [if_pos hcreated']
          exact decide_eq_true (le_trans (of_decide_eq_true hxy) (of_decide_eq_true hyz))
        · next hcreated' => rw [if_neg hcreated', hyz]
      · next hcreated =>
        have hlt := of_decide_eq_true hxy
        split at hyz
        · next hcreated' => rw [← hcreated', if_neg hcreated, hxy]
        · next hcreated' =>
          have hlt' := of_decide_eq_true hyz
          rw [if_neg (ne_of_lt (lt_trans hlt hlt'))]
          exact decide_eq_true (lt_trans hlt hlt')
    · next hrank' => rw [if_neg hrank', hyz]
  · next hrank =>
    have hlt := of_decide_eq_true hxy
    split at hyz
    · next hrank' => rw [← hrank', if_neg hrank, hxy]
    · next hrank' =>
      have hlt' := of_decide_eq_true hyz
      rw [if_neg (ne_of_gt (lt_trans hlt' hlt))]
      exact decide_eq_true (lt_trans hlt' hlt)

theorem isOpen_iff {s : StateRow} : s.isOpen role now = true ↔ s.ownerRole = role
      ∧ (s.status = .ready ∨ s.status = .running ∧ ∃ l, s.leaseUntil = some l ∧ l ≤ now) := by
  unfold StateRow.isOpen
  rw [Bool.and_eq_true, Bool.or_eq_true, Bool.and_eq_true, decide_eq_true_eq, decide_eq_true_eq,
    decide_eq_true_eq, Option.any_eq_true]
  simp only [decide_eq_true_eq]

theorem mem_candidates_iff : row ∈ candidates db role now ↔ row.contract ∈ db.contracts.rows
      ∧ ∃ s, db.state? row.contract.contractId = some s ∧ s.isOpen role now = true
        ∧ row.attemptCount = s.attemptCount := by
  refine ⟨mem_candidates, ?_⟩
  rintro ⟨hstored, s, hs, hopen, hcount⟩
  refine List.mem_mergeSort.mpr (List.mem_filterMap.mpr ⟨row.contract, hstored, ?_⟩)
  simp only [hs, hopen, if_true, ← hcount]

theorem admits_iff : a.admits db row = true
    ↔ (∀ d ∈ row.contract.dependencies, ∃ s, db.state? d = some s ∧ s.status ∈ Status.success)
      ∧ ∃ shut, contracted db row.contract.subsystem a.now = .ok shut
        ∧ (shut = true → a.role = .judge ∨ a.role = .sre) := by
  unfold ClaimArgs.admits
  rw [Bool.and_eq_true]
  refine and_congr ?_ ?_
  · unfold dependenciesSatisfied
    rw [List.all_eq_true]
    refine forall₂_congr fun d _ => ?_
    cases hs : db.state? d with
    | none => simp
    | some s => simp
  · cases hshut : contracted db row.contract.subsystem a.now with
    | error e => simp
    | ok shut =>
      unfold ClaimArgs.shutOut
      cases shut with
      | false => simp
      | true => simp [or_iff_not_imp_left]

theorem passing_iff :
    row ∈ (candidates db a.role a.now).filter (passes a db) ↔ Eligible a db row := by
  rw [List.mem_filter, mem_candidates_iff]
  unfold passes
  rw [Bool.and_eq_true, admits_iff]
  have hspent : (!row.spent) = true ↔ (row.attemptCount : Int) < row.contract.retryBudget + 1 := by
    unfold Candidate.spent
    rw [Bool.not_eq_true', decide_eq_false_iff_not]
    omega
  rw [hspent]
  constructor
  · rintro ⟨⟨hstored, s, hs, hopen, hcount⟩, hattempts, hdeps, hbudget⟩
    obtain ⟨howner, hstatus⟩ := isOpen_iff.mp hopen
    exact ⟨hstored, ⟨s, hs, howner, hstatus, hcount⟩, hattempts, hdeps, hbudget⟩
  · rintro ⟨hstored, ⟨s, hs, howner, hstatus, hcount⟩, hattempts, hdeps, hbudget⟩
    exact ⟨⟨hstored, s, hs, isOpen_iff.mpr ⟨howner, hstatus⟩, hcount⟩, hattempts, hdeps, hbudget⟩

theorem claimBlock_ends (hrows : a.rows = candidates db a.role a.now) (hlimit : 0 ≤ a.batchLimit) :
    (claimBlock H a).Ends db (fun items db' => Selected a items db db')
      fun e _ => Excused H a e a.batchLimit.toNat a.rows db := by
  refine (claimEach_ends db a.rows [] a.batchLimit.toNat ?_).imp ?_ fun _ _ h => h
  · rw [List.length_nil]
    omega
  · rintro _ db' ⟨items, rfl, hpicks⟩
    have hnodup : (a.rows.map fun row => row.contract.contractId).Nodup := by
      rw [hrows]
      exact nodup_candidates db a.role a.now
    have hopen : StillOpen a db a.rows := by
      intro row hrow
      rw [hrows] at hrow
      obtain ⟨-, s, hs, hsopen, -⟩ := mem_candidates hrow
      exact ⟨s, hs, hsopen⟩
    have hsorted : (candidates db a.role a.now).Pairwise
        fun x y => x.contract.before y.contract = true :=
      List.pairwise_mergeSort (fun x y z => before_trans x.contract y.contract z.contract)
        (fun x y => before_total x.contract y.contract) _
    refine ⟨⟨(candidates db a.role a.now).filter (passes a db), hsorted.filter _, ?_,
      fun row => passing_iff, ?_⟩, hpicks.sameRecords, hpicks.moved hnodup (List.Subset.refl _)⟩
    · exact (nodup_candidates db a.role a.now).sublist (List.filter_sublist.map _)
    · rw [← hrows]
      exact hpicks.items hopen hnodup

/-- `claim_next`, alone on the database, grants the first of the eligible contracts, or a turn of
it raises and it changes nothing. -/
theorem claim_selects (F : FleetHost) (calls : List Call) (role : Role) (claimer : PyStr)
    (leaseSeconds batchLimit : Int) (now : Instant) (hlease : 1 ≤ leaseSeconds)
    (hlimit : 1 ≤ batchLimit ∧ batchLimit ≤ 3) :
    (∃ items db', call F (.claim (py role.value) claimer leaseSeconds batchLimit now)
        (afterCalls F calls) = (.ok (.claimed items), db')
      ∧ Selected ⟨role, claimer, leaseSeconds, batchLimit, now,
        candidates (afterCalls F calls) role now⟩ items (afterCalls F calls) db')
    ∨ ∃ e, call F (.claim (py role.value) claimer leaseSeconds batchLimit now)
        (afterCalls F calls) = (.error e, afterCalls F calls)
      ∧ Excused F.toHost ⟨role, claimer, leaseSeconds, batchLimit, now,
        candidates (afterCalls F calls) role now⟩ e batchLimit.toNat
        (candidates (afterCalls F calls) role now) (afterCalls F calls) := by
  generalize afterCalls F calls = db
  have hrole : Role.ofName? (py role.value) = some role := by
    cases role <;> decide
  have hends : (claimNext F.toHost (py role.value) claimer leaseSeconds batchLimit now).Ends db
      (fun reply db' => ∃ items, reply = .claimed items ∧ Selected ⟨role, claimer, leaseSeconds,
        batchLimit, now, candidates db role now⟩ items db db')
      fun e db' => db' = db ∧ Excused F.toHost ⟨role, claimer, leaseSeconds, batchLimit, now,
        candidates db role now⟩ e batchLimit.toNat (candidates db role now) db := by
    unfold claimNext
    rw [hrole]
    simp only
    rw [if_neg (by omega)]
    refine ends_read (.block (ends_transaction ?_))
    refine Block.Ends.bind (claimBlock_ends (a := ⟨role, claimer, leaseSeconds, batchLimit, now,
      candidates db role now⟩) rfl ?_) ?_
    · show 0 ≤ batchLimit
      omega
    · exact fun items db' hselected => ⟨items, rfl, hselected⟩
  rcases ends_run hends with ⟨_, db', hrun, items, rfl, hselected⟩ | ⟨e, _, hrun, rfl, hexcused⟩
  · exact Or.inl ⟨items, db', hrun, hselected⟩
  · exact Or.inr ⟨e, hrun, hexcused⟩

def Reply.count : Reply → Nat
  | .claimed items => items.length
  | _ => 0

theorem claim_selects_one : ∃ items db', call machine
      (.claim (py Role.builder.value) (py "ada") 600 1 dawn)
      (afterCalls machine [.create (buildContract 1 none)]) = (.ok (.claimed items), db')
    ∧ items.length = 1
    ∧ Selected ⟨.builder, py "ada", 600, 1, dawn, candidates
      (afterCalls machine [.create (buildContract 1 none)]) .builder dawn⟩ items
      (afterCalls machine [.create (buildContract 1 none)]) db' := by
  have hcount : (call machine (.claim (py Role.builder.value) (py "ada") 600 1 dawn)
      (afterCalls machine [.create (buildContract 1 none)])).1.toOption.map Reply.count
        = some 1 := by
    decide +kernel
  rcases claim_selects machine [.create (buildContract 1 none)] .builder (py "ada") 600 1 dawn
    (by decide) (by decide) with ⟨items, db', hrun, hselected⟩ | ⟨e, hrun, -⟩
  · rw [hrun] at hcount
    exact ⟨items, db', hrun, Option.some_inj.mp hcount, hselected⟩
  · rw [hrun] at hcount
    cases hcount

/-- On the first day of the calendar the error budget has no window: a claim raises, though a
contract is ready, has attempts left, depends on nothing, and no error was ever recorded. -/
theorem claim_on_first_day : (call machine (.claim (py "BUILDER") (py "ada") 600 1 0)
        (afterCalls machine [.create (buildContract 1 none)])).1 = .error .overflowError
      ∧ ((afterCalls machine [.create (buildContract 1 none)]).states.rows.map fun s =>
        (s.status, s.ownerRole, s.attemptCount)) = [(.ready, .builder, 0)]
      ∧ (afterCalls machine [.create (buildContract 1 none)]).errors.rows.length = 0 := by
  decide +kernel

end Centinal26.Fleet
