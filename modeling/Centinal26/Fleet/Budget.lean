/-
The retry budget.
-/
import Centinal26.Fleet.Calls
import Centinal26.Lib.Since

namespace Centinal26.Fleet

open Py Steps

variable {H : Host} {F : FleetHost}

-- == vocabulary

/-- How often a call claims the contract. -/
def claimsBy (id : Text) (e : Done) : Nat :=
  match e.input, e.output with
  | .claim .., .ok (.claimed items) =>
    items.countP fun c => decide (c.contract.contractId = id)
  | _, _ => 0

/-- The call puts the contract in a role's hands: a result that awaits
verification, or a verdict. -/
def hands (id : Text) (e : Done) : Bool :=
  match e.input, e.output with
  | .result c, .ok (.result _) =>
    decide (c.contractId = id.str ∧ c.status ∈ awaitingVerification.map py)
  | .verdict c, .ok (.verdict _) => e.before.results.rows.any fun r =>
    decide (r.resultId.str = c.resultId ∧ r.contractId = id)
  | _, _ => false

def claims (id : Text) (past : List Done) : Nat := (past.map (claimsBy id)).sum

/-- Those since it was last put in a role's hands. -/
def claimsSince (id : Text) (past : List Done) : Nat :=
  past.foldl (fun n e => if hands id e then 0 else n + claimsBy id e) 0

/-- `claim_next` gives the contract up. -/
def exhausts (id : Text) (e : Done) : Bool :=
  match e.input with
  | .claim .. => (e.before.state? id).any (fun s => decide (s.status ≠ .failedPreserved))
      && (e.after.state? id).any fun s => decide (s.status = .failedPreserved)
  | _ => false

/-- A contract that is given up has been claimed more often than its retry budget
allows since its owner has it. -/
def Fair (past : List Done) (e : Done) : Prop :=
  ∀ id contract, exhausts id e = true → e.before.contracts.find? id = some contract →
    contract.retryBudget < claimsSince id past

/-- Nobody has claimed the contract before it came into its owner's hands. -/
def FirstOwner (past : List Done) (e : Done) : Prop :=
  ∀ id, exhausts id e = true → claims id past = claimsSince id past

-- == counting

theorem claims_concat (id : Text) (past : List Done) (e : Done) :
    claims id (past ++ [e]) = claims id past + claimsBy id e := by
  unfold claims
  rw [List.map_append, List.sum_append, List.map_singleton, List.sum_singleton]

theorem claimsSince_concat (id : Text) (past : List Done) (e : Done) : claimsSince id (past ++ [e])
      = if hands id e then 0 else claimsSince id past + claimsBy id e := by
  unfold claimsSince
  rw [List.foldl_append]
  rfl

theorem claimsSince_le (id : Text) (past : List Done) : claimsSince id past ≤ claims id past := by
  induction past using List.reverseRecOn with
  | nil => exact Nat.le_refl _
  | append_singleton past e ih =>
    rw [claims_concat, claimsSince_concat]
    split
    · exact Nat.zero_le _
    · omega

-- == candidates

variable {db db' : Db} {a : ClaimArgs} {items : List Claimed} {id : Text} {past : List Done}
  {e : Done}

variable {role : Role} {rows : List Candidate} {c : Call} {r : Except PyErr Reply}

theorem mem_candidates {now : Instant} {row : Candidate} (h : row ∈ candidates db role now) :
    row.contract ∈ db.contracts.rows ∧ ∃ s, db.state? row.contract.contractId = some s
      ∧ s.isOpen role now = true ∧ row.attemptCount = s.attemptCount := by
  have hmem := List.mem_mergeSort.mp h
  obtain ⟨c, hc, hrow⟩ := List.mem_filterMap.mp hmem
  split at hrow
  · next s hs =>
    split at hrow
    · next hopen =>
      cases hrow
      exact ⟨hc, s, hs, hopen, rfl⟩
    · cases hrow
  · cases hrow

theorem nodup_candidates (db : Db) (role : Role) (now : Instant) :
    ((candidates db role now).map fun row => row.contract.contractId).Nodup := by
  unfold candidates
  refine (List.Perm.map _ (List.mergeSort_perm _ _)).nodup_iff.mpr
    (List.Sublist.nodup ?_ db.contracts.nodup)
  induction db.contracts.rows with
  | nil => exact List.Sublist.slnil
  | cons c rows ih =>
    rw [List.filterMap_cons, List.map_cons]
    split
    · exact ih.cons _
    · next row hrow =>
      have hid : row.contract.contractId = c.contractId := by
        split at hrow
        · split at hrow
          · cases hrow
            rfl
          · cases hrow
        · cases hrow
      rw [List.map_cons, hid]
      exact ih.cons_cons _

/-- What becomes of a contract among candidates that are all different. -/
inductive Fate (id : Text) (rows : List Candidate) (items : List Claimed)
    (db db' : Db) : Prop
  | left (hstate : db'.state? id = db.state? id)
      (hitems : (items.countP fun c => decide (c.contract.contractId = id)) = 0)
  | failed {row : Candidate} (hrow : row ∈ rows) (hid : row.contract.contractId = id)
      (hspent : row.spent = true)
      (hstate : db'.state? id = (db.state? id).map StateRow.fail)
      (hitems : (items.countP fun c => decide (c.contract.contractId = id)) = 0)
  | claimed {row : Candidate} {claimer : Text} {leaseUntil : Instant}
      (hrow : row ∈ rows) (hid : row.contract.contractId = id)
      (hspent : row.spent = false)
      (hstate : db'.state? id = (db.state? id).map (StateRow.claim claimer leaseUntil))
      (hitems : (items.countP fun c => decide (c.contract.contractId = id)) = 1)

theorem Turns.left (h : Turns H a rows items db db')
    (hid : id ∉ rows.map fun row => row.contract.contractId) : db'.state? id = db.state? id
      ∧ (items.countP fun c => decide (c.contract.contractId = id)) = 0 := by
  induction h with
  | done => exact ⟨rfl, rfl⟩
  | @turn row rows item items db mid db' hturn _ ih =>
    rw [List.map_cons, List.mem_cons, not_or] at hid
    obtain ⟨hstate, hitems⟩ := ih hid.2
    rw [List.countP_append, hitems]
    rcases hturn.state? id with hsame | ⟨heq, -⟩ | ⟨heq, -⟩
    · refine ⟨hstate.trans hsame, ?_⟩
      cases hturn with
      | skipped _ => rfl
      | failed _ _ => rfl
      | granted _ _ _ _ =>
        show (List.countP _ [_]) + 0 = 0
        rw [List.countP_cons, List.countP_nil, if_neg]
        exact fun heq => hid.1 (of_decide_eq_true heq).symm
    · exact absurd heq hid.1
    · exact absurd heq hid.1

theorem Turns.fate (h : Turns H a rows items db db')
    (hnodup : (rows.map fun row => row.contract.contractId).Nodup) (id : Text) :
    Fate id rows items db db' := by
  induction h with
  | done => exact .left rfl rfl
  | @turn row rows item items db mid db' hturn hrest ih =>
    rw [List.map_cons, List.nodup_cons] at hnodup
    by_cases hid : row.contract.contractId = id
    · -- the rest leaves it alone
      obtain ⟨hstate, hitems⟩ := hrest.left (hid ▸ hnodup.1)
      cases hturn with
      | skipped hsame => exact .left (by rw [hstate, hsame]) hitems
      | failed hspent h =>
        refine .failed (List.mem_cons_self ..) hid hspent ?_ hitems
        rw [hstate, h.state?, Db.state?_updateState, if_pos hid.symm, hid]
      | @granted leaseUntil claimer hspent _ _ h =>
        have hclaim : db'.state? id = (db.state? id).map (StateRow.claim claimer leaseUntil) := by
          rw [hstate, h.state?, Db.state?_updateState, if_pos hid.symm, hid]
        refine .claimed (List.mem_cons_self ..) hid hspent hclaim ?_
        · rw [List.countP_append, hitems]
          show (List.countP _ [_]) + 0 = 1
          rw [List.countP_cons, List.countP_nil, if_pos (decide_eq_true hid)]
    · have hsame : mid.state? id = db.state? id := by
        rcases hturn.state? id with hsame | ⟨heq, -⟩ | ⟨heq, -⟩
        · exact hsame
        · exact absurd heq.symm hid
        · exact absurd heq.symm hid
      have hcount : ((item.toList ++ items).countP fun c => decide (c.contract.contractId = id))
          = items.countP fun c => decide (c.contract.contractId = id) := by
        rw [List.countP_append]
        cases hturn with
        | skipped _ => exact Nat.zero_add _
        | failed _ _ => exact Nat.zero_add _
        | granted _ _ _ _ =>
          show (List.countP _ [_]) + _ = _
          rw [List.countP_cons, List.countP_nil, if_neg (fun heq => hid (of_decide_eq_true heq))]
          exact Nat.zero_add _
      cases ih hnodup.2 with
      | left hstate hitems =>
        exact .left (hstate.trans hsame) (hcount.trans hitems)
      | failed hrow hrid hspent hstate hitems =>
        exact .failed (List.mem_cons_of_mem _ hrow) hrid hspent
          (hsame ▸ hstate) (hcount.trans hitems)
      | claimed hrow hrid hspent hstate hitems =>
        exact .claimed (List.mem_cons_of_mem _ hrow) hrid hspent
          (hsame ▸ hstate) (hcount.trans hitems)

-- == tallies

/-- The counter of a contract is the number of its claims, and at most one more
than the retry budget. -/
structure Tallied (past : List Done) (db : Db) : Prop where
  absent : ∀ id, db.state? id = none → claims id past = 0
  counted : ∀ id s, db.state? id = some s → s.attemptCount = claims id past
  bounded : ∀ id s c, db.state? id = some s → db.contracts.find? id = some c →
    (s.attemptCount : Int) ≤ c.retryBudget + 1

theorem Tallied.keep (h : Tallied past e.before) (hclaims : ∀ id, claimsBy id e = 0)
    (hattempts : ∀ id, (e.after.state? id).map StateRow.attemptCount
      = (e.before.state? id).map StateRow.attemptCount)
    (hcontracts : e.after.contracts = e.before.contracts) : Tallied (past ++ [e]) e.after := by
  have hback : ∀ id s', e.after.state? id = some s' →
      ∃ s, e.before.state? id = some s ∧ s.attemptCount = s'.attemptCount := by
    intro id s' hs'
    have hmap := hattempts id
    rw [hs'] at hmap
    exact Option.map_eq_some_iff.mp hmap.symm
  constructor
  · intro id hnone
    have hmap := hattempts id
    rw [hnone] at hmap
    rw [claims_concat, hclaims id, h.absent id (Option.map_eq_none_iff.mp hmap.symm)]
  · intro id s' hs'
    obtain ⟨s, hs, heq⟩ := hback id s' hs'
    rw [claims_concat, hclaims id, ← h.counted id s hs, heq, Nat.add_zero]
  · intro id s' c hs' hc
    obtain ⟨s, hs, heq⟩ := hback id s' hs'
    rw [hcontracts] at hc
    rw [← heq]
    exact h.bounded id s c hs hc

theorem attempts_map {f : StateRow → StateRow} (hf : ∀ s, (f s).attemptCount = s.attemptCount)
    (h : ∀ j, db'.state? j = if j = id then (db.state? id).map f else db.state? j)
    (j : Text) : (db'.state? j).map StateRow.attemptCount
      = (db.state? j).map StateRow.attemptCount := by
  rw [h j]
  split
  · next hj =>
    rw [hj, Option.map_map]
    exact congrArg (Option.map · _) (funext hf)
  · rfl

theorem Turns.tallied (h : Tallied past e.before) (hturns : Turns H a a.rows items e.before e.after)
    (hrows : a.rows = candidates e.before a.role a.now) (hclaims : ∀ id, claimsBy id e
      = items.countP fun c => decide (c.contract.contractId = id)) :
    Tallied (past ++ [e]) e.after := by
  have hfate := hturns.fate (hrows ▸ nodup_candidates e.before a.role a.now)
  have hcontracts := hturns.sameRecords.contracts
  constructor
  · intro id hnone
    rw [claims_concat, hclaims id]
    cases hfate id with
    | left hstate hitems => rw [hitems, h.absent id (hstate ▸ hnone)]
    | failed _ _ _ hstate hitems =>
      rw [hstate] at hnone
      rw [hitems, h.absent id (Option.map_eq_none_iff.mp hnone)]
    | claimed hrow hid _ hstate _ =>
      rw [hstate] at hnone
      obtain ⟨-, s, hs, -⟩ := mem_candidates (hrows ▸ hrow)
      rw [hid, Option.map_eq_none_iff.mp hnone] at hs
      cases hs
  · intro id s' hs'
    rw [claims_concat, hclaims id]
    cases hfate id with
    | left hstate hitems => rw [hitems, h.counted id s' (hstate ▸ hs'), Nat.add_zero]
    | failed _ _ _ hstate hitems =>
      rw [hstate] at hs'
      obtain ⟨s, hs, rfl⟩ := Option.map_eq_some_iff.mp hs'
      rw [hitems, ← h.counted id s hs]
      rfl
    | claimed _ _ _ hstate hitems =>
      rw [hstate] at hs'
      obtain ⟨s, hs, rfl⟩ := Option.map_eq_some_iff.mp hs'
      rw [hitems, ← h.counted id s hs]
      rfl
  · intro id s' c hs' hc
    rw [hcontracts] at hc
    cases hfate id with
    | left hstate _ => exact h.bounded id s' c (hstate ▸ hs') hc
    | failed _ _ _ hstate _ =>
      rw [hstate] at hs'
      obtain ⟨s, hs, rfl⟩ := Option.map_eq_some_iff.mp hs'
      exact h.bounded id s c hs hc
    | @claimed row claimer leaseUntil hrow hid hspent hstate _ =>
      rw [hstate] at hs'
      obtain ⟨s, hs, rfl⟩ := Option.map_eq_some_iff.mp hs'
      obtain ⟨hmem, t, ht, -, hattempt⟩ := mem_candidates (hrows ▸ hrow)
      rw [hid, hs] at ht
      cases ht
      have hfound := Table.find?_of_mem hmem
      rw [hid, hc] at hfound
      cases hfound
      have hunder : ¬ (row.contract.retryBudget + 1 ≤ row.attemptCount) :=
        of_decide_eq_false hspent
      show ((s.attemptCount + 1 : Nat) : Int) ≤ _
      omega

theorem checked_budget {a : ContractArgs} {roles : Role × Option Role}
    (h : checkContract a = .ok roles) : 0 ≤ a.retryBudget := by
  unfold checkContract at h
  split at h
  · cases h
  · obtain ⟨checked, -, h⟩ := of_bind_ok h
    split at h
    · cases h
    · omega

theorem Created.tallied (h : Tallied past e.before) {a : ContractArgs}
    (hcreated : Created H a role id e.before e.after) (hbudget : 0 ≤ a.retryBudget)
    (hclaims : ∀ id, claimsBy id e = 0) : Tallied (past ++ [e]) e.after := by
  have hstate := hcreated.state?
  obtain ⟨row, contracts, states, hid, hrow, hinsert, -, hlogged⟩ := hcreated.inserted
  have hcontracts : ∀ j, e.after.contracts.find? j
      = if j = id then some row else e.before.contracts.find? j := by
    intro j
    rw [hlogged.contracts, ← hid]
    exact Table.find?_insert hinsert j
  constructor
  · intro j hnone
    rw [(hstate j).2] at hnone
    rw [claims_concat, hclaims j]
    split at hnone
    · cases hnone
    · rw [h.absent j hnone]
  · intro j s' hs'
    rw [(hstate j).2] at hs'
    rw [claims_concat, hclaims j]
    split at hs'
    · next hj =>
      cases hs'
      rw [hj, h.absent id (hstate id).1]
    · rw [h.counted j s' hs', Nat.add_zero]
  · intro j s' c hs' hc
    rw [(hstate j).2] at hs'
    rw [hcontracts j] at hc
    split at hs'
    · next hj =>
      rw [if_pos hj] at hc
      cases hs'
      cases hc
      show (0 : Int) ≤ _
      omega
    · next hj =>
      rw [if_neg hj] at hc
      exact h.bounded j s' c hs' hc

theorem Ran.tallied (h : Ran F c db r db') (ht : Tallied past db) :
    Tallied (past ++ [⟨c, db, r, db'⟩]) db' := by
  cases h with
  | idle hr =>
    refine Tallied.keep (e := ⟨c, db, r, db⟩) ht (fun id => ?_) (fun _ => rfl) rfl
    unfold claimsBy
    split
    · next hreply => cases hr _ hreply
    · rfl
  | noted hc h =>
    subst hc
    cases h with
    | error h =>
      obtain ⟨row, -, -, -, hlogged⟩ := h.recorded
      refine Tallied.keep (e := ⟨_, db, r, db'⟩) ht (fun _ => rfl)
        (fun id => congrArg _ (h.state? id)) ?_
      exact ((sameRecords_insertError db row).trans hlogged.sameRecords).contracts
  | wrote hasks h =>
    cases h with
    | create h =>
      cases hasks with
      | create hchecked =>
        exact Created.tallied (e := ⟨_, db, _, db'⟩) ht h (checked_budget hchecked) fun _ => rfl
    | claim h =>
      cases hasks with
      | claim hrole =>
        exact Turns.tallied (e := ⟨_, db, _, db'⟩) ht h rfl fun _ => rfl
    | result h =>
      cases hasks with
      | result hid hrole hs howner =>
        obtain ⟨f, hattempts, hf⟩ := h.state?
        obtain ⟨row, results, mid, -, -, -, -, -, heffect, hlogged⟩ := h.recorded
        exact Tallied.keep (e := ⟨_, db, _, db'⟩) ht (fun _ => rfl) (attempts_map hattempts hf)
          (heffect.sameRecords.trans hlogged.sameRecords).contracts
    | verdict h =>
      cases hasks with
      | verdict hverdict hr =>
        obtain ⟨f, hattempts, hf⟩ := h.state?
        obtain ⟨row, verdicts, mid, -, -, -, -, -, heffect, hlogged⟩ := h.recorded
        exact Tallied.keep (e := ⟨_, db, _, db'⟩) ht (fun _ => rfl) (attempts_map hattempts hf)
          (heffect.sameRecords.trans hlogged.sameRecords).contracts
    | error h => cases hasks

-- == runs

theorem Ran.exhausts (h : Ran F c db r db') (hid : exhausts id ⟨c, db, r, db'⟩ = true) :
    ∃ s contract, db.state? id = some s ∧ db.contracts.find? id = some contract
      ∧ contract.retryBudget + 1 ≤ s.attemptCount := by
  unfold Fleet.exhausts at hid
  split at hid
  · next name claimer leaseSeconds batchLimit now hc =>
    rw [Bool.and_eq_true] at hid
    obtain ⟨hbefore, hafter⟩ := hid
    cases h with
    | idle _ =>
      cases hs : db.state? id with
      | none =>
        rw [hs] at hbefore
        cases hbefore
      | some s =>
        rw [hs] at hbefore hafter
        exact absurd (of_decide_eq_true hafter) (of_decide_eq_true hbefore)
    | noted hc' _ =>
      rw [hc'] at hc
      cases hc
    | wrote hasks h =>
      replace hc : c = _ := hc
      subst hc
      cases hasks with
      | @claim name claimer leaseSeconds batchLimit now role hrole =>
        cases h with
        | claim h =>
          cases h.fate (nodup_candidates db role now) id with
          | left hstate _ =>
            rw [hstate] at hafter
            cases hs : db.state? id with
            | none =>
              rw [hs] at hbefore
              cases hbefore
            | some s =>
              rw [hs] at hbefore hafter
              exact absurd (of_decide_eq_true hafter) (of_decide_eq_true hbefore)
          | failed hrow hrid hspent _ _ =>
            obtain ⟨hmem, s, hs, -, hattempt⟩ := mem_candidates hrow
            have hfound := Table.find?_of_mem hmem
            rw [hrid] at hs hfound
            refine ⟨s, _, hs, hfound, ?_⟩
            rw [← hattempt]
            exact of_decide_eq_true hspent
          | claimed _ _ _ hstate _ =>
            rw [hstate] at hafter
            cases hs : db.state? id with
            | none =>
              rw [hs] at hbefore
              cases hbefore
            | some s =>
              rw [hs] at hafter
              have hnever : decide (Status.running = .failedPreserved) = true := hafter
              exact absurd hnever (by decide)
  · cases hid

/-- A contract that is given up has been claimed more often than its budget by
its owner exactly if it has been claimed by nobody before. -/
theorem exhausted_by_owner (F : FleetHost) (calls : List Call) :
    (history F calls).Throughout fun past e => Fair past e ↔ FirstOwner past e := by
  have hrun := Machine.history_invariant (call F) (C := fun _ => True)
    (I := fun past db => Tallied past db
      ∧ past.Throughout fun past e => Fair past e ↔ FirstOwner past e) Db.empty
    ⟨⟨fun _ _ => rfl, fun _ _ h => (by cases h), fun _ _ _ h => (by cases h)⟩, List.throughout_nil⟩
    (fun past e hv _ hI => ?_) calls fun _ _ => trivial
  · exact hrun.2
  · obtain ⟨c, db, r, db'⟩ := e
    have hran := call_ran F c db
    have heq : call F c db = (r, db') := hv
    rw [heq] at hran
    obtain ⟨ht, hpast⟩ := hI
    refine ⟨hran.tallied ht, List.throughout_concat.mpr ⟨hpast, ?_⟩⟩
    have hexact : ∀ id, exhausts id ⟨c, db, r, db'⟩ = true →
        ∃ contract, db.contracts.find? id = some contract
          ∧ (claims id past : Int) = contract.retryBudget + 1 := by
      intro id hid
      obtain ⟨s, contract, hs, hfound, hover⟩ := hran.exhausts hid
      refine ⟨contract, hfound, ?_⟩
      have hcounted := ht.counted id s hs
      have hbounded := ht.bounded id s contract hs hfound
      omega
    constructor
    · intro hfair id hid
      obtain ⟨contract, hfound, hclaims⟩ := hexact id hid
      have hmore := hfair id contract hid hfound
      have hle := claimsSince_le id past
      omega
    · intro hfirst id contract hid hfound
      obtain ⟨contract', hfound', hclaims⟩ := hexact id hid
      have hsame : contract' = contract :=
        Option.some.inj (hfound'.symm.trans hfound)
      subst hsame
      have := hfirst id hid
      omega

/-- The builder hands its contract over at the first try, and the judge claims
it. -/
def handedOver : List Call :=
  [.create (buildContract 0 none), claimAt "BUILDER" "alice" 0,
    resultAt (buildContract 0 none) "BUILDER" "EXECUTED_AWAITING_VERIFICATION" 1]

/-- The judge's first claim fails the contract. -/
theorem no_try_for_the_judge :
    ¬ (history machine (handedOver ++ [claimAt "JUDGE" "judy" 2])).Throughout Fair := by
  intro h
  have hfair := h _ _ [] (Machine.trace_concat _ _ _ _)
  -- one evaluation of the calls for all three facts
  obtain ⟨hexhausts, hbudget, hsince⟩ : exhausts (idOn (buildContract 0 none))
      (Machine.entry (call machine) (claimAt "JUDGE" "judy" 2)
        (Machine.exec (call machine) handedOver Db.empty)) = true
      ∧ ((Machine.exec (call machine) handedOver Db.empty).contracts.find?
        (idOn (buildContract 0 none))).map ContractRow.retryBudget = some 0
      ∧ claimsSince (idOn (buildContract 0 none))
        (Machine.trace (call machine) handedOver Db.empty) = 0 := by
    decide +kernel
  obtain ⟨contract, hfound, hzero⟩ := Option.map_eq_some_iff.mp hbudget
  have hmore := hfair _ contract hexhausts hfound
  rw [hsince, hzero] at hmore
  exact absurd hmore (by decide)

end Centinal26.Fleet
