/-
Contracts that are closed for good.
-/
import Centinal26.Fleet.Runs

namespace Centinal26.Fleet

open Py Steps

variable {H : Host} {F : FleetHost}

-- == vocabulary

/-- The statuses a contract is not to leave. -/
def Status.isFinal : Status → Bool
  | .verified | .failedPreserved | .cancelled => true
  | _ => false

/-- The contract has been closed for good. -/
def closed (db : Db) (id : Text) : Bool :=
  (db.state? id).any fun s => s.status.isFinal

/-- The candidates a block is about to write to have not been closed. -/
def ClaimArgs.sparing (a : ClaimArgs) (db : Db) : Bool :=
  a.rows.all fun row =>
    !(row.spent || a.admits db row) || !closed db row.contract.contractId

/-- A block writes to no contract that has been closed for good. -/
def sparing (H : Host) (e : Step) : Bool :=
  match committed H e with
  | some (.result a _, _) => !closed e.before.shared a.contractId
  | some (.verdict a _, _) => !closed e.before.shared a.contractId
  | some (.claim a, _) => a.sparing e.before.shared
  | _ => true

/-- What is closed for good in the one is so in the other, with its status. -/
def Closes (a b : Db) : Prop :=
  ∀ id s, a.state? id = some s → s.status.isFinal = true →
    ∃ s', b.state? id = some s' ∧ s'.status = s.status

/-- Contracts closed for good keep their status, and cannot be claimed. -/
structure StayClosed (F : FleetHost) (sched : List (Sched Call)) : Prop where
  status : ∀ e ∈ traceOf F sched, Closes e.after.shared (runOf F sched).shared
  unclaimable : ∀ e ∈ traceOf F sched, ∀ id, closed e.after.shared id = true →
    ∀ role now, claimable (runOf F sched).shared role now id = false

-- == closing

theorem Closes.refl (db : Db) : Closes db db := fun _ s h _ => ⟨s, h, rfl⟩

theorem Closes.trans {a b c : Db} (hab : Closes a b) (hbc : Closes b c) : Closes a c := by
  intro id s hs hfinal
  obtain ⟨s', hs', heq⟩ := hab id s hs hfinal
  obtain ⟨s'', hs'', heq'⟩ := hbc id s' hs' (heq ▸ hfinal)
  exact ⟨s'', hs'', heq'.trans heq⟩

theorem closes_of_frame {a b : Db}
    (h : ∀ id, closed a id = true → b.state? id = a.state? id) : Closes a b := by
  intro id s hs hfinal
  refine ⟨s, (h id ?_).trans hs, rfl⟩
  unfold closed
  rw [hs]
  exact hfinal

theorem Closes.unclaimable {a b : Db} (h : Closes a b) {id : Text}
    (hclosed : closed a id = true) (role : Role) (now : Instant) :
    claimable b role now id = false := by
  unfold closed at hclosed
  cases hs : a.state? id with
  | none =>
    rw [hs] at hclosed
    cases hclosed
  | some s =>
    rw [hs] at hclosed
    have hfinal : s.status.isFinal = true := hclosed
    obtain ⟨s', hs', heq⟩ := h id s hs hfinal
    have hready : s'.status ≠ .ready := by
      intro hready
      rw [← heq, hready] at hfinal
      cases hfinal
    have hrunning : s'.status ≠ .running := by
      intro hrunning
      rw [← heq, hrunning] at hfinal
      cases hfinal
    unfold claimable
    rw [hs']
    show s'.isOpen role now = false
    unfold StateRow.isOpen
    rw [decide_eq_false hready, decide_eq_false hrunning]
    simp

-- == steps

theorem Turns.frame {a : ClaimArgs} {rows : List Candidate} {items : List Claimed}
    {db db' : Db} (h : Turns H a rows items db db') {id : Text}
    (hrows : ∀ row ∈ rows, row.contract.contractId = id →
      row.spent = false ∧ a.admits db row = false) : db'.state? id = db.state? id := by
  induction h with
  | done => rfl
  | turn hturn _ ih =>
    have hhead : ∀ hid, _ := hrows _ (List.mem_cons_self ..)
    refine (ih fun row hrow hid => ?_).trans ?_
    · obtain ⟨hspent, hadmits⟩ := hrows row (List.mem_cons_of_mem _ hrow) hid
      refine ⟨hspent, Bool.eq_false_iff.mpr fun hmid => ?_⟩
      rw [hturn.admits_of_admits hmid] at hadmits
      cases hadmits
    · rcases hturn.state? id with
        hsame | ⟨hid, -, hspent, -⟩ | ⟨hid, c, -, -, -, -, hadmits, -⟩
      · exact hsame
      · rw [(hhead hid.symm).1] at hspent
        cases hspent
      · rw [(hhead hid.symm).2] at hadmits
        cases hadmits

theorem Moves.closes {e : Step} (h : Moves H e) (hC : sparing H e = true) :
    Closes e.before.shared e.after.shared := by
  cases h with
  | still _ hsame => exact hsame ▸ Closes.refl _
  | wrote hc hfits hwrote =>
    unfold sparing at hC
    rw [hc] at hC
    refine closes_of_frame fun id hclosed => ?_
    generalize e.after.shared = db' at hwrote ⊢
    cases hwrote with
    | create h =>
      obtain ⟨hnone, heq⟩ := h.state? id
      rw [heq]
      split
      · next hid =>
        unfold closed at hclosed
        rw [hid, hnone] at hclosed
        cases hclosed
      · rfl
    | claim h =>
      refine h.frame fun row hrow hid => ?_
      have hspares := List.all_eq_true.mp hC row hrow
      rw [hid, hclosed] at hspares
      simpa using hspares
    | @result a _ _ _ h =>
      obtain ⟨f, -, hf⟩ := h.state?
      refine (hf id).trans (if_neg fun hid => ?_)
      have hopen : (!closed e.before.shared a.contractId) = true := hC
      rw [← hid, hclosed] at hopen
      cases hopen
    | @verdict a _ _ _ h =>
      obtain ⟨f, -, hf⟩ := h.state?
      refine (hf id).trans (if_neg fun hid => ?_)
      have hopen : (!closed e.before.shared a.contractId) = true := hC
      rw [← hid, hclosed] at hopen
      cases hopen
    | error h => exact h.state? id

-- == runs

/-- Where every block is sparing, closed contracts stay closed. -/
theorem stay_closed (F : FleetHost) (sched : List (Sched Call))
    (hC : ∀ e ∈ traceOf F sched, sparing F.toHost e = true) : StayClosed F sched := by
  have hrun := run_history (F := F) (C := fun e => sparing F.toHost e = true)
    (I := fun past db => ∀ e ∈ past, Closes e.after.shared db)
    (fun e he => by cases he)
    (fun past e hmoves hCe hI => ?_) sched hC
  · exact ⟨hrun, fun e he id hclosed role now =>
      (hrun e he).unclaimable hclosed role now⟩
  · intro d hd
    rcases List.mem_append.mp hd with hd | hd
    · exact (hI d hd).trans (hmoves.closes hCe)
    · rw [List.mem_singleton.mp hd]
      exact .refl _

/-- A contract is built, cancelled, and left alone. -/
def cancelling : List (Sched Call) :=
  [.spawn 0 (.create (buildContract 1 none)), .advance 0, .advance 0, .advance 0,
    .spawn 1 (resultAt (buildContract 1 none) "BUILDER" "CANCELLED" 1), .advance 1,
    .advance 1, .spawn 2 (claimAt "BUILDER" "bob" 2), .advance 2, .advance 2]

theorem cancelling_stays : StayClosed machine cancelling :=
  stay_closed machine cancelling (List.all_eq_true.mp (by decide +kernel))

/-- The owner reports on a contract after cancelling it. -/
def reopening : List (Sched Call) :=
  [.spawn 0 (.create (buildContract 1 none)), .advance 0, .advance 0, .advance 0,
    .spawn 1 (resultAt (buildContract 1 none) "BUILDER" "CANCELLED" 1), .advance 1,
    .advance 1, .advance 1,
    .spawn 1 (resultAt (buildContract 1 none) "BUILDER" "IN_PROGRESS" 2), .advance 1,
    .advance 1]

theorem reopened : claimable (runOf machine reopening).shared .builder dawn
        (idOn (buildContract 1 none)) = true
      ∧ ¬ StayClosed machine reopening := by
  obtain ⟨hclaimable, hclosed⟩ : claimable (runOf machine reopening).shared .builder dawn
        (idOn (buildContract 1 none)) = true
      ∧ ((traceOf machine reopening).any fun e =>
        closed e.after.shared (idOn (buildContract 1 none))) = true := by decide +kernel
  refine ⟨hclaimable, fun h => ?_⟩
  obtain ⟨e, he, hc⟩ := List.any_eq_true.mp hclosed
  have hnot := h.unclaimable e he _ hc .builder dawn
  rw [hclaimable] at hnot
  cases hnot

end Centinal26.Fleet
