/-
Leases of contracts.
-/
import Centinal26.Fleet.Runs
import Centinal26.Lib.Since

namespace Centinal26.Fleet

open Py Steps

variable {H : Host} {F : FleetHost}

-- == vocabulary

/-- A contract returned to a claimer. -/
structure Lease where
  contractId : Text
  claimedBy : Text
  claimedAt : Instant
  leaseUntil : Instant
deriving DecidableEq

/-- What an entry has to do with leases: those it grants, and the contracts it
records a result, a verdict or a handoff for. -/
structure LeaseMark where
  leases : List Lease
  released : List Text
deriving DecidableEq

def leaseMark (H : Host) (e : Step) : LeaseMark :=
  match committed H e with
  | some (.claim a, .claimed items) =>
    ⟨items.map fun c => ⟨c.contract.contractId, c.claimedBy, a.now, c.leaseUntil⟩, []⟩
  | some (.result a _, _) => ⟨[], [a.contractId]⟩
  | some (.verdict a _, _) => ⟨[], [a.contractId]⟩
  | _ => ⟨[], []⟩

def leaseLog (F : FleetHost) (sched : List (Sched Call)) : List LeaseMark :=
  (traceOf F sched).map (leaseMark F.toHost)

/-- The lease was granted while another one of its contract ran. -/
def Overlaps (past : List LeaseMark) (l : Lease) : Prop :=
  List.Since (fun m => ∃ held ∈ m.leases, held.contractId = l.contractId
      ∧ l.claimedAt < held.leaseUntil)
    (fun m => l.contractId ∈ m.released) past

def Exclusive (log : List LeaseMark) : Prop :=
  log.Throughout fun past m => ∀ l ∈ m.leases, ¬ Overlaps past l

/-- The candidates of a block that are neither spent nor kept out by a gate can
still be claimed when the block begins. -/
def unheld (H : Host) (e : Step) : Bool :=
  match committed H e with
  | some (.claim a, _) => a.rows.all fun row =>
    row.spent || !a.admits e.before.shared row
      || claimable e.before.shared a.role a.now row.contract.contractId
  | _ => true

-- == holding

/-- The contract cannot be claimed before the time. -/
def Held (until_ : Instant) (db : Db) (id : Text) : Prop :=
  ∃ s, db.state? id = some s ∧ (s.status = .running ∧ (∃ l, s.leaseUntil = some l ∧ until_ ≤ l)
      ∨ s.status = .failedPreserved)

variable {t : Instant} {db db' : Db} {id : Text} {a : ClaimArgs} {rows : List Candidate}
  {items : List Claimed} {c : Claimed}

theorem Held.congr (h : Held t db id) (heq : db'.state? id = db.state? id) : Held t db' id := by
  obtain ⟨s, hs, hheld⟩ := h
  exact ⟨s, heq.trans hs, hheld⟩

theorem Held.not_claimable (h : Held t db id)
    {role : Role} {now : Instant} (hopen : claimable db role now id = true) : t ≤ now := by
  obtain ⟨s, hs, hheld⟩ := h
  unfold claimable at hopen
  rw [hs] at hopen
  have hopen' : s.isOpen role now = true := hopen
  simp only [StateRow.isOpen, Bool.and_eq_true, Bool.or_eq_true, decide_eq_true_eq] at hopen'
  rcases hheld with ⟨hrunning, l, hl, hle⟩ | hfailed
  · rcases hopen'.2 with hready | ⟨-, hlapsed⟩
    · rw [hrunning] at hready
      cases hready
    · rw [hl] at hlapsed
      have : l ≤ now := of_decide_eq_true hlapsed
      exact Int.le_trans hle this
  · rcases hopen'.2 with hready | ⟨hrunning, -⟩
    · rw [hfailed] at hready
      cases hready
    · rw [hfailed] at hrunning
      cases hrunning

variable {row : Candidate} {item : Option Claimed} {s : StateRow} {e : Step}

theorem Turn.held (h : Turn H a row db db' item)
    (hheld : Held t db id) (hitem : ∀ c ∈ item, c.contract.contractId = id → t ≤ c.leaseUntil) :
    Held t db' id := by
  rcases h.state? id with
    hsame | ⟨-, -, -, hfail⟩ | ⟨hid, c, hc, hrow, -, -, -, hclaim⟩
  · exact hheld.congr hsame
  · obtain ⟨s, hs, -⟩ := hheld
    rw [hs] at hfail
    exact ⟨s.fail, hfail, Or.inr rfl⟩
  · obtain ⟨s, hs, -⟩ := hheld
    rw [hs] at hclaim
    refine ⟨_, hclaim, Or.inl ⟨rfl, c.leaseUntil, rfl, hitem c hc ?_⟩⟩
    rw [hrow, hid]

theorem Turns.held (h : Turns H a rows items db db') (hheld : Held t db id)
    (hitems : ∀ c ∈ items, c.contract.contractId = id → t ≤ c.leaseUntil) : Held t db' id := by
  induction h with
  | done => exact hheld
  | turn hturn _ ih =>
    refine ih (hturn.held hheld fun c hc => hitems c ?_) fun c hc => hitems c ?_
    · exact List.mem_append_left _ (Option.mem_toList.mpr hc)
    · exact List.mem_append_right _ hc

theorem Turns.lease (h : Turns H a rows items db db') (hc : c ∈ items) :
    addSeconds a.now a.leaseSeconds = .ok c.leaseUntil := by
  induction h with
  | done => cases hc
  | turn hturn _ ih =>
    rcases List.mem_append.mp hc with hc | hc
    · have hitem := Option.mem_toList.mp hc
      cases hturn with
      | skipped _ => cases hitem
      | failed _ _ => cases hitem
      | granted _ _ hlease _ =>
        cases hitem
        exact hlease
    · exact ih hc

theorem Turn.exists (h : Turn H a row db db' item)
    (hs : db.state? id = some s) : ∃ s', db'.state? id = some s' := by
  rcases h.state? id with
    hsame | ⟨-, -, -, hfail⟩ | ⟨-, c, -, -, -, -, -, hclaim⟩
  · exact ⟨s, hsame.trans hs⟩
  · rw [hs] at hfail
    exact ⟨_, hfail⟩
  · rw [hs] at hclaim
    exact ⟨_, hclaim⟩

theorem Turns.granted (h : Turns H a rows items db db') (hc : c ∈ items)
    (hs : db.state? c.contract.contractId = some s) :
    Held c.leaseUntil db' c.contract.contractId := by
  induction h generalizing s with
  | done => cases hc
  | @turn row rows item items db mid db' hturn hrest ih =>
    rcases List.mem_append.mp hc with hc | hc
    · have hitem := Option.mem_toList.mp hc
      refine hrest.held ?_ fun d hd _ => ?_
      · cases hturn with
        | skipped _ => cases hitem
        | failed _ _ => cases hitem
        | @granted leaseUntil claimer _ _ _ h =>
          cases hitem
          refine ⟨s.claim claimer leaseUntil, ?_, Or.inl ⟨rfl, _, rfl, Int.le_refl _⟩⟩
          rw [h.state?, Db.state?_updateState, if_pos rfl, hs]
          rfl
      · have hlease := (Turns.turn hturn hrest).lease (List.mem_append_left _ hc)
        exact Int.le_of_eq (Except.ok.inj (hlease.symm.trans (hrest.lease hd)))
    · obtain ⟨s', hs'⟩ := hturn.exists hs
      exact ih hc hs'

theorem Turns.claimable (h : Turns H a a.rows items db db')
    (hC : (a.rows.all fun row => row.spent || !a.admits db row
      || Fleet.claimable db a.role a.now row.contract.contractId) = true)
    (hc : c ∈ items) :
    Fleet.claimable db a.role a.now c.contract.contractId = true := by
  obtain ⟨row, hrow, hcontract, hspent, hadmits⟩ := h.admitted hc
  have hopen := List.all_eq_true.mp hC row hrow
  rw [hspent, hadmits, hcontract] at hopen
  exact hopen

-- == steps

/-- Somebody holds the contract until the time, by what has happened. -/
def HeldSince (t : Instant) (id : Text) (log : List LeaseMark) : Prop :=
  List.Since (fun m => ∃ held ∈ m.leases, held.contractId = id
    ∧ t ≤ held.leaseUntil) (fun m => id ∈ m.released) log

theorem Moves.held (h : Moves H e) (hC : unheld H e = true) (hheld : Held t e.before.shared id)
    (hno : id ∉ (leaseMark H e).released) : Held t e.after.shared id := by
  cases h with
  | still _ hsame => exact hheld.congr (by rw [hsame])
  | wrote hc hfits hwrote =>
    unfold leaseMark at hno
    unfold unheld at hC
    rw [hc] at hno hC
    generalize e.after.shared = db' at hwrote ⊢
    cases hwrote with
    | create h =>
      refine hheld.congr ?_
      obtain ⟨s, hs, -⟩ := hheld
      obtain ⟨hnone, heq⟩ := h.state? id
      rw [heq]
      split
      · next hid =>
        rw [hid, hnone] at hs
        cases hs
      · rfl
    | @claim a _ _ _ h =>
      refine h.held hheld fun c hcmem hcid => ?_
      have hopen := h.claimable hC hcmem
      rw [hcid] at hopen
      have hle := hheld.not_claimable hopen
      have hlease := h.lease hcmem
      unfold addSeconds at hlease
      split at hlease
      · have hpositive : 1 ≤ a.leaseSeconds := hfits
        rw [← Except.ok.inj hlease]
        exact Int.le_trans hle (Int.le_add_of_nonneg_right (by omega))
      · cases hlease
    | result h =>
      obtain ⟨f, -, hf⟩ := h.state?
      refine hheld.congr ((hf id).trans (if_neg fun heq => hno ?_))
      exact List.mem_singleton.mpr heq
    | verdict h =>
      obtain ⟨f, -, hf⟩ := h.state?
      refine hheld.congr ((hf id).trans (if_neg fun heq => hno ?_))
      exact List.mem_singleton.mpr heq
    | error h => exact hheld.congr (h.state? id)

theorem Moves.leased (h : Moves H e) (hC : unheld H e = true) {l : Lease}
    (hl : l ∈ (leaseMark H e).leases) :
    (∃ role, claimable e.before.shared role l.claimedAt l.contractId = true)
      ∧ Held l.leaseUntil e.after.shared l.contractId := by
  cases h with
  | still hc _ =>
    unfold leaseMark at hl
    rw [hc] at hl
    cases hl
  | wrote hc hfits hwrote =>
    unfold leaseMark at hl
    unfold unheld at hC
    rw [hc] at hl hC
    generalize e.after.shared = db' at hwrote ⊢
    cases hwrote with
    | claim h =>
      obtain ⟨c, hcmem, rfl⟩ := List.mem_map.mp hl
      have hopen := h.claimable hC hcmem
      refine ⟨⟨_, hopen⟩, ?_⟩
      unfold Fleet.claimable at hopen
      cases hs : e.before.shared.state? c.contract.contractId with
      | none =>
        rw [hs] at hopen
        cases hopen
      | some s => exact h.granted hcmem hs
    | create _ => cases hl
    | result _ => cases hl
    | verdict _ => cases hl
    | error _ => cases hl

-- == runs

/-- Where blocks grant only what can be claimed, leases are exclusive. -/
theorem leases_exclusive (F : FleetHost) (sched : List (Sched Call))
    (hC : ∀ e ∈ traceOf F sched, unheld F.toHost e = true) : Exclusive (leaseLog F sched) := by
  have hrun := run_history (F := F) (C := fun e => unheld F.toHost e = true)
    (I := fun past db => Exclusive (past.map (leaseMark F.toHost))
      ∧ ∀ t id, HeldSince t id (past.map (leaseMark F.toHost)) → Held t db id)
    ⟨List.throughout_nil, fun t id h => absurd h List.not_since_nil⟩
    (fun past e hmoves hCe hI => ?_) sched hC
  · exact hrun.1
  · obtain ⟨hexclusive, hheld⟩ := hI
    rw [List.map_append, List.map_singleton]
    refine ⟨List.throughout_concat.mpr ⟨hexclusive, fun l hl hover => ?_⟩, fun t id hsince => ?_⟩
    · obtain ⟨⟨role, hopen⟩, -⟩ := hmoves.leased hCe hl
      have hbefore : Held (l.claimedAt + 1) e.before.shared l.contractId :=
        hheld _ _ (hover.imp (fun m ⟨d, hd, hid, hlt⟩ => ⟨d, hd, hid, hlt⟩) fun _ h => h)
      exact absurd (Int.add_one_le_iff.mp (hbefore.not_claimable hopen)) (Int.lt_irrefl _)
    · rcases List.since_concat.mp hsince with ⟨l, hl, rfl, hle⟩ | ⟨hno, hpast⟩
      · obtain ⟨s, hs, hstatus⟩ := (hmoves.leased hCe hl).2
        refine ⟨s, hs, hstatus.imp_left ?_⟩
        rintro ⟨hrunning, u, hu, hlu⟩
        exact ⟨hrunning, u, hu, Int.le_trans hle hlu⟩
      · exact hmoves.held hCe (hheld t id hpast) hno

/-- A builder claims the contract and hands it over; the judge claims it while
the builder's lease would still run. -/
def relay : List (Sched Call) :=
  [.spawn 0 (.create (buildContract 1 none)), .advance 0, .advance 0, .advance 0,
    .spawn 1 (claimAt "BUILDER" "alice" 0), .advance 1, .advance 1, .advance 1,
    .spawn 1 (resultAt (buildContract 1 none) "BUILDER" "EXECUTED_AWAITING_VERIFICATION" 1), .advance 1,
    .advance 1, .spawn 2 (claimAt "JUDGE" "bob" 2), .advance 2, .advance 2]

theorem relay_exclusive : Exclusive (leaseLog machine relay) :=
  leases_exclusive machine relay (List.all_eq_true.mp (by decide +kernel))

/-- Two builders ask for a contract before either gets it. -/
def race : List (Sched Call) :=
  [.spawn 0 (.create (buildContract 1 none)), .advance 0, .advance 0, .advance 0,
    .spawn 1 (claimAt "BUILDER" "alice" 0), .spawn 2 (claimAt "BUILDER" "bob" 1),
    .advance 1, .advance 2, .advance 1, .advance 2]

def aliceLease : Lease := ⟨idOn (buildContract 1 none), Text.lit "alice", dawn, dawn + 600000000⟩

def bobLease : Lease := ⟨idOn (buildContract 1 none), Text.lit "bob", dawn + 1000000, dawn + 601000000⟩

/-- Both get it, the second 599 seconds before the lease of the first ends. -/
theorem claimed_twice : leaseLog machine race = (List.replicate 8 ⟨[], []⟩ ++ [⟨[aliceLease], []⟩])
        ++ [⟨[bobLease], []⟩]
      ∧ ¬ Exclusive (leaseLog machine race) := by
  have hlog : leaseLog machine race = (List.replicate 8 ⟨[], []⟩
      ++ [⟨[aliceLease], []⟩]) ++ [⟨[bobLease], []⟩] := by decide +kernel
  refine ⟨hlog, fun h => ?_⟩
  refine h _ _ _ hlog bobLease (List.mem_singleton_self _) ?_
  exact ⟨_, _, [], rfl, ⟨aliceLease, List.mem_singleton_self _, rfl, by decide⟩, nofun⟩

end Centinal26.Fleet
