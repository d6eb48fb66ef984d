/-
The work that is listed and the work that can be claimed.
-/
import Centinal26.Intelligence.LifeCycle
import Centinal26.Intelligence.Links

namespace Centinal26.Intelligence

open Py Steps

variable {H : Host}

/-- `due_work` lists the item. -/
def listed (db : Db) (key : Text) (now : Instant) : Bool :=
  match dueWork now db with
  | .ok items => items.any fun i => decide (i.workKey = key)
  | .error _ => false

def wouldGrant (db : Db) (key : Text) (claimer : PyStr) (lease : Int) (now : Instant) : Bool :=
  match claimWork key.str claimer lease now db with
  | .ok (some _, _) => true
  | _ => false

/-- The arguments of a claim that is not refused whatever the item is. -/
def claimable (claimer : PyStr) (lease : Int) (now : Instant) : Bool :=
  decide (1 ≤ lease) && (encode claimer).isOk && decide (now + lease * 1000000 ≤ maxInstant)

/-- The item runs, and its lease is over. -/
def abandoned (db : Db) (key : Text) (now : Instant) : Bool :=
  (db.workItems.find? key).any fun i =>
    decide (i.status = .running) && i.leaseUntil.any fun t => decide (t ≤ now)

/-- The item waits, and its time has come. -/
def waiting (db : Db) (key : Text) (now : Instant) : Bool :=
  (db.workItems.find? key).any fun i =>
    decide (i.status = .queued) && decide (i.dueAt ≤ now)

/-- A claim with good arguments is about no abandoned item, and one with bad arguments
about none that waits; a time that is no `datetime` is refused by both. -/
def proper (db : Db) (key : Text) (claimer : PyStr) (lease : Int) (now : Instant) : Bool :=
  !(isoTime now).isOk
    || if claimable claimer lease now then !abandoned db key now else !waiting db key now

/-- The times of the items, on a reachable database. -/
def Timed (db : Db) : Prop :=
  ∀ k i, db.workItems.find? k = some i → isoTime i.dueAt = .ok ()
    ∧ (i.status = .running → ∃ t, i.leaseUntil = some t ∧ i.dueAt ≤ t)

variable {db : Db} {key : Text} {now : Instant}

theorem listed_rows (hnow : isoTime now = .ok ()) :
    listed db key now = db.workItems.rows.any fun i => i.isDue now && decide (i.workKey = key) := by
  unfold listed dueWork
  rw [hnow]
  show (List.mergeSort _ _).any _ = _
  rw [(List.mergeSort_perm _ _).any_eq, List.any_filter]

theorem listed_eq (htimed : Timed db)
    (hnow : isoTime now = .ok ()) : listed db key now = waiting db key now := by
  obtain ⟨hlow, hhigh⟩ := isoTime_ok hnow
  have hlisted : listed db key now = true ↔ ∃ i ∈ db.workItems.rows,
      i.isDue now = true ∧ i.workKey = key := by
    rw [listed_rows hnow, List.any_eq_true]
    exact exists_congr fun i => and_congr_right fun _ => by
      rw [Bool.and_eq_true, decide_eq_true_eq]
  have hdue : ∀ i, db.workItems.find? key = some i → (i.isDue now
      = (decide (i.status = .queued) && decide (i.dueAt ≤ now))) := by
    intro i hi
    obtain ⟨hlow', hhigh'⟩ := isoTime_ok (htimed key i hi).1
    unfold WorkItem.isDue
    rw [← decide_not, decide_eq_decide.mpr (isoformat_not_lt hlow' hhigh' hlow hhigh)]
  rw [Bool.eq_iff_iff, hlisted]
  unfold waiting
  constructor
  · rintro ⟨i, hmem, hisDue, rfl⟩
    have hi := Table.find?_of_mem hmem
    rw [hi, Option.any_some, ← hdue i hi]
    exact hisDue
  · intro hany
    obtain ⟨i, hi, hboth⟩ := (Option.any_eq_true _ _).mp hany
    rw [← hdue i hi] at hboth
    exact ⟨i, Table.mem_of_find? hi, hboth, Table.key_of_find? hi⟩

theorem encode_str (t : Text) : encode t.str = .ok t := encode_eq_ok.mpr rfl

variable {claimer : PyStr} {lease : Int}

/-- What a claim with good arguments is granted are the items that wait and those that
are abandoned. -/
theorem wouldGrant_eq (htimed : Timed db)
    (hnow : isoTime now = .ok ()) (hgood : claimable claimer lease now = true) :
    wouldGrant db key claimer lease now = (waiting db key now || abandoned db key now) := by
  unfold claimable at hgood
  rw [Bool.and_eq_true, Bool.and_eq_true, decide_eq_true_eq, decide_eq_true_eq] at hgood
  obtain ⟨⟨hlease, hclaimer⟩, hfits⟩ := hgood
  obtain ⟨owner, howner⟩ := exists_ok hclaimer
  have hadd : addSeconds now lease = .ok (now + lease * 1000000) := if_pos hfits
  unfold wouldGrant claimWork waiting abandoned
  rw [if_neg (Int.not_lt.mpr hlease), hnow, hadd, encode_str]
  simp only [bind_ok_eq]
  cases hi : db.workItems.find? key with
  | none => rfl
  | some i =>
    simp only [howner, bind_ok_eq, Option.any_some, WorkItem.isClaimable]
    by_cases hdue : i.dueAt ≤ now
    · rw [decide_eq_false (Int.not_lt.mpr hdue), decide_eq_true hdue, Bool.and_true, Bool.or_false]
      cases (decide (i.status = .queued) || (decide (i.status = .running)
        && i.leaseUntil.any fun t => decide (t ≤ now))) <;> rfl
    · -- an item whose time has not come has not been claimed either
      have hnot : (decide (i.status = .running)
          && i.leaseUntil.any fun t => decide (t ≤ now)) = false := by
        rw [Bool.and_eq_false_iff]
        by_cases hrunning : i.status = .running
        · obtain ⟨t, ht, hle⟩ := (htimed key i hi).2 hrunning
          refine Or.inr ?_
          rw [ht]
          exact decide_eq_false fun hover => hdue (Int.le_trans hle hover)
        · exact Or.inl (decide_eq_false hrunning)
      rw [hnot, decide_eq_true (Int.not_le.mp hdue), decide_eq_false hdue, Bool.or_true,
        Bool.and_false]
      rfl

theorem wouldGrant_bad
    (hbad : claimable claimer lease now = false) : wouldGrant db key claimer lease now = false := by
  unfold wouldGrant
  split
  · next k db' h =>
    exfalso
    unfold claimWork at h
    split at h
    · cases h
    · next hlease =>
      obtain ⟨_, -, h⟩ := of_bind_ok h
      obtain ⟨leaseUntil, hlater, h⟩ := of_bind_ok h
      obtain ⟨_, -, h⟩ := of_bind_ok h
      split at h
      · cases h
      · split at h
        · cases h
        · obtain ⟨owner, howner, -⟩ := of_bind_ok h
          have hfits : now + lease * 1000000 ≤ maxInstant := by
            unfold addSeconds at hlater
            split at hlater
            · next hle => exact hle
            · cases hlater
          unfold claimable at hbad
          rw [howner, decide_eq_true (Int.not_lt.mp hlease), decide_eq_true hfits] at hbad
          cases hbad
  · rfl

theorem reachable_timed (H : Host) (sched : List (Sched Op)) :
    Timed (poolOf H sched).shared := (runOk_run H sched).2.1.timed

theorem refused_time (db : Db) (key : Text) (claimer : PyStr) (lease : Int)
    (hnow : (isoTime now).isOk = false) :
    listed db key now = false ∧ wouldGrant db key claimer lease now = false := by
  cases htime : isoTime now with
  | ok u =>
    rw [htime] at hnow
    cases hnow
  | error e =>
    refine ⟨?_, ?_⟩
    · unfold listed dueWork
      rw [htime]
      rfl
    · unfold wouldGrant claimWork
      split
      · next h =>
        split at h
        · cases h
        · rw [htime] at h
          cases h
      · rfl

theorem not_abandoned (hwait : waiting db key now = true) : abandoned db key now = false := by
  obtain ⟨i, hi, hboth⟩ := (Option.any_eq_true _ _).mp hwait
  have hqueued := of_decide_eq_true (Bool.and_eq_true_iff.mp hboth).1
  unfold abandoned
  rw [hi, Option.any_some, hqueued]
  rfl

/-- On every reachable database and at every time, `due_work` lists an item exactly if
`claim_work` would grant it: this holds of the proper claims, and of no other. -/
theorem listed_iff (H : Host) (sched : List (Sched Op)) (key : Text) (claimer : PyStr)
    (lease : Int) (now : Instant) : listed (poolOf H sched).shared key now
        = wouldGrant (poolOf H sched).shared key claimer lease now
      ↔ proper (poolOf H sched).shared key claimer lease now = true := by
  have htimed := reachable_timed H sched
  generalize (poolOf H sched).shared = db at htimed ⊢
  unfold proper
  cases hok : (isoTime now).isOk with
  | false =>
    obtain ⟨hlisted, hgrant⟩ := refused_time db key claimer lease hok
    rw [hlisted, hgrant]
    exact iff_of_true rfl rfl
  | true =>
    obtain ⟨_, hnow⟩ := exists_ok hok
    rw [listed_eq htimed hnow, Bool.not_true, Bool.false_or]
    cases hgood : claimable claimer lease now with
    | true =>
      rw [wouldGrant_eq htimed hnow hgood, if_pos rfl]
      cases hwait : waiting db key now with
      | true =>
        rw [not_abandoned hwait]
        exact iff_of_true rfl rfl
      | false =>
        rw [Bool.false_or]
        cases abandoned db key now
        · exact iff_of_true rfl rfl
        · exact iff_of_false nofun nofun
    | false =>
      rw [wouldGrant_bad hgood, if_neg nofun]
      cases waiting db key now
      · exact iff_of_true rfl rfl
      · exact iff_of_false nofun nofun

-- == try-outs

/-- A change is observed in the first second. -/
def observed : List (Sched Op) :=
  .spawn 0 (.observe (senses "door" (.str (py "open"))) 0) :: List.replicate 5 (.advance 0)

def doorKey : PyStr :=
  ((poolOf clockwork observed).shared.workItems.rows.map fun i => i.workKey.str).headD []

/-- The item is claimed for a second, and the worker crashes. -/
def crashed : List (Sched Op) :=
  observed ++ [.spawn 1 (.claim doorKey (py "worker") 1 0), .advance 1, .crash 1]

/-- A minute later, the item is not listed, and a claim would be granted. -/
theorem crashed_unlisted : ∃ i ∈ (poolOf clockwork crashed).shared.workItems.rows,
      listed (poolOf clockwork crashed).shared i.workKey 60000000
        ≠ wouldGrant (poolOf clockwork crashed).shared i.workKey (py "other") 300 60000000 := by
  have hany : ((poolOf clockwork crashed).shared.workItems.rows.any fun i =>
      !((poolOf clockwork crashed).shared.workItems.rows.any fun j =>
        j.isDue 60000000 && decide (j.workKey = i.workKey))
      && wouldGrant (poolOf clockwork crashed).shared i.workKey (py "other") 300 60000000)
      = true := by decide +kernel
  obtain ⟨i, hi, hboth⟩ := List.any_eq_true.mp hany
  obtain ⟨hunlisted, hgranted⟩ := Bool.and_eq_true_iff.mp hboth
  rw [Bool.not_eq_true'] at hunlisted
  refine ⟨i, hi, ?_⟩
  rw [listed_rows rfl, hgranted, hunlisted]
  exact nofun

end Centinal26.Intelligence
