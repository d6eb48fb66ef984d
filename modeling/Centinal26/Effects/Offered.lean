/-
Which effect a claim gets: it looks at one row, the first in the order of the queue, and answers
`None` when the request of that row has expired.
-/
import Centinal26.Effects.Budget
import Centinal26.Effects.Stored

namespace Centinal26.Effects

open Py Steps

variable {H : Host}

-- == order

theorem claimOrder_iff {a b : EffectRow} : claimOrder a b = true ↔ a.createdAt < b.createdAt
      ∨ a.createdAt = b.createdAt ∧ a.effectId.str ≤ b.effectId.str := by
  unfold claimOrder
  rw [Bool.or_eq_true, Bool.and_eq_true, decide_eq_true_eq, decide_eq_true_eq, decide_eq_true_eq]

theorem claimOrder_total (a b : EffectRow) : claimOrder a b = true ∨ claimOrder b a = true := by
  rw [claimOrder_iff, claimOrder_iff]
  rcases Int.lt_trichotomy a.createdAt b.createdAt with h | h | h
  · exact .inl (.inl h)
  · rcases le_total a.effectId.str b.effectId.str with hid | hid
    · exact .inl (.inr ⟨h, hid⟩)
    · exact .inr (.inr ⟨h.symm, hid⟩)
  · exact .inr (.inl h)

theorem claimOrder_trans (a b c : EffectRow) (hab : claimOrder a b = true)
    (hbc : claimOrder b c = true) : claimOrder a c = true := by
  rw [claimOrder_iff] at hab hbc ⊢
  rcases hab with hab | ⟨hab, hid⟩
  · rcases hbc with hbc | ⟨hbc, -⟩
    · exact .inl (Int.lt_trans hab hbc)
    · exact .inl (hbc ▸ hab)
  · rcases hbc with hbc | ⟨hbc, hid'⟩
    · exact .inl (hab ▸ hbc)
    · exact .inr ⟨hab.trans hbc, le_trans hid hid'⟩

-- == offers

/-- The effect waits to be claimed, and its request has not expired. -/
def Offered (now : Instant) (row : EffectRow) : Prop :=
  claimable row.state = true ∧ requestExpired now row.requestJson = .ok false

def FirstOffered (db : Db) (now : Instant) (row : EffectRow) : Prop :=
  row ∈ db.effects.rows ∧ Offered now row
    ∧ ∀ r ∈ db.effects.rows, Offered now r → claimOrder row r = true

/-- What a claim is to answer: the first effect that is offered, and nothing only if none is. -/
def Answers (db : Db) (now : Instant) : Option EffectClaim → Prop
  | none => ∀ r ∈ db.effects.rows, ¬ Offered now r
  | some c => ∃ row, FirstOffered db now row ∧ c.effectId = row.effectId.str

/-- The first row of the queue is offered, if any row is. -/
def HeadOffered (db : Db) (now : Instant) : Prop :=
  (∃ r ∈ db.effects.rows, Offered now r) → ∃ row, nextClaimable db = some row ∧ Offered now row

theorem answer_of_pure {α β γ : Type} {m : LBlock β} {k : LBlock γ} {a r : α} {w : World}
    (h : ((m >>= fun _ => k >>= fun _ => pure a) w).1 = .ok r) : r = a := by
  simp only [Block.bind_apply] at h
  cases hm : m w with
  | mk result w₁ =>
  rw [hm] at h
  cases result with
  | error e => cases h
  | ok b =>
    simp only at h
    cases hk : k w₁ with
    | mk result w₂ =>
    rw [hk] at h
    cases result with
    | error e => cases h
    | ok c =>
      cases h
      rfl

theorem claimCandidate_answer {row : EffectRow} {worker : PyStr} {lease : Int} {w : World}
    {r : Option EffectClaim} (h : (claimCandidate H 0 row worker lease w).1 = .ok r) :
    ∃ expired, requestExpired (H.clock w.ticks) row.requestJson = .ok expired
      ∧ (expired = true → r = none)
      ∧ (expired = false → row.attempts + 1 ≤ row.maxAttempts →
        ∃ c, r = some c ∧ c.effectId = row.effectId.str) := by
  unfold claimCandidate at h
  rw [readClock_bind] at h
  cases hexpired : requestExpired (H.clock w.ticks) row.requestJson with
  | error e =>
    rw [hexpired, Block.bind_error (liftPy_error e _)] at h
    cases h
  | ok expired =>
  rw [hexpired, Block.bind_ok (liftPy_ok expired _)] at h
  refine ⟨expired, rfl, fun hyes => ?_, fun hno hbudget => ?_⟩
  · rw [hyes] at h
    exact answer_of_pure h
  · rw [hno] at h
    simp only [Bool.false_eq_true, if_false] at h
    rw [if_neg (Nat.not_lt.mpr hbudget), drawUuid_bind, readClock_bind] at h
    cases hlease : addSeconds (H.clock (w.ticks + 1)) lease with
    | error e =>
      rw [hlease, Block.bind_error (liftPy_error e _)] at h
      cases h
    | ok leaseUntil =>
    rw [hlease, Block.bind_ok (liftPy_ok leaseUntil _)] at h
    cases hworker : encode worker with
    | error e =>
      rw [hworker, Block.bind_error (liftPy_error e _)] at h
      cases h
    | ok workerText =>
    rw [hworker, Block.bind_ok (liftPy_ok workerText _)] at h
    exact ⟨_, answer_of_pure h, rfl⟩

theorem claimRow_answers {db : Db} {worker : PyStr} {lease : Int} {w : World}
    {r : Option EffectClaim} (hdisk : w.disk = ⟨db, none⟩)
    (hbudget : ∀ row, nextClaimable db = some row → row.attempts + 1 ≤ row.maxAttempts)
    (h : (claimRow H 0 worker lease w).1 = .ok r) :
    Answers db (H.clock w.ticks) r ↔ HeadOffered db (H.clock w.ticks) := by
  unfold claimRow at h
  have hview : World.view { w with disk := ⟨db, some (0, db)⟩ } 0 = db := Disk.view_mk_some db db 0
  rw [Block.bind_ok (beginImmediate_apply hdisk), select_bind, hview] at h
  cases hnext : nextClaimable db with
  | none =>
    rw [hnext] at h
    have hnone : r = none := by
      simp only [Block.bind_apply] at h
      split at h
      · cases h
        rfl
      · cases h
    have hempty : ∀ row ∈ db.effects.rows, ¬ Offered (H.clock w.ticks) row :=
      fun row hrow hoffered =>
        absurd hoffered.1 (Bool.eq_false_iff.mp (Table.minBy?_none hnext row hrow))
    subst hnone
    exact iff_of_true hempty fun ⟨row, hrow, hoffered⟩ => absurd hoffered (hempty row hrow)
  | some head =>
    rw [hnext] at h
    obtain ⟨expired, hexpired, hyes, hno⟩ := claimCandidate_answer h
    have hclaimable := (Table.minBy?_spec hnext).2
    cases expired with
    | true =>
      have hnone := hyes rfl
      subst hnone
      have hnot : ¬ Offered (H.clock w.ticks) head := fun ⟨_, hopen⟩ => by
        rw [show requestExpired (H.clock w.ticks) head.requestJson = .ok true from hexpired]
          at hopen
        cases hopen
      constructor
      · rintro hempty ⟨row, hrow, hoffered⟩
        exact absurd hoffered (hempty row hrow)
      · intro hhead row hrow hoffered
        obtain ⟨head', hsame, hopen⟩ := hhead ⟨row, hrow, hoffered⟩
        rw [hnext] at hsame
        cases hsame
        exact hnot hopen
    | false =>
      obtain ⟨c, rfl, hid⟩ := hno rfl (hbudget head hnext)
      have hoffered : Offered (H.clock w.ticks) head := ⟨hclaimable, hexpired⟩
      refine iff_of_true ⟨head, ⟨(Table.minBy?_spec hnext).1, hoffered, ?_⟩, hid⟩
        fun _ => ⟨head, hnext, hoffered⟩
      exact fun row hrow h => Table.minBy?_le claimOrder_total claimOrder_trans hnext row hrow h.1

-- == runs

/-- The world `claim` picks from: after the lapsed leases have been recovered. -/
def recovered (H : Host) (calls : List Call) : World :=
  run H (calls ++ [.recoverExpiredClaims none])

theorem recovered_eq (calls : List Call) :
    recovered H calls = ((recoverExpiredClaims H 0 none).run (run H calls)).2 := by
  unfold recovered
  rw [run_append]
  simp only [Machine.exec, step, Call.prog, Prog.run_map]

/-- In every state a run comes to, a claim answers the first effect that is offered, and nothing
only if none is, just if the first effect of the queue has not expired, or all of it has. -/
theorem claim_answers (calls : List Call) {worker : PyStr} {lease : Int} {r : Option EffectClaim}
    (h : (step H (.claim worker lease) (run H calls)).1 = .ok (.claimed r)) :
    let w := recovered H calls
    Answers (w.view 0) (H.clock w.ticks) r ↔ HeadOffered (w.view 0) (H.clock w.ticks) := by
  intro w
  have hclaim : ((claim H 0 worker lease).run (run H calls)).1 = .ok r := by
    unfold step at h
    simp only [Call.prog, Prog.run_map] at h
    cases hres : ((claim H 0 worker lease).run (run H calls)).1 with
    | error e =>
      rw [hres] at h
      cases h
    | ok r' =>
      rw [hres] at h
      cases h
      rfl
  unfold claim at hclaim
  split at hclaim
  · cases hclaim
  split at hclaim
  · cases hclaim
  obtain ⟨w₁, hrun, hdisk, -, -, -⟩ := recoverWrite_aware (H := H)
    (w := { run H calls with ticks := (run H calls).ticks + 1 }) (run_ownedBy calls)
    (H.clock (run H calls).ticks)
  have hrec := (recoverExpiredClaims_run (H := H) (w := run H calls) none).trans hrun
  have hw : w = w₁ := by
    show recovered H calls = w₁
    rw [recovered_eq, hrec]
  rw [Prog.run_bind_ok hrec, Prog.run_block] at hclaim
  have hwithin : ∀ row, nextClaimable (w₁.view 0) = some row →
      row.attempts + 1 ≤ row.maxAttempts := by
    intro row hrow
    obtain ⟨hbudget, -⟩ := (run_neverExhausted (H := H)
      (calls ++ [.recoverExpiredClaims none])).view 0
    rw [← hw] at hrow
    obtain ⟨hfind, hs⟩ := nextClaimable_spec hrow
    exact (hbudget _ _ hfind).claimable hs
  rw [hw]
  exact claimRow_answers hdisk hwithin hclaim

-- == samples

namespace Sample

/-- A request that has expired by the time it is approved. -/
def stale : EffectRequest :=
  { request with
    idempotencyKey := py "order-6"
    expiresAt := some ⟨py "2026-01-01T00:00:00+00:00", some (.aware newYear)⟩ }

def staleAuthorization : EffectAuthorization :=
  { authorization with
    requestSha256 := match stale.sha256 host with
      | .ok sha => sha.str
      | .error _ => [] }

/-- An expired effect, and one behind it that has not. -/
def queued : List Call :=
  [.submit stale 3, .authorize effectId staleAuthorization, .submit request 3,
    .authorize (host.uuid4 1).str authorization]

end Sample

open Sample in
/-- The claim looks at the expired effect only, and answers nothing. -/
theorem claim_behind_stale :
    (step host (.claim worker 60) (run host queued)).1.toOption = some (.claimed none)
      ∧ ¬ Answers ((recovered host queued).view 0) (host.clock (recovered host queued).ticks)
        none := by
  obtain ⟨hclaim, hwaits⟩ :
      (step host (.claim worker 60) (run host queued)).1.toOption = some (.claimed none)
      ∧ ((recovered host queued).view 0).effects.rows.any (fun r => claimable r.state
        && decide ((requestExpired newYear r.requestJson).toOption = some false)) = true := by
    decide +kernel
  refine ⟨hclaim, fun hnone => ?_⟩
  obtain ⟨row, hrow, hoffered⟩ := List.any_eq_true.mp hwaits
  rw [Bool.and_eq_true, decide_eq_true_eq] at hoffered
  exact hnone row hrow ⟨hoffered.1, ok_of_toOption hoffered.2⟩

open Sample in
theorem claim_answers_sample :
    let calls : List Call := [.submit request 3, .authorize effectId authorization]
    let w := recovered host calls
    Answers (w.view 0) (host.clock w.ticks) (some (ticket 1 1))
      ↔ HeadOffered (w.view 0) (host.clock w.ticks) :=
  claim_answers [.submit request 3, .authorize effectId authorization]
    (show (step host (.claim worker 60) (run host
        [.submit request 3, .authorize effectId authorization])).1
      = .ok (.claimed (some (ticket 1 1))) from ok_of_toOption (by decide +kernel))

end Centinal26.Effects
