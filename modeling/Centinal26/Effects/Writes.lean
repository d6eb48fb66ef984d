/-
How the write step of each operation ends, given the row its `SELECT` read
is still the row on disk.
-/
import Centinal26.Effects.Lifecycle

namespace Centinal26.Effects

open Py Steps

/-- How a write step on `row` ends: `Did` says which moves it commits with
which answer, `Gave` which moves it may leave pending. -/
inductive Wrote (H : Host) (me : Nat) (row : EffectRow) (w : World)
    {α : Type} (Did : Move → α → Prop) (Gave : Move → Prop) :
    Except LedgerError α × World → Prop
  | moved {mv : Move} {a : α} {db : Db} {w' : World} (hd : Did mv a)
      (hm : Moved H row.effectId mv (w.view me) db)
      (hdisk : w'.disk = ⟨db, none⟩) : Wrote H me row w Did Gave (.ok a, w')
  | aborted {mv : Move} {e : LedgerError} {db : Db} {w' : World}
      (hg : Gave mv) (ht : Touched H row.effectId mv (w.view me) db)
      (hdisk : w'.disk = ⟨w.disk.file, some (me, db)⟩) :
      Wrote H me row w Did Gave (.error e, w')
  | raised {e : LedgerError} {w' : World} (hdisk : w'.disk = w.disk) :
      Wrote H me row w Did Gave (.error e, w')

variable {H : Host} {me : Nat} {row : EffectRow} {w : World} {α : Type}

def Never : Move → Prop := fun _ => False

variable {Did : Move → α → Prop} {Gave : Move → Prop} {t d : Nat}

theorem Wrote.liftPy_bind {β : Type} {r : Except PyErr β} {f : β → LBlock α}
    (h : ∀ b, r = .ok b → Wrote H me row w Did Gave (f b ⟨w.disk, t, d⟩)) :
    Wrote H me row w Did Gave ((liftPy r >>= f) ⟨w.disk, t, d⟩) := by
  cases r with
  | error e =>
    rw [Block.bind_error (liftPy_error e _)]
    exact .raised rfl
  | ok b =>
    rw [Block.bind_ok (liftPy_ok b _)]
    exact h b rfl

/-- A transition that serialises is a move of the image its connection
reads; nothing is on file yet. -/
theorem rewrite_moved (how : w.disk.OwnedBy me)
    (hrow : (w.view me).effect? row.effectId = some row) (mv : Move)
    (f : Instant → EffectRow → EffectRow)
    (hf : ∀ t r, (f t r).effectId = r.effectId) (toState : EffectState)
    (payload : Except PyErr PyVal) (ht : ∀ stamp, Transition H mv row (f stamp row))
    (hto : ∀ stamp, (f stamp row).state = toState) {doc : Json} (hd : payload >>= dumps = .ok doc) :
    ∃ w', rewrite H me row.effectId f hf mv.event row.state toState payload w = (.ok (), w')
      ∧ Moved H row.effectId mv (w.view me) (w'.view me)
      ∧ w'.disk.OwnedBy me ∧ w'.draws = w.draws := by
  have hrun := rewrite_apply how (H := H) row.effectId f hf mv.event row.state toState payload
  rw [hd] at hrun
  simp only at hrun
  refine ⟨_, hrun, ?_, ?_, rfl⟩
  · unfold World.view
    rw [Disk.view_write, ← hto (H.clock w.ticks)]
    exact Moved.mk hrow (ht _)
  · exact Disk.ownedBy_of_tx rfl

/-- A transition and its commit: it is a move, or its `UPDATE` stays pending
because the payload does not serialise. -/
theorem Wrote.of_rewrite (how : w.disk.OwnedBy me)
    (hrow : (w.view me).effect? row.effectId = some row) (mv : Move)
    {f : Instant → EffectRow → EffectRow} {hf : ∀ t r, (f t r).effectId = r.effectId}
    {fromState toState : EffectState} {payload : Except PyErr PyVal} {a : α}
    (hfrom : row.state = fromState) (ht : ∀ stamp, Transition H mv row (f stamp row))
    (hto : ∀ stamp, (f stamp row).state = toState)
    (hdid : (∃ doc, payload >>= dumps = .ok doc) → Did mv a)
    (hgave : (∃ e, payload >>= dumps = .error e) → Gave mv) : Wrote H me row w Did Gave
      ((rewrite H me row.effectId f hf mv.event fromState toState payload
        >>= fun _ => commit me >>= fun _ => pure a) ⟨w.disk, t, d⟩) := by
  subst hfrom
  have how' : (⟨w.disk, t, d⟩ : World).disk.OwnedBy me := how
  cases hd : payload >>= dumps with
  | ok doc =>
    rw [rewrite_commit how' hd]
    refine .moved (hdid ⟨doc, hd⟩) ?_ rfl
    rw [← hto (H.clock t)]
    exact Moved.mk hrow (ht _)
  | error e =>
    rw [rewrite_abort how' hd]
    exact .aborted (hgave ⟨e, hd⟩) (Touched.mk hrow (ht _)) rfl

-- == the payloads

theorem checkDigits_column {n : Nat} (h : n < 2 ^ 63) : checkDigits (n : Int) = .ok () := by
  have hbase : 2 ^ 63 < 10 ^ 63 := by decide
  unfold checkDigits
  rw [if_pos]
  rw [Int.natAbs_natCast]
  have hexp : 10 ^ 63 ≤ 10 ^ 4300 := by
    apply Nat.pow_le_pow_right <;> decide
  exact Nat.lt_of_lt_of_le (Nat.lt_trans h hbase) hexp

theorem payload_ok {v : PyVal} (h : ∃ doc, dumps v = .ok doc) :
    ¬ ∃ e, ((Except.ok v : Except PyErr PyVal) >>= dumps) = .error e := by
  rintro ⟨e, he⟩
  obtain ⟨doc, hd⟩ := h
  rw [show ((Except.ok v : Except PyErr PyVal) >>= dumps) = dumps v from rfl, hd] at he
  cases he

theorem dumps_expiresAt (expiresAt : Option IsoText) : ∃ doc, dumps (.dict [item "expires_at"
      (optText (expiresAt.map IsoText.raw))]) = .ok doc := by
  cases expiresAt <;> exact ⟨_, rfl⟩

theorem dumps_claim (worker lease : Text) {attempts max : Nat}
    (hb : attempts + 1 ≤ max) (hmax : max < 2 ^ 63) :
    ∃ doc, dumps (.dict [item "worker_id" worker.val,
      item "attempt" (.int (attempts + 1)), item "lease_until" lease.val]) = .ok doc := by
  have hd : checkDigits ((attempts : Int) + 1) = .ok () :=
    checkDigits_column (Nat.lt_of_le_of_lt hb hmax)
  simp only [dumps, dumpsItems, item, Text.val, hd]
  exact ⟨_, rfl⟩

theorem dumps_failure (error : PyVal) (b : Bool) : (∃ e, dumps (.dict [item "error" error,
        item "provider_not_invoked" (.bool b)]) = .error e)
      ↔ ∃ e, dumps error = .error e := by
  cases h : dumps error with
  | error e =>
    refine ⟨fun _ => ⟨e, rfl⟩, fun _ => ⟨e, ?_⟩⟩
    simp only [dumps, dumpsItems, item, h]
    rfl
  | ok doc =>
    refine ⟨fun hd => ?_, fun hd => ?_⟩
    · obtain ⟨e, hd⟩ := hd
      simp only [dumps, dumpsItems, item, h] at hd
      cases hd
    · obtain ⟨e, hd⟩ := hd
      cases hd

/-- A value `json` writes but whose text cannot be hashed, because it does
not encode. -/
def Unhashable (H : Host) (v : PyVal) : Prop :=
  (∃ stored, roundTrip v = .ok stored) ∧ ∃ e, canonicalSha256 H v = .error e

/-- A payload that is one digest serialises exactly if the digest is
there. -/
theorem dumps_digest (key : String) (v : PyVal) :
    (∃ e, ((do .ok (.dict [item key (← canonicalSha256 H v).val])) >>= dumps) = .error e)
      ↔ ∃ e, canonicalSha256 H v = .error e := by
  cases hsha : canonicalSha256 H v with
  | error e => exact ⟨fun _ => ⟨e, rfl⟩, fun _ => ⟨e, rfl⟩⟩
  | ok sha =>
    constructor
    · rintro ⟨_, h⟩
      cases h
    · rintro ⟨_, h⟩
      cases h

-- == the write steps

section Steps

variable (how : w.disk.OwnedBy me)
  (hrow : (w.view me).effect? row.effectId = some row)

include how hrow

theorem authorizeRow_wrote (hs : row.state = .pendingAuthorization) (a : EffectAuthorization) :
    Wrote H me row w (fun mv s => (mv = .approved a (H.clock w.ticks) ∧ s = .authorized)
        ∨ (mv = .denied ∧ s = .denied))
      Never (authorizeRow H me row a w) := by
  unfold authorizeRow
  rw [readClock_bind]
  refine Wrote.liftPy_bind fun approved hv => ?_
  refine Wrote.liftPy_bind fun stored hst => ?_
  cases approved with
  | true =>
    simp only [if_true]
    refine Wrote.of_rewrite how hrow (.approved a (H.clock w.ticks)) rfl ?_ ?_ ?_ ?_
    · exact fun _ => .approve hs hv hst
    · exact fun _ => rfl
    · exact fun _ => Or.inl ⟨rfl, rfl⟩
    · exact fun ⟨_, h⟩ => by cases h
  | false =>
    simp only [Bool.false_eq_true, if_false]
    refine Wrote.of_rewrite how hrow .denied rfl ?_ ?_ ?_ ?_
    · exact fun _ => .deny hs hv hst
    · exact fun _ => rfl
    · exact fun _ => Or.inr ⟨rfl, rfl⟩
    · exact fun ⟨_, h⟩ => by cases h

theorem beginRow_wrote (hs : row.state = .claimed) {lease now : Instant}
    (hl : row.claimUntil = some lease) (hn : now < lease)
    (providerId providerIdempotencyKey operation : PyStr) : Wrote H me row w
      (fun mv token => token = H.uuid4 w.draws ∧ mv = .began token now) Never
      (beginRow H me row providerId providerIdempotencyKey operation w) := by
  unfold beginRow
  rw [drawUuid_bind, readClock_bind]
  refine Wrote.of_rewrite how hrow (.began (H.uuid4 w.draws) now) hs ?_ ?_ ?_ ?_
  · exact fun _ => .begin hs hl hn rfl
  · exact fun _ => rfl
  · exact fun _ => ⟨rfl, rfl⟩
  · exact fun ⟨_, h⟩ => by cases h

variable {token : PyStr}

theorem recordRow_wrote (hs : row.state.isOpen)
    (hi : row.executionIntentJson.map ExecutionIntent.executionToken
      = some token) (result receipt : PyVal) :
    Wrote H me row w (fun mv s => mv = .recorded token ∧ s = .executed) Never
      (recordRow H me row token result receipt w) := by
  obtain ⟨intent, hintent, rfl⟩ := Option.map_eq_some_iff.mp hi
  unfold recordRow
  refine Wrote.liftPy_bind fun sha _ => ?_
  rw [readClock_bind]
  refine Wrote.liftPy_bind fun stored _ => ?_
  refine Wrote.liftPy_bind fun storedReceipt _ => ?_
  refine Wrote.of_rewrite how hrow (.recorded intent.executionToken) rfl ?_ ?_ ?_ ?_
  · exact fun _ => .record hs hintent rfl
  · exact fun _ => rfl
  · exact fun _ => ⟨rfl, rfl⟩
  · exact fun ⟨_, h⟩ => by cases h

theorem failRow_wrote (hs : row.state = .claimed ∨ row.state = .executing)
    (error : PyVal) (n : Bool) : Wrote H me row w
      (fun mv s => mv = .failed n ∧ s = failureState row n ∧ ∃ doc, dumps error = .ok doc)
      (fun mv => mv = .failed n ∧ ∃ e, dumps error = .error e)
      (failRow H me row error n w) := by
  refine Wrote.of_rewrite how hrow (.failed n) rfl (fun _ => .fail hs)
    (fun _ => rfl) (fun hd => ⟨rfl, rfl, ?_⟩)
    (fun hd => ⟨rfl, (dumps_failure error n).mp hd⟩)
  cases he : dumps error with
  | ok doc => exact ⟨doc, rfl⟩
  | error e =>
    obtain ⟨doc, hd⟩ := hd
    obtain ⟨e', he'⟩ := (dumps_failure error n).mpr ⟨e, he⟩
    have hd : dumps (.dict [item "error" error,
      item "provider_not_invoked" (.bool n)]) = .ok doc := hd
    rw [hd] at he'
    cases he'

theorem verifyRow_wrote (hs : row.state = .executed) {execution : ExecutionRecord}
    (hr : row.executionResultJson = some execution) (verifierId : PyStr)
    (passed : Bool) (evidence : PyVal) (independent : Bool) : Wrote H me row w (fun mv s =>
        (passed = true ∧ independent = true ∧ mv = .passed ∧ s = .verified)
        ∨ ((passed && independent) = false ∧ mv = .rejected ∧ s = .verificationFailed))
      Never
      (verifyRow H me row execution verifierId passed evidence independent w) := by
  unfold verifyRow
  refine Wrote.liftPy_bind fun sha hsha => ?_
  rw [readClock_bind]
  refine Wrote.liftPy_bind fun stored _ => ?_
  cases hacc : passed && independent with
  | true =>
    obtain ⟨hp, hi⟩ := Bool.and_eq_true_iff.mp hacc
    refine Wrote.of_rewrite how hrow .passed rfl ?_ ?_ ?_ ?_
    · exact fun _ => .pass hs hr hsha hp hi
    · exact fun _ => rfl
    · exact fun _ => Or.inl ⟨hp, hi, rfl, rfl⟩
    · exact fun ⟨_, h⟩ => by cases h
  | false =>
    refine Wrote.of_rewrite how hrow .rejected rfl ?_ ?_ ?_ ?_
    · exact fun _ => .reject hs hacc
    · exact fun _ => rfl
    · exact fun _ => Or.inr ⟨rfl, rfl, rfl⟩
    · exact fun ⟨_, h⟩ => by cases h

theorem publishRow_wrote (hs : row.state = .verified) (publication : PyVal) :
    Wrote H me row w (fun mv s => mv = .published ∧ s = .published)
      (fun mv => mv = .published ∧ Unhashable H publication)
      (publishRow H me row publication w) := by
  unfold publishRow
  refine Wrote.liftPy_bind fun stored hst => ?_
  refine Wrote.of_rewrite how hrow .published rfl ?_ ?_ ?_ ?_
  · exact fun _ => .publish hs
  · exact fun _ => rfl
  · exact fun _ => ⟨rfl, rfl⟩
  · exact fun he => ⟨rfl, ⟨stored, hst⟩, (dumps_digest _ _).mp he⟩

theorem acknowledgeRow_wrote (hs : row.state = .published) (acknowledgement : PyVal) :
    Wrote H me row w (fun mv s => mv = .acknowledged ∧ s = .acknowledged)
      (fun mv => mv = .acknowledged ∧ Unhashable H acknowledgement)
      (acknowledgeRow H me row acknowledgement w) := by
  unfold acknowledgeRow
  refine Wrote.liftPy_bind fun stored hst => ?_
  refine Wrote.of_rewrite how hrow .acknowledged rfl ?_ ?_ ?_ ?_
  · exact fun _ => .acknowledge hs
  · exact fun _ => rfl
  · exact fun _ => ⟨rfl, rfl⟩
  · exact fun he => ⟨rfl, ⟨stored, hst⟩, (dumps_digest _ _).mp he⟩

theorem unknownRow_wrote (hs : row.state.isOpen)
    (hi : row.executionIntentJson.map ExecutionIntent.executionToken = some token) :
    Wrote H me row w (fun mv s => mv = .unknown token ∧ s = .recoveryRequired) Never
      (unknownRow H me row token w) := by
  obtain ⟨intent, hintent, rfl⟩ := Option.map_eq_some_iff.mp hi
  refine Wrote.of_rewrite how hrow (.unknown intent.executionToken) rfl ?_ ?_ ?_ ?_
  · exact fun _ => .unknown hs hintent
  · exact fun _ => rfl
  · exact fun _ => ⟨rfl, rfl⟩
  · exact fun ⟨_, h⟩ => by cases h

theorem notExecutedRow_wrote (hs : row.state.isOpen)
    (hi : row.executionIntentJson.map ExecutionIntent.executionToken = some token) :
    Wrote H me row w (fun mv s => mv = .notExecuted token ∧ s = retryState row) Never
      (notExecutedRow H me row token w) := by
  obtain ⟨intent, hintent, rfl⟩ := Option.map_eq_some_iff.mp hi
  refine Wrote.of_rewrite how hrow (.notExecuted intent.executionToken) rfl ?_ ?_ ?_ ?_
  · exact fun _ => .notExecuted hs hintent
  · exact fun _ => rfl
  · exact fun _ => ⟨rfl, rfl⟩
  · exact fun ⟨_, h⟩ => by cases h

end Steps

-- == submissions

/-- A row as `submit` inserts it. -/
def Fresh (row : EffectRow) : Prop :=
  ∃ id key sha request n h stamp, row = newRow id key sha request n h stamp ∧ 1 ≤ n

inductive Submitted (H : Host) (row : EffectRow) (db : Db) : Db → Prop
  | mk {db₁ : Db} {payload : Json} {stamp : Instant} (hi : db.insertEffect? row = some db₁) :
      Submitted H row db (db₁.insertHistory (auditRow H db₁ row.effectId
        .effectSubmitted none .pendingAuthorization payload stamp))

/-- How the `INSERT` of `submit` ends. -/
inductive SubmitWrote (H : Host) (me : Nat) (w : World) :
    Except LedgerError (Option Text) × World → Prop
  | inserted {row : EffectRow} {db : Db} {w' : World} (hf : Fresh row)
      (hs : Submitted H row (w.view me) db) (hdisk : w'.disk = ⟨db, none⟩) :
      SubmitWrote H me w (.ok (some row.effectId), w')
  | refused {w' : World} (hdisk : w'.disk = ⟨w.disk.file, none⟩) : SubmitWrote H me w (.ok none, w')
  | raised {e : LedgerError} {w' : World} (hdisk : w'.disk = w.disk) :
      SubmitWrote H me w (.error e, w')

variable {t d : Nat} {db : Db}

theorem SubmitWrote.liftPy_bind {β : Type} {r : Except PyErr β} {f : β → LBlock (Option Text)}
    (h : ∀ b, r = .ok b → SubmitWrote H me w (f b ⟨w.disk, t, d⟩)) :
    SubmitWrote H me w ((liftPy r >>= f) ⟨w.disk, t, d⟩) := by
  cases r with
  | error e =>
    rw [Block.bind_error (liftPy_error e _)]
    exact .raised rfl
  | ok b =>
    rw [Block.bind_ok (liftPy_ok b _)]
    exact h b rfl

theorem insertRow_ended (row : EffectRow) {w : World} (how : w.disk.OwnedBy me) :
    ((insertRow H me row w).1 = .ok none ∧ (insertRow H me row w).2.disk = ⟨w.disk.file, none⟩)
      ∨ ∃ db, Submitted H row (w.view me) db ∧ (insertRow H me row w).1 = .ok (some row.effectId)
        ∧ (insertRow H me row w).2.disk = ⟨db, none⟩ := by
  unfold insertRow
  rw [select_bind]
  cases hins : (w.view me).insertEffect? row with
  | none =>
    simp only
    rw [Block.bind_ok (execute_apply how id), Block.bind_ok
      (rollback_apply (Disk.ownedBy_write w.disk me id))]
    exact .inl ⟨rfl, rfl⟩
  | some db =>
    simp only
    have how₁ := Disk.ownedBy_write w.disk me fun _ => db
    have happ := appendHistory_apply (H := H)
      (w := { w with disk := w.disk.write me fun _ => db }) how₁ row.effectId
      .effectSubmitted none .pendingAuthorization
      (.dict [item "request_sha256" row.requestSha256.val])
    have hdumps : dumps (.dict [item "request_sha256" row.requestSha256.val])
        = .ok (.obj [(py "request_sha256", .str row.requestSha256.str)]) := rfl
    rw [hdumps] at happ
    simp only [Disk.write_write, World.view, Disk.view_write] at happ
    rw [Block.bind_ok (execute_apply how _), Block.bind_ok happ,
      Block.bind_ok (commit_apply (Disk.ownedBy_of_tx rfl))]
    simp only [World.view, Disk.view_write]
    exact .inr ⟨_, Submitted.mk hins, rfl, rfl⟩

theorem insertRow_wrote {row : EffectRow} (hf : Fresh row) (how : w.disk.OwnedBy me) :
    SubmitWrote H me w (insertRow H me row ⟨w.disk, t, d⟩) := by
  have hended := insertRow_ended (H := H) row (w := ⟨w.disk, t, d⟩) how
  generalize insertRow H me row ⟨w.disk, t, d⟩ = res at hended ⊢
  obtain ⟨r, w'⟩ := res
  rcases hended with ⟨hr, hdisk⟩ | ⟨db, hs, hr, hdisk⟩
  · cases hr
    exact .refused hdisk
  · cases hr
    exact .inserted hf hs hdisk

theorem submitRow_wrote (how : w.disk.OwnedBy me) (request : EffectRequest) {n : Nat} (hn : 1 ≤ n) :
    SubmitWrote H me w (submitRow H me request n w) := by
  unfold submitRow
  rw [drawUuid_bind, readClock_bind]
  refine SubmitWrote.liftPy_bind fun sha _ => ?_
  refine SubmitWrote.liftPy_bind fun stored _ => ?_
  refine SubmitWrote.liftPy_bind fun key _ => ?_
  split
  · next hlt =>
    exact insertRow_wrote ⟨_, _, _, _, _, _, _, rfl, hn⟩ how
  · exact .raised rfl

/-- Looking a taken key up changes nothing, and what it answers is not a new
effect. -/
theorem submittedBefore_disk (me : Nat) (request : EffectRequest) (w : World) :
    (submittedBefore H me request w).2.disk = w.disk
      ∧ ∀ id created, (submittedBefore H me request w).1 = .ok (id, created) → created = false := by
  unfold submittedBefore
  rw [select_bind]
  cases (w.view me).effects.rows.find? fun r =>
      decide (r.idempotencyKey.str = request.idempotencyKey) with
  | none => exact ⟨rfl, fun _ _ h => by cases h⟩
  | some row =>
    cases hsha : request.sha256 H with
    | error e => exact ⟨rfl, fun _ _ h => by cases h⟩
    | ok sha =>
      simp only
      rw [Block.bind_ok (liftPy_ok sha w)]
      split
      · exact ⟨rfl, fun _ _ h => by cases h⟩
      · exact ⟨rfl, fun _ _ h => by cases h; rfl⟩

-- == lapsed leases

/-- A row whose lease ended before `now`. -/
def lapsed (now : Instant) (r : EffectRow) : Bool :=
  match r.claimUntil with
  | some lease => decide (lease < now)
  | none => false

/-- The rows `recover_expired_claims` moves. -/
def lapsedRows (now : Instant) (db : Db) : List EffectRow :=
  (leasedRows db).filter (lapsed now)

/-- A row as the query of `recover_expired_claims` returns it. -/
def Leased (r : EffectRow) : Prop :=
  (r.state = .claimed ∨ r.state = .executing) ∧ ∃ lease, r.claimUntil = some lease

theorem leased_of_mem {r : EffectRow} (h : r ∈ leasedRows db) :
    db.effect? r.effectId = some r ∧ Leased r := by
  unfold leasedRows at h
  obtain ⟨hmem, hcond⟩ := List.mem_filter.mp h
  simp only [Bool.and_eq_true, Bool.or_eq_true, decide_eq_true_eq] at hcond
  exact ⟨Table.find?_of_mem hmem, hcond.1, Option.isSome_iff_exists.mp hcond.2⟩

theorem leasedRows_nodup (db : Db) : ((leasedRows db).map EffectRow.effectId).Nodup :=
  List.Nodup.sublist (List.Sublist.map _ List.filter_sublist) db.effects.nodup

theorem lapse_moved {w : World} {row : EffectRow} (how : w.disk.OwnedBy me)
    (hrow : (w.view me).effect? row.effectId = some row) (hl : Leased row) (lease : Instant) :
    ∃ mv w', recoverRow H me row lease w = (.ok (), w')
      ∧ (mv = .lapsedClaim ∨ mv = .lapsedExecution)
      ∧ Moved H row.effectId mv (w.view me) (w'.view me)
      ∧ w'.disk.OwnedBy me ∧ w'.draws = w.draws := by
  unfold recoverRow
  by_cases hs : row.state = .claimed
  · rw [if_pos hs]
    obtain ⟨w', hrun, hm⟩ := rewrite_moved how hrow (H := H) .lapsedClaim
      (transitionColumns (retryState row) true false) (fun _ _ => rfl)
      (retryState row)
      (.ok (.dict [item "lease_until" (H.isoformat lease).val]))
      (fun _ => .lapseClaim hs) (fun _ => rfl) rfl
    exact ⟨_, w', hrun, Or.inl rfl, hm⟩
  · rw [if_neg hs]
    have he : row.state = .executing := hl.1.resolve_left hs
    obtain ⟨w', hrun, hm⟩ := rewrite_moved how hrow (H := H) .lapsedExecution
      (transitionColumns .recoveryRequired false false) (fun _ _ => rfl)
      .recoveryRequired
      (.ok (.dict [item "lease_until" (H.isoformat lease).val]))
      (fun _ => .lapseExecution he) (fun _ => rfl) rfl
    exact ⟨_, w', hrun, Or.inr rfl, hm⟩

/-- What the loop of `recover_expired_claims` does to the rows it read, when
the time it compares with has a timezone: the lapsed ones are swept. -/
theorem recoverRows_aware (now : Instant) (rows : List EffectRow) :
    ∀ {w : World}, w.disk.OwnedBy me →
      (∀ r ∈ rows, (w.view me).effect? r.effectId = some r ∧ Leased r) →
      (rows.map EffectRow.effectId).Nodup →
      ∃ w', recoverRows H me (.aware now) rows w = (.ok (rows.filter (lapsed now)).length, w')
        ∧ Swept H (w.view me) (w'.view me)
        ∧ (w'.view me).history.length
          = (w.view me).history.length + (rows.filter (lapsed now)).length
        ∧ w'.disk.OwnedBy me ∧ w'.draws = w.draws := by
  induction rows with
  | nil =>
    intro w how _ _
    exact ⟨w, rfl, .refl, rfl, how, rfl⟩
  | cons row rest ih =>
    intro w how hin hnd
    obtain ⟨hrow, hl⟩ := hin row (List.mem_cons_self ..)
    obtain ⟨lease, hlease⟩ := hl.2
    rw [List.map_cons, List.nodup_cons] at hnd
    unfold recoverRows
    rw [hlease]
    simp only [DateTime.le]
    by_cases hle : now ≤ lease
    · have hnot : lapsed now row = false := by
        simp only [lapsed, hlease, decide_eq_false_iff_not, Int.not_lt]
        exact hle
      rw [List.filter_cons_of_neg (by simp [hnot])]
      obtain ⟨w', hrun, hrest⟩ := ih how (fun r hr => hin r (List.mem_cons_of_mem _ hr)) hnd.2
      refine ⟨w', ?_, hrest⟩
      rw [Block.bind_ok (liftPy_ok _ w), decide_eq_true hle]
      exact hrun
    · have hyes : lapsed now row = true := by
        simp only [lapsed, hlease, decide_eq_true_eq]
        exact Int.not_le.mp hle
      rw [List.filter_cons_of_pos hyes]
      obtain ⟨mv, w₁, hlapse, hmv, hmoved, how₁, hdraws₁⟩ :=
        lapse_moved (H := H) how hrow hl lease
      have hin₁ : ∀ r ∈ rest, (w₁.view me).effect? r.effectId = some r ∧ Leased r := by
        intro r hr
        obtain ⟨hr', hlr⟩ := hin r (List.mem_cons_of_mem _ hr)
        obtain ⟨r', hr'', hcase⟩ := hmoved.rowMoved.forward hr'
        rcases hcase with ⟨heq, _⟩ | ⟨_, rfl⟩
        · exact absurd (List.mem_map.mpr ⟨r, hr, heq⟩) hnd.1
        · exact ⟨hr'', hlr⟩
      obtain ⟨w', hrun, hswept, hlen, how', hdraws'⟩ :=
        ih how₁ hin₁ hnd.2
      refine ⟨w', ?_, ?_, ?_, how', hdraws'.trans hdraws₁⟩
      · rw [Block.bind_ok (liftPy_ok _ w), decide_eq_false hle]
        simp only [Bool.false_eq_true, if_false]
        rw [Block.bind_ok hlapse, Block.bind_ok hrun]
        rfl
      · exact (Swept.tail .refl hmv hmoved).trans hswept
      · rw [hlen, hmoved.history_length, List.length_cons]
        omega

/-- With the time it compares with in a timezone, `recover_expired_claims`
commits a sweep of the lapsed rows. -/
theorem recoverWrite_aware {w : World} (how : w.disk.OwnedBy me) (now : Instant) :
    ∃ w', recoverWrite H me (.aware now) (leasedRows (w.view me)) w
        = (.ok (lapsedRows now (w.view me)).length, w')
      ∧ w'.disk = ⟨w'.view me, none⟩ ∧ Swept H (w.view me) (w'.view me)
      ∧ (w'.view me = w.view me ↔ lapsedRows now (w.view me) = [])
      ∧ w'.draws = w.draws := by
  obtain ⟨w₁, hrun, hswept, hlen, how₁, hdraws⟩ :=
    recoverRows_aware (H := H) now _ how (fun _ => leased_of_mem) (leasedRows_nodup _)
  unfold recoverWrite
  rw [Block.bind_ok hrun, Block.bind_ok (commit_apply how₁)]
  refine ⟨_, rfl, rfl, hswept, ?_, hdraws⟩
  constructor
  · intro heq
    have heq : w₁.view me = w.view me := heq
    rw [heq] at hlen
    apply List.eq_nil_of_length_eq_zero
    unfold lapsedRows
    omega
  · intro hnone
    refine hswept.eq_of_length ?_
    unfold lapsedRows at hnone
    rw [hlen, hnone]
    rfl

/-- Without a timezone the first comparison raises, so either there was
nothing to compare or nothing was written. -/
theorem recoverWrite_naive {w : World} (how : w.disk.OwnedBy me)
    (now : Instant) (rows : List EffectRow) (hrows : ∀ r ∈ rows, Leased r) :
    (∃ e, recoverWrite H me (.naive now) rows w = (.error e, w))
      ∨ recoverWrite H me (.naive now) rows w = (.ok 0, { w with disk := ⟨w.view me, none⟩ }) := by
  unfold recoverWrite
  cases rows with
  | nil =>
    refine Or.inr ?_
    have hnil : recoverRows H me (.naive now) [] w = (.ok 0, w) := rfl
    rw [Block.bind_ok hnil, Block.bind_ok (commit_apply how)]
    rfl
  | cons row rest =>
    obtain ⟨_, lease, hlease⟩ := hrows row (List.mem_cons_self ..)
    refine Or.inl ⟨.py .typeError, Block.bind_error ?_⟩
    unfold recoverRows
    rw [hlease]
    rfl

-- == claims

theorem nextClaimable_spec {row : EffectRow} (h : nextClaimable db = some row) :
    db.effect? row.effectId = some row ∧ claimable row.state = true :=
  ⟨Table.find?_minBy? h, (Table.minBy?_spec h).2⟩

theorem beginImmediate_apply {w : World} (hdisk : w.disk = ⟨db, none⟩) :
    beginImmediate me w = (.ok (), { w with disk := ⟨db, some (me, db)⟩ }) := by
  unfold beginImmediate
  rw [hdisk]
  rfl

/-- What `claim` commits on the row it picked, with its answer. -/
inductive Claims (H : Host) (row : EffectRow) (workerId : PyStr) (draw : Nat) :
    Move → Option EffectClaim → Prop
  | cancelled : Claims H row workerId draw .cancelled none
  | exhausted : Claims H row workerId draw .exhausted none
  | granted {c : EffectClaim} (hid : c.effectId = row.effectId.str)
      (hworker : c.workerId = workerId)
      (htoken : c.claimToken = (H.uuid4 draw).str) :
      Claims H row workerId draw (.claimed c) (some c)

theorem claimCandidate_wrote {w : World} {row : EffectRow} (how : w.disk.OwnedBy me)
    (hrow : (w.view me).effect? row.effectId = some row)
    (hs : claimable row.state = true) (workerId : PyStr) (leaseSeconds : Int) :
    Wrote H me row w (Claims H row workerId w.draws) Never
      (claimCandidate H me row workerId leaseSeconds w) := by
  unfold claimCandidate
  rw [readClock_bind]
  refine Wrote.liftPy_bind fun expired hexp => ?_
  cases expired with
  | true =>
    simp only [if_true]
    refine Wrote.of_rewrite how hrow .cancelled rfl ?_ ?_ ?_ ?_
    · exact fun _ => .cancel hs hexp
    · exact fun _ => rfl
    · exact fun _ => .cancelled
    · exact fun h => (payload_ok (dumps_expiresAt _) h).elim
  | false =>
    simp only [Bool.false_eq_true, if_false]
    by_cases hb : row.maxAttempts < row.attempts + 1
    · rw [if_pos hb]
      refine Wrote.of_rewrite how hrow .exhausted rfl ?_ ?_ ?_ ?_
      · exact fun _ => .exhaust hs hb
      · exact fun _ => rfl
      · exact fun _ => .exhausted
      · exact fun ⟨_, h⟩ => by cases h
    · rw [if_neg hb]
      have hb' : row.attempts + 1 ≤ row.maxAttempts := Nat.not_lt.mp hb
      rw [drawUuid_bind, readClock_bind]
      refine Wrote.liftPy_bind fun leaseUntil _ => ?_
      refine Wrote.liftPy_bind fun worker hworker => ?_
      have hstr : worker.str = workerId := encode_eq_ok.mp hworker
      subst hstr
      refine Wrote.of_rewrite how hrow
        (.claimed ⟨row.effectId.str, (H.uuid4 w.draws).str, worker.str,
          leaseUntil, row.attempts + 1⟩) rfl ?_ ?_ ?_ ?_
      · exact fun _ => .claim hs hexp hb'
      · exact fun _ => rfl
      · exact fun _ => .granted rfl rfl rfl
      · exact fun h => (payload_ok
          (dumps_claim worker (H.isoformat leaseUntil) hb' row.maxAttempts_lt) h).elim

/-- How `claim` ends once it has taken the lock on the image `db`. -/
inductive ClaimWrote (H : Host) (me : Nat) (workerId : PyStr) (w : World)
    (db : Db) : Except LedgerError (Option EffectClaim) × World → Prop
  | nothing {w' : World} (hdisk : w'.disk = ⟨db, none⟩) :
      ClaimWrote H me workerId w db (.ok none, w')
  | moved {row : EffectRow} {mv : Move} {r : Option EffectClaim} {db' : Db}
      {w' : World} (hrow : db.effect? row.effectId = some row)
      (hc : Claims H row workerId w.draws mv r)
      (hm : Moved H row.effectId mv db db') (hdisk : w'.disk = ⟨db', none⟩) :
      ClaimWrote H me workerId w db (.ok r, w')
  | raised {e : LedgerError} {w' : World} (hdisk : w'.disk = ⟨db, some (me, db)⟩) :
      ClaimWrote H me workerId w db (.error e, w')

theorem claimRow_wrote {w : World} (hdisk : w.disk = ⟨db, none⟩)
    (workerId : PyStr) (leaseSeconds : Int) :
    ClaimWrote H me workerId w db (claimRow H me workerId leaseSeconds w) := by
  unfold claimRow
  rw [Block.bind_ok (beginImmediate_apply hdisk), select_bind]
  have hview : World.view { w with disk := ⟨db, some (me, db)⟩ } me = db :=
    Disk.view_mk_some db db me
  have how : ({ w with disk := ⟨db, some (me, db)⟩ } : World).disk.OwnedBy me :=
    Disk.ownedBy_mk_some db db me
  rw [hview]
  cases hrow : nextClaimable db with
  | none =>
    show ClaimWrote H me workerId w db ((commit me >>= fun _ => pure none) _)
    rw [Block.bind_ok (commit_apply how), hview]
    exact .nothing rfl
  | some row =>
    obtain ⟨hfind, hs⟩ := nextClaimable_spec hrow
    have hfind' := hfind
    rw [← hview] at hfind'
    have hw := claimCandidate_wrote (H := H) how hfind' hs workerId leaseSeconds
    show ClaimWrote H me workerId w db (claimCandidate H me row workerId leaseSeconds
        { w with disk := ⟨db, some (me, db)⟩ })
    generalize claimCandidate H me row workerId leaseSeconds
      { w with disk := ⟨db, some (me, db)⟩ } = res at hw ⊢
    cases hw with
    | moved hd hm hdisk' =>
      rw [hview] at hm
      exact .moved hfind hd hm hdisk'
    | aborted hg _ _ => exact hg.elim
    | raised hdisk' => exact .raised hdisk'

end Centinal26.Effects
