/-
Everything one call can do, said once: `Ran` has one case for each way a call
ends, with the moves it made, what it answered and the disk it left. The
results about runs are all derived from it.
-/
import Centinal26.Effects.Writes
import Centinal26.Lib.Machine

namespace Centinal26.Effects

open Py Steps

-- == labels

inductive Does (H : Host) (w : World) (row : EffectRow) : Call → Reply → Move → Prop
  | authorized {id : PyStr} {a : EffectAuthorization} (hid : id = row.effectId.str) :
      Does H w row (.authorize id a) (.state .authorized) (.approved a (H.clock w.ticks))
  | denied {id : PyStr} {a : EffectAuthorization} (hid : id = row.effectId.str) :
      Does H w row (.authorize id a) (.state .denied) .denied
  | began {c : EffectClaim} {p k o : PyStr} (hid : c.effectId = row.effectId.str)
      (hc : claimIdentity row c = true) :
      Does H w row (.beginExecution c p k o) (.token (H.uuid4 w.draws))
        (.began (H.uuid4 w.draws) (H.clock w.ticks))
  | recorded {id token : PyStr} {result receipt : PyVal} (hid : id = row.effectId.str) :
      Does H w row (.recordExecution id token result receipt) (.state .executed) (.recorded token)
  | failed {c : EffectClaim} {error : PyVal} {n : Bool} (hid : c.effectId = row.effectId.str)
      (hc : claimIdentity row c = true)
      (hd : ∃ doc, dumps error = .ok doc) :
      Does H w row (.markExecutionFailure c error n) (.state (failureState row n)) (.failed n)
  | passed {id v : PyStr} {evidence : PyVal} (hid : id = row.effectId.str) :
      Does H w row (.verify id v true evidence true) (.state .verified) .passed
  | rejected {id v : PyStr} {p i : Bool} {evidence : PyVal}
      (hid : id = row.effectId.str) (hp : (p && i) = false) :
      Does H w row (.verify id v p evidence i) (.state .verificationFailed) .rejected
  | published {id : PyStr} {publication : PyVal} (hid : id = row.effectId.str) :
      Does H w row (.publish id publication) (.state .published) .published
  | acknowledged {id : PyStr} {acknowledgement : PyVal} (hid : id = row.effectId.str) :
      Does H w row (.acknowledge id acknowledgement) (.state .acknowledged) .acknowledged
  | unknown {id token : PyStr} {result receipt : PyVal} (hid : id = row.effectId.str) :
      Does H w row (.reconcileExecution id token .unknown result receipt)
        (.state .recoveryRequired) (.unknown token)
  | notExecuted {id token : PyStr} {result receipt : PyVal} (hid : id = row.effectId.str) :
      Does H w row (.reconcileExecution id token .notExecuted result receipt)
        (.state (retryState row)) (.notExecuted token)

/-- A reconciliation that reports an execution, and so records it. -/
inductive Reports (row : EffectRow) : Call → PyStr → Prop
  | mk {id token : PyStr} {result receipt : PyVal} (hid : id = row.effectId.str) :
      Reports row (.reconcileExecution id token .executed result receipt) token

/-- The calls that find their work done and answer with the state. -/
inductive Replays (row : EffectRow) : Call → Prop
  | authorize {id : PyStr} {a : EffectAuthorization}
      (hs : row.state = .authorized ∨ row.state = .denied) :
      Replays row (.authorize id a)
  | record {id token : PyStr} {result receipt : PyVal}
      (hid : id = row.effectId.str) (hs : row.state = .executed)
      (ht : row.executionResultJson.map ExecutionRecord.executionToken = some token) :
      Replays row (.recordExecution id token result receipt)
  | reconcile {id token : PyStr} {result receipt : PyVal}
      (hid : id = row.effectId.str) (hs : row.state = .executed)
      (ht : row.executionResultJson.map ExecutionRecord.executionToken = some token) :
      Replays row (.reconcileExecution id token .executed result receipt)
  | verify {id v : PyStr} {p i : Bool} {evidence : PyVal}
      (hs : row.state = .verified ∨ row.state = .verificationFailed) :
      Replays row (.verify id v p evidence i)
  | publish {id : PyStr} {publication : PyVal} (hs : row.state = .published) :
      Replays row (.publish id publication)
  | acknowledge {id : PyStr} {acknowledgement : PyVal} (hs : row.state = .acknowledged) :
      Replays row (.acknowledge id acknowledgement)

/-- The calls that raise after their `UPDATE`, and the move that then stays
pending. -/
inductive Aborts (H : Host) (row : EffectRow) : Call → Move → Prop
  | fail {c : EffectClaim} {error : PyVal} {n : Bool} (hid : c.effectId = row.effectId.str)
      (hc : claimIdentity row c = true)
      (he : ∃ e, dumps error = .error e) :
      Aborts H row (.markExecutionFailure c error n) (.failed n)
  | publish {id : PyStr} {publication : PyVal} (hid : id = row.effectId.str)
      (hu : Unhashable H publication) :
      Aborts H row (.publish id publication) .published
  | acknowledge {id : PyStr} {acknowledgement : PyVal}
      (hid : id = row.effectId.str) (hu : Unhashable H acknowledgement) :
      Aborts H row (.acknowledge id acknowledgement) .acknowledged

/-- The arguments get through the serialisation the operation puts them
through: what it stores is written by `json`, what it hashes also encodes. -/
def Call.Serialises (H : Host) : Call → Prop
  | .submit r _ => ∃ sha, r.sha256 H = .ok sha
  | .authorize _ a => ∃ doc, dumps a.constraints = .ok doc
  | .recordExecution _ _ r p =>
    (∃ sha, canonicalSha256 H r = .ok sha) ∧ ∃ doc, dumps p = .ok doc
  | .markExecutionFailure _ error _ => ∃ doc, dumps error = .ok doc
  | .verify _ _ _ evidence _ => ∃ doc, dumps evidence = .ok doc
  | .publish _ p => ∃ sha, canonicalSha256 H p = .ok sha
  | .acknowledge _ a => ∃ sha, canonicalSha256 H a = .ok sha
  | .reconcileExecution _ _ _ r p =>
    (∃ sha, canonicalSha256 H r = .ok sha) ∧ ∃ doc, dumps p = .ok doc
  | _ => True

variable {row : EffectRow} {w' : World} {id : PyStr}

theorem Call.Serialises.not_aborts {H : Host} {call : Call}
    {mv : Move} (h : call.Serialises H) : ¬ Aborts H row call mv := by
  intro ha
  cases ha with
  | fail _ _ he =>
    obtain ⟨doc, hd⟩ := h
    obtain ⟨e, he⟩ := he
    rw [hd] at he
    cases he
  | publish _ hu =>
    obtain ⟨sha, hs⟩ := h
    obtain ⟨_, e, he⟩ := hu
    rw [hs] at he
    cases he
  | acknowledge _ hu =>
    obtain ⟨sha, hs⟩ := h
    obtain ⟨_, e, he⟩ := hu
    rw [hs] at he
    cases he

-- == runs

def Call.isClaim : Call → Bool
  | .claim _ _ => true
  | _ => false

/-- How a call ends, and the disk it leaves. -/
inductive Ran (H : Host) (w : World) : Call → Except LedgerError Reply → World → Prop
  /-- it raised before it wrote -/
  | raised {call : Call} {e : LedgerError} {w' : World} (hdisk : w'.disk = w.disk)
      (hclaim : ∀ worker lease, call = .claim worker lease →
        isBlank worker = true ∨ lease < 1) : Ran H w call (.error e) w'
  /-- its work was already done -/
  | replayed {call : Call} {row : EffectRow} {w' : World}
      (hrow : (w.view 0).effect? row.effectId = some row)
      (hr : Replays row call) (hdisk : w'.disk = w.disk) :
      Ran H w call (.ok (.state row.state)) w'
  /-- it rolled back, and raised -/
  | dropped {call : Call} {e : LedgerError} {w' : World} (hdisk : w'.disk = ⟨w.disk.file, none⟩)
      (hclaim : call.isClaim = false) :
      Ran H w call (.error e) w'
  /-- it rolled back, and found its key taken -/
  | repeated {request : EffectRequest} {n : Int} {id : Text} {w' : World}
      (hdisk : w'.disk = ⟨w.disk.file, none⟩) :
      Ran H w (.submit request n) (.ok (.submitted id false)) w'
  /-- it rolled back, and found its work done on file -/
  | rereplayed {call : Call} {row : EffectRow} {w' : World}
      (hrow : w.disk.file.effect? row.effectId = some row)
      (hr : Replays row call) (hdisk : w'.disk = ⟨w.disk.file, none⟩) :
      Ran H w call (.ok (.state row.state)) w'
  | submitted {request : EffectRequest} {n : Int} {row : EffectRow} {db : Db}
      {w' : World} (hf : Fresh row) (hs : Submitted H row (w.view 0) db)
      (hdisk : w'.disk = ⟨db, none⟩) :
      Ran H w (.submit request n) (.ok (.submitted row.effectId true)) w'
  /-- it made its move and committed -/
  | moved {call : Call} {row : EffectRow} {reply : Reply} {mv : Move} {db : Db}
      {w' : World} (hrow : (w.view 0).effect? row.effectId = some row)
      (hd : Does H w row call reply mv)
      (hm : Moved H row.effectId mv (w.view 0) db)
      (hdisk : w'.disk = ⟨db, none⟩) : Ran H w call (.ok reply) w'
  /-- it rolled back, and recorded an execution on file -/
  | reported {call : Call} {row : EffectRow} {token : PyStr} {db : Db}
      {w' : World} (hrow : w.disk.file.effect? row.effectId = some row)
      (hr : Reports row call token)
      (hm : Moved H row.effectId (.recorded token) w.disk.file db)
      (hdisk : w'.disk = ⟨db, none⟩) : Ran H w call (.ok (.state .executed)) w'
  /-- it raised between its `UPDATE` and the history row -/
  | aborted {call : Call} {row : EffectRow} {mv : Move} {e : LedgerError} {db : Db} {w' : World}
      (hrow : (w.view 0).effect? row.effectId = some row)
      (ha : Aborts H row call mv)
      (ht : Touched H row.effectId mv (w.view 0) db)
      (hdisk : w'.disk = ⟨w.disk.file, some (0, db)⟩) :
      Ran H w call (.error e) w'
  | swept {now : Option DateTime} {n : Nat} {db : Db} {w' : World}
      (hs : Swept H (w.view 0) db) (hdisk : w'.disk = ⟨db, none⟩) :
      Ran H w (.recoverExpiredClaims now) (.ok (.recovered n)) w'
  /-- it found nothing to claim -/
  | unclaimed {worker : PyStr} {lease : Int} {db : Db} {w' : World}
      (hs : Swept H (w.view 0) db) (hdisk : w'.disk = ⟨db, none⟩) :
      Ran H w (.claim worker lease) (.ok (.claimed none)) w'
  | claimed {worker : PyStr} {lease : Int} {row : EffectRow} {mv : Move}
      {r : Option EffectClaim} {db₁ db : Db} {w' : World}
      (hs : Swept H (w.view 0) db₁)
      (hrow : db₁.effect? row.effectId = some row)
      (hc : Claims H row worker w.draws mv r)
      (hm : Moved H row.effectId mv db₁ db) (hdisk : w'.disk = ⟨db, none⟩) :
      Ran H w (.claim worker lease) (.ok (.claimed r)) w'
  /-- it recovered the lapsed claims, took the lock, and raised -/
  | stalled {worker : PyStr} {lease : Int} {e : LedgerError} {db : Db}
      {w' : World} (hb : isBlank worker = false) (hl : 1 ≤ lease)
      (hs : Swept H (w.view 0) db)
      (hn : db = w.view 0 ↔ lapsedRows (H.clock w.ticks) (w.view 0) = [])
      (hdisk : w'.disk = ⟨db, some (0, db)⟩) :
      Ran H w (.claim worker lease) (.error e) w'

variable {H : Host} {w : World} {α : Type} {call : Call} {f : α → Reply}

/-- The outcome of an operation is one of its call, its value wrapped as the
reply. -/
def Ended (H : Host) (w : World) (call : Call) (f : α → Reply)
    (res : Except LedgerError α × World) : Prop :=
  Ran H w call (res.1.map f) res.2

theorem Ran.raised_of (hcall : call.isClaim = false) {e : LedgerError}
    (hdisk : w'.disk = w.disk) : Ran H w call (.error e) w' := by
  refine .raised hdisk fun worker lease h => ?_
  rw [h] at hcall
  cases hcall

theorem Ended.refused (hcall : call.isClaim = false) (e : LedgerError) :
    Ended H w call f ((Prog.raise e : LProg α).run w) :=
  .raised_of hcall rfl

theorem Ended.read (hcall : call.isClaim = false) {k : EffectRow → LProg α}
    (h : ∀ row, id = row.effectId.str → (w.view 0).effect? row.effectId = some row →
      Ended H w call f ((k row).run w)) :
    Ended H w call f ((Prog.block .read (rowLocked 0 id) >>= k).run w) := by
  have hread := rowLocked_apply 0 id w
  cases hres : (rowLocked 0 id w).1 with
  | error e =>
    rw [hres] at hread
    rw [Prog.run_bind_error (by rw [Prog.run_block, hread])]
    exact .raised_of hcall rfl
  | ok row =>
    rw [hres] at hread
    rw [Prog.run_bind_ok (by rw [Prog.run_block, hread])]
    obtain ⟨hid, hrow⟩ := rowLocked_ok hres
    exact h row hid.symm hrow

theorem Ended.wrote (hcall : call.isClaim = false)
    (hrow : (w.view 0).effect? row.effectId = some row) {w₁ : World}
    (hw₁ : w₁.disk = w.disk) {Did : Move → α → Prop} {Gave : Move → Prop}
    {l : Access} {m : LBlock α} (h : Wrote H 0 row w₁ Did Gave (m w₁))
    (hdid : ∀ mv a, Did mv a → Does H w row call (f a) mv)
    (hgave : ∀ mv, Gave mv → Aborts H row call mv) :
    Ended H w call f ((Prog.block l m : LProg α).run w₁) := by
  have hview : w₁.view 0 = w.view 0 := by
    unfold World.view
    rw [hw₁]
  rw [Prog.run_block]
  generalize m w₁ = res at h
  cases h with
  | moved hd hm hdisk =>
    rw [hview] at hm
    exact .moved hrow (hdid _ _ hd) hm hdisk
  | aborted hg ht hdisk =>
    rw [hview] at ht
    rw [hw₁] at hdisk
    exact .aborted hrow (hgave _ hg) ht hdisk
  | raised hdisk => exact .raised_of hcall (hdisk.trans hw₁)

/-- What `_claimed_row_locked` lets through: a claimed row, by its claimant,
under a lease running at the reading it takes. -/
theorem claimedRowLocked_spec (c : EffectClaim) {r : Except LedgerError EffectRow}
    (h : claimedRowLocked H 0 c w = (r, w')) : w'.disk = w.disk ∧ w'.draws = w.draws
      ∧ ∀ row, r = .ok row → c.effectId = row.effectId.str
        ∧ (w.view 0).effect? row.effectId = some row ∧ row.state = .claimed
        ∧ claimIdentity row c = true
        ∧ ∃ lease, row.claimUntil = some lease ∧ H.clock w.ticks < lease := by
  unfold claimedRowLocked at h
  have hread := rowLocked_apply 0 c.effectId w
  cases hres : (rowLocked 0 c.effectId w).1 with
  | error e =>
    rw [hres] at hread
    rw [Block.bind_error hread] at h
    cases h
    exact ⟨rfl, rfl, fun _ h => by cases h⟩
  | ok row =>
    rw [hres] at hread
    rw [Block.bind_ok hread] at h
    obtain ⟨hid, hrow⟩ := rowLocked_ok hres
    split at h
    · cases h
      exact ⟨rfl, rfl, fun _ h => by cases h⟩
    · next hs =>
      split at h
      · cases h
        exact ⟨rfl, rfl, fun _ h => by cases h⟩
      · next hc =>
        cases hlease : row.claimUntil with
        | none =>
          rw [hlease] at h
          cases h
          exact ⟨rfl, rfl, fun _ h => by cases h⟩
        | some lease =>
          rw [hlease] at h
          change (readClock H >>= _) w = _ at h
          rw [readClock_bind] at h
          split at h
          · cases h
            exact ⟨rfl, rfl, fun _ h => by cases h⟩
          · next hlt =>
            cases h
            refine ⟨rfl, rfl, fun row' hrow' => ?_⟩
            cases hrow'
            exact ⟨hid.symm, hrow, not_not.mp hs, not_not.mp hc, lease, hlease, Int.not_le.mp hlt⟩

theorem reported_of_recorded {token : PyStr} {result receipt : PyVal}
    {t d : Nat} {res : Except LedgerError EffectState × World}
    (h : Ended H ⟨⟨w.disk.file, none⟩, t, d⟩
      (.recordExecution id token result receipt) .state res) :
    Ended H w (.reconcileExecution id token .executed result receipt) .state res := by
  obtain ⟨r, w'⟩ := res
  unfold Ended at h ⊢
  simp only at h ⊢
  generalize hr : r.map Reply.state = reply at h ⊢
  cases h with
  | raised hdisk _ => exact .dropped hdisk rfl
  | replayed hrow hrep hdisk =>
    cases hrep with
    | record hid hs ht =>
      exact .rereplayed hrow (.reconcile hid hs ht) hdisk
  | dropped hdisk _ => exact .dropped hdisk rfl
  | rereplayed hrow hrep hdisk =>
    cases hrep with
    | record hid hs ht =>
      exact .rereplayed hrow (.reconcile hid hs ht) hdisk
  | moved hrow hd hm hdisk =>
    cases hd with
    | recorded hid => exact .reported hrow (.mk hid) hm hdisk
  | reported hrow hrep hm hdisk => cases hrep
  | aborted hrow ha _ _ => cases ha

-- == operations

section Operations

variable (how : w.disk.OwnedBy 0)

include how

theorem authorize_ended (id : PyStr) (a : EffectAuthorization) :
    Ended H w (.authorize id a) .state ((authorize H 0 id a).run w) := by
  unfold authorize
  refine Ended.read rfl fun row hid hrow => ?_
  split
  · next hs =>
    split
    · exact Ended.refused rfl _
    · split
      · exact .replayed hrow (.authorize hs) rfl
      · exact Ended.refused rfl _
  · split
    · exact Ended.refused rfl _
    · next hs =>
      refine Ended.wrote rfl hrow rfl (authorizeRow_wrote how hrow (not_not.mp hs) a) ?_ ?_
      · rintro mv s (⟨rfl, rfl⟩ | ⟨rfl, rfl⟩)
        · exact .authorized hid
        · exact .denied hid
      · exact fun _ h => h.elim

theorem beginExecution_ended (c : EffectClaim) (p k o : PyStr) :
    Ended H w (.beginExecution c p k o) .token ((beginExecution H 0 c p k o).run w) := by
  unfold beginExecution
  split
  · exact Ended.refused rfl _
  · cases hres : claimedRowLocked H 0 c w with
    | mk r w₁ =>
      obtain ⟨hdisk, hdraws, hok⟩ := claimedRowLocked_spec c hres
      cases r with
      | error e =>
        rw [Prog.run_bind_error (by rw [Prog.run_block, hres])]
        exact .raised_of rfl hdisk
      | ok row =>
        rw [Prog.run_bind_ok (by rw [Prog.run_block, hres])]
        obtain ⟨hid, hrow, hs, hc, lease, hl, hn⟩ := hok row rfl
        have how₁ : w₁.disk.OwnedBy 0 := by rw [hdisk]; exact how
        have hrow₁ : (w₁.view 0).effect? row.effectId = some row := by
          unfold World.view
          rw [hdisk]
          exact hrow
        refine Ended.wrote rfl hrow hdisk (beginRow_wrote how₁ hrow₁ hs hl hn p k o) ?_ ?_
        · rintro mv token ⟨rfl, rfl⟩
          rw [hdraws]
          exact .began hid hc
        · exact fun _ h => h.elim

theorem recordExecution_ended (id token : PyStr) (result receipt : PyVal) :
    Ended H w (.recordExecution id token result receipt) .state
      ((recordExecution H 0 id token result receipt).run w) := by
  unfold recordExecution
  refine Ended.read rfl fun row hid hrow => ?_
  split
  · next hs =>
    split
    · next ht => exact .replayed hrow (.record hid hs ht) rfl
    · exact Ended.refused rfl _
  · split
    · exact Ended.refused rfl _
    · next hs =>
      split
      · exact Ended.refused rfl _
      · next ht =>
        refine Ended.wrote rfl hrow rfl (recordRow_wrote how hrow ?_
          (not_not.mp ht) result receipt) ?_ ?_
        · unfold EffectState.isOpen
          by_contra hopen
          exact hs (not_or.mp hopen)
        · rintro mv s ⟨rfl, rfl⟩
          exact .recorded hid
        · exact fun _ h => h.elim

theorem markExecutionFailure_ended (c : EffectClaim) (error : PyVal) (n : Bool) :
    Ended H w (.markExecutionFailure c error n) .state
      ((markExecutionFailure H 0 c error n).run w) := by
  unfold markExecutionFailure
  refine Ended.read rfl fun row hid hrow => ?_
  split
  · exact Ended.refused rfl _
  · next hc =>
    split
    · exact Ended.refused rfl _
    · next hs =>
      refine Ended.wrote rfl hrow rfl (failRow_wrote how hrow ?_ error n) ?_ ?_
      · by_contra hnone
        exact hs (not_or.mp hnone)
      · rintro mv s ⟨rfl, rfl, hd⟩
        exact .failed hid (not_not.mp hc) hd
      · rintro mv ⟨rfl, he⟩
        exact .fail hid (not_not.mp hc) he

theorem verify_ended (id v : PyStr) (passed : Bool) (evidence : PyVal) (independent : Bool) :
    Ended H w (.verify id v passed evidence independent) .state
      ((verify H 0 id v passed evidence independent).run w) := by
  unfold verify
  split
  · exact Ended.refused rfl _
  · refine Ended.read rfl fun row hid hrow => ?_
    split
    · next hs =>
      split
      · exact Ended.refused rfl _
      · split
        · exact .replayed hrow (.verify hs) rfl
        · exact Ended.refused rfl _
    · split
      · exact Ended.refused rfl _
      · next hs =>
        split
        · exact Ended.refused rfl _
        · next execution hr =>
          refine Ended.wrote rfl hrow rfl (verifyRow_wrote how hrow
            (not_not.mp hs) hr v passed evidence independent) ?_ ?_
          · rintro mv s (⟨rfl, rfl, rfl, rfl⟩ | ⟨hp, rfl, rfl⟩)
            · exact .passed hid
            · exact .rejected hid hp
          · exact fun _ h => h.elim

theorem publish_ended (id : PyStr) (publication : PyVal) :
    Ended H w (.publish id publication) .state ((publish H 0 id publication).run w) := by
  unfold publish
  refine Ended.read rfl fun row hid hrow => ?_
  split
  · next hs =>
    split
    · exact Ended.refused rfl _
    · split
      · exact .replayed hrow (.publish hs) rfl
      · exact Ended.refused rfl _
  · split
    · exact Ended.refused rfl _
    · next hs =>
      refine Ended.wrote rfl hrow rfl (publishRow_wrote how hrow (not_not.mp hs) publication) ?_ ?_
      · rintro mv s ⟨rfl, rfl⟩
        exact .published hid
      · rintro mv ⟨rfl, hu⟩
        exact .publish hid hu

theorem acknowledge_ended (id : PyStr) (acknowledgement : PyVal) :
    Ended H w (.acknowledge id acknowledgement) .state
      ((acknowledge H 0 id acknowledgement).run w) := by
  unfold acknowledge
  refine Ended.read rfl fun row hid hrow => ?_
  split
  · next hs =>
    split
    · exact Ended.refused rfl _
    · split
      · exact .replayed hrow (.acknowledge hs) rfl
      · exact Ended.refused rfl _
  · split
    · exact Ended.refused rfl _
    · next hs =>
      refine Ended.wrote rfl hrow rfl
        (acknowledgeRow_wrote how hrow (not_not.mp hs) acknowledgement) ?_ ?_
      · rintro mv s ⟨rfl, rfl⟩
        exact .acknowledged hid
      · rintro mv ⟨rfl, hu⟩
        exact .acknowledge hid hu

theorem reconcileExecution_ended (id token : PyStr) (status : ProviderStatus)
    (result receipt : PyVal) : Ended H w (.reconcileExecution id token status result receipt) .state
      ((reconcileExecution H 0 id token status result receipt).run w) := by
  unfold reconcileExecution
  split
  · exact Ended.refused rfl _
  · next hother =>
    refine Ended.read rfl fun row hid hrow => ?_
    split
    · exact Ended.refused rfl _
    · next hs =>
      have hopen : row.state.isOpen := by
        unfold EffectState.isOpen
        by_contra hopen
        exact hs (not_or.mp hopen)
      split
      · exact Ended.refused rfl _
      · next ht =>
        split
        · next hu =>
          subst hu
          refine Ended.wrote rfl hrow rfl (unknownRow_wrote how hrow hopen (not_not.mp ht)) ?_ ?_
          · rintro mv s ⟨rfl, rfl⟩
            exact .unknown hid
          · exact fun _ h => h.elim
        · split
          · next he =>
            subst he
            split
            · exact Ended.refused rfl _
            · rw [Prog.run_bind_ok (by
                rw [Prog.run_block, rollback_apply how])]
              exact reported_of_recorded (recordExecution_ended
                (Disk.ownedBy_mk_none _ _) id token result receipt)
          · next hu he =>
            have hn : status = .notExecuted := by
              cases status with
              | notExecuted => rfl
              | executed => exact absurd rfl he
              | unknown => exact absurd rfl hu
              | other s => exact (hother s rfl).elim
            subst hn
            refine Ended.wrote rfl hrow rfl
              (notExecutedRow_wrote how hrow hopen (not_not.mp ht)) ?_ ?_
            · rintro mv s ⟨rfl, rfl⟩
              exact .notExecuted hid
            · exact fun _ h => h.elim

omit how in
/-- `recover_expired_claims` with nobody in between: it compares with its
argument, or with the reading it takes. -/
theorem recoverExpiredClaims_run (now : Option DateTime) : (recoverExpiredClaims H 0 now).run w
      = recoverWrite H 0 (now.getD (.aware (H.clock w.ticks)))
          (leasedRows (w.view 0)) { w with ticks := w.ticks + 1 } := by
  have hread : (Prog.block .read (recoverRead H 0 now) : LProg _).run w
      = (.ok (now.getD (.aware (H.clock w.ticks)), leasedRows (w.view 0)),
        { w with ticks := w.ticks + 1 }) := rfl
  unfold recoverExpiredClaims
  rw [Prog.run_bind_ok hread]
  exact Prog.run_block _ _ _

theorem recoverExpiredClaims_ended (now : Option DateTime) :
    Ended H w (.recoverExpiredClaims now) .recovered ((recoverExpiredClaims H 0 now).run w) := by
  rw [recoverExpiredClaims_run]
  cases now.getD (.aware (H.clock w.ticks)) with
  | naive t =>
    have hrows : ∀ r ∈ leasedRows (w.view 0), Leased r :=
      fun r hr => (leased_of_mem hr).2
    rcases recoverWrite_naive (H := H) (w := { w with ticks := w.ticks + 1 }) how t _ hrows
      with ⟨e, hrun⟩ | hrun
    · rw [hrun]
      exact .raised_of rfl rfl
    · rw [hrun]
      exact .swept .refl rfl
  | aware t =>
    obtain ⟨w', hrun, hdisk, hswept, _, _⟩ := recoverWrite_aware (H := H)
      (w := { w with ticks := w.ticks + 1 }) how t
    have hrun : recoverWrite H 0 (.aware t) (leasedRows (w.view 0))
      { w with ticks := w.ticks + 1 } = _ := hrun
    rw [hrun]
    exact .swept hswept hdisk

theorem submit_ended (request : EffectRequest) (n : Int) :
    Ended H w (.submit request n) (fun r => .submitted r.1 r.2) ((submit H 0 request n).run w) := by
  unfold submit
  split
  · exact Ended.refused rfl _
  · split
    · exact Ended.refused rfl _
    · split
      · exact Ended.refused rfl _
      · next hn =>
        split
        · exact Ended.refused rfl _
        · have hwrote := submitRow_wrote (H := H) how request (show 1 ≤ n.toNat by omega)
          cases hres : submitRow H 0 request n.toNat w with
          | mk r w₁ =>
            rw [hres] at hwrote
            cases hwrote with
            | raised hdisk =>
              rw [Prog.run_bind_error (by rw [Prog.run_block, hres])]
              exact .raised_of rfl hdisk
            | inserted hf hs hdisk =>
              rw [Prog.run_bind_ok (by rw [Prog.run_block, hres])]
              exact .submitted hf hs hdisk
            | refused hdisk =>
              rw [Prog.run_bind_ok (by rw [Prog.run_block, hres])]
              simp only [Prog.run_block]
              have hkept := submittedBefore_disk (H := H) 0 request w₁
              generalize submittedBefore H 0 request w₁ = res at hkept ⊢
              obtain ⟨r, w₂⟩ := res
              obtain ⟨hdisk₂, hfalse⟩ := hkept
              cases r with
              | error e => exact .dropped (hdisk₂.trans hdisk) rfl
              | ok found =>
                obtain ⟨id, created⟩ := found
                cases hfalse id created rfl
                exact .repeated (hdisk₂.trans hdisk)

theorem claim_ended (worker : PyStr) (lease : Int) : Ended H w (.claim worker lease) .claimed
      ((claim H 0 worker lease).run w) := by
  unfold claim
  split
  · next hb => exact .raised rfl fun _ _ h => by cases h; exact Or.inl hb
  · next hb =>
    split
    · next hl => exact .raised rfl fun _ _ h => by cases h; exact Or.inr hl
    · next hl =>
      obtain ⟨w₁, hrun, hdisk, hswept, hn, hdraws⟩ := recoverWrite_aware
        (H := H) (w := { w with ticks := w.ticks + 1 }) how (H.clock w.ticks)
      have hrec : (recoverExpiredClaims H 0 none).run w = (.ok _, w₁) :=
        (recoverExpiredClaims_run none).trans hrun
      rw [Prog.run_bind_ok hrec, Prog.run_block]
      have hwrote : ClaimWrote H 0 worker w₁ (w₁.view 0)
          (claimRow H 0 worker lease w₁) := claimRow_wrote hdisk worker lease
      generalize claimRow H 0 worker lease w₁ = res at hwrote ⊢
      cases hwrote with
      | nothing hdisk' => exact .unclaimed hswept hdisk'
      | moved hfind hc hm hdisk' =>
        rw [hdraws] at hc
        exact .claimed hswept hfind hc hm hdisk'
      | raised hdisk' =>
        exact .stalled (Bool.eq_false_iff.mpr hb) (Int.not_lt.mp hl) hswept hn hdisk'

end Operations

theorem step_ran (how : w.disk.OwnedBy 0) (call : Call) :
    Ran H w call (step H call w).1 (step H call w).2 := by
  unfold step
  cases call with
  | submit r n =>
    simp only [Call.prog, Prog.run_map]
    exact submit_ended how r n
  | authorize id a =>
    simp only [Call.prog, Prog.run_map]
    exact authorize_ended how id a
  | claim worker lease =>
    simp only [Call.prog, Prog.run_map]
    exact claim_ended how worker lease
  | beginExecution c p k o =>
    simp only [Call.prog, Prog.run_map]
    exact beginExecution_ended how c p k o
  | recordExecution id t r p =>
    simp only [Call.prog, Prog.run_map]
    exact recordExecution_ended how id t r p
  | markExecutionFailure c e n =>
    simp only [Call.prog, Prog.run_map]
    exact markExecutionFailure_ended how c e n
  | verify id v p e i =>
    simp only [Call.prog, Prog.run_map]
    exact verify_ended how id v p e i
  | publish id p =>
    simp only [Call.prog, Prog.run_map]
    exact publish_ended how id p
  | acknowledge id a =>
    simp only [Call.prog, Prog.run_map]
    exact acknowledge_ended how id a
  | reconcileExecution id t s r p =>
    simp only [Call.prog, Prog.run_map]
    exact reconcileExecution_ended how id t s r p
  | recoverExpiredClaims now =>
    simp only [Call.prog, Prog.run_map]
    exact recoverExpiredClaims_ended how now

variable {r : Except LedgerError Reply} {w' : World} {I : Db → Prop} {db : Db} {calls : List Call}

theorem Ran.ownedBy (h : Ran H w call r w') (how : w.disk.OwnedBy 0) : w'.disk.OwnedBy 0 := by
  cases h with
  | raised hdisk _ => rw [hdisk]; exact how
  | replayed _ _ hdisk => rw [hdisk]; exact how
  | dropped hdisk _ => rw [hdisk]; exact Disk.ownedBy_mk_none _ _
  | repeated hdisk => rw [hdisk]; exact Disk.ownedBy_mk_none _ _
  | rereplayed _ _ hdisk => rw [hdisk]; exact Disk.ownedBy_mk_none _ _
  | submitted _ _ hdisk => rw [hdisk]; exact Disk.ownedBy_mk_none _ _
  | moved _ _ _ hdisk => rw [hdisk]; exact Disk.ownedBy_mk_none _ _
  | reported _ _ _ hdisk => rw [hdisk]; exact Disk.ownedBy_mk_none _ _
  | aborted _ _ _ hdisk => rw [hdisk]; exact Disk.ownedBy_mk_some _ _ _
  | swept _ hdisk => rw [hdisk]; exact Disk.ownedBy_mk_none _ _
  | unclaimed _ hdisk => rw [hdisk]; exact Disk.ownedBy_mk_none _ _
  | claimed _ _ _ _ hdisk => rw [hdisk]; exact Disk.ownedBy_mk_none _ _
  | stalled _ _ _ _ hdisk => rw [hdisk]; exact Disk.ownedBy_mk_some _ _ _

-- == images

/-- The answers of a call that made no move. -/
inductive Idle : Call → Except LedgerError Reply → Prop
  | error {call : Call} {e : LedgerError} : Idle call (.error e)
  | replay {call : Call} {row : EffectRow} (hr : Replays row call) :
      Idle call (.ok (.state row.state))
  | repeated {request : EffectRequest} {n : Int} {id : Text} :
      Idle (.submit request n) (.ok (.submitted id false))

/-- What a call did to one image. -/
inductive Work (H : Host) (w : World) : Call → Except LedgerError Reply → Db → Db → Prop
  | kept {call : Call} {r : Except LedgerError Reply} {db : Db}
      (hi : Idle call r) : Work H w call r db db
  | submitted {request : EffectRequest} {n : Int} {row : EffectRow}
      {db db' : Db} (hf : Fresh row) (hs : Submitted H row db db') :
      Work H w (.submit request n) (.ok (.submitted row.effectId true)) db db'
  | moved {call : Call} {row : EffectRow} {reply : Reply} {mv : Move}
      {db db' : Db} (hview : db = w.view 0)
      (hrow : db.effect? row.effectId = some row)
      (hd : Does H w row call reply mv)
      (hm : Moved H row.effectId mv db db') : Work H w call (.ok reply) db db'
  | reported {call : Call} {row : EffectRow} {token : PyStr} {db db' : Db}
      (hrow : db.effect? row.effectId = some row)
      (hr : Reports row call token)
      (hm : Moved H row.effectId (.recorded token) db db') :
      Work H w call (.ok (.state .executed)) db db'
  | aborted {call : Call} {row : EffectRow} {mv : Move} {e : LedgerError}
      {db db' : Db} (hview : db = w.view 0)
      (hrow : db.effect? row.effectId = some row)
      (ha : Aborts H row call mv) (ht : Touched H row.effectId mv db db') :
      Work H w call (.error e) db db'
  | swept {now : Option DateTime} {n : Nat} {db db' : Db} (hs : Swept H db db') :
      Work H w (.recoverExpiredClaims now) (.ok (.recovered n)) db db'
  | unclaimed {worker : PyStr} {lease : Int} {r : Except LedgerError Reply}
      {db db' : Db} (hr : ∀ c, r ≠ .ok (.claimed (some c)))
      (hs : Swept H db db') : Work H w (.claim worker lease) r db db'
  | claimed {worker : PyStr} {lease : Int} {row : EffectRow} {mv : Move}
      {r : Option EffectClaim} {db db₁ db' : Db} (hview : db = w.view 0)
      (hs : Swept H db db₁) (hrow : db₁.effect? row.effectId = some row)
      (hc : Claims H row worker w.draws mv r)
      (hm : Moved H row.effectId mv db₁ db') :
      Work H w (.claim worker lease) (.ok (.claimed r)) db db'

/-- What submissions and moves keep, and what aborted moves keep, the work of
every call keeps. -/
theorem Work.keeps {db' : Db} (h : Work H w call r db db')
    (hsubmit : ∀ row db db', Fresh row → Submitted H row db db' → I db → I db')
    (hmove : ∀ id mv db db', Moved H id mv db db' → I db → I db')
    (habort : ∀ row mv db db', Aborts H row call mv →
      Touched H row.effectId mv db db' → I db → I db') (hi : I db) : I db' := by
  have hsweep : ∀ {db db'}, Swept H db db' → I db → I db' := fun hs hi =>
    hs.induction (fun id mv db db' _ hm => hmove id mv db db' hm) hi
  cases h with
  | kept _ => exact hi
  | submitted hf hs => exact hsubmit _ _ _ hf hs hi
  | moved _ _ _ hm => exact hmove _ _ _ _ hm hi
  | reported _ _ hm => exact hmove _ _ _ _ hm hi
  | aborted _ _ ha ht => exact habort _ _ _ _ ha ht hi
  | swept hs => exact hsweep hs hi
  | unclaimed _ hs => exact hsweep hs hi
  | claimed _ hs _ _ hm => exact hmove _ _ _ _ hm (hsweep hs hi)

/-- Every image after a call is one from before it with the call's work done,
so what the work establishes holds of every image after. -/
theorem Ran.every (h : Ran H w call r w') {I' : Db → Prop} (hI : w.disk.Every I)
    (hwork : ∀ db db', Work H w call r db db' → I db → I' db') : w'.disk.Every I' := by
  have hkept : Idle call r → w.disk.Every I' := fun hi =>
    ⟨hwork _ _ (.kept hi) hI.file, fun c db hdb => hwork _ _ (.kept hi) (hI.tx c db hdb)⟩
  cases h with
  | raised hdisk _ =>
    rw [hdisk]
    exact hkept .error
  | replayed hrow hr hdisk =>
    rw [hdisk]
    exact hkept (.replay hr)
  | dropped hdisk _ =>
    rw [hdisk]
    exact Disk.every_mk_none (hkept .error).file
  | repeated hdisk =>
    rw [hdisk]
    exact Disk.every_mk_none (hkept .repeated).file
  | rereplayed hrow hr hdisk =>
    rw [hdisk]
    exact Disk.every_mk_none (hkept (.replay hr)).file
  | submitted hf hs hdisk =>
    rw [hdisk]
    exact Disk.every_mk_none (hwork _ _ (.submitted hf hs) (hI.view 0))
  | moved hrow hd hm hdisk =>
    rw [hdisk]
    exact Disk.every_mk_none (hwork _ _ (.moved rfl hrow hd hm) (hI.view 0))
  | reported hrow hr hm hdisk =>
    rw [hdisk]
    exact Disk.every_mk_none (hwork _ _ (.reported hrow hr hm) hI.file)
  | aborted hrow ha ht hdisk =>
    rw [hdisk]
    exact Disk.every_mk_some (hkept .error).file (hwork _ _ (.aborted rfl hrow ha ht) (hI.view 0))
  | swept hs hdisk =>
    rw [hdisk]
    exact Disk.every_mk_none (hwork _ _ (.swept hs) (hI.view 0))
  | unclaimed hs hdisk =>
    rw [hdisk]
    exact Disk.every_mk_none (hwork _ _ (.unclaimed nofun hs) (hI.view 0))
  | claimed hs hrow hc hm hdisk =>
    rw [hdisk]
    exact Disk.every_mk_none (hwork _ _ (.claimed rfl hs hrow hc hm) (hI.view 0))
  | stalled _ _ hs _ hdisk =>
    rw [hdisk]
    have hI' := hwork _ _ (.unclaimed nofun hs) (hI.view 0)
    exact Disk.every_mk_some hI' hI'

-- == settled

/-- Nothing is pending: what the ledger reads is what is on file. -/
def Settled (w : World) : Prop := w.view 0 = w.disk.file

theorem settled_of_none {w : World} (h : w.disk = ⟨db, none⟩) : Settled w := by
  unfold Settled World.view
  rw [h]
  rfl

/-- A call that leaves nothing pending does its work on what the ledger
reads. -/
theorem Ran.settled
    (h : Ran H w call r w') (ha : ∀ row mv, ¬ Aborts H row call mv) (hs : Settled w) :
    Work H w call r (w.view 0) (w'.view 0) ∧ Settled w' := by
  have hview : ∀ {db : Db}, w'.disk = ⟨db, none⟩ → w'.view 0 = db := by
    intro db hdisk
    unfold World.view
    rw [hdisk]
    rfl
  have hsame : w'.disk = w.disk → w'.view 0 = w.view 0 ∧ Settled w' := by
    intro hdisk
    unfold Settled World.view at hs ⊢
    rw [hdisk]
    exact ⟨rfl, hs⟩
  have hfile : w'.disk = ⟨w.disk.file, none⟩ → w'.view 0 = w.view 0 :=
    fun hdisk => (hview hdisk).trans hs.symm
  cases h with
  | raised hdisk _ =>
    rw [(hsame hdisk).1]
    exact ⟨.kept .error, (hsame hdisk).2⟩
  | replayed hrow hr hdisk =>
    rw [(hsame hdisk).1]
    exact ⟨.kept (.replay hr), (hsame hdisk).2⟩
  | dropped hdisk _ =>
    rw [hfile hdisk]
    exact ⟨.kept .error, settled_of_none hdisk⟩
  | repeated hdisk =>
    rw [hfile hdisk]
    exact ⟨.kept .repeated, settled_of_none hdisk⟩
  | rereplayed hrow hr hdisk =>
    rw [hfile hdisk]
    exact ⟨.kept (.replay hr), settled_of_none hdisk⟩
  | submitted hf hsub hdisk =>
    rw [hview hdisk]
    exact ⟨.submitted hf hsub, settled_of_none hdisk⟩
  | moved hrow hd hm hdisk =>
    rw [hview hdisk]
    exact ⟨.moved rfl hrow hd hm, settled_of_none hdisk⟩
  | reported hrow hr hm hdisk =>
    rw [hview hdisk, hs]
    exact ⟨.reported hrow hr hm, settled_of_none hdisk⟩
  | aborted _ hab _ _ => exact (ha _ _ hab).elim
  | swept hsw hdisk =>
    rw [hview hdisk]
    exact ⟨.swept hsw, settled_of_none hdisk⟩
  | unclaimed hsw hdisk =>
    rw [hview hdisk]
    exact ⟨.unclaimed nofun hsw, settled_of_none hdisk⟩
  | claimed hsw hrow hc hm hdisk =>
    rw [hview hdisk]
    exact ⟨.claimed rfl hsw hrow hc hm, settled_of_none hdisk⟩
  | stalled _ _ hsw _ hdisk =>
    have hpending : w'.view 0 = w'.disk.file := by
      unfold World.view
      rw [hdisk]
      exact Disk.view_mk_some _ _ _
    refine ⟨?_, hpending⟩
    rw [hpending, hdisk]
    exact .unclaimed nofun hsw

-- == runs

abbrev Step := Machine.Entry Call (Except LedgerError Reply) World

/-- The world after a list of calls on a new ledger. -/
def run (H : Host) (calls : List Call) : World :=
  Machine.exec (step H) calls World.init

/-- The record of a list of calls on a new ledger. -/
def trace (H : Host) (calls : List Call) : List Step :=
  Machine.trace (step H) calls World.init

theorem trace_serialises (hc : ∀ call ∈ calls, call.Serialises H) :
    ∀ e ∈ trace H calls, e.input.Serialises H := fun e he =>
  hc e.input (Machine.input_mem_of_mem_trace (step H) he)

theorem mem_trace_concat (calls : List Call) (call : Call) :
    Machine.entry (step H) call (run H calls) ∈ trace H (calls ++ [call]) := by
  unfold trace run
  rw [Machine.trace_concat]
  exact List.mem_append_right _ (List.mem_singleton_self _)

theorem forall_trace_concat {P : Step → Prop} (calls : List Call)
    (call : Call) (h : ∀ e ∈ trace H calls, P e)
    (hlast : P (Machine.entry (step H) call (run H calls))) :
    ∀ e ∈ trace H (calls ++ [call]), P e := by
  unfold trace run at *
  rw [Machine.trace_concat]
  intro e he
  rcases List.mem_append.mp he with he | he
  · exact h e he
  · rw [List.mem_singleton.mp he]
    exact hlast

theorem run_ownedBy (calls : List Call) : (run H calls).disk.OwnedBy 0 :=
  Machine.invariant (step H) (C := fun _ => True)
    (I := fun w => w.disk.OwnedBy 0) World.init (Disk.ownedBy_mk_none _ _)
    (fun e hv _ how => by
      have hran := step_ran how e.input (H := H)
      rw [show step H e.input e.before = (e.output, e.after) from hv] at hran
      exact hran.ownedBy how)
    calls fun _ _ => trivial

/-- The rule for runs: a property of an image, given what has been recorded
so far, holds of every image after every run if every call's work keeps it. -/
theorem run_every {C : Step → Prop} {I : List Step → Db → Prop} (hinit : I [] Db.empty)
    (hstep : ∀ past e, C e → ∀ db db', Work H e.before e.input e.output db db' → I past db →
      I (past ++ [e]) db') (calls : List Call) (hC : ∀ e ∈ trace H calls, C e) :
    (run H calls).disk.Every (I (trace H calls)) := by
  have hrun := Machine.history_invariant (step H) (C := C)
    (I := fun past w => w.disk.OwnedBy 0 ∧ w.disk.Every (I past))
    World.init ⟨Disk.ownedBy_mk_none _ _, Disk.every_mk_none hinit⟩
    (fun past e hv hc hI => by
      have hran := step_ran hI.1 e.input (H := H)
      rw [show step H e.input e.before = (e.output, e.after) from hv] at hran
      exact ⟨hran.ownedBy hI.1, hran.every hI.2 fun db db' hw hdb =>
        hstep past e hc db db' hw hdb⟩)
    calls hC
  exact hrun.2

theorem run_append (calls more : List Call) :
    run H (calls ++ more) = Machine.exec (step H) more (run H calls) :=
  Machine.exec_append _ _ _ _

theorem run_settled (calls : List Call)
    (hc : ∀ call ∈ calls, call.Serialises H) : Settled (run H calls) := by
  have hrun := Machine.invariant (step H) (C := fun e : Step => e.input.Serialises H)
    (I := fun w => w.disk.OwnedBy 0 ∧ Settled w)
    World.init ⟨Disk.ownedBy_mk_none _ _, rfl⟩
    (fun e hv hser hI => by
      have hran := step_ran hI.1 e.input (H := H)
      rw [show step H e.input e.before = (e.output, e.after) from hv] at hran
      exact ⟨hran.ownedBy hI.1, (hran.settled (fun _ _ => hser.not_aborts) hI.2).2⟩)
    calls (trace_serialises hc)
  exact hrun.2

/-- The rule for what a run leaves behind once it is there: a relation to an
earlier image that the work of every call keeps. -/
theorem run_kept {K : Db → Db → Prop} (hrefl : ∀ db, K db db)
    (hstep : ∀ e : Step, e.input.Serialises H → ∀ db₀ db db',
      Work H e.before e.input e.output db db' → K db₀ db → K db₀ db')
    (calls more : List Call) (hc : ∀ call ∈ calls ++ more, call.Serialises H) :
    K ((run H calls).view 0) ((run H (calls ++ more)).view 0) := by
  have hfirst : ∀ call ∈ calls, call.Serialises H := fun call h =>
    hc call (List.mem_append_left _ h)
  rw [run_append]
  have hrun := Machine.invariant (step H) (C := fun e : Step => e.input.Serialises H)
    (I := fun w => w.disk.OwnedBy 0 ∧ Settled w ∧ K ((run H calls).view 0) (w.view 0))
    (run H calls) ⟨run_ownedBy calls, run_settled calls hfirst, hrefl _⟩
    (fun e hv hser hI => by
      have hran := step_ran hI.1 e.input (H := H)
      rw [show step H e.input e.before = (e.output, e.after) from hv] at hran
      obtain ⟨hwork, hsettled⟩ :=
        hran.settled (fun _ _ => hser.not_aborts) hI.2.1
      exact ⟨hran.ownedBy hI.1, hsettled, hstep e hser _ _ _ hwork hI.2.2⟩)
    more
    (fun e he => hc e.input (List.mem_append_right _ (Machine.input_mem_of_mem_trace (step H) he)))
  exact hrun.2.2

/-- An entry of a run is the step taken where the entries before it end, and
those are a run of their own. -/
theorem trace_cut {pre post : List Step} {e : Step} (h : trace H calls = pre ++ e :: post) :
    ∃ before, pre = trace H before ∧ e.before = run H before
      ∧ Ran H e.before e.input e.output e.after := by
  obtain ⟨before, call, after, _, hpre, rfl, _⟩ := Machine.trace_split _ h
  exact ⟨before, hpre, rfl, step_ran (run_ownedBy before) call⟩

theorem Sample.finished_serialises : ∀ call ∈ Sample.finished, call.Serialises Sample.host := by
  have hresult : ∃ sha, canonicalSha256 Sample.host Sample.result = .ok sha :=
    exists_ok (by decide +kernel)
  intro call hcall
  simp only [Sample.finished, Sample.started, List.cons_append,
    List.nil_append, List.mem_cons, List.not_mem_nil, or_false] at hcall
  rcases hcall with rfl | rfl | rfl | rfl | rfl | rfl | rfl | rfl
  · exact exists_ok (by decide +kernel)
  · exact ⟨_, rfl⟩
  · trivial
  · trivial
  · exact ⟨hresult, exists_ok (by decide +kernel)⟩
  · exact exists_ok (by decide +kernel)
  · exact hresult
  · exact hresult

end Centinal26.Effects
