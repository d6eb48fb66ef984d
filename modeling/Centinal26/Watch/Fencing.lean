/-
Deliveries, claimed and settled by many workers.
-/
import Centinal26.Lib.Since
import Centinal26.Watch.Ledger

namespace Centinal26.Watch

open Py Steps

variable {τ : Type} {H : Host} {F : Floats τ}

-- == what happened

/-- The observation enqueues the notification of a target. -/
def notifies (key : Text) (e : Step τ) : Bool :=
  match e.output with
  | .ok (.observed d) => d.notify && decide (d.key = key)
  | _ => false

def claim? (e : Step τ) : Option (Claim τ) :=
  match e.output with
  | .ok (.claimed c) => c
  | _ => none

def claims (id : Text) (e : Step τ) : Bool :=
  (claim? e).any fun c => decide (c.deliveryId = id)

/-- The worker and the attempt of the last claim of a delivery. -/
def lastClaim (past : List (Step τ)) (id : PyStr) : Option (PyStr × Int) :=
  ((past.filterMap claim?).filter fun c => decide (c.deliveryId.str = id)).getLast?.map
    fun c => (c.owner.str, c.attempt)

/-- The delivery, the worker and the attempt `acknowledge_delivery` or `fail_delivery`
is called with. -/
def Op.settles : Op τ → Option (PyStr × PyStr × Int)
  | .acknowledge id worker attempt _ => some (strip id, strip worker, attempt)
  | .fail id worker _ attempt _ _ => some (strip id, strip worker, attempt)
  | _ => none

def Op.acknowledges : Op τ → Option PyStr
  | .acknowledge id _ _ _ => some (strip id)
  | _ => none

/-- The delivery an acknowledgement is about, when it returns true. -/
def acknowledged? (e : Step τ) : Option (Delivery τ) :=
  match e.input.acknowledges, e.output with
  | some id, .ok (.done true) => e.before.outbox.rows.find? fun d => decide (d.id.str = id)
  | _, _ => none

/-- A delivery of the target is acknowledged. -/
def acknowledges (key : Text) (e : Step τ) : Bool :=
  (acknowledged? e).any fun d => decide (d.key = key)

def Status.isFinal : Status → Bool
  | .delivered => true
  | .failedTerminal => true
  | _ => false

-- == the outbox

/-- New rows, for targets that had none; they are not leased. -/
structure Grown (db db' : Db τ) : Prop where
  kept : ∀ id d, db.outbox.find? id = some d → db'.outbox.find? id = some d
  new : ∀ id d, db'.outbox.find? id = some d → db.outbox.find? id = some d
    ∨ d.status ≠ .delivering ∧ ∀ r ∈ db.outbox.rows, r.key ≠ d.key
  unique : (db.outbox.rows.map Delivery.key).Nodup → (db'.outbox.rows.map Delivery.key).Nodup

variable {db db' : Db τ} {d : Delivery τ} {key id : Text} {op : Op τ} {e : Step τ}
  {past : List (Step τ)}

theorem Grown.of_eq (h : db'.outbox = db.outbox) : Grown db db' :=
  ⟨fun id d hd => by rw [h, hd], fun id d hd => Or.inl (by rw [← h, hd]), by
    rw [h]
    exact id⟩

variable {r : Delivery τ} {now : τ} {worker : PyStr} {attempt : Int}
  {out : Except PyErr (Reply τ) × Db τ}

theorem Grown.mem (h : Grown db db') (hr : r ∈ db.outbox.rows) : r ∈ db'.outbox.rows :=
  Table.mem_of_find? (h.kept r.id r (Table.find?_of_mem hr))

theorem Grown.trans {a b c : Db τ} (h : Grown a b) (h' : Grown b c) : Grown a c where
  kept id d hd := h'.kept id d (h.kept id d hd)
  new id d hd := by
    rcases h'.new id d hd with hb | ⟨hs, hnew⟩
    · exact h.new id d hb
    · exact Or.inr ⟨hs, fun r hr => hnew r (h.mem hr)⟩
  unique hu := h'.unique (h.unique hu)

/-- What an enqueue does: nothing if the target has a row; and if the identifier is
free, the new row. -/
inductive Enqueued (d : Delivery τ) (db : Db τ) : Bool × Db τ → Prop
  | ignored (h : (∃ r ∈ db.outbox.rows, r.key = d.key)
      ∨ ∃ r, db.outbox.find? d.id = some r) : Enqueued d db (false, db)
  | inserted {outbox : Table (Delivery.id (τ := τ))} (hnew : ∀ r ∈ db.outbox.rows, r.key ≠ d.key)
      (hins : db.outbox.insert? d = some outbox) :
      Enqueued d db (true, { db with outbox := outbox })

theorem enqueue_spec (d : Delivery τ) (db : Db τ) : Enqueued d db (db.enqueue d) := by
  unfold Db.enqueue
  split
  · next h =>
    obtain ⟨r, hr, hkey⟩ := List.any_eq_true.mp h
    exact .ignored (Or.inl ⟨r, hr, of_decide_eq_true hkey⟩)
  · next h =>
    split
    · next hins => exact .ignored (Or.inr (Table.exists_of_insert_none hins))
    · next outbox hins =>
      refine .inserted (fun r hr hkey => h ?_) hins
      exact List.any_eq_true.mpr ⟨r, hr, decide_eq_true hkey⟩

theorem enqueue_grown (hd : d.status ≠ .delivering) (db : Db τ) : Grown db (db.enqueue d).2 := by
  have hspec := enqueue_spec d db
  generalize db.enqueue d = out at hspec ⊢
  cases hspec with
  | ignored _ => exact .of_eq rfl
  | @inserted outbox hnew hins =>
    refine ⟨fun id r hr => ?_, fun id r hr => ?_, fun hu => ?_⟩
    · show outbox.find? id = some r
      rw [Table.find?_insert hins]
      split
      · next hid =>
        rw [hid, Table.find?_of_insert hins] at hr
        cases hr
      · exact hr
    · replace hr : outbox.find? id = some r := hr
      rw [Table.find?_insert hins] at hr
      split at hr
      · cases hr
        exact Or.inr ⟨hd, hnew⟩
      · exact Or.inl hr
    · show (outbox.rows.map Delivery.key).Nodup
      rw [Table.rows_insert hins, List.map_append, List.nodup_append]
      refine ⟨hu, by simp, ?_⟩
      intro k hk k' hk'
      obtain ⟨r, hr, rfl⟩ := List.mem_map.mp hk
      rw [List.map_singleton, List.mem_singleton] at hk'
      subst hk'
      exact hnew r hr

theorem enqueue_notified (h : (db.enqueue d).1 = true) :
    (∀ r ∈ db.outbox.rows, r.key ≠ d.key) ∧ d ∈ (db.enqueue d).2.outbox.rows := by
  have hspec := enqueue_spec d db
  generalize db.enqueue d = out at hspec h ⊢
  cases hspec with
  | ignored _ => cases h
  | @inserted outbox hnew hins =>
    refine ⟨hnew, ?_⟩
    show d ∈ outbox.rows
    rw [Table.rows_insert hins]
    exact List.mem_append_right _ (List.mem_singleton_self _)

theorem migrateRow_grown (db : Db τ) (t : Target τ) : Grown db (migrateRow H db t) := by
  unfold migrateRow
  split
  · exact (enqueue_grown (by exact nofun) db).trans (.of_eq rfl)
  · exact .of_eq rfl

theorem migrate_grown (db : Db τ) : Grown db (migrate H db) := by
  unfold migrate
  generalize db.targets.rows.filter Target.isLegacy = rows
  induction rows generalizing db with
  | nil => exact .of_eq rfl
  | cons t rows ih => exact (migrateRow_grown db t).trans (ih _)

/-- One row is rewritten: the delivery and the target stay what they are. -/
structure Rewritten (d d' : Delivery τ) (db db' : Db τ) : Prop where
  found : db.outbox.find? d.id = some d
  id_eq : d'.id = d.id
  key_eq : d'.key = d.key
  terminal_eq : d'.terminalState = d.terminalState
  find : ∀ id, db'.outbox.find? id = if id = d.id then some d' else db.outbox.find? id
  keys : db'.outbox.rows.map Delivery.key = db.outbox.rows.map Delivery.key

theorem setDelivery_rewritten (f : Delivery τ → Delivery τ)
    (h : db.outbox.find? d.id = some d) (hid : ∀ r, (f r).id = r.id)
    (hkey : ∀ r, (f r).key = r.key) (hterm : ∀ r, (f r).terminalState = r.terminalState)
    {g : Target τ → Target τ} {hg : ∀ t, (g t).key = t.key} :
    Rewritten d (f d) db ((db.setDelivery d.id f hid).setTarget key g hg) where
  found := h
  id_eq := hid d
  key_eq := hkey d
  terminal_eq := hterm d
  find id := by
    show (db.outbox.modify d.id f hid).find? id = _
    rw [Table.find?_modify, h, Option.map_some]
  keys := by
    show (db.outbox.rows.map fun r => if r.id = d.id then f r else r).map Delivery.key = _
    rw [List.map_map]
    refine List.map_congr_left fun r _ => ?_
    simp only [Function.comp_apply]
    split
    · exact hkey r
    · rfl

-- == operations

theorem clean_ok {s t : PyStr} {name : String} (h : clean s name = .ok t) : t = strip s := by
  unfold clean at h
  split at h
  · cases h
  · cases h
    rfl

/-- What an operation does to the outbox (module header). -/
inductive Turned (op : Op τ) (db : Db τ) : Except PyErr (Reply τ) × Db τ → Prop
  | refused (e : PyErr) : Turned op db (.error e, db)
  | idle {r : Reply τ} (hobserved : ∀ d, r ≠ .observed d) (hclaim : ∀ c, r ≠ .claimed (some c))
      (hdone : r ≠ .done true) : Turned op db (.ok r, db)
  | opened {db' : Db τ} (hop : op.settles = none) (h : Grown db db') : Turned op db (.ok .unit, db')
  | observed {d : Decision} {db' : Db τ} (hop : op.settles = none) (h : Grown db db')
      (hnotify : d.notify = true → (∀ r ∈ db.outbox.rows, r.key ≠ d.key)
        ∧ ∃ r ∈ db'.outbox.rows, r.key = d.key) : Turned op db (.ok (.observed d), db')
  | claimed {d d' : Delivery τ} {c : Claim τ} {db' : Db τ} (hop : op.settles = none)
      (h : Rewritten d d' db db') (hstatus : d.status = .pending ∨ d.status = .delivering)
      (hid : c.deliveryId = d.id)
      (hdelivering : d'.status = .delivering) (howner : d'.leaseOwner = some c.owner)
      (hattempt : d'.attempts = c.attempt) : Turned op db (.ok (.claimed (some c)), db')
  | settled {d d' : Delivery τ} {worker : PyStr} {attempt : Int} {db' : Db τ}
      (h : Rewritten d d' db db') (hstatus : d.status = .delivering)
      (hleft : d'.status ≠ .delivering)
      (hop : op.settles = some (d.id.str, worker, attempt))
      (howner : d.leaseOwner.map Text.str = some worker) (hattempt : d.attempts = attempt)
      (hack : op.acknowledges.isSome = true → d'.status = .delivered) :
      Turned op db (.ok (.done true), db')
  | resolved {d d' : Delivery τ} {db' : Db τ} (hop : op.settles = none) (h : Rewritten d d' db db')
      (hstatus : d.status = .legacyUncertain) (hleft : d'.status ≠ .delivering) :
      Turned op db (.ok .unit, db')

theorem enqueueTerminal_ok {t : Target τ} {state : Text} {mid : Db τ}
    {dec : Decision} (h : enqueueTerminal H t state now db = .ok (dec, mid)) :
    ∃ d, (db.enqueue (.fresh H t.key (t.firstTerminal.getD state) .pending now)).2.outbox.find?
        (deliveryId H t.key) = some d
      ∧ dec = ⟨t.key, state, true,
        (db.enqueue (.fresh H t.key (t.firstTerminal.getD state) .pending now)).1,
        some (t.firstTerminal.getD state), t.count, some d.id, some d.status⟩
      ∧ mid = (db.enqueue (.fresh H t.key (t.firstTerminal.getD state) .pending now)).2.put { t with
          firstTerminal := some (t.firstTerminal.getD state)
          enqueuedAt := some (t.enqueuedAt.getD d.createdAt)
          deliveryState := some d.status } := by
  unfold enqueueTerminal at h
  dsimp only at h
  split at h
  · cases h
  · next d hd =>
    cases h
    exact ⟨d, hd, rfl, rfl⟩

inductive Observed (H : Host) (F : Floats τ) (key : PyStr) (db : Db τ) : Decision → Db τ → Prop
  | passing {k state : Text} {now : τ} {d : Decision} (hkey : k.str = strip key)
      (hd : d = ⟨k, state, false, false, (db.observed k state false now).firstTerminal,
        (db.observed k state false now).count, none, none⟩) :
      Observed H F key db d ((db.put (db.observed k state false now)).remember
        ⟨k, state, false, false, now, none⟩)
  | terminal {k state : Text} {now : τ} {d : Decision} {mid : Db τ} (hkey : k.str = strip key)
      (h : enqueueTerminal H (db.observed k state true now) state now
        (db.put (db.observed k state true now)) = .ok (d, mid)) :
      Observed H F key db d (mid.remember ⟨k, state, true, d.notify, now, d.deliveryId⟩)

theorem observe_ok {key state : PyStr} {terminals : List PyStr}
    {d : Decision} (h : observe H F key state terminals now db = .ok (d, db')) :
    Observed H F key db d db' := by
  obtain ⟨k, hk, h⟩ := of_bind_ok h
  obtain ⟨st, hst, h⟩ := of_bind_ok h
  obtain ⟨ts, hts, h⟩ := of_bind_ok h
  split at h
  · cases h
  · obtain ⟨k', hk', h⟩ := of_bind_ok h
    obtain ⟨st', hst', h⟩ := of_bind_ok h
    obtain ⟨time, htime, h⟩ := of_bind_ok h
    have hkey : k'.str = strip key := by rw [encode_eq_ok.mp hk', clean_ok hk]
    dsimp only at h
    split at h
    · next hterm =>
      obtain ⟨out, hout, h⟩ := of_bind_ok h
      cases h
      rw [decide_eq_true hterm] at hout
      exact .terminal hkey hout
    · next hterm =>
      cases h
      simp only [decide_eq_false hterm]
      exact .passing hkey rfl

theorem observed_key (db : Db τ) (k state : Text) (terminal : Bool) (now : τ) :
    (db.observed k state terminal now).key = k := by
  unfold Db.observed
  split
  · rfl
  · next t ht =>
    have hkey := Table.key_of_find? ht
    exact hkey

theorem Observed.turned {key : PyStr} {d : Decision}
    (hop : op.settles = none) (h : Observed H F key db d db') :
    Turned op db (.ok (.observed d), db') := by
  cases h with
  | passing hkey hd =>
    refine .observed hop (.of_eq rfl) fun hn => ?_
    rw [hd] at hn
    cases hn
  | @terminal k state now d mid hkey h =>
    obtain ⟨row, hrow, hd, hmid⟩ := enqueueTerminal_ok h
    have hput : Grown db (db.put (db.observed k state true now)) := .of_eq rfl
    refine .observed hop (hput.trans
      ((enqueue_grown (show Status.pending ≠ .delivering by decide) _).trans
        (.of_eq (by rw [hmid]; rfl)))) fun hn => ?_
    rw [hd] at hn ⊢
    obtain ⟨hnew, hmem⟩ := enqueue_notified hn
    exact ⟨hnew, _, by rw [hmid]; exact hmem, rfl⟩

theorem requireLease_ok {u : Unit} (h : requireLease d worker attempt = .ok u) :
    d.status = .delivering ∧ d.leaseOwner.map Text.str = some worker ∧ d.attempts = attempt := by
  unfold requireLease at h
  split at h
  · cases h
  · next hstatus =>
    split at h
    · cases h
    · next howner =>
      split at h
      · cases h
      · next hattempt =>
        exact ⟨not_not.mp hstatus, not_not.mp howner, not_not.mp hattempt⟩

theorem failStatus_ne (retryable : Bool) : failStatus retryable ≠ .delivering := by
  cases retryable <;> decide

theorem legacyStatus_ne (delivered : Bool) : legacyStatus delivered ≠ .delivering := by
  cases delivered <;> decide

theorem found_id (h : db.outbox.find? id = some d) : d.id = id ∧ db.outbox.find? d.id = some d := by
  have hid := Table.key_of_find? h
  exact ⟨hid, by rw [hid]; exact h⟩

theorem perform_turned (op : Op τ) (db : Db τ) : Turned op db (perform H F op db) := by
  unfold perform
  rcases Tx.commit_cases (op.tx H F) db with ⟨r, db', h, hcommit⟩ | ⟨e, -, hcommit⟩
  · rw [hcommit]
    cases op with
    | openLedger =>
      cases h
      exact .opened rfl (migrate_grown db)
    | observe key state terminals now =>
      obtain ⟨⟨d, mid⟩, hobs, heq⟩ := of_bind_ok h
      cases heq
      exact (observe_ok hobs).turned rfl
    | claim worker lease now key =>
      obtain ⟨⟨c, mid⟩, hclaim, heq⟩ := of_bind_ok h
      cases heq
      obtain ⟨w, -, hclaim⟩ := of_bind_ok hclaim
      split at hclaim
      · cases hclaim
      · obtain ⟨k, -, hclaim⟩ := of_bind_ok hclaim
        obtain ⟨text, -, hclaim⟩ := of_bind_ok hclaim
        split at hclaim
        · cases hclaim
          exact .idle nofun nofun nofun
        · next d hmin =>
          obtain ⟨owner, -, hclaim⟩ := of_bind_ok hclaim
          obtain ⟨time, -, hclaim⟩ := of_bind_ok hclaim
          cases hclaim
          have hp := (Bool.and_eq_true_iff.mp (Table.minBy?_spec hmin).2).1
          refine .claimed rfl (setDelivery_rewritten
            (fun r => r.claimed owner (F.column (F.add now lease)) time)
            (Table.find?_minBy? hmin) (fun _ => rfl) (fun _ => rfl) fun _ => rfl)
            ?_ rfl rfl rfl rfl
          rcases Bool.or_eq_true_iff.mp hp with hp | hp
          · exact Or.inl (of_decide_eq_true hp)
          · exact Or.inr (of_decide_eq_true (Bool.and_eq_true_iff.mp hp).1)
    | acknowledge id worker attempt now =>
      obtain ⟨⟨b, mid⟩, hack, heq⟩ := of_bind_ok h
      cases heq
      obtain ⟨cid, hcid, hack⟩ := of_bind_ok hack
      obtain ⟨w, hw, hack⟩ := of_bind_ok hack
      obtain ⟨-, -, hack⟩ := of_bind_ok hack
      obtain ⟨text, htext, hack⟩ := of_bind_ok hack
      split at hack
      · cases hack
      · next d hfind =>
        split at hack
        · cases hack
          exact .idle nofun nofun nofun
        · obtain ⟨_, hlease, hack⟩ := of_bind_ok hack
          obtain ⟨time, -, hack⟩ := of_bind_ok hack
          cases hack
          obtain ⟨hstatus, howner, hattempt⟩ := requireLease_ok hlease
          obtain ⟨hid, hfind⟩ := found_id hfind
          refine .settled (setDelivery_rewritten (fun r => r.acknowledged time) hfind
            (fun _ => rfl) (fun _ => rfl) fun _ => rfl) hstatus nofun ?_
            howner hattempt
            fun _ => rfl
          rw [hid, encode_eq_ok.mp htext, clean_ok hcid, clean_ok hw]
          rfl
    | fail id worker error attempt retryable now =>
      obtain ⟨⟨b, mid⟩, hfail, heq⟩ := of_bind_ok h
      cases heq
      obtain ⟨cid, hcid, hfail⟩ := of_bind_ok hfail
      obtain ⟨w, hw, hfail⟩ := of_bind_ok hfail
      obtain ⟨-, -, hfail⟩ := of_bind_ok hfail
      obtain ⟨message, -, hfail⟩ := of_bind_ok hfail
      obtain ⟨text, htext, hfail⟩ := of_bind_ok hfail
      split at hfail
      · cases hfail
      · next d hfind =>
        split at hfail
        · cases hfail
          exact .idle nofun nofun nofun
        · obtain ⟨_, hlease, hfail⟩ := of_bind_ok hfail
          obtain ⟨err, -, hfail⟩ := of_bind_ok hfail
          obtain ⟨time, -, hfail⟩ := of_bind_ok hfail
          cases hfail
          obtain ⟨hstatus, howner, hattempt⟩ := requireLease_ok hlease
          obtain ⟨hid, hfind⟩ := found_id hfind
          refine .settled (setDelivery_rewritten
            (fun r => r.failed (failStatus retryable) err time) hfind
            (fun _ => rfl) (fun _ => rfl) fun _ => rfl) hstatus (failStatus_ne retryable) ?_
            howner hattempt
            nofun
          rw [hid, encode_eq_ok.mp htext, clean_ok hcid, clean_ok hw]
          rfl
    | resolve id delivered now =>
      obtain ⟨⟨u, mid⟩, hres, heq⟩ := of_bind_ok h
      cases heq
      obtain ⟨cid, -, hres⟩ := of_bind_ok hres
      obtain ⟨text, -, hres⟩ := of_bind_ok hres
      split at hres
      · cases hres
      · next d hfind =>
        split at hres
        · cases hres
        · next hstatus =>
          obtain ⟨time, -, hres⟩ := of_bind_ok hres
          cases hres
          exact .resolved rfl (setDelivery_rewritten (fun r => r.resolved (legacyStatus delivered)
              (if delivered then some time else none) time) (found_id hfind).2
              (fun _ => rfl) (fun _ => rfl) fun _ => rfl) (not_not.mp hstatus)
            (legacyStatus_ne delivered)
  · rw [hcommit]
    exact .refused e

-- == runs

def HasDelivery (db : Db τ) (key : Text) : Prop := ∃ r ∈ db.outbox.rows, r.key = key

/-- What holds of a run (module header). -/
structure RunOk (past : List (Step τ)) (db : Db τ) : Prop where
  unique : (db.outbox.rows.map Delivery.key).Nodup
  notified : ∀ key, past.countP (notifies key) = 0
    ∨ past.countP (notifies key) = 1 ∧ HasDelivery db key
  acknowledged : ∀ key, past.countP (acknowledges key) = 0 ∨ past.countP (acknowledges key) = 1
      ∧ ∃ r ∈ db.outbox.rows, r.key = key ∧ r.status = .delivered
  leased : ∀ id d, db.outbox.find? id = some d → d.status = .delivering →
    ∃ owner, d.leaseOwner = some owner ∧ lastClaim past id.str = some (owner.str, d.attempts)
  settled : ∀ pre e post, past = pre ++ e :: post → ∀ id worker attempt,
    e.input.settles = some (id, worker, attempt) →
    e.after = e.before ∨ lastClaim pre id = some (worker, attempt)

theorem lastClaim_concat (past : List (Step τ)) (e : Step τ) (id : PyStr) :
    lastClaim (past ++ [e]) id = match claim? e with
      | some c => if c.deliveryId.str = id then some (c.owner.str, c.attempt)
          else lastClaim past id
      | none => lastClaim past id := by
  unfold lastClaim
  rw [List.filterMap_append]
  cases hc : claim? e with
  | none => simp [hc]
  | some c =>
    rw [List.filterMap_cons_some hc, List.filterMap_nil, List.filter_append]
    dsimp only
    split
    · next h => simp [h]
    · next h => simp [h]

theorem unique_row (h : (db.outbox.rows.map Delivery.key).Nodup)
    {r' : Delivery τ} (hr : r ∈ db.outbox.rows) (hr' : r' ∈ db.outbox.rows)
    (hkey : r.key = r'.key) : r = r' :=
  List.inj_on_of_nodup_map h hr hr' hkey

/-- What a step does to the rows of a target. -/
structure Frame (db db' : Db τ) : Prop where
  unique : (db.outbox.rows.map Delivery.key).Nodup → (db'.outbox.rows.map Delivery.key).Nodup
  has : ∀ key, HasDelivery db key → HasDelivery db' key
  delivered : ∀ id d, db.outbox.find? id = some d → d.status.isFinal = true →
    db'.outbox.find? id = some d

theorem Grown.frame (h : Grown db db') : Frame db db' where
  unique := h.unique
  has := fun _ ⟨r, hr, hkey⟩ => ⟨r, h.mem hr, hkey⟩
  delivered id d hd _ := h.kept id d hd

theorem Rewritten.frame {d' : Delivery τ} (h : Rewritten d d' db db')
    (hfinal : d.status.isFinal = false) : Frame db db' where
  unique hu := by rw [h.keys]; exact hu
  has key := fun ⟨r, hr, hkey⟩ => by
    have hmem : r.key ∈ db'.outbox.rows.map Delivery.key := by
      rw [h.keys]
      exact List.mem_map_of_mem hr
    obtain ⟨r', hr', hkey'⟩ := List.mem_map.mp hmem
    exact ⟨r', hr', hkey'.trans hkey⟩
  delivered id r hr hstatus := by
    rw [h.find]
    split
    · next hid =>
      rw [hid, h.found] at hr
      cases hr
      rw [hfinal] at hstatus
      cases hstatus
    · exact hr

theorem Frame.refl (db : Db τ) : Frame db db := ⟨id, fun _ => id, fun _ _ h _ => h⟩

theorem Turned.frame (h : Turned op db out) : Frame db out.2 := by
  cases h with
  | refused e => exact .refl db
  | idle _ _ _ => exact .refl db
  | opened _ h => exact h.frame
  | observed _ h _ => exact h.frame
  | claimed _ h hstatus _ _ _ _ =>
    refine h.frame ?_
    rcases hstatus with hs | hs <;> rw [hs] <;> rfl
  | settled h hstatus _ _ _ _ _ => exact h.frame (by rw [hstatus]; rfl)
  | resolved _ h hstatus _ => exact h.frame (by rw [hstatus]; rfl)

theorem Turned.final (h : Turned op db out) (hd : db.outbox.find? id = some d)
    (hfinal : d.status.isFinal = true) :
    out.2.outbox.find? id = some d ∧ ∀ c, out.1 = .ok (.claimed (some c)) → c.deliveryId ≠ id := by
  refine ⟨h.frame.delivered id d hd hfinal, ?_⟩
  cases h with
  | refused e => exact fun _ hc => by cases hc
  | idle _ hclaim _ => exact fun c hc => absurd (Except.ok.inj hc) (hclaim c)
  | opened _ _ => exact fun _ hc => by cases hc
  | observed _ _ _ => exact fun _ hc => by cases hc
  | @claimed d₁ d₂ c db' _ h hstatus hid _ _ _ =>
    intro c' hc hsame
    cases hc
    rw [← hsame, hid, h.found] at hd
    cases hd
    rcases hstatus with hs | hs <;> rw [hs] at hfinal <;> cases hfinal
  | settled _ _ _ _ _ _ _ => exact fun _ hc => by cases hc
  | resolved _ _ _ _ => exact fun _ hc => by cases hc

theorem Turned.notified (h : Turned e.input e.before (e.output, e.after))
    (hn : notifies key e = true) :
    ¬ HasDelivery e.before key ∧ HasDelivery e.after key := by
  obtain ⟨op, db, r, db'⟩ := e
  replace h : Turned op db (r, db') := h
  unfold notifies at hn
  cases h with
  | observed _ _ hnotify =>
    obtain ⟨hnotified, hkey⟩ := Bool.and_eq_true_iff.mp hn
    obtain ⟨hnone, hsome⟩ := hnotify hnotified
    rw [← of_decide_eq_true hkey]
    exact ⟨fun ⟨r, hr, hk⟩ => hnone r hr hk, hsome⟩
  | refused _ => cases hn
  | @idle r hobs _ _ =>
    cases r with
    | observed d => exact absurd rfl (hobs d)
    | _ => cases hn
  | opened _ _ => cases hn
  | claimed _ _ _ _ _ _ _ => cases hn
  | settled _ _ _ _ _ _ _ => cases hn
  | resolved _ _ _ _ => cases hn

theorem Turned.acknowledged (h : Turned e.input e.before (e.output, e.after))
    (ha : acknowledges key e = true) :
    ∃ d d', Rewritten d d' e.before e.after ∧ d.key = key ∧ d.status = .delivering
      ∧ d'.status = .delivered := by
  obtain ⟨op, db, r, db'⟩ := e
  replace h : Turned op db (r, db') := h
  obtain ⟨d, hd, hkey⟩ : ∃ d, acknowledged? (⟨op, db, r, db'⟩ : Step τ) = some d
      ∧ decide (d.key = key) = true := by
    unfold acknowledges at ha
    cases hd : acknowledged? (⟨op, db, r, db'⟩ : Step τ) with
    | none =>
      rw [hd] at ha
      cases ha
    | some d =>
      rw [hd] at ha
      exact ⟨d, rfl, ha⟩
  unfold acknowledged? at hd
  dsimp only at hd
  split at hd
  · next id hack =>
    cases h with
    | idle _ _ hdone => exact absurd rfl hdone
    | @settled d₁ d₂ worker attempt db' hrew hstatus _ hop howner hattempt hdelivered =>
      refine ⟨d₁, d₂, hrew, ?_, hstatus, hdelivered (by rw [hack]; rfl)⟩
      have hid : d.id.str = id := by
        have := List.find?_some hd
        exact of_decide_eq_true this
      have hsame : d₁.id.str = id := by
        cases op with
        | acknowledge _ _ _ _ =>
          cases hack
          exact (Prod.mk.inj (Option.some.inj hop)).1.symm
        | _ => cases hack
      have hmem := List.mem_of_find?_eq_some hd
      have hfound := Table.find?_of_mem hmem
      rw [Text.ext (hid.trans hsame.symm), hrew.found] at hfound
      cases hfound
      exact of_decide_eq_true hkey
  · cases hd

theorem Turned.leased (h : Turned e.input e.before (e.output, e.after))
    (hold : ∀ id d, e.before.outbox.find? id = some d → d.status = .delivering →
      ∃ owner, d.leaseOwner = some owner ∧ lastClaim past id.str = some (owner.str, d.attempts))
    (hd : e.after.outbox.find? id = some d)
    (hstatus : d.status = .delivering) : ∃ owner, d.leaseOwner = some owner
      ∧ lastClaim (past ++ [e]) id.str = some (owner.str, d.attempts) := by
  obtain ⟨op, db, r, db'⟩ := e
  replace h : Turned op db (r, db') := h
  replace hd : db'.outbox.find? id = some d := hd
  rw [lastClaim_concat]
  cases h with
  | refused _ => exact hold id d hd hstatus
  | @idle r _ hclaim _ =>
    have hnone : claim? (⟨op, db, .ok r, db⟩ : Step τ) = none := by
      unfold claim?
      cases r with
      | claimed c =>
        cases c with
        | none => rfl
        | some c => exact absurd rfl (hclaim c)
      | _ => rfl
    rw [hnone]
    exact hold id d hd hstatus
  | opened _ h =>
    rcases h.new id d hd with hd | ⟨hne, -⟩
    · exact hold id d hd hstatus
    · exact absurd hstatus hne
  | observed _ h _ =>
    rcases h.new id d hd with hd | ⟨hne, -⟩
    · exact hold id d hd hstatus
    · exact absurd hstatus hne
  | @claimed d₁ d₂ c db' _ h _ hid _ howner hattempt =>
    show ∃ owner, d.leaseOwner = some owner
      ∧ (if c.deliveryId.str = id.str then some (c.owner.str, c.attempt)
        else lastClaim past id.str) = some (owner.str, d.attempts)
    rw [h.find] at hd
    split at hd
    · next hsame =>
      cases hd
      rw [hid, hsame, if_pos rfl]
      exact ⟨c.owner, howner, by rw [hattempt]⟩
    · next hne =>
      rw [if_neg fun hsame => hne ((Text.ext hsame).symm.trans hid)]
      exact hold id d hd hstatus
  | settled h _ hleft _ _ _ _ =>
    rw [h.find] at hd
    split at hd
    · cases hd
      exact absurd hstatus hleft
    · exact hold id d hd hstatus
  | resolved _ h _ hleft =>
    rw [h.find] at hd
    split at hd
    · cases hd
      exact absurd hstatus hleft
    · exact hold id d hd hstatus

theorem Turned.settled_by (h : Turned e.input e.before (e.output, e.after))
    (hold : ∀ id d, e.before.outbox.find? id = some d → d.status = .delivering →
      ∃ owner, d.leaseOwner = some owner ∧ lastClaim past id.str = some (owner.str, d.attempts))
    {id : PyStr} (hsettles : e.input.settles = some (id, worker, attempt)) :
    e.after = e.before ∨ lastClaim past id = some (worker, attempt) := by
  obtain ⟨op, db, r, db'⟩ := e
  replace h : Turned op db (r, db') := h
  replace hsettles : op.settles = some (id, worker, attempt) := hsettles
  cases h with
  | refused _ => exact Or.inl rfl
  | idle _ _ _ => exact Or.inl rfl
  | opened hop _ =>
    rw [hop] at hsettles
    cases hsettles
  | observed hop _ _ =>
    rw [hop] at hsettles
    cases hsettles
  | claimed hop _ _ _ _ _ _ =>
    rw [hop] at hsettles
    cases hsettles
  | settled h hstatus _ hop howner hattempt _ =>
    rw [hop] at hsettles
    cases hsettles
    obtain ⟨owner, hlease, hlast⟩ := hold _ _ h.found hstatus
    rw [hlease] at howner
    cases howner
    right
    rw [hlast, hattempt]
  | resolved hop _ _ _ =>
    rw [hop] at hsettles
    cases hsettles

theorem runOk_step
    (hv : e.Valid (perform H F)) (h : RunOk past e.before) : RunOk (past ++ [e]) e.after := by
  have hturned : Turned e.input e.before (e.output, e.after) := by
    rw [← show perform H F e.input e.before = (e.output, e.after) from hv]
    exact perform_turned e.input e.before
  have hframe := hturned.frame
  exact
    { unique := hframe.unique h.unique
      notified := by
        intro key
        rw [List.countP_concat]
        split
        · next hn =>
          obtain ⟨hnone, hsome⟩ := hturned.notified hn
          rcases h.notified key with h0 | ⟨-, hhas⟩
          · exact Or.inr ⟨by omega, hsome⟩
          · exact absurd hhas hnone
        · rcases h.notified key with h0 | ⟨h1, hhas⟩
          · exact Or.inl h0
          · exact Or.inr ⟨h1, hframe.has key hhas⟩
      acknowledged := by
        intro key
        rw [List.countP_concat]
        split
        · next ha =>
          obtain ⟨d, d', hrew, hkey, hstatus, hdelivered⟩ := hturned.acknowledged ha
          rcases h.acknowledged key with h0 | ⟨-, r, hr, hrkey, hrstatus⟩
          · refine Or.inr ⟨by omega, d', Table.mem_of_find? (k := d.id) ?_,
              hrew.key_eq.trans hkey, hdelivered⟩
            rw [hrew.find, if_pos rfl]
          · have hsame := unique_row h.unique hr (Table.mem_of_find? hrew.found)
              (hrkey.trans hkey.symm)
            rw [hsame, hstatus] at hrstatus
            cases hrstatus
        · rcases h.acknowledged key with h0 | ⟨h1, r, hr, hrkey, hrstatus⟩
          · exact Or.inl h0
          · refine Or.inr ⟨h1, r, Table.mem_of_find? (hframe.delivered r.id r
              (Table.find?_of_mem hr) (by rw [hrstatus]; rfl)), hrkey, hrstatus⟩
      leased := fun id d hd hstatus => hturned.leased h.leased hd hstatus
      settled := by
        intro pre x post hcut id worker attempt hsettles
        rcases List.concat_cut hcut with ⟨-, rfl, rfl⟩ | ⟨post', -, hpast⟩
        · exact hturned.settled_by h.leased hsettles
        · exact h.settled pre x post' hpast id worker attempt hsettles }

section Runs

variable (H : Host) (F : Floats τ) (start : Db τ)

/-- The database after a list of operations. -/
abbrev dbOf (ops : List (Op τ)) : Db τ := Machine.exec (perform H F) ops start

abbrev traceOf (ops : List (Op τ)) : List (Step τ) := Machine.trace (perform H F) ops start

theorem runOk (hempty : start.outbox.rows = []) (ops : List (Op τ)) :
    RunOk (traceOf H F start ops) (dbOf H F start ops) := by
  refine Machine.history_invariant (perform H F) (C := fun _ => True) (I := RunOk) start ?_
    (fun past e hv _ h => runOk_step hv h) ops fun _ _ => trivial
  exact
    { unique := by rw [hempty]; exact List.nodup_nil
      notified := fun _ => Or.inl rfl
      acknowledged := fun _ => Or.inl rfl
      leased := fun id d hd _ => by
        have hmem := Table.mem_of_find? hd
        rw [hempty] at hmem
        cases hmem
      settled := fun pre e post hcut => by simp at hcut }

theorem final_run {db : Db τ} {id : Text} {d : Delivery τ} (hd : db.outbox.find? id = some d)
    (hfinal : d.status.isFinal = true) (ops : List (Op τ)) :
    (dbOf H F db ops).outbox.find? id = some d ∧ (traceOf H F db ops).countP (claims id) = 0 := by
  refine Machine.history_invariant (perform H F) (C := fun _ => True)
    (I := fun past db => db.outbox.find? id = some d ∧ past.countP (claims id) = 0) db
    ⟨hd, rfl⟩ ?_ ops fun _ _ => trivial
  rintro past e hv - ⟨hsame, hnone⟩
  have hturned : Turned e.input e.before (e.output, e.after) := by
    rw [← show perform H F e.input e.before = (e.output, e.after) from hv]
    exact perform_turned e.input e.before
  obtain ⟨hafter, hclaim⟩ := hturned.final hsame hfinal
  refine ⟨hafter, ?_⟩
  rw [List.countP_concat, hnone]
  have hquiet : claims id e = false := by
    unfold claims claim?
    split
    · next c hc =>
      cases c with
      | none => rfl
      | some c => exact decide_eq_false (hclaim c hc)
    · rfl
  rw [hquiet]
  rfl

end Runs

/-- Deliveries, in every run from an empty database or one of the first version: a
target is notified of at most once, and acknowledged at most once; only the last
claim's worker settles a delivery, under its attempt; and a delivery that is delivered
or has failed for good stays as it is and is not claimed again. -/
theorem deliveries_fenced (H : Host) (F : Floats τ)
    (targets : Table (Target.key (τ := τ))) (history : List (Observation τ)) (ops : List (Op τ)) :
    (∀ key, (traceOf H F (.ofTargets targets history) ops).countP (notifies key) ≤ 1)
    ∧ (∀ key, (traceOf H F (.ofTargets targets history) ops).countP (acknowledges key) ≤ 1)
    ∧ (∀ pre e post, traceOf H F (.ofTargets targets history) ops = pre ++ e :: post →
      ∀ id worker attempt, e.input.settles = some (id, worker, attempt) →
      e.after = e.before ∨ lastClaim pre id = some (worker, attempt))
    ∧ ∀ id d more, (dbOf H F (.ofTargets targets history) ops).outbox.find? id = some d →
      d.status.isFinal = true →
      (dbOf H F (.ofTargets targets history) (ops ++ more)).outbox.find? id = some d
        ∧ (traceOf H F (dbOf H F (.ofTargets targets history) ops) more).countP (claims id)
          = 0 := by
  have hok := runOk H F (.ofTargets targets history) rfl ops
  refine ⟨fun key => ?_, fun key => ?_, hok.settled, fun id d more hd hfinal => ?_⟩
  · rcases hok.notified key with h | ⟨h, -⟩ <;> omega
  · rcases hok.acknowledged key with h | ⟨h, -⟩ <;> omega
  · have hexec : dbOf H F (.ofTargets targets history) (ops ++ more)
        = dbOf H F (dbOf H F (.ofTargets targets history) ops) more := Machine.exec_append ..
    rw [hexec]
    exact final_run H F hd hfinal more

end Centinal26.Watch
