/-
The watch table mirrors the outbox.
-/
import Centinal26.Watch.Fencing

namespace Centinal26.Watch

open Py Steps

variable {τ : Type} {H : Host} {F : Floats τ}

-- == one target

structure Mirrors (t : Target τ) (d : Delivery τ) : Prop where
  key : d.key = t.key
  status : t.deliveryState = some d.status
  terminal : t.firstTerminal = some d.terminalState
  notified : t.notifiedAt = d.deliveredAt
  delivered : d.deliveredAt.isSome = true ↔ d.status = .delivered
  enqueued : t.enqueuedAt.isSome = true

inductive KeyOk (t : Target τ) : Option (Delivery τ) → Prop
  | without (hstate : t.deliveryState = none) (hnotified : t.notifiedAt = none)
      (henqueued : t.enqueuedAt = none) : KeyOk t none
  | mirrored {d : Delivery τ} (h : Mirrors t d) : KeyOk t (some d)

def Db.delivery? (H : Host) (db : Db τ) (key : Text) : Option (Delivery τ) :=
  db.outbox.find? (deliveryId H key)

def HasTarget (db : Db τ) (key : Text) : Prop := ∃ t, db.targets.find? key = some t

/-- No two targets have the same delivery identifier. -/
def Distinct (H : Host) (db : Db τ) : Prop :=
  ∀ k k', HasTarget db k → HasTarget db k' → deliveryId H k = deliveryId H k' → k = k'

/-- The two tables agree, but for the keys `todo`; and the keys that have a delivery
are those of `P`. -/
structure Mirror (H : Host) (P : Text → Prop) (todo : List Text) (db : Db τ) : Prop where
  owned : ∀ id d, db.outbox.find? id = some d → id = deliveryId H d.key ∧ HasTarget db d.key
  agree : ∀ key t, key ∉ todo → db.targets.find? key = some t →
    KeyOk t (db.delivery? H key) ∧ ((db.delivery? H key).isSome = true ↔ P key)
  bound : ∀ key, P key → HasTarget db key

variable {P P' : Text → Prop} {todo todo' : List Text}

variable {db db' start : Db τ} {t : Target τ} {d d' : Delivery τ} {state : Text} {now : τ}
  {e : Step τ} {op : Op τ} {out : Except PyErr (Reply τ) × Db τ} {past : List (Step τ)}

theorem Mirror.none_of_new (h : Mirror H P todo db) (hdist : Distinct H db')
    (hhas : ∀ k, HasTarget db k → HasTarget db' k) {key : Text} (hkey : HasTarget db' key)
    (hnew : db.targets.find? key = none) : db.delivery? H key = none := by
  cases hd : db.delivery? H key with
  | none => rfl
  | some d =>
    obtain ⟨hid, htarget⟩ := h.owned _ d hd
    have hsame := hdist d.key key (hhas _ htarget) hkey hid.symm
    rw [hsame] at htarget
    obtain ⟨t, ht⟩ := htarget
    rw [hnew] at ht
    cases ht

theorem Mirror.write (h : Mirror H P todo db) (hdist : Distinct H db')
    {key : Text} {o : Option (Delivery τ)}
    (htargets : ∀ j, db'.targets.find? j = if j = key then some t else db.targets.find? j)
    (houtbox : ∀ id, db'.outbox.find? id = if id = deliveryId H key then o else db.outbox.find? id)
    (hokey : ∀ d, o = some d → d.key = key) (hok : KeyOk t o)
    (hother : ∀ j, j ≠ key → (P' j ↔ P j)) (hhere : o.isSome = true ↔ P' key)
    (htodo : ∀ j, j ∉ todo' → j ≠ key → j ∉ todo) : Mirror H P' todo' db' := by
  have hhas : ∀ k, HasTarget db k → HasTarget db' k := by
    rintro k ⟨r, hr⟩
    rw [HasTarget, htargets]
    split
    · exact ⟨t, rfl⟩
    · exact ⟨r, hr⟩
  have hkey : HasTarget db' key := ⟨t, by rw [htargets, if_pos rfl]⟩
  refine ⟨fun id d hd => ?_, fun j r hj hr => ?_, fun j hj => ?_⟩
  · rw [houtbox] at hd
    split at hd
    · next hid =>
      rw [hokey d hd]
      exact ⟨hid, hkey⟩
    · obtain ⟨hid, htarget⟩ := h.owned id d hd
      exact ⟨hid, hhas _ htarget⟩
  · have hin : HasTarget db' j := ⟨r, hr⟩
    rw [htargets] at hr
    unfold Db.delivery?
    rw [houtbox]
    split at hr
    · next hsame =>
      cases hr
      rw [hsame, if_pos rfl]
      exact ⟨hok, hhere⟩
    · next hne =>
      rw [if_neg fun hid => hne (hdist j key hin hkey hid), hother j hne]
      exact h.agree j r (htodo j hj hne) hr
  · by_cases hsame : j = key
    · rw [hsame]
      exact hkey
    · exact hhas j (h.bound j ((hother j hsame).mp hj))

theorem Mirror.migrate (h : Mirror H P [] db) : migrate H db = db := by
  have hnone : db.targets.rows.filter Target.isLegacy = [] := by
    rw [List.filter_eq_nil_iff]
    intro t ht hlegacy
    obtain ⟨hnotified, henqueued⟩ := Bool.and_eq_true_iff.mp hlegacy
    have hok := (h.agree t.key t List.not_mem_nil (Table.find?_of_mem ht)).1
    generalize db.delivery? H t.key = o at hok
    cases hok with
    | without _ hno _ =>
      rw [hno] at hnotified
      cases hnotified
    | mirrored hm =>
      have := hm.enqueued
      rw [Option.isNone_iff_eq_none.mp henqueued] at this
      cases this
  unfold Watch.migrate
  rw [hnone]
  rfl

-- == operations

structure Paired (d d' : Delivery τ) (f : Target τ → Target τ) (db db' : Db τ) : Prop where
  delivery : Rewritten d d' db db'
  targets : ∀ j, db'.targets.find? j
    = if j = d.key then (db.targets.find? d.key).map f else db.targets.find? j
  history : db'.history = db.history
  count : ∀ t, (f t).count = t.count
  mirrors : ∀ t, Mirrors t d → Mirrors (f t) d'

/-- What an operation does to both tables. -/
inductive Acted (H : Host) (F : Floats τ) (op : Op τ) (db : Db τ) :
    Except PyErr (Reply τ) × Db τ → Prop
  | still {r : Except PyErr (Reply τ)} (hr : ∀ d, r ≠ .ok (.observed d)) : Acted H F op db (r, db)
  | opened : Acted H F op db (.ok .unit, migrate H db)
  | paired {r : Reply τ} {d d' : Delivery τ} {f : Target τ → Target τ} {db' : Db τ}
      (hr : ∀ d, r ≠ .observed d) (h : Paired d d' f db db') : Acted H F op db (.ok r, db')
  | observed {key : PyStr} {d : Decision} {db' : Db τ} (h : Observed H F key db d db') :
      Acted H F op db (.ok (.observed d), db')

theorem setDelivery_paired (f : Delivery τ → Delivery τ)
    (g : Target τ → Target τ) (h : db.outbox.find? d.id = some d) (hid : ∀ r, (f r).id = r.id)
    (hkey : ∀ r, (f r).key = r.key) (hterm : ∀ r, (f r).terminalState = r.terminalState)
    (hg : ∀ t, (g t).key = t.key) (hcount : ∀ t, (g t).count = t.count)
    (hmirrors : ∀ t, Mirrors t d → Mirrors (g t) (f d)) :
    Paired d (f d) g db ((db.setDelivery d.id f hid).setTarget d.key g hg) where
  delivery := setDelivery_rewritten f h hid hkey hterm
  targets j := Table.find?_modify db.targets d.key g hg j
  history := rfl
  count := hcount
  mirrors := hmirrors

theorem Mirrors.undelivered (h : Mirrors t d)
    (hstatus : d.status ≠ .delivered) : d.deliveredAt = none ∧ t.notifiedAt = none := by
  have hnone : d.deliveredAt = none := by
    cases hd : d.deliveredAt with
    | none => rfl
    | some at' => exact absurd (h.delivered.mp (by rw [hd]; rfl)) hstatus
  exact ⟨hnone, by rw [h.notified, hnone]⟩

theorem Mirrors.moved {t' : Target τ} (h : Mirrors t d)
    (hstatus : d.status ≠ .delivered) (hkey : d'.key = d.key) (htkey : t'.key = t.key)
    (hterm : d'.terminalState = d.terminalState) (hfirst : t'.firstTerminal = t.firstTerminal)
    (hat : d'.deliveredAt = d.deliveredAt) (hnotified : t'.notifiedAt = t.notifiedAt)
    (henqueued : t'.enqueuedAt = t.enqueuedAt) (hnew : t'.deliveryState = some d'.status)
    (hne : d'.status ≠ .delivered) : Mirrors t' d' where
  key := by rw [hkey, htkey, h.key]
  status := hnew
  terminal := by rw [hfirst, hterm, h.terminal]
  notified := by rw [hnotified, hat, h.notified]
  delivered := by
    rw [hat, (h.undelivered hstatus).1]
    exact iff_of_false nofun hne
  enqueued := by rw [henqueued, h.enqueued]

theorem failStatus_undelivered (retryable : Bool) : failStatus retryable ≠ .delivered := by
  cases retryable <;> decide

theorem perform_acted (op : Op τ) (db : Db τ) : Acted H F op db (perform H F op db) := by
  unfold perform
  rcases Tx.commit_cases (op.tx H F) db with ⟨r, db', h, hcommit⟩ | ⟨e, -, hcommit⟩
  · rw [hcommit]
    cases op with
    | openLedger =>
      cases h
      exact .opened
    | observe key state terminals now =>
      obtain ⟨⟨d, mid⟩, hobs, heq⟩ := of_bind_ok h
      cases heq
      exact .observed (observe_ok hobs)
    | claim worker lease now key =>
      obtain ⟨⟨c, mid⟩, hclaim, heq⟩ := of_bind_ok h
      cases heq
      obtain ⟨w, -, hclaim⟩ := of_bind_ok hclaim
      split at hclaim
      · cases hclaim
      · obtain ⟨k, -, hclaim⟩ := of_bind_ok hclaim
        obtain ⟨text, -, hclaim⟩ := of_bind_ok hclaim
        split at hclaim
        · cases hclaim
          exact .still (fun _ h => by cases h)
        · next d hmin =>
          obtain ⟨owner, -, hclaim⟩ := of_bind_ok hclaim
          obtain ⟨time, -, hclaim⟩ := of_bind_ok hclaim
          cases hclaim
          have hp := (Bool.and_eq_true_iff.mp (Table.minBy?_spec hmin).2).1
          have hstatus : d.status ≠ .delivered := by
            rcases Bool.or_eq_true_iff.mp hp with hp | hp
            · rw [of_decide_eq_true hp]
              decide
            · rw [of_decide_eq_true (Bool.and_eq_true_iff.mp hp).1]
              decide
          exact .paired (fun _ h => by cases h) (setDelivery_paired
            (fun r => r.claimed owner (F.column (F.add now lease)) time)
            (fun t => t.mirroring .delivering time) (Table.find?_minBy? hmin)
            (fun _ => rfl) (fun _ => rfl) (fun _ => rfl) (fun _ => rfl) (fun _ => rfl)
            fun t ht => ht.moved hstatus rfl rfl rfl rfl rfl rfl rfl rfl
              (show Status.delivering ≠ .delivered by decide))
    | acknowledge id worker attempt now =>
      obtain ⟨⟨b, mid⟩, hack, heq⟩ := of_bind_ok h
      cases heq
      obtain ⟨cid, hcid, hack⟩ := of_bind_ok hack
      obtain ⟨w, hw, hack⟩ := of_bind_ok hack
      obtain ⟨-, -, hack⟩ := of_bind_ok hack
      obtain ⟨text, htext, hack⟩ := of_bind_ok hack
      split at hack
      · cases hack
      · next d hfind =>
        split at hack
        · cases hack
          exact .still (fun _ h => by cases h)
        · obtain ⟨-, -, hack⟩ := of_bind_ok hack
          obtain ⟨time, -, hack⟩ := of_bind_ok hack
          cases hack
          exact .paired (fun _ h => by cases h) (setDelivery_paired (fun r => r.acknowledged time)
            (fun t => t.notified time) (found_id hfind).2 (fun _ => rfl) (fun _ => rfl)
            (fun _ => rfl) (fun _ => rfl) (fun _ => rfl) fun t ht =>
              ⟨ht.key, rfl, ht.terminal, rfl, iff_of_true rfl rfl, ht.enqueued⟩)
    | fail id worker error attempt retryable now =>
      obtain ⟨⟨b, mid⟩, hfail, heq⟩ := of_bind_ok h
      cases heq
      obtain ⟨cid, hcid, hfail⟩ := of_bind_ok hfail
      obtain ⟨w, hw, hfail⟩ := of_bind_ok hfail
      obtain ⟨-, -, hfail⟩ := of_bind_ok hfail
      obtain ⟨message, -, hfail⟩ := of_bind_ok hfail
      obtain ⟨text, htext, hfail⟩ := of_bind_ok hfail
      split at hfail
      · cases hfail
      · next d hfind =>
        split at hfail
        · cases hfail
          exact .still (fun _ h => by cases h)
        · next hstatus =>
          obtain ⟨-, -, hfail⟩ := of_bind_ok hfail
          obtain ⟨err, -, hfail⟩ := of_bind_ok hfail
          obtain ⟨time, -, hfail⟩ := of_bind_ok hfail
          cases hfail
          exact .paired (fun _ h => by cases h) (setDelivery_paired
            (fun r => r.failed (failStatus retryable) err time)
            (fun t => t.mirroring (failStatus retryable) time) (found_id hfind).2
            (fun _ => rfl) (fun _ => rfl) (fun _ => rfl) (fun _ => rfl) (fun _ => rfl)
            fun t ht => ht.moved hstatus rfl rfl rfl rfl rfl rfl rfl rfl
              (failStatus_undelivered retryable))
    | resolve id delivered now =>
      obtain ⟨⟨u, mid⟩, hres, heq⟩ := of_bind_ok h
      cases heq
      obtain ⟨cid, -, hres⟩ := of_bind_ok hres
      obtain ⟨text, -, hres⟩ := of_bind_ok hres
      split at hres
      · cases hres
      · next d hfind =>
        split at hres
        · cases hres
        · obtain ⟨time, -, hres⟩ := of_bind_ok hres
          cases hres
          refine .paired (fun _ h => by cases h)
            (setDelivery_paired (fun r => r.resolved (legacyStatus delivered)
              (if delivered then some time else none) time)
            (fun t => t.resolved (legacyStatus delivered)
              (if delivered then some time else none) time) (found_id hfind).2
            (fun _ => rfl) (fun _ => rfl) (fun _ => rfl) (fun _ => rfl) (fun _ => rfl)
            fun t ht => ⟨ht.key, rfl, ht.terminal, rfl, ?_, ht.enqueued⟩)
          cases delivered
          · exact iff_of_false (fun h => by cases h) (fun h => by cases h)
          · exact iff_of_true rfl rfl
  · rw [hcommit]
    exact .still (fun _ h => by cases h)

-- == one step

theorem find?_put (db : Db τ) (t : Target τ) (j : Text) :
    (db.put t).targets.find? j = if j = t.key then some t else db.targets.find? j :=
  Table.find?_upsert db.targets t j

theorem KeyOk.key {o : Option (Delivery τ)} (h : KeyOk t o) (ho : o = some d) : d.key = t.key := by
  cases h with
  | without _ _ _ => cases ho
  | mirrored hm =>
    cases ho
    exact hm.key

theorem observed_keyOk (state : Text) (terminal : Bool) (now : τ)
    (h : Mirror H P [] db) (hdist : Distinct H db')
    (hhas : ∀ k, HasTarget db k → HasTarget db' k) {key : Text} (hkey : HasTarget db' key) :
    KeyOk (db.observed key state terminal now) (db.delivery? H key)
      ∧ ((db.delivery? H key).isSome = true ↔ P key) := by
  unfold Db.observed
  cases ht : db.targets.find? key with
  | none =>
    rw [h.none_of_new hdist hhas hkey ht]
    refine ⟨.without rfl rfl rfl, iff_of_false nofun fun hP => ?_⟩
    obtain ⟨t, htarget⟩ := h.bound key hP
    rw [ht] at htarget
    cases htarget
  | some t =>
    obtain ⟨hok, hiff⟩ := h.agree key t List.not_mem_nil ht
    refine ⟨?_, hiff⟩
    generalize db.delivery? H key = o at hok
    cases hok with
    | without hs hn he => exact .without hs hn he
    | mirrored hm =>
      exact .mirrored ⟨hm.key, hm.status, hm.terminal, hm.notified, hm.delivered, hm.enqueued⟩

theorem Mirror.passing (h : Mirror H P [] db) {key : Text} {o : Observation τ}
    (hdist : Distinct H ((db.put (db.observed key state false now)).remember o)) :
    Mirror H P [] ((db.put (db.observed key state false now)).remember o) := by
  have hfind : ∀ j, ((db.put (db.observed key state false now)).remember o).targets.find? j
      = if j = key then some (db.observed key state false now) else db.targets.find? j := by
    intro j
    have hput := find?_put db (db.observed key state false now) j
    rw [observed_key] at hput
    exact hput
  have hhas : ∀ k, HasTarget db k
      → HasTarget ((db.put (db.observed key state false now)).remember o) k := by
    rintro k ⟨r, hr⟩
    rw [HasTarget, hfind]
    split
    · exact ⟨_, rfl⟩
    · exact ⟨r, hr⟩
  obtain ⟨hok, hiff⟩ := observed_keyOk state false now h hdist hhas
    ⟨_, (hfind key).trans (if_pos rfl)⟩
  refine h.write hdist hfind (fun id => ?_) (fun d hd => ?_) hok (fun _ _ => Iff.rfl) hiff
    fun _ h _ => h
  · split
    · next hid =>
      rw [hid]
      rfl
    · rfl
  · rw [hok.key hd, observed_key]

theorem enqueue_targets (d : Delivery τ) (db : Db τ) :
    (db.enqueue d).2.targets = db.targets ∧ (db.enqueue d).2.history = db.history := by
  have hspec := enqueue_spec d db
  generalize db.enqueue d = out at hspec ⊢
  cases hspec with
  | ignored _ => exact ⟨rfl, rfl⟩
  | inserted _ _ => exact ⟨rfl, rfl⟩

/-- The row of a target after it has been enqueued, or was before. -/
def Target.enqueued (t : Target τ) (state : Text) (d : Delivery τ) : Target τ :=
  { t with
    firstTerminal := some (t.firstTerminal.getD state)
    enqueuedAt := some (t.enqueuedAt.getD d.createdAt)
    deliveryState := some d.status }

theorem enqueued_mirrors (hok : KeyOk t (db.delivery? H t.key))
    (hd : (db.enqueue (.fresh H t.key (t.firstTerminal.getD state) .pending now)).2.outbox.find?
      (deliveryId H t.key) = some d) :
    Mirrors (t.enqueued state d) d
      ∧ ∀ id, (db.enqueue (.fresh H t.key (t.firstTerminal.getD state) .pending
          now)).2.outbox.find? id
        = if id = deliveryId H t.key then some d else db.outbox.find? id := by
  have hspec := enqueue_spec (.fresh H t.key (t.firstTerminal.getD state) .pending now) db
  generalize db.enqueue (.fresh H t.key (t.firstTerminal.getD state) .pending now) = out
    at hspec hd ⊢
  cases hspec with
  | ignored _ =>
    replace hd : db.delivery? H t.key = some d := hd
    refine ⟨?_, fun id => ?_⟩
    · rw [hd] at hok
      cases hok with
      | mirrored hm =>
        refine ⟨hm.key, rfl, ?_, hm.notified, hm.delivered, rfl⟩
        show some (t.firstTerminal.getD state) = _
        rw [hm.terminal]
        rfl
    · split
      · next hid =>
        rw [hid]
        exact hd
      · rfl
  | @inserted outbox hnew hins =>
    have hfind : ∀ id, outbox.find? id = if id = deliveryId H t.key
        then some (.fresh H t.key (t.firstTerminal.getD state) .pending now)
        else db.outbox.find? id := Table.find?_insert hins
    have hnone : db.delivery? H t.key = none := Table.find?_of_insert hins
    replace hd : outbox.find? (deliveryId H t.key) = some d := hd
    rw [hfind, if_pos rfl] at hd
    cases hd
    refine ⟨?_, hfind⟩
    rw [hnone] at hok
    cases hok with
    | without hs hn he => exact ⟨rfl, rfl, rfl, hn,
        iff_of_false (fun h => by cases h) (fun h => by cases h), rfl⟩

theorem Mirror.terminal {mid : Db τ} (h : Mirror H P [] db) {key : Text}
    {d : Decision} {o : Observation τ}
    (henqueue : enqueueTerminal H (db.observed key state true now) state now
      (db.put (db.observed key state true now)) = .ok (d, mid))
    (hdist : Distinct H (mid.remember o)) (hother : ∀ j, j ≠ key → (P' j ↔ P j))
    (hhere : P' key) : Mirror H P' [] (mid.remember o) := by
  obtain ⟨row, hrow, -, hmid⟩ := enqueueTerminal_ok henqueue
  have hkey := observed_key db key state true now
  have hfind : ∀ j, (mid.remember o).targets.find? j = if j = key
      then some ((db.observed key state true now).enqueued state row)
      else db.targets.find? j := by
    intro j
    rw [hmid]
    refine (find?_put _ ((db.observed key state true now).enqueued state row) j).trans ?_
    rw [(enqueue_targets _ _).1, find?_put,
      show ((db.observed key state true now).enqueued state row).key = key from hkey, hkey]
    split <;> rfl
  have hhas : ∀ k, HasTarget db k → HasTarget (mid.remember o) k := by
    rintro k ⟨r, hr⟩
    rw [HasTarget, hfind]
    split
    · exact ⟨_, rfl⟩
    · exact ⟨r, hr⟩
  obtain ⟨hok, -⟩ := observed_keyOk state true now h hdist hhas ⟨_, (hfind key).trans (if_pos rfl)⟩
  have hstart : KeyOk (db.observed key state true now)
      ((db.put (db.observed key state true now)).delivery? H
        (db.observed key state true now).key) := by
    rw [hkey]
    exact hok
  obtain ⟨hmirrors, houtbox⟩ := enqueued_mirrors hstart hrow
  refine h.write hdist hfind (fun id => ?_) (fun r hr => ?_) (.mirrored hmirrors) hother
    (iff_of_true rfl hhere) fun _ h _ => h
  · rw [hmid]
    refine (houtbox id).trans ?_
    rw [hkey]
    rfl
  · cases hr
    exact hmirrors.key.trans hkey

theorem Mirror.paired (h : Mirror H P [] db)
    {f : Target τ → Target τ} (hp : Paired d d' f db db') (hdist : Distinct H db') :
    Mirror H P [] db' := by
  obtain ⟨hid, t, ht⟩ := h.owned d.id d hp.delivery.found
  obtain ⟨hok, hiff⟩ := h.agree d.key t List.not_mem_nil ht
  have hdelivery : db.delivery? H d.key = some d := by
    unfold Db.delivery?
    rw [← hid]
    exact hp.delivery.found
  rw [hdelivery] at hok hiff
  have hm : Mirrors t d := by
    cases hok with
    | mirrored hm => exact hm
  refine h.write hdist (fun j => ?_) (fun id => ?_) (fun r hr => ?_)
    (.mirrored (hp.mirrors t hm)) (fun _ _ => Iff.rfl) (iff_of_true rfl (hiff.mp rfl))
    fun _ h _ => h
  · rw [hp.targets, ht, Option.map_some]
  · rw [hp.delivery.find, hid]
  · cases hr
    exact hp.delivery.key_eq

-- == migration

/-- What a legacy row has, before it is migrated. -/
structure Legacy (H : Host) (db : Db τ) (t : Target τ) : Prop where
  found : db.targets.find? t.key = some t
  free : db.delivery? H t.key = none
  terminal : ∃ state, t.firstTerminal = some state
  notified : ∃ time, t.notifiedAt = some time

theorem Mirror.migrateRow {rest : List Text}
    (h : Mirror H P (t.key :: rest) db) (ht : Legacy H db t) (hdist : Distinct H db) :
    Mirror H (fun k => P k ∨ k = t.key) rest (migrateRow H db t)
      ∧ (∀ k, HasTarget (Watch.migrateRow H db t) k ↔ HasTarget db k)
      ∧ ∀ j, j ≠ t.key → (Watch.migrateRow H db t).targets.find? j = db.targets.find? j
        ∧ (HasTarget db j → (Watch.migrateRow H db t).delivery? H j = db.delivery? H j) := by
  obtain ⟨state, hstate⟩ := ht.terminal
  obtain ⟨time, htime⟩ := ht.notified
  have hmig : Watch.migrateRow H db t
      = (db.enqueue (.fresh H t.key state .legacyUncertain time)).2.setTarget t.key
        (fun r => r.migrated time) fun _ => rfl := by
    unfold Watch.migrateRow
    rw [hstate, htime]
  have hspec := enqueue_spec (.fresh H t.key state .legacyUncertain time) db
  rw [hmig]
  generalize db.enqueue (.fresh H t.key state .legacyUncertain time) = out at hspec ⊢
  cases hspec with
  | ignored hold =>
    exfalso
    rcases hold with ⟨r, hr, hkey⟩ | ⟨r, hr⟩
    · obtain ⟨hid, -⟩ := h.owned r.id r (Table.find?_of_mem hr)
      have hfree := ht.free
      rw [← show r.key = t.key from hkey, Db.delivery?, ← hid, Table.find?_of_mem hr] at hfree
      cases hfree
    · have hfree := ht.free
      rw [Db.delivery?, show db.outbox.find? (deliveryId H t.key) = some r from hr] at hfree
      cases hfree
  | @inserted outbox hnew hins =>
    have hfind : ∀ j, ({ db with outbox := outbox }.setTarget t.key
        (fun r => r.migrated time) fun _ => rfl).targets.find? j
        = if j = t.key then some (t.migrated time) else db.targets.find? j := by
      intro j
      refine (Table.find?_modify db.targets t.key (fun r => r.migrated time) (fun _ => rfl)
        j).trans ?_
      rw [ht.found, Option.map_some]
    have houtbox : ∀ id, outbox.find? id = if id = deliveryId H t.key
        then some (.fresh H t.key state .legacyUncertain time)
        else db.outbox.find? id := Table.find?_insert hins
    have hhas : ∀ k, HasTarget ({ db with outbox := outbox }.setTarget t.key
        (fun r => r.migrated time) fun _ => rfl) k ↔ HasTarget db k := by
      intro k
      rw [HasTarget, hfind]
      split
      · next hk =>
        rw [hk]
        exact iff_of_true ⟨_, rfl⟩ ⟨t, ht.found⟩
      · exact Iff.rfl
    have hdist' : Distinct H ({ db with outbox := outbox }.setTarget t.key
        (fun r => r.migrated time) fun _ => rfl) :=
      fun k k' hk hk' => hdist k k' ((hhas k).mp hk) ((hhas k').mp hk')
    refine ⟨h.write hdist' hfind houtbox (fun d hd => ?_) (.mirrored ⟨rfl, rfl, hstate, rfl,
      iff_of_false (fun h => by cases h) (fun h => by cases h), rfl⟩) (fun j hj => or_iff_left hj)
      (iff_of_true rfl (Or.inr rfl)) fun j hj hne => ?_, hhas, fun j hj => ⟨?_, fun hin => ?_⟩⟩
    · cases hd
      rfl
    · rw [List.mem_cons, not_or]
      exact ⟨hne, hj⟩
    · rw [hfind, if_neg hj]
    · exact (houtbox _).trans (if_neg fun hid => hj (hdist j t.key hin ⟨t, ht.found⟩ hid))

theorem Mirror.congr (h : Mirror H P todo db) (hP : ∀ k, P' k ↔ P k) : Mirror H P' todo db where
  owned := h.owned
  agree key t htodo ht := by
    rw [hP]
    exact h.agree key t htodo ht
  bound key hkey := h.bound key ((hP key).mp hkey)

theorem Mirror.migrateRows {rows : List (Target τ)}
    (h : Mirror H P (rows.map Target.key) db) (hnodup : (rows.map Target.key).Nodup)
    (hrows : ∀ t ∈ rows, Legacy H db t) (hdist : Distinct H db) :
    Mirror H (fun k => P k ∨ k ∈ rows.map Target.key) [] (rows.foldl (Watch.migrateRow H) db) := by
  induction rows generalizing db P with
  | nil => exact h.congr fun k => or_iff_left List.not_mem_nil
  | cons t rows ih =>
    obtain ⟨hnew, hnodup⟩ := List.nodup_cons.mp hnodup
    obtain ⟨hmirror, hhas, hother⟩ := h.migrateRow (hrows t List.mem_cons_self) hdist
    refine (ih hmirror hnodup (fun r hr => ?_) fun k k' hk hk' =>
      hdist k k' ((hhas k).mp hk) ((hhas k').mp hk')).congr fun k => ?_
    · have hr' := hrows r (List.mem_cons_of_mem _ hr)
      have hne : r.key ≠ t.key := fun hsame =>
        hnew (hsame ▸ List.mem_map_of_mem hr)
      obtain ⟨htarget, hdelivery⟩ := hother r.key hne
      exact ⟨by rw [htarget, hr'.found], by rw [hdelivery ⟨r, hr'.found⟩, hr'.free],
        hr'.terminal, hr'.notified⟩
    · rw [List.map_cons, List.mem_cons, or_assoc]

/-- The target was notified before the run. -/
def WasNotified (start : Db τ) (key : Text) : Prop :=
  ∃ t, start.targets.find? key = some t ∧ t.notifiedAt.isSome = true

/-- The later columns are empty, and a target that was notified had become
terminal. -/
def FirstVersion (targets : Table (Target.key (τ := τ))) : Prop :=
  ∀ t ∈ targets.rows, t.enqueuedAt = none ∧ t.deliveryState = none
    ∧ (t.notifiedAt.isSome = true → t.firstTerminal.isSome = true)

theorem migrate_mirror {targets : Table (Target.key (τ := τ))}
    {history : List (Observation τ)} (hfirst : FirstVersion targets)
    (hdist : Distinct H (.ofTargets targets history)) :
    Mirror H (WasNotified (.ofTargets targets history)) []
      (migrate H (.ofTargets targets history)) := by
  have hlegacy : ∀ t ∈ targets.rows, t.isLegacy = t.notifiedAt.isSome := by
    intro t ht
    unfold Target.isLegacy
    rw [(hfirst t ht).1]
    exact Bool.and_true _
  have hstart : Mirror H (fun _ => False) ((targets.rows.filter Target.isLegacy).map Target.key)
      (.ofTargets targets history) := by
    refine ⟨nofun, fun key t htodo ht => ?_, nofun⟩
    have hmem := Table.mem_of_find? ht
    have hnone : t.notifiedAt = none := by
      rw [← Option.not_isSome_iff_eq_none, ← hlegacy t hmem]
      intro hleg
      refine htodo ?_
      rw [← Table.key_of_find? ht]
      exact List.mem_map_of_mem (List.mem_filter.mpr ⟨hmem, hleg⟩)
    obtain ⟨henqueued, hstate, -⟩ := hfirst t hmem
    exact ⟨.without hstate hnone henqueued, iff_of_false nofun id⟩
  have hsub : ((targets.rows.filter Target.isLegacy).map Target.key).Nodup :=
    targets.nodup.sublist (List.filter_sublist.map Target.key)
  refine (hstart.migrateRows hsub (fun t ht => ?_) hdist).congr fun k => ?_
  · obtain ⟨hmem, hleg⟩ := List.mem_filter.mp ht
    rw [hlegacy t hmem] at hleg
    exact ⟨Table.find?_of_mem hmem, rfl, Option.isSome_iff_exists.mp ((hfirst t hmem).2.2 hleg),
      Option.isSome_iff_exists.mp hleg⟩
  · rw [false_or, List.mem_map]
    constructor
    · rintro ⟨t, ht, hnotified⟩
      have hmem := Table.mem_of_find? ht
      exact ⟨t, List.mem_filter.mpr ⟨hmem, (hlegacy t hmem).trans hnotified⟩, Table.key_of_find? ht⟩
    · rintro ⟨t, ht, rfl⟩
      obtain ⟨hmem, hleg⟩ := List.mem_filter.mp ht
      exact ⟨t, Table.find?_of_mem hmem, (hlegacy t hmem).symm.trans hleg⟩

-- == counts

/-- The `observation_count` of a target. -/
def Db.counts (db : Db τ) (key : Text) : Option Int := (db.targets.find? key).map Target.count

/-- The same, and 0 for a target that is not known. -/
def Db.countOf (db : Db τ) (key : Text) : Int := (db.counts key).getD 0

/-- The number of the target's rows in the history. -/
def Db.recorded (db : Db τ) (key : Text) : Nat :=
  db.history.countP fun o => decide (o.key = key)

/-- An observation of the target is accepted. -/
def observes (key : Text) (e : Step τ) : Bool :=
  match e.output with
  | .ok (.observed d) => decide (d.key = key)
  | _ => false

def seesTerminal (key : Text) (e : Step τ) : Bool :=
  match e.output with
  | .ok (.observed d) => d.terminal && decide (d.key = key)
  | _ => false

theorem hasTarget_iff {key : Text} : HasTarget db key ↔ (db.counts key).isSome = true := by
  unfold HasTarget Db.counts
  rw [Option.isSome_map, Option.isSome_iff_exists]

theorem migrateRow_counts (db : Db τ) (t : Target τ) :
    (∀ key, (migrateRow H db t).counts key = db.counts key)
      ∧ (migrateRow H db t).history = db.history := by
  unfold migrateRow
  split
  · next state time hstate htime =>
    obtain ⟨htargets, hhistory⟩ :=
      enqueue_targets (.fresh H t.key state .legacyUncertain time) db
    refine ⟨fun key => ?_, hhistory⟩
    unfold Db.counts
    have hfind := Table.find?_modify
      (db.enqueue (.fresh H t.key state .legacyUncertain time)).2.targets t.key
      (fun r => r.migrated time) (fun _ => rfl) key
    refine (congrArg (Option.map Target.count) hfind).trans ?_
    rw [htargets]
    split
    · next hkey =>
      rw [hkey, Option.map_map]
      rfl
    · rfl
  · exact ⟨fun _ => rfl, rfl⟩

theorem migrate_counts (db : Db τ) : (∀ key, (migrate H db).counts key = db.counts key)
      ∧ (migrate H db).history = db.history := by
  unfold migrate
  generalize db.targets.rows.filter Target.isLegacy = rows
  induction rows generalizing db with
  | nil => exact ⟨fun _ => rfl, rfl⟩
  | cons t rows ih =>
    obtain ⟨hcounts, hhistory⟩ := migrateRow_counts (H := H) db t
    obtain ⟨hcounts', hhistory'⟩ := ih (migrateRow H db t)
    exact ⟨fun key => (hcounts' key).trans (hcounts key), hhistory'.trans hhistory⟩

theorem observed_count (db : Db τ) (key state : Text) (terminal : Bool) (now : τ) :
    (db.observed key state terminal now).count = db.countOf key + 1 := by
  unfold Db.observed Db.countOf Db.counts
  cases db.targets.find? key with
  | none => rfl
  | some t => rfl

/-- One more observation of one target. -/
structure Grew (key : Text) (db db' : Db τ) : Prop where
  counts : ∀ j, db'.counts j = if j = key then some (db.countOf key + 1) else db.counts j
  history : ∃ o : Observation τ, o.key = key ∧ db'.history = db.history ++ [o]

theorem Observed.grew {key : PyStr} {d : Decision}
    (h : Observed H F key db d db') : Grew d.key db db' := by
  cases h with
  | @passing k state now d hkey hd =>
    rw [hd]
    refine ⟨fun j => ?_, ⟨k, state, false, false, now, none⟩, rfl, rfl⟩
    have hput := find?_put db (db.observed k state false now) j
    rw [observed_key] at hput
    refine (congrArg (Option.map Target.count) hput).trans ?_
    split
    · exact congrArg some (observed_count ..)
    · rfl
  | @terminal k state now d mid hkey h =>
    obtain ⟨row, -, hd, hmid⟩ := enqueueTerminal_ok h
    have hk := observed_key db k state true now
    have hdk : d.key = k := by rw [hd, hk]
    obtain ⟨htargets, hhistory⟩ := enqueue_targets (.fresh H (db.observed k state true now).key
        ((db.observed k state true now).firstTerminal.getD state) .pending now)
      (db.put (db.observed k state true now))
    refine ⟨fun j => ?_, ⟨k, state, true, d.notify, now, d.deliveryId⟩, hdk.symm, ?_⟩
    · have hput := find?_put (db.enqueue (.fresh H (db.observed k state true now).key
            ((db.observed k state true now).firstTerminal.getD state) .pending now)).2
        ((db.observed k state true now).enqueued state row) j
      rw [hdk]
      unfold Db.counts
      rw [hmid]
      refine (congrArg (Option.map Target.count) (find?_put _
        ((db.observed k state true now).enqueued state row) j)).trans ?_
      rw [htargets, find?_put,
        show ((db.observed k state true now).enqueued state row).key = k from hk, hk]
      split
      · exact congrArg some (observed_count ..)
      · rfl
    · rw [hmid]
      exact congrArg (· ++ [_]) hhistory

structure Counted (e : Step τ) : Prop where
  targets : ∀ key, HasTarget e.before key → HasTarget e.after key
  count : ∀ key, e.after.countOf key = e.before.countOf key + if observes key e then 1 else 0
  recorded : ∀ key, e.after.recorded key = e.before.recorded key + if observes key e then 1 else 0

theorem Counted.of_same (hr : ∀ d, e.output ≠ .ok (.observed d))
    (hcounts : ∀ key, e.after.counts key = e.before.counts key)
    (hhistory : e.after.history = e.before.history) : Counted e := by
  have hquiet : ∀ key, observes key e = false := by
    intro key
    unfold observes
    split
    · next d hd => exact absurd hd (hr d)
    · rfl
  refine ⟨fun key hkey => ?_, fun key => ?_, fun key => ?_⟩
  · rw [hasTarget_iff] at hkey ⊢
    rw [hcounts, hkey]
  · rw [hquiet, Db.countOf, Db.countOf, hcounts]
    exact (Int.add_zero _).symm
  · rw [hquiet, Db.recorded, Db.recorded, hhistory]
    rfl

theorem Acted.counted (h : Acted H F op db out) : Counted ⟨op, db, out.1, out.2⟩ := by
  cases h with
  | still hr => exact .of_same hr (fun _ => rfl) rfl
  | opened => exact .of_same nofun (migrate_counts db).1 (migrate_counts db).2
  | @paired r d d' f db' hr h =>
    refine .of_same (fun d hd => hr d (Except.ok.inj hd)) (fun key => ?_) h.history
    show (db'.targets.find? key).map Target.count = (db.targets.find? key).map Target.count
    rw [h.targets]
    split
    · next hkey =>
      rw [hkey, Option.map_map]
      exact congrArg (fun g => (db.targets.find? d.key).map g) (funext h.count)
    · rfl
  | @observed key d db' h =>
    obtain ⟨hcounts, o, ho, hhistory⟩ := h.grew
    replace hcounts : ∀ j, db'.counts j = _ := hcounts
    refine ⟨fun j hj => ?_, fun j => ?_, fun j => ?_⟩
    · rw [hasTarget_iff] at hj ⊢
      rw [hcounts]
      split
      · rfl
      · exact hj
    · show (db'.counts j).getD 0 = (db.counts j).getD 0 + if decide (d.key = j) then 1 else 0
      rw [hcounts]
      split
      · next hj =>
        rw [hj, decide_eq_true rfl]
        rfl
      · next hj =>
        rw [decide_eq_false fun hk => hj hk.symm]
        exact (Int.add_zero _).symm
    · show db'.history.countP _ = db.history.countP _ + if decide (d.key = j) then 1 else 0
      rw [hhistory, List.countP_append, List.countP_singleton, ho]

-- == runs

/-- The target was observed terminal, or notified before the run. -/
def Notable (start : Db τ) (past : List (Step τ)) (key : Text) : Prop :=
  (∃ e ∈ past, seesTerminal key e = true) ∨ WasNotified start key

theorem notable_concat {key : Text} :
    Notable start (past ++ [e]) key ↔ seesTerminal key e = true ∨ Notable start past key := by
  unfold Notable
  rw [← or_assoc]
  refine or_congr_left ⟨?_, ?_⟩
  · rintro ⟨x, hx, hsees⟩
    rcases List.mem_append.mp hx with hx | hx
    · exact Or.inr ⟨x, hx, hsees⟩
    · rw [List.mem_singleton.mp hx] at hsees
      exact Or.inl hsees
  · rintro (hsees | ⟨x, hx, hsees⟩)
    · exact ⟨e, List.mem_append_right _ (List.mem_singleton_self _), hsees⟩
    · exact ⟨x, List.mem_append_left _ hx, hsees⟩

theorem notable_quiet (h : ∀ d, e.output = .ok (.observed d) → d.terminal = false) (key : Text) :
    Notable start (past ++ [e]) key ↔ Notable start past key := by
  have hquiet : seesTerminal key e = false := by
    unfold seesTerminal
    split
    · next d hd =>
      rw [h d hd]
      rfl
    · rfl
  rw [notable_concat, hquiet, Bool.false_eq_true, false_or]

theorem Acted.mirror (h : Acted H F op db out)
    (hmirror : Mirror H (Notable start past) [] db) (hdist : Distinct H out.2) :
    Mirror H (Notable start (past ++ [⟨op, db, out.1, out.2⟩])) [] out.2 := by
  cases h with
  | still hr => exact hmirror.congr (notable_quiet fun d hd => absurd hd (hr d))
  | opened =>
    rw [hmirror.migrate] at hdist ⊢
    exact hmirror.congr (notable_quiet nofun)
  | paired hr h =>
    exact (hmirror.paired h hdist).congr
      (notable_quiet fun d hd => absurd (Except.ok.inj hd) (hr d))
  | @observed key d db' h =>
    cases h with
    | passing hkey hd =>
      refine (hmirror.passing hdist).congr (notable_quiet fun d' hd' => ?_)
      cases hd'
      rw [hd]
    | @terminal k state now _ mid hkey h =>
      obtain ⟨row, -, hd, -⟩ := enqueueTerminal_ok h
      have hdk : d.key = k := by rw [hd, observed_key]
      have hterm : d.terminal = true := by rw [hd]
      have hsees : ∀ j, seesTerminal j
          (⟨op, db, .ok (.observed d), mid.remember ⟨k, state, true, d.notify, now,
            d.deliveryId⟩⟩ : Step τ) = true ↔ j = k := by
        intro j
        show (d.terminal && decide (d.key = j)) = true ↔ j = k
        rw [hterm, Bool.true_and, decide_eq_true_iff, hdk]
        exact eq_comm
      refine hmirror.terminal h hdist (fun j hj => ?_) ?_
      · rw [notable_concat, hsees, or_iff_right hj]
      · rw [notable_concat, hsees]
        exact Or.inl rfl

/-- The state of a run: the tables mirror each other, and the observations are
counted. -/
structure MirrorRun (H : Host) (start : Db τ) (past : List (Step τ)) (db : Db τ) : Prop where
  mirror : Distinct H db → Mirror H (Notable start past) [] db
  count : ∀ key, db.countOf key = start.countOf key + past.countP (observes key)
  recorded : ∀ key, db.recorded key = start.recorded key + past.countP (observes key)

theorem mirrorRun_step (hv : e.Valid (perform H F)) (h : MirrorRun H start past e.before) :
    MirrorRun H start (past ++ [e]) e.after := by
  have hacted : Acted H F e.input e.before (e.output, e.after) := by
    rw [← show perform H F e.input e.before = (e.output, e.after) from hv]
    exact perform_acted e.input e.before
  have hcounted : Counted e := hacted.counted
  refine ⟨fun hdist => hacted.mirror (h.mirror fun k k' hk hk' => ?_) hdist, fun key => ?_,
    fun key => ?_⟩
  · exact hdist k k' (hcounted.targets k hk) (hcounted.targets k' hk')
  · rw [List.countP_concat, hcounted.count, h.count, Int.add_assoc]
    split <;> rfl
  · rw [List.countP_concat, hcounted.recorded, h.recorded, Nat.add_assoc]

theorem mirrorRun (hstart : Distinct H start → Mirror H (WasNotified start) [] (migrate H start))
    (ops : List (Op τ)) : MirrorRun H start (traceOf H F start (.openLedger :: ops))
      (dbOf H F start (.openLedger :: ops)) := by
  obtain ⟨hcounts, hhistory⟩ := migrate_counts (H := H) start
  have hinit : MirrorRun H start [⟨.openLedger, start, .ok .unit, migrate H start⟩]
      (migrate H start) := by
    refine ⟨fun hdist => ?_, fun key => ?_, fun key => ?_⟩
    · refine (hstart fun k k' hk hk' => hdist k k' ?_ ?_).congr fun key => ?_
      · rw [hasTarget_iff, hcounts]
        exact hasTarget_iff.mp hk
      · rw [hasTarget_iff, hcounts]
        exact hasTarget_iff.mp hk'
      · exact or_iff_right fun ⟨e, he, hsees⟩ => by
          rw [List.mem_singleton.mp he] at hsees
          cases hsees
    · unfold Db.countOf
      rw [hcounts]
      exact (Int.add_zero _).symm
    · unfold Db.recorded
      rw [hhistory]
      rfl
  have htrace : traceOf H F start (.openLedger :: ops)
      = ⟨.openLedger, start, .ok .unit, migrate H start⟩
        :: traceOf H F (migrate H start) ops := Machine.trace_cons ..
  have hexec : dbOf H F start (.openLedger :: ops) = dbOf H F (migrate H start) ops :=
    Machine.exec_cons ..
  rw [htrace, hexec]
  exact Machine.history_invariant (perform H F) (C := fun _ => True)
    (I := fun past db => MirrorRun H start
      (⟨.openLedger, start, .ok .unit, migrate H start⟩ :: past) db)
    (migrate H start) hinit (fun past e hv _ h => mirrorRun_step hv h) ops fun _ _ => trivial

/-- The delivery of an identifier stays the one of its target and its terminal
state. -/
def Lasting (db db' : Db τ) : Prop :=
  ∀ id d, db.outbox.find? id = some d →
    ∃ d', db'.outbox.find? id = some d' ∧ d'.key = d.key ∧ d'.terminalState = d.terminalState

theorem Rewritten.lasting (h : Rewritten d d' db db') : Lasting db db' := by
  intro id r hr
  rw [h.find]
  split
  · next hid =>
    rw [hid, h.found] at hr
    cases hr
    exact ⟨d', rfl, h.key_eq, h.terminal_eq⟩
  · exact ⟨r, hr, rfl, rfl⟩

theorem Grown.lasting (h : Grown db db') : Lasting db db' :=
  fun id d hd => ⟨d, h.kept id d hd, rfl, rfl⟩

theorem Turned.lasting (h : Turned op db out) : Lasting db out.2 := by
  cases h with
  | refused e => exact fun id d hd => ⟨d, hd, rfl, rfl⟩
  | idle _ _ _ => exact fun id d hd => ⟨d, hd, rfl, rfl⟩
  | opened _ h => exact h.lasting
  | observed _ h _ => exact h.lasting
  | claimed _ h _ _ _ _ _ => exact h.lasting
  | settled h _ _ _ _ _ _ => exact h.lasting
  | resolved _ h _ _ => exact h.lasting

theorem lasting_run (db : Db τ) (ops : List (Op τ)) : Lasting db (dbOf H F db ops) := by
  refine Machine.invariant (perform H F) (C := fun _ => True) (I := Lasting db) db
    (fun id d hd => ⟨d, hd, rfl, rfl⟩) (fun e hv _ hi id d hd => ?_) ops fun _ _ => trivial
  obtain ⟨r, hr, hkey, hterm⟩ := hi id d hd
  have hturned : Turned e.input e.before (e.output, e.after) := by
    rw [← show perform H F e.input e.before = (e.output, e.after) from hv]
    exact perform_turned e.input e.before
  obtain ⟨r', hr', hkey', hterm'⟩ := hturned.lasting id r hr
  exact ⟨r', hr', hkey'.trans hkey, hterm'.trans hterm⟩

/-- The watch table mirrors the outbox. -/
structure Mirrored (start : Db τ) (past : List (Step τ)) (db : Db τ) : Prop where
  delivery_iff : ∀ t ∈ db.targets.rows,
    (∃ d ∈ db.outbox.rows, d.key = t.key) ↔ Notable start past t.key
  target : ∀ d ∈ db.outbox.rows, ∃ t ∈ db.targets.rows, t.key = d.key
  agree : ∀ t ∈ db.targets.rows, ∀ d ∈ db.outbox.rows, d.key = t.key →
    t.deliveryState = some d.status ∧ t.firstTerminal = some d.terminalState
      ∧ t.notifiedAt = d.deliveredAt
  notified_iff : ∀ t ∈ db.targets.rows, t.notifiedAt.isSome = true
    ↔ ∃ d ∈ db.outbox.rows, d.key = t.key ∧ d.status = .delivered
  without : ∀ t ∈ db.targets.rows, (∀ d ∈ db.outbox.rows, d.key ≠ t.key) → t.deliveryState = none

theorem Mirror.delivery_of_key (h : Mirror H P [] db) (ht : t ∈ db.targets.rows) :
    db.delivery? H t.key = some d ↔ d ∈ db.outbox.rows ∧ d.key = t.key := by
  constructor
  · intro hd
    exact ⟨Table.mem_of_find? hd,
      (h.agree t.key t List.not_mem_nil (Table.find?_of_mem ht)).1.key hd⟩
  · rintro ⟨hd, hkey⟩
    have hfind := Table.find?_of_mem hd
    rw [(h.owned d.id d hfind).1, hkey] at hfind
    exact hfind

theorem Mirror.mirrored (h : Mirror H (Notable start past) [] db) : Mirrored start past db := by
  have hrow : ∀ t ∈ db.targets.rows, KeyOk t (db.delivery? H t.key) := fun t ht =>
    (h.agree t.key t List.not_mem_nil (Table.find?_of_mem ht)).1
  refine ⟨fun t ht => ?_, fun d hd => ?_, fun t ht d hd hkey => ?_, fun t ht => ?_,
    fun t ht hno => ?_⟩
  · rw [← (h.agree t.key t List.not_mem_nil (Table.find?_of_mem ht)).2, Option.isSome_iff_exists]
    exact exists_congr fun d => (h.delivery_of_key ht).symm
  · obtain ⟨t, ht⟩ := (h.owned d.id d (Table.find?_of_mem hd)).2
    exact ⟨t, Table.mem_of_find? ht, Table.key_of_find? ht⟩
  · have hok := hrow t ht
    rw [(h.delivery_of_key ht).mpr ⟨hd, hkey⟩] at hok
    cases hok with
    | mirrored hm => exact ⟨hm.status, hm.terminal, hm.notified⟩
  · have hok := hrow t ht
    cases hd : db.delivery? H t.key with
    | none =>
      rw [hd] at hok
      cases hok with
      | without _ hnotified _ =>
        rw [hnotified]
        refine iff_of_false nofun ?_
        rintro ⟨d, hmem, hkey, -⟩
        have hfound := (h.delivery_of_key ht).mpr ⟨hmem, hkey⟩
        rw [hd] at hfound
        cases hfound
    | some d =>
      rw [hd] at hok
      cases hok with
      | mirrored hm =>
        obtain ⟨hmem, hkey⟩ := (h.delivery_of_key ht).mp hd
        rw [hm.notified, hm.delivered]
        constructor
        · exact fun hstatus => ⟨d, hmem, hkey, hstatus⟩
        · rintro ⟨d', hmem', hkey', hstatus⟩
          have hfound := (h.delivery_of_key ht).mpr ⟨hmem', hkey'⟩
          rw [hd] at hfound
          cases hfound
          exact hstatus
  · have hok := hrow t ht
    cases hd : db.delivery? H t.key with
    | none =>
      rw [hd] at hok
      cases hok with
      | without hstate _ _ => exact hstate
    | some d =>
      obtain ⟨hmem, hkey⟩ := (h.delivery_of_key ht).mp hd
      exact absurd hkey (hno d hmem)

/-- The watch table, in every run that opens an empty database or one of the first
version, as long as the delivery identifiers of its targets are distinct: it mirrors
the outbox, an accepted observation is counted once and recorded once, a delivery
keeps its target and its terminal state, and opening the database again changes
nothing. -/
theorem watch_mirrors (H : Host) (F : Floats τ) (targets : Table (Target.key (τ := τ)))
    (history : List (Observation τ)) (hfirst : FirstVersion targets) (ops : List (Op τ))
    (hdist : Distinct H (dbOf H F (.ofTargets targets history) (.openLedger :: ops))) :
    Mirrored (.ofTargets targets history)
        (traceOf H F (.ofTargets targets history) (.openLedger :: ops))
        (dbOf H F (.ofTargets targets history) (.openLedger :: ops))
    ∧ (∀ key, (dbOf H F (.ofTargets targets history) (.openLedger :: ops)).countOf key
        = (Db.ofTargets targets history).countOf key
          + (traceOf H F (.ofTargets targets history) (.openLedger :: ops)).countP (observes key))
    ∧ (∀ key, (dbOf H F (.ofTargets targets history) (.openLedger :: ops)).recorded key
        = (Db.ofTargets targets history).recorded key
          + (traceOf H F (.ofTargets targets history) (.openLedger :: ops)).countP (observes key))
    ∧ (∀ more, Lasting (dbOf H F (.ofTargets targets history) (.openLedger :: ops))
        (dbOf H F (.ofTargets targets history) (.openLedger :: ops ++ more)))
    ∧ migrate H (dbOf H F (.ofTargets targets history) (.openLedger :: ops))
      = dbOf H F (.ofTargets targets history) (.openLedger :: ops) := by
  have hrun : MirrorRun H (.ofTargets targets history)
      (traceOf H F (.ofTargets targets history) (.openLedger :: ops))
      (dbOf H F (.ofTargets targets history) (.openLedger :: ops)) :=
    mirrorRun (migrate_mirror hfirst) ops
  have hmirror := hrun.mirror hdist
  refine ⟨hmirror.mirrored, hrun.count, hrun.recorded, fun more => ?_, hmirror.migrate⟩
  have hexec : dbOf H F (.ofTargets targets history) (.openLedger :: ops ++ more)
      = dbOf H F (dbOf H F (.ofTargets targets history) (.openLedger :: ops)) more :=
    Machine.exec_append ..
  rw [hexec]
  exact lasting_run _ more

-- == try-outs

theorem distinct_of_nodup
    (h : (db.targets.rows.map fun t => deliveryId H t.key).Nodup) : Distinct H db := by
  rintro k k' ⟨t, ht⟩ ⟨t', ht'⟩ hid
  have hk := Table.key_of_find? ht
  have hk' := Table.key_of_find? ht'
  rw [← hk, ← hk'] at hid ⊢
  exact congrArg Target.key
    (List.inj_on_of_nodup_map h (Table.mem_of_find? ht) (Table.mem_of_find? ht') hid)

/-- One target of the first version, notified at 3. -/
def firstTargets : Table (Target.key (τ := Int)) :=
  ⟨[⟨.lit "build", .lit "green", some (.lit "green"), some 3, 2, 1, 3, none, none⟩],
    List.nodup_singleton _⟩

/-- The old notification is looked into, a new target becomes terminal, and its
notification is delivered. -/
def firstOps : List (Op Int) :=
  [.resolve (deliveryId (Host.sample fun n => n) (.lit "build")).str true 5,
    .observe (py "deploy") (py "running") [py "done"] 6,
    .observe (py "deploy") (py "done") [py "done"] 7,
    .claim (py "worker") 10 8 none,
    .acknowledge (deliveryId (Host.sample fun n => n) (.lit "deploy")).str (py "worker") 1 9,
    .openLedger]

theorem watch_mirrors_firstOps :
    (dbOf (Host.sample fun n => n) Floats.sample (.ofTargets firstTargets [])
      (.openLedger :: firstOps)).countOf (.lit "deploy") = 2
    ∧ Mirrored (.ofTargets firstTargets [])
      (traceOf (Host.sample fun n => n) Floats.sample (.ofTargets firstTargets [])
        (.openLedger :: firstOps))
      (dbOf (Host.sample fun n => n) Floats.sample (.ofTargets firstTargets [])
        (.openLedger :: firstOps)) := by
  have hfirst : FirstVersion firstTargets := by
    intro t ht
    rw [List.mem_singleton.mp ht]
    decide
  have h := watch_mirrors (Host.sample fun n => n) Floats.sample firstTargets [] hfirst
    firstOps (distinct_of_nodup (by decide +kernel))
  exact ⟨by decide +kernel, h.1⟩

end Centinal26.Watch
