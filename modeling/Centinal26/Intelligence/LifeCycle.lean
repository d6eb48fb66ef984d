/-
The life of a work item.
-/
import Centinal26.Intelligence.Pool

namespace Centinal26.Intelligence

open Py Steps

variable {H : Host}

-- == transactions

/-- New items, which wait; an item of an event has its key. -/
structure Grown (db db' : Db) : Prop where
  kept : ∀ k i, db.workItems.find? k = some i → db'.workItems.find? k = some i
  new : ∀ k i, db'.workItems.find? k = some i → db.workItems.find? k = some i
    ∨ db.workItems.find? k = none ∧ i.status = .queued ∧ isoTime i.dueAt = .ok ()
      ∧ ∀ e, i.sourceEventKey = some e → k = named "event:" e
  processing : db'.processing = db.processing

variable {db db' : Db}

theorem Grown.of_eq (h : db'.workItems = db.workItems)
    (hp : db'.processing = db.processing) : Grown db db' :=
  ⟨fun k i hi => by rw [h, hi], fun k i hi => Or.inl (by rw [← h, hi]), hp⟩

theorem Grown.trans {a b c : Db} (h : Grown a b) (h' : Grown b c) : Grown a c where
  kept k i hi := h'.kept k i (h.kept k i hi)
  new k i hi := by
    rcases h'.new k i hi with hb | ⟨hnone, hqueued, htime, hkey⟩
    · exact h.new k i hb
    · refine Or.inr ⟨?_, hqueued, htime, hkey⟩
      cases ha : a.workItems.find? k with
      | none => rfl
      | some j =>
        rw [h.kept k j ha] at hnone
        cases hnone
  processing := h'.processing.trans h.processing

theorem enqueueWork_grown {item : WorkItem} (h : enqueueWork item db = .ok db')
    (hqueued : item.status = .queued) (htime : isoTime item.dueAt = .ok ())
    (hkey : ∀ e, item.sourceEventKey = some e → item.workKey = named "event:" e) :
    Grown db db' := by
  unfold enqueueWork at h
  split at h
  · cases h
    exact .of_eq rfl rfl
  · next workItems hins =>
    split at h
    · cases h
      have hfind : ∀ k, workItems.find? k
          = if k = item.workKey then some item else db.workItems.find? k :=
        Table.find?_insert hins
      have hfree : db.workItems.find? item.workKey = none := Table.find?_of_insert hins
      refine ⟨fun k i hi => ?_, fun k i hi => ?_, rfl⟩
      · show workItems.find? k = some i
        rw [hfind, if_neg fun hk => by rw [hk, hfree] at hi; cases hi]
        exact hi
      · replace hi : workItems.find? k = some i := hi
        rw [hfind] at hi
        split at hi
        · next hk =>
          cases hi
          rw [hk]
          exact Or.inr ⟨hfree, hqueued, htime, hkey⟩
        · exact Or.inl hi
    · cases h

theorem storeChange_grown {c : Change} {policy : CadencePolicy}
    (hmade : c.Made H) (h : storeChange c policy db = .ok db') : Grown db db' := by
  obtain ⟨evidence, -, h⟩ := of_bind_ok h
  obtain ⟨contradiction, -, h⟩ := of_bind_ok h
  obtain ⟨hkept, hnew, hprocessing⟩ := enqueueWork_grown h rfl hmade.timed fun e he => by
    cases he
    rfl
  exact ⟨hkept, hnew, hprocessing⟩

theorem ensureScheduledWork_grown {s : Schedule} {keys : List Text}
    (h : ensureScheduledWork s db = .ok (keys, db')) : Grown db db' := by
  obtain ⟨_, htime, h⟩ := of_bind_ok h
  refine foldlM_schedule (P := Grown db) (fun out out' eventClass hone hP => hP.trans ?_) h
    (.of_eq rfl rfl)
  obtain ⟨policy, -, hone⟩ := of_bind_ok hone
  obtain ⟨payload, -, hone⟩ := of_bind_ok hone
  obtain ⟨mid, hmid, hone⟩ := of_bind_ok hone
  cases hone
  exact enqueueWork_grown hmid rfl htime nofun

structure Rewritten (key : Text) (i i' : WorkItem) (db db' : Db) : Prop where
  found : db.workItems.find? key = some i
  find : ∀ k, db'.workItems.find? k = if k = key then some i' else db.workItems.find? k
  source : i'.sourceEventKey = i.sourceEventKey

structure Granted (key : Text) (lease : Int) (now : Instant) (db db' : Db) : Prop where
  rewritten : ∃ i claimer, Rewritten key i (i.claimed claimer (now + lease * 1000000)) db db'
    ∧ i.isClaimable now = true ∧ i.dueAt ≤ now
  later : now ≤ now + lease * 1000000
  processing : db'.processing = db.processing

/-- What is recorded when an item is completed. -/
def recorded (source : Option Text) (now : Instant) (result : Json) (db : Db) :
    Table Processing.eventKey :=
  match source with
  | none => db.processing
  | some key => db.processing.upsert ⟨key, now, result⟩

structure Completed (key : Text) (result : PyVal) (now : Instant) (db db' : Db) : Prop where
  rewritten : ∃ i column, Rewritten key i (i.completed column now) db db'
    ∧ i.status ≠ .complete ∧ dumpsStrict result = .ok column
    ∧ db'.processing = recorded i.sourceEventKey now column db

/-- What a transaction does to the items (module header). -/
inductive Turned (w : Write) (db : Db) : Except PyErr Answer × Db → Prop
  | grown {r : Except PyErr Answer} {db' : Db} (hr : ∀ k, r ≠ .ok (.claimed (some k)))
      (h : Grown db db') : Turned w db (r, db')
  | granted {key claimer : PyStr} {lease : Int} {now : Instant} {k : Text} {db' : Db}
      (hw : w = .claim key claimer lease now) (hk : encode key = .ok k)
      (h : Granted k lease now db db') : Turned w db (.ok (.claimed (some k)), db')
  | completed {key : PyStr} {result : PyVal} {now : Instant} {k : Text} {db' : Db}
      (hw : w = .complete key result now) (hk : encode key = .ok k)
      (h : Completed k result now db db') : Turned w db (.ok .completed, db')

theorem claimWork_turned {key claimer : PyStr} {lease : Int} {now : Instant}
    {r : Option Text} (h : claimWork key claimer lease now db = .ok (r, db')) :
    Turned (.claim key claimer lease now) db (.ok (.claimed r), db') := by
  unfold claimWork at h
  split at h
  · cases h
  · next hlease =>
    obtain ⟨_, -, h⟩ := of_bind_ok h
    obtain ⟨leaseUntil, hlater, h⟩ := of_bind_ok h
    obtain ⟨k, hk, h⟩ := of_bind_ok h
    have huntil : leaseUntil = now + lease * 1000000 := by
      unfold addSeconds at hlater
      split at hlater
      · cases hlater
        rfl
      · cases hlater
    split at h
    · cases h
      exact .grown (fun _ h => by cases h) (.of_eq rfl rfl)
    · next item hfind =>
      split at h
      · cases h
        exact .grown (fun _ h => by cases h) (.of_eq rfl rfl)
      · next hclaimable =>
        obtain ⟨owner, -, h⟩ := of_bind_ok h
        cases h
        have hpositive : 0 ≤ lease * 1000000 := by omega
        rw [Bool.not_eq_true, Bool.or_eq_false_iff, Bool.not_eq_false'] at hclaimable
        refine .granted rfl hk ⟨⟨item, owner, ⟨hfind, fun j => ?_, rfl⟩, hclaimable.1,
          Int.not_lt.mp (of_decide_eq_false hclaimable.2)⟩,
          Int.le_add_of_nonneg_right hpositive, rfl⟩
        rw [← huntil]
        refine (Table.find?_modify db.workItems k (fun i => i.claimed owner leaseUntil)
          (fun _ => rfl) j).trans ?_
        rw [hfind, Option.map_some]

theorem recordProcessed_ok {source : Option Text} {result : Json} {now : Instant}
    (h : recordProcessed source result now db = .ok db') :
    db'.workItems = db.workItems ∧ db'.processing = recorded source now result db := by
  unfold recordProcessed at h
  split at h
  · cases h
    exact ⟨rfl, rfl⟩
  · split at h
    · cases h
      exact ⟨rfl, rfl⟩
    · cases h

theorem completeWork_turned {key : PyStr} {result : PyVal} {now : Instant}
    {r : Unit} (h : completeWork key result now db = .ok (r, db')) :
    Turned (.complete key result now) db (.ok .completed, db') := by
  unfold completeWork at h
  obtain ⟨_, -, h⟩ := of_bind_ok h
  obtain ⟨k, hk, h⟩ := of_bind_ok h
  split at h
  · cases h
  · next item hfind =>
    split at h
    · cases h
      exact .grown nofun (.of_eq rfl rfl)
    · next hstatus =>
      obtain ⟨column, hcolumn, h⟩ := of_bind_ok h
      obtain ⟨mid, hmid, h⟩ := of_bind_ok h
      cases h
      obtain ⟨hitems, hprocessing⟩ := recordProcessed_ok hmid
      refine .completed rfl hk ⟨item, column, ⟨hfind, fun j => ?_, rfl⟩, hstatus,
        canonicalColumn_ok hcolumn, hprocessing⟩
      rw [hitems]
      refine (Table.find?_modify db.workItems k (fun i => i.completed column now)
        (fun _ => rfl) j).trans ?_
      rw [hfind, Option.map_some]

theorem commit_turned {w : Write} (hmade : w.Made H) (db : Db) : Turned w db (w.tx.commit db) := by
  rcases Tx.commit_cases w.tx db with ⟨r, db', h, hcommit⟩ | ⟨e, -, hcommit⟩
  · rw [hcommit]
    cases w with
    | store c policy =>
      obtain ⟨mid, hmid, h⟩ := of_bind_ok h
      cases h
      exact .grown nofun (storeChange_grown hmade hmid)
    | schedule s =>
      obtain ⟨out, hout, h⟩ := of_bind_ok h
      cases h
      exact .grown nofun (ensureScheduledWork_grown hout)
    | claim key claimer lease now =>
      obtain ⟨out, hout, h⟩ := of_bind_ok h
      cases h
      exact claimWork_turned hout
    | complete key result now =>
      obtain ⟨out, hout, h⟩ := of_bind_ok h
      cases h
      exact completeWork_turned hout
  · rw [hcommit]
    exact .grown nofun (.of_eq rfl rfl)

-- == what happened

structure Grant where
  key : Text
  now : Instant
  leaseUntil : Instant

def Write.grants? : Write → Except PyErr Answer → Option Grant
  | .claim _ _ lease now, .ok (.claimed (some key)) =>
    some ⟨key, now, now + lease * 1000000⟩
  | _, _ => none

def granted? (e : Step) : Option Grant :=
  match e.output with
  | .stepped _ (.write w) _ => w.grants? (w.tx.commit e.before.shared).1
  | _ => none

/-- The claims that were granted, in their order. -/
def grants (past : List Step) : List Grant := past.filterMap granted?

/-- What a run keeps (module header). -/
structure RunOk (past : List Step) (db : Db) : Prop where
  exclusive : (grants past).Pairwise fun g g' => g.key = g'.key → g.leaseUntil ≤ g'.now
  claimed : ∀ g ∈ grants past, ∃ i, db.workItems.find? g.key = some i ∧ i.status ≠ .queued
  leased : ∀ k i, db.workItems.find? k = some i → i.status = .running →
    ∃ t, i.leaseUntil = some t ∧ ∀ g ∈ grants past, g.key = k → g.leaseUntil ≤ t
  timed : ∀ k i, db.workItems.find? k = some i → isoTime i.dueAt = .ok ()
    ∧ (i.status = .running → ∃ t, i.leaseUntil = some t ∧ i.dueAt ≤ t)
  keyed : ∀ k i e, db.workItems.find? k = some i → i.sourceEventKey = some e → k = named "event:" e
  processed : ∀ k i e, db.workItems.find? k = some i → i.sourceEventKey = some e →
    i.status = .complete → ∃ p, db.processing.find? e = some p ∧ i.result = some p.result
      ∧ i.completedAt = some p.processedAt
  complete : ∀ e p, db.processing.find? e = some p →
    ∃ k i, db.workItems.find? k = some i ∧ i.sourceEventKey = some e ∧ i.status = .complete

theorem grants_concat (past : List Step) (e : Step) :
    grants (past ++ [e]) = grants past ++ (granted? e).toList := by
  unfold grants
  rw [List.filterMap_append]
  cases h : granted? e <;> simp [h]

theorem grants_quiet {past : List Step} {e : Step} (h : granted? e = none) :
    grants (past ++ [e]) = grants past := by
  rw [grants_concat, h]
  exact List.append_nil _

section Steps

variable {past : List Step} {e : Step} {db db' : Db}

theorem RunOk.grown (h : RunOk past db) (hg : Grown db db')
    (hquiet : grants (past ++ [e]) = grants past) : RunOk (past ++ [e]) db' where
  exclusive := by
    rw [hquiet]
    exact h.exclusive
  claimed g hmem := by
    rw [hquiet] at hmem
    obtain ⟨i, hi, hstatus⟩ := h.claimed g hmem
    exact ⟨i, hg.kept _ _ hi, hstatus⟩
  leased k i hi hstatus := by
    rw [hquiet]
    rcases hg.new k i hi with hi | ⟨-, hqueued, -, -⟩
    · exact h.leased k i hi hstatus
    · rw [hstatus] at hqueued
      cases hqueued
  timed k i hi := by
    rcases hg.new k i hi with hi | ⟨-, hqueued, htime, -⟩
    · exact h.timed k i hi
    · exact ⟨htime, fun hrunning => by rw [hrunning] at hqueued; cases hqueued⟩
  keyed k i e hi he := by
    rcases hg.new k i hi with hi | ⟨-, -, -, hkey⟩
    · exact h.keyed k i e hi he
    · exact hkey e he
  processed k i e hi he hstatus := by
    rw [hg.processing]
    rcases hg.new k i hi with hi | ⟨-, hqueued, -, -⟩
    · exact h.processed k i e hi he hstatus
    · rw [hstatus] at hqueued
      cases hqueued
  complete e p hp := by
    rw [hg.processing] at hp
    obtain ⟨k, i, hi, hsource, hstatus⟩ := h.complete e p hp
    exact ⟨k, i, hg.kept k i hi, hsource, hstatus⟩

theorem Rewritten.at_key {key : Text} {i i' : WorkItem} (h : Rewritten key i i' db db') :
    db'.workItems.find? key = some i' := by
  rw [h.find, if_pos rfl]

theorem Rewritten.other {key k : Text} {i i' j : WorkItem} (h : Rewritten key i i' db db')
    (hj : db'.workItems.find? k = some j) (hne : k ≠ key) : db.workItems.find? k = some j := by
  rw [h.find, if_neg hne] at hj
  exact hj

theorem RunOk.expired (h : RunOk past db) {key : Text} {i : WorkItem} {now : Instant}
    (hi : db.workItems.find? key = some i) (hclaimable : i.isClaimable now = true) :
    ∀ g ∈ grants past, g.key = key → g.leaseUntil ≤ now := by
  intro g hg hkey
  rcases Bool.or_eq_true_iff.mp hclaimable with hqueued | hrunning
  · obtain ⟨j, hj, hstatus⟩ := h.claimed g hg
    rw [hkey, hi] at hj
    cases hj
    exact absurd (of_decide_eq_true hqueued) hstatus
  · obtain ⟨hstatus, hover⟩ := Bool.and_eq_true_iff.mp hrunning
    obtain ⟨t, ht, hall⟩ := h.leased key i hi (of_decide_eq_true hstatus)
    rw [ht] at hover
    have hle : t ≤ now := of_decide_eq_true hover
    exact Int.le_trans (hall g hg hkey) hle

theorem RunOk.granted (h : RunOk past db) {key : Text} {lease : Int} {now : Instant}
    (hg : Granted key lease now db db')
    (hnew : grants (past ++ [e]) = grants past ++ [⟨key, now, now + lease * 1000000⟩]) :
    RunOk (past ++ [e]) db' := by
  obtain ⟨⟨i, claimer, hrew, hclaimable, hdue⟩, hlater, hprocessing⟩ := hg
  have hexpired := h.expired hrew.found hclaimable
  have hincomplete : i.status ≠ .complete := by
    intro hs
    unfold WorkItem.isClaimable at hclaimable
    rw [hs] at hclaimable
    cases hclaimable
  refine ⟨?_, fun g hmem => ?_, fun k j hj hstatus => ?_, fun k j hj => ?_,
    fun k j x hj hx => ?_, fun k j x hj hx hstatus => ?_, fun x p hp => ?_⟩
  · rw [hnew, List.pairwise_append]
    refine ⟨h.exclusive, List.pairwise_singleton .., fun g hmem g' hmem' hkey => ?_⟩
    rw [List.mem_singleton.mp hmem'] at hkey ⊢
    exact hexpired g hmem hkey
  · rw [hrew.find]
    split
    · exact ⟨_, rfl, (fun h => by cases h)⟩
    · next hne =>
      rw [hnew, List.mem_append, List.mem_singleton] at hmem
      rcases hmem with hmem | rfl
      · exact h.claimed g hmem
      · exact absurd rfl hne
  · rw [hnew]
    by_cases hk : k = key
    · rw [hk, hrew.at_key] at hj
      cases hj
      refine ⟨_, rfl, fun g hmem hkey => ?_⟩
      rcases List.mem_append.mp hmem with hmem | hmem
      · exact Int.le_trans (hexpired g hmem (hkey.trans hk)) hlater
      · obtain rfl := List.mem_singleton.mp hmem
        exact Int.le_refl _
    · obtain ⟨t, ht, hall⟩ := h.leased k j (hrew.other hj hk) hstatus
      refine ⟨t, ht, fun g hmem hkey => ?_⟩
      rcases List.mem_append.mp hmem with hmem | hmem
      · exact hall g hmem hkey
      · rw [List.mem_singleton.mp hmem] at hkey
        exact absurd hkey.symm hk
  · by_cases hk : k = key
    · rw [hk, hrew.at_key] at hj
      cases hj
      exact ⟨(h.timed key i hrew.found).1, fun _ => ⟨_, rfl, Int.le_trans hdue hlater⟩⟩
    · exact h.timed k j (hrew.other hj hk)
  · by_cases hk : k = key
    · rw [hk, hrew.at_key] at hj
      cases hj
      rw [hk]
      exact h.keyed key i x hrew.found hx
    · exact h.keyed k j x (hrew.other hj hk) hx
  · rw [hprocessing]
    by_cases hk : k = key
    · rw [hk, hrew.at_key] at hj
      cases hj
      cases hstatus
    · exact h.processed k j x (hrew.other hj hk) hx hstatus
  · rw [hprocessing] at hp
    obtain ⟨k, j, hj, hsource, hstatus⟩ := h.complete x p hp
    refine ⟨k, j, ?_, hsource, hstatus⟩
    rw [hrew.find, if_neg fun hk => ?_]
    · exact hj
    · rw [hk, hrew.found] at hj
      cases hj
      exact hincomplete hstatus

theorem RunOk.completed (h : RunOk past db) {key : Text} {result : PyVal} {now : Instant}
    (hc : Completed key result now db db') (hquiet : grants (past ++ [e]) = grants past) :
    RunOk (past ++ [e]) db' := by
  obtain ⟨i, column, hrew, hstatus, -, hprocessing⟩ := hc
  have hfind : ∀ x, db'.processing.find? x = if i.sourceEventKey = some x
      then some ⟨x, now, column⟩ else db.processing.find? x := by
    intro x
    rw [hprocessing]
    unfold recorded
    cases hs : i.sourceEventKey with
    | none => rw [if_neg (fun h => by cases h)]
    | some y =>
      refine (Table.find?_upsert db.processing ⟨y, now, column⟩ x).trans ?_
      by_cases hx : x = y
      · rw [hx, if_pos rfl, if_pos rfl]
      · rw [if_neg hx, if_neg fun hy => hx (Option.some.inj hy).symm]
  refine ⟨?_, fun g hmem => ?_, fun k j hj hrunning => ?_, fun k j hj => ?_,
    fun k j x hj hx => ?_, fun k j x hj hx hcomplete => ?_, fun x p hp => ?_⟩
  · rw [hquiet]
    exact h.exclusive
  · rw [hquiet] at hmem
    rw [hrew.find]
    split
    · exact ⟨_, rfl, (fun h => by cases h)⟩
    · exact h.claimed g hmem
  · rw [hquiet]
    by_cases hk : k = key
    · rw [hk, hrew.at_key] at hj
      cases hj
      cases hrunning
    · exact h.leased k j (hrew.other hj hk) hrunning
  · by_cases hk : k = key
    · rw [hk, hrew.at_key] at hj
      cases hj
      exact ⟨(h.timed key i hrew.found).1, (fun h => by cases h)⟩
    · exact h.timed k j (hrew.other hj hk)
  · by_cases hk : k = key
    · rw [hk, hrew.at_key] at hj
      cases hj
      rw [hk]
      exact h.keyed key i x hrew.found hx
    · exact h.keyed k j x (hrew.other hj hk) hx
  · rw [hfind]
    by_cases hk : k = key
    · rw [hk, hrew.at_key] at hj
      cases hj
      rw [if_pos (show i.sourceEventKey = some x from hx)]
      exact ⟨_, rfl, rfl, rfl⟩
    · have hj' := hrew.other hj hk
      rw [if_neg fun hsame => hk ((h.keyed k j x hj' hx).trans
        (h.keyed key i x hrew.found hsame).symm)]
      exact h.processed k j x hj' hx hcomplete
  · rw [hfind] at hp
    split at hp
    · next hsource => exact ⟨key, _, hrew.at_key, hsource, rfl⟩
    · obtain ⟨k, j, hj, hsource, hcomplete⟩ := h.complete x p hp
      refine ⟨k, j, ?_, hsource, hcomplete⟩
      rw [hrew.find, if_neg fun hk => ?_]
      · exact hj
      · rw [hk, hrew.found] at hj
        cases hj
        exact hstatus hcomplete

end Steps

variable {w : Write} {k : Text} {i : WorkItem}

theorem grants?_none {r : Except PyErr Answer}
    (h : ∀ k, r ≠ .ok (.claimed (some k))) : w.grants? r = none := by
  unfold Write.grants?
  split
  · exact absurd rfl (h _)
  · rfl

theorem granted?_still {e : Step} (ho : ∀ i w g, e.output ≠ .stepped i (.write w) g) :
    granted? e = none := by
  unfold granted?
  split
  · next heq => exact absurd heq (ho _ _ _)
  · rfl

theorem runOk_step {past : List Step} {e : Step} (hmoves : Moves H e)
    (h : RunOk past e.before.shared) : RunOk (past ++ [e]) e.after.shared := by
  cases hmoves with
  | still ho hs =>
    rw [hs]
    exact h.grown (.of_eq rfl rfl) (grants_quiet (granted?_still ho))
  | @wrote i w ho hmade hs =>
    have hturned := commit_turned hmade e.before.shared
    have hgranted : granted? e = w.grants? (w.tx.commit e.before.shared).1 := by
      unfold granted?
      rw [ho]
    rw [hs]
    generalize w.tx.commit e.before.shared = out at hturned hgranted ⊢
    cases hturned with
    | grown hr hgrown =>
      exact h.grown hgrown (grants_quiet (hgranted.trans (grants?_none hr)))
    | granted hw _ hg =>
      subst hw
      exact h.granted hg (by rw [grants_concat, hgranted]; rfl)
    | completed hw _ hc =>
      subst hw
      exact h.completed hc (grants_quiet hgranted)

-- == runs

theorem Turned.absorbing {db : Db} {out : Except PyErr Answer × Db}
    (h : Turned w db out) (hi : db.workItems.find? k = some i)
    (hstatus : i.status = .complete) : out.2.workItems.find? k = some i := by
  have hother : ∀ {key : Text} {j j' : WorkItem} {db' : Db}, Rewritten key j j' db db' →
      j.status ≠ .complete → db'.workItems.find? k = some i := by
    intro key j j' db' hrew hj
    rw [hrew.find, if_neg fun hk => ?_]
    · exact hi
    · rw [hk, hrew.found] at hi
      cases hi
      exact hj hstatus
  cases h with
  | grown hr hg => exact hg.kept k i hi
  | granted _ _ hg =>
    obtain ⟨⟨j, claimer, hrew, hclaimable, -⟩, -, -⟩ := hg
    refine hother hrew fun hj => ?_
    unfold WorkItem.isClaimable at hclaimable
    rw [hj] at hclaimable
    cases hclaimable
  | completed _ _ hc =>
    obtain ⟨j, column, hrew, hj, -, -⟩ := hc
    exact hother hrew hj

theorem absorbing_run {p : Procs} (hsat : AllOutlined H p)
    (hi : p.shared.workItems.find? k = some i) (hstatus : i.status = .complete)
    (more : List (Sched Op)) :
    (Machine.exec (step H) more p).shared.workItems.find? k = some i := by
  have hrun := run_invariant (C := fun _ => True)
    (I := fun _ db => db.workItems.find? k = some i) hsat hi (fun past e hmoves _ hI => ?_)
    more fun _ _ => trivial
  · exact hrun.2
  · cases hmoves with
    | @wrote n w _ hmade hs =>
      rw [hs]
      exact (commit_turned hmade e.before.shared).absorbing hI hstatus
    | still _ hs =>
      rw [hs]
      exact hI

theorem poolOf_append (sched more : List (Sched Op)) :
    poolOf H (sched ++ more) = Machine.exec (step H) more (poolOf H sched) :=
  Machine.exec_append (step H) sched more (Pool.idle .seeded)

/-- The first completion of an item records its result and its time. -/
def FirstRecorded (e : Step) : Prop :=
  ∀ n key result now, e.output = .stepped n (.write (.complete key result now)) () →
    ∀ k i i', e.before.shared.workItems.find? k = some i → i.status ≠ .complete →
      e.after.shared.workItems.find? k = some i' → i'.status = .complete →
      k.str = key ∧ i'.completedAt = some now ∧ i'.result.map .ok = some (dumpsStrict result)

theorem firstRecorded_step {e : Step} (hmoves : Moves H e) : FirstRecorded e := by
  intro n key result now ho k i i' hi hstatus hi' hcomplete
  cases hmoves with
  | still hquiet _ => exact absurd ho (hquiet _ _ _)
  | @wrote m w hw hmade hs =>
    rw [ho] at hw
    cases hw
    have hturned := commit_turned hmade e.before.shared
    rw [hs] at hi'
    generalize (Write.complete key result now).tx.commit e.before.shared = out at hturned hi'
    cases hturned with
    | grown _ hg =>
      rw [hg.kept k i hi] at hi'
      cases hi'
      exact absurd hcomplete hstatus
    | granted hw _ _ => cases hw
    | completed hw hk hc =>
      cases hw
      obtain ⟨j, column, hrew, -, hcolumn, -⟩ := hc
      replace hi' := (hrew.find k).symm.trans hi'
      split at hi'
      · next hkey =>
        cases hi'
        rw [hkey]
        exact ⟨encode_eq_ok.mp hk, rfl, congrArg some hcolumn.symm⟩
      · rw [hi] at hi'
        cases hi'
        exact absurd hcomplete hstatus

/-- Work items, over a run. -/
structure WorkLife (H : Host) (sched : List (Sched Op)) : Prop where
  exclusive : (grants (poolTrace H sched)).Pairwise fun g g' =>
    g.key = g'.key → g.leaseUntil ≤ g'.now
  absorbing : ∀ more k i, (poolOf H sched).shared.workItems.find? k = some i →
    i.status = .complete → (poolOf H (sched ++ more)).shared.workItems.find? k = some i
  recorded : ∀ e ∈ poolTrace H sched, FirstRecorded e
  unique : ((poolOf H sched).shared.workItems.rows.map WorkItem.workKey).Nodup
  processed_iff : ∀ key, (∃ p ∈ (poolOf H sched).shared.processing.rows, p.eventKey = key)
    ↔ ∃ i ∈ (poolOf H sched).shared.workItems.rows,
      i.sourceEventKey = some key ∧ i.status = .complete
  result : ∀ p ∈ (poolOf H sched).shared.processing.rows,
    ∀ i ∈ (poolOf H sched).shared.workItems.rows, i.sourceEventKey = some p.eventKey →
      i.result = some p.result ∧ i.completedAt = some p.processedAt

theorem runOk_seeded : RunOk [] .seeded where
  exclusive := .nil
  claimed g hg := by cases hg
  leased k i hi := by cases hi
  timed k i hi := by cases hi
  keyed k i e hi := by cases hi
  processed k i e hi := by cases hi
  complete e p hp := by cases hp

theorem runOk_run (H : Host) (sched : List (Sched Op)) :
    AllOutlined H (poolOf H sched) ∧ RunOk (poolTrace H sched) (poolOf H sched).shared
      ∧ ∀ e ∈ poolTrace H sched, FirstRecorded e := by
  refine run_invariant (C := fun _ => True)
    (I := fun past db => RunOk past db ∧ ∀ e ∈ past, FirstRecorded e) idle_outlined
    ⟨runOk_seeded, fun e he => by cases he⟩ (fun past e hmoves _ hI => ?_) sched
    fun _ _ => trivial
  refine ⟨runOk_step hmoves hI.1, fun x hx => ?_⟩
  rcases List.mem_append.mp hx with hx | hx
  · exact hI.2 x hx
  · rw [List.mem_singleton.mp hx]
    exact firstRecorded_step hmoves

/-- In every interleaving of the controllers' operations, an item is claimed again only
when its earlier claims have run out, and a complete item keeps its first result; a
work key is there once; and an event has been processed, with the result of its item,
exactly if its item is complete. -/
theorem work_lifeCycle (H : Host) (sched : List (Sched Op)) : WorkLife H sched := by
  obtain ⟨hsat, hrun, hrecorded⟩ := runOk_run H sched
  have hitem : ∀ {key : Text} {p : Processing},
      (poolOf H sched).shared.processing.find? key = some p →
      ∃ i ∈ (poolOf H sched).shared.workItems.rows,
        i.sourceEventKey = some key ∧ i.status = .complete := by
    intro key p hp
    obtain ⟨k, i, hi, hsource, hstatus⟩ := hrun.complete key p hp
    exact ⟨i, Table.mem_of_find? hi, hsource, hstatus⟩
  refine ⟨hrun.exclusive, fun more k i hi hstatus => ?_, hrecorded,
    (poolOf H sched).shared.workItems.nodup, fun key => ⟨?_, ?_⟩, fun p hp i hi hsource => ?_⟩
  · rw [poolOf_append]
    exact absorbing_run hsat hi hstatus more
  · rintro ⟨p, hp, rfl⟩
    exact hitem (Table.find?_of_mem hp)
  · rintro ⟨i, hi, hsource, hstatus⟩
    obtain ⟨p, hp, -⟩ := hrun.processed i.workKey i key (Table.find?_of_mem hi) hsource hstatus
    exact ⟨p, Table.mem_of_find? hp, Table.key_of_find? hp⟩
  · have hp' := Table.find?_of_mem hp
    have hi' := Table.find?_of_mem hi
    obtain ⟨k, j, hj, hjsource, hstatus⟩ := hrun.complete p.eventKey p hp'
    have hsame : i.workKey = k := (hrun.keyed _ i _ hi' hsource).trans
      (hrun.keyed k j _ hj hjsource).symm
    rw [hsame, hj] at hi'
    cases hi'
    obtain ⟨q, hq, hresult⟩ := hrun.processed _ _ p.eventKey hj hsource hstatus
    rw [hp'] at hq
    cases hq
    exact hresult

end Centinal26.Intelligence
