/-
No change is lost where none comes twice.
-/
import Centinal26.Intelligence.Store
import Centinal26.Lib.Chain

namespace Centinal26.Intelligence

open Py

variable {H : Host}

-- == vocabulary

namespace Db

/-- The events of a source, in the order of `seq`. -/
def eventsOf (db : Db) (source : PyStr × PyStr) : List ChangeEvent :=
  db.changeEvents.filter fun e => decide (e.source = source)

/-- The events of a source lead from the genesis hash to its snapshot. -/
structure Tracked (db : Db) (source : PyStr × PyStr) : Prop where
  linked : Chain.Linked ChangeEvent.previousHash ChangeEvent.currentHash genesis
    (db.eventsOf source)
  ends : (db.eventsOf source).getLast?.map ChangeEvent.currentHash
    = (db.snapshots.find? source).map Snapshot.contentHash

/-- The change is stored, with a work item that waits. -/
structure Kept (db : Db) (c : Change) : Prop where
  event : ∃ e ∈ db.changeEvents, e.eventKey = c.body.eventKey ∧ e.eventHash = c.eventHash
  work : ∃ item ∈ db.workItems.rows, item.sourceEventKey = some c.body.eventKey
    ∧ item.kind = "CHANGE_EVENT" ∧ item.status = .queued

/-- Every work item is about an event there is. -/
def WorkKeyed (db : Db) : Prop :=
  ∀ item ∈ db.workItems.rows, ∃ e ∈ db.changeEvents, item.workKey = named "event:" e.eventKey

end Db

/-- No stored event has the key of the change the call detects, if it detects
one. -/
def isNew (H : Host) (a : Observation) (w : World) : Bool :=
  match Severity.ofName? a.severity with
  | none => true
  | some severity =>
    match detect H a severity (w.time H a.now) w.db with
    | .ok (some (c, _)) => w.db.changeEvents.all fun e =>
      decide (e.eventKey ≠ c.body.eventKey)
    | _ => true

-- == steps

theorem named_injective {name : String} {s t : Text} (h : named name s = named name t) : s = t :=
  Text.ext (List.append_cancel_left (congrArg Text.str h))

variable {db : Db} {c : Change} {policy : CadencePolicy}

theorem detect_some {a : Observation} {severity : Severity} {now : Instant}
   
    (h : detect H a severity now db = .ok (some (c, policy))) :
    c.body.previousHash = db.previousHash c.body.source := by
  unfold detect at h
  obtain ⟨current, -, h⟩ := of_bind_ok h
  obtain ⟨kind, hkind, h⟩ := of_bind_ok h
  obtain ⟨key, hkey, h⟩ := of_bind_ok h
  split at h
  · cases h
  · obtain ⟨p, -, h⟩ := of_bind_ok h
    obtain ⟨dedupe, -, h⟩ := of_bind_ok h
    obtain ⟨type, -, h⟩ := of_bind_ok h
    obtain ⟨digest, -, h⟩ := of_bind_ok h
    cases h
    show db.previousHash (a.sourceKind, a.sourceKey) = db.previousHash (kind.str, key.str)
    rw [encode_eq_ok.mp hkind, encode_eq_ok.mp hkey]

/-- What the transaction of a change with a key of its own does. -/
structure Stored (c : Change) (policy : CadencePolicy) (db db' : Db) : Prop where
  rows : ∃ evidence contradiction,
    db'.changeEvents = db.changeEvents ++ [c.row evidence contradiction]
      ∧ db'.snapshots = db.snapshots.upsert (c.snapshot evidence)
  work : db'.workItems.rows = db.workItems.rows ++ [c.work policy]

theorem storeChange_ok {db' : Db} (hkeyed : db.WorkKeyed)
    (hnew : ∀ e ∈ db.changeEvents, e.eventKey ≠ c.body.eventKey)
    (h : storeChange c policy db = .ok db') : Stored c policy db db' := by
  unfold storeChange at h
  obtain ⟨evidence, -, h⟩ := of_bind_ok h
  obtain ⟨contradiction, -, h⟩ := of_bind_ok h
  unfold enqueueWork at h
  cases hi : db.workItems.insert? (c.work policy) with
  | none =>
    -- the item of an event that is not there cannot be there
    obtain ⟨item, hitem⟩ := Table.exists_of_insert_none hi
    obtain ⟨e, he, hkey⟩ := hkeyed item (Table.mem_of_find? hitem)
    rw [Table.key_of_find? hitem] at hkey
    exact absurd (named_injective hkey).symm (hnew e he)
  | some workItems =>
    simp only [hi] at h
    split at h
    · next hforeign =>
      cases h
      refine ⟨⟨evidence, contradiction, ?_, rfl⟩, Table.rows_insert hi⟩
      obtain ⟨e, he, hkey⟩ := List.any_eq_true.mp hforeign
      unfold insertChange at he ⊢
      split
      · next hclash =>
        rw [if_pos hclash] at he
        exact absurd (of_decide_eq_true hkey) (hnew e he)
      · rfl
    · cases h

theorem observe_cases {e : Call} (hv : e.Valid (observe H))
    (hC : isNew H e.input e.before = true) (hkeyed : e.before.db.WorkKeyed) :
    (e.after.db = e.before.db ∧ ∀ c, e.output ≠ .ok (some c))
      ∨ ∃ c policy, e.output = .ok (some c) ∧ Stored c policy e.before.db e.after.db
        ∧ c.body.previousHash = e.before.db.previousHash c.body.source := by
  obtain ⟨a, w, output, w'⟩ := e
  simp only [Machine.Entry.Valid] at hv
  simp only at hkeyed hC ⊢
  unfold isNew at hC
  unfold observe at hv
  cases hs : Severity.ofName? a.severity with
  | none =>
    rw [hs] at hv
    cases hv
    exact Or.inl ⟨rfl, nofun⟩
  | some severity =>
    simp only [hs] at hv hC
    have hdb := World.timed_db a.now w
    cases hd : detect H a severity (w.time H a.now) w.db with
    | error err =>
      rw [hd] at hv
      cases hv
      exact Or.inl ⟨hdb, nofun⟩
    | ok found =>
      cases found with
      | none =>
        rw [hd] at hv
        cases hv
        exact Or.inl ⟨hdb, nofun⟩
      | some found =>
        obtain ⟨c, policy⟩ := found
        simp only [hd] at hv hC
        cases hst : storeChange c policy w.db with
        | error err =>
          rw [hst] at hv
          cases hv
          exact Or.inl ⟨hdb, nofun⟩
        | ok db' =>
          rw [hst] at hv
          cases hv
          refine Or.inr ⟨c, policy, rfl, storeChange_ok hkeyed (fun e he => ?_) hst, detect_some hd⟩
          exact of_decide_eq_true (List.all_eq_true.mp hC e he)

-- == preservation

section Stored

variable {c : Change} {policy : CadencePolicy} {db db' : Db}

theorem Stored.workKeyed (h : Stored c policy db db') (hkeyed : db.WorkKeyed) : db'.WorkKeyed := by
  obtain ⟨⟨evidence, contradiction, hevents, -⟩, hwork⟩ := h
  intro item hitem
  rw [hwork, List.mem_append, List.mem_singleton] at hitem
  rw [hevents]
  rcases hitem with hitem | rfl
  · obtain ⟨e, he, hkey⟩ := hkeyed item hitem
    exact ⟨e, List.mem_append_left _ he, hkey⟩
  · exact ⟨_, List.mem_append_right _ (List.mem_singleton_self _), rfl⟩

theorem Stored.kept (h : Stored c policy db db') : db'.Kept c := by
  obtain ⟨⟨evidence, contradiction, hevents, -⟩, hwork⟩ := h
  constructor
  · rw [hevents]
    exact ⟨_, List.mem_append_right _ (List.mem_singleton_self _), rfl, rfl⟩
  · rw [hwork]
    exact ⟨_, List.mem_append_right _ (List.mem_singleton_self _), rfl, rfl, rfl⟩

theorem Stored.still_kept (h : Stored c policy db db') {d : Change} (hd : db.Kept d) :
    db'.Kept d := by
  obtain ⟨⟨evidence, contradiction, hevents, -⟩, hwork⟩ := h
  obtain ⟨⟨e, he, heq⟩, ⟨item, hitem, hfields⟩⟩ := hd
  constructor
  · rw [hevents]
    exact ⟨e, List.mem_append_left _ he, heq⟩
  · rw [hwork]
    exact ⟨item, List.mem_append_left _ hitem, hfields⟩

theorem Db.Tracked.previousHash {source : PyStr × PyStr} (h : db.Tracked source) :
    db.previousHash source = Chain.last ChangeEvent.currentHash genesis (db.eventsOf source) := by
  have hends := h.ends
  unfold Db.previousHash Chain.last
  cases hlast : (db.eventsOf source).getLast? with
  | none =>
    rw [hlast] at hends
    cases hsnapshot : db.snapshots.find? source with
    | none => rfl
    | some s =>
      rw [hsnapshot] at hends
      cases hends
  | some e =>
    rw [hlast] at hends
    cases hsnapshot : db.snapshots.find? source with
    | none =>
      rw [hsnapshot] at hends
      cases hends
    | some s =>
      rw [hsnapshot] at hends
      exact (Option.some.inj hends).symm

/-- An event of the source extends its chain to the new snapshot, and one of
another source leaves both alone. -/
theorem Stored.tracked (h : Stored c policy db db')
    (hprevious : c.body.previousHash = db.previousHash c.body.source)
    {source : PyStr × PyStr} (ht : db.Tracked source) : db'.Tracked source := by
  obtain ⟨⟨evidence, contradiction, hevents, hsnapshots⟩, -⟩ := h
  have hfind := Table.find?_upsert db.snapshots (c.snapshot evidence) source
  rw [← hsnapshots, show (c.snapshot evidence).source = c.body.source from rfl] at hfind
  have hof : db'.eventsOf source
      = if source = c.body.source then db.eventsOf source ++ [c.row evidence contradiction]
        else db.eventsOf source := by
    unfold Db.eventsOf
    rw [hevents, List.filter_append]
    split
    · next hsource =>
      have hrow : (c.row evidence contradiction).source = source := hsource.symm
      rw [List.filter_cons_of_pos (by simpa using hrow), List.filter_nil]
    · next hsource =>
      have hrow : (c.row evidence contradiction).source ≠ source := Ne.symm hsource
      rw [List.filter_cons_of_neg (by simpa using hrow), List.filter_nil, List.append_nil]
  by_cases hsource : source = c.body.source
  · rw [if_pos hsource] at hof hfind
    refine ⟨?_, by rw [hof, hfind, List.getLast?_concat]; rfl⟩
    rw [hof]
    refine (Chain.linked_concat _ _).mpr ⟨ht.linked, ?_⟩
    rw [← ht.previousHash, hsource]
    exact hprevious
  · rw [if_neg hsource] at hof hfind
    exact ⟨by rw [hof]; exact ht.linked, by rw [hof, hfind]; exact ht.ends⟩

end Stored

theorem seeded_tracked (source : PyStr × PyStr) : Db.seeded.Tracked source :=
  ⟨trivial, rfl⟩

-- == runs

/-- Where every change has a key of its own, each one returned is stored with a
work item, and each source's events lead to its snapshot. -/
theorem changes_kept (H : Host) (calls : List Observation)
    (hC : ∀ e ∈ history H calls, isNew H e.input e.before = true) :
    (∀ e ∈ history H calls, ∀ c, e.output = .ok (some c) → (afterCalls H calls).db.Kept c)
      ∧ ∀ source, (afterCalls H calls).db.Tracked source := by
  have hrun := Machine.history_invariant (observe H) (C := fun e => isNew H e.input e.before = true)
    (I := fun past w => w.db.WorkKeyed ∧ (∀ e ∈ past, ∀ c, e.output = .ok (some c) → w.db.Kept c)
      ∧ ∀ source, w.db.Tracked source)
    ⟨.seeded, 0⟩ ⟨fun _ h => (by cases h), fun _ h => (by cases h), seeded_tracked⟩
    (fun past e hv hCe hI => ?_) calls hC
  · exact hrun.2
  · obtain ⟨hkeyed, hkept, htracked⟩ := hI
    rcases observe_cases hv hCe hkeyed with ⟨hdb, hno⟩ | ⟨c, policy, hout, hst, hprev⟩
    · rw [hdb]
      refine ⟨hkeyed, fun d hd c hc => ?_, htracked⟩
      rcases List.mem_append.mp hd with hd | hd
      · exact hkept d hd c hc
      · rw [List.mem_singleton.mp hd] at hc
        exact absurd hc (hno c)
    · refine ⟨hst.workKeyed hkeyed, fun d hd c' hc' => ?_,
        fun source => hst.tracked hprev (htracked source)⟩
      rcases List.mem_append.mp hd with hd | hd
      · exact hst.still_kept (hkept d hd c' hc')
      · rw [List.mem_singleton.mp hd, hout] at hc'
        cases hc'
        exact hst.kept

-- == try-outs

def machine : Host := Host.sample fun n => n

def seen (position : String) : Observation :=
  ⟨py "sensor", py "door", py "STATE_CHANGE", py "HIGH",
    .dict [item "position" (.str (py position))], none, true, none⟩

theorem door_tracked :
    (afterCalls machine [seen "shut", seen "open", seen "open", seen "ajar"]).db.Tracked
      (py "sensor", py "door") :=
  (changes_kept machine [seen "shut", seen "open", seen "open", seen "ajar"]
    (List.all_eq_true.mp (by decide +kernel))).2 _

def Call.change? (e : Call) : Option Change :=
  match e.output with
  | .ok c => c
  | .error _ => none

theorem Call.output_eq {e : Call} {c : Change} (h : e.change? = some c) :
    e.output = .ok (some c) := by
  unfold Call.change? at h
  split at h
  · next hout => rw [hout, h]
  · cases h

/-- The door opens and shuts again: the last change is returned, but nothing is
stored of it besides the snapshot. -/
theorem shut_again : (∃ e ∈ history machine [seen "shut", seen "open", seen "shut"], ∃ c,
        e.output = .ok (some c)
          ∧ ¬ (afterCalls machine [seen "shut", seen "open", seen "shut"]).db.Kept c)
      ∧ ¬ (afterCalls machine [seen "shut", seen "open", seen "shut"]).db.Tracked
        (py "sensor", py "door") := by
  constructor
  · have hlost : ((history machine [seen "shut", seen "open", seen "shut"]).any fun e =>
        e.change?.any fun c => (afterCalls machine
          [seen "shut", seen "open", seen "shut"]).db.changeEvents.all fun d =>
            decide (d.eventHash ≠ c.eventHash)) = true := by decide +kernel
    obtain ⟨e, he, hany⟩ := List.any_eq_true.mp hlost
    obtain ⟨c, hc, hall⟩ := (Option.any_eq_true _ _).mp hany
    refine ⟨e, he, c, e.output_eq hc, fun hkept => ?_⟩
    obtain ⟨d, hd, -, heq⟩ := hkept.event
    exact absurd heq (of_decide_eq_true (List.all_eq_true.mp hall d hd))
  · intro h
    exact absurd h.ends (by decide +kernel)

end Centinal26.Intelligence
