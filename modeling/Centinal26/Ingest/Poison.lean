/-
What a call does to the log's reduction.
-/
import Centinal26.Ingest.Whole

namespace Centinal26.Ingest

open Py Steps Events Plan

variable {H : Host} {F : Formats}

-- == creations

def created (rs : List NewEvent) : List PyStr :=
  rs.filterMap fun r => if r.type = .taskCreated then r.entityId else none

/-- The tasks created are distinct and new. -/
def NoClash (s : ProjectState) (rs : List NewEvent) : Prop :=
  (created rs).Nodup ∧ ∀ id ∈ created rs, s.tasks.get? id = none

structure IsRecord (r : NewEvent) : Prop where
  notDependency : r.type ≠ .dependencyAdded
  notMove : r.type.status? = none
  named : ∃ id, r.entityId = some id ∧ id ≠ []

variable {s : ProjectState} {r : NewEvent} {w : StoreWorld} {rs : List NewEvent}
  {digest taskId : PyStr} {taskIds : Dict PyStr PyStr} {src : Source} {p : Prepared}

variable {e : Event} {id sourceId x : PyStr} {records : List PendingRecord} {log : EventLog}

theorem reduceType_record (hr : IsRecord r) (he : e.entityId.map Text.str = r.entityId) :
    (r.type ≠ .taskCreated ∧ ∃ mid, reduceType s e r.type = .ok mid ∧ mid.tasks = s.tasks)
      ∨ ∃ id, r.type = .taskCreated ∧ r.entityId = some id
        ∧ reduceType s e r.type = match s.tasks.get? id with
          | some _ => .error (.stateTransition (py "task already exists: " ++ id))
          | none => .ok (s.setTask id ⟨e.payload, .discovered, [], none⟩) := by
  obtain ⟨hdep, hmove, id, hid, hne⟩ := hr
  rw [hid] at he
  have hentity : ∀ key, Events.entityId e key = .ok id := fun key =>
    entityId_of_column he hne
  cases htype : r.type with
  | sourceIngested =>
    exact Or.inl ⟨by decide, { s with sources := s.sources.set id e.payload },
      by simp only [reduceType, hentity, bind_ok_eq], rfl⟩
  | goalDiscovered =>
    exact Or.inl ⟨by decide, { s with goals := s.goals.set id e.payload },
      by simp only [reduceType, hentity, bind_ok_eq], rfl⟩
  | artifactCreated =>
    exact Or.inl ⟨by decide, { s with artifacts := s.artifacts.set id e.payload },
      by simp only [reduceType, hentity, bind_ok_eq], rfl⟩
  | decisionRecorded =>
    exact Or.inl ⟨by decide, { s with decisions := s.decisions.set id e.payload },
      by simp only [reduceType, hentity, bind_ok_eq], rfl⟩
  | blockerRecorded =>
    exact Or.inl ⟨by decide, { s with blockers := s.blockers.set id e.payload },
      by simp only [reduceType, hentity, bind_ok_eq], rfl⟩
  | taskCreated =>
    refine Or.inr ⟨id, rfl, hid, ?_⟩
    simp only [reduceType, createTask, hentity, bind_ok_eq] <;> rfl
  | dependencyAdded => exact absurd htype hdep
  | taskReady | taskAuthorized | taskStarted | taskExecuted | verificationPassed
  | verificationFailed | taskCompleted | taskFailed =>
    rw [htype] at hmove
    cases hmove

theorem created_cons_other (h : r.type ≠ .taskCreated)
    (rs : List NewEvent) : created (r :: rs) = created rs := by
  unfold created
  rw [List.filterMap_cons, if_neg h]

theorem created_cons_task (h : r.type = .taskCreated)
    (hid : r.entityId = some id) (rs : List NewEvent) : created (r :: rs) = id :: created rs := by
  unfold created
  rw [List.filterMap_cons, if_pos h, hid]

theorem not_rebuilt_afterAll (hturn : InTurn (appendEvent H) (accepted H) w rs)
    (h : ∀ s, ¬Rebuilt w.log s) : ∀ s, ¬Rebuilt (afterAll H w rs).log s := by
  induction rs generalizing w with
  | nil => exact h
  | cons r rs ih =>
    obtain ⟨fields, e, log, -, happended, hrun⟩ := appendEvent_accepted hturn.1
    refine ih hturn.2 (?_ : ∀ s, ¬Rebuilt (appendEvent H r w).2.log s)
    rw [hrun]
    exact not_rebuilt_mono happended h

def TasksAfter (s s' : ProjectState) (rs : List NewEvent) : Prop :=
  ∀ id, (s'.tasks.get? id).isSome = true ↔ (s.tasks.get? id).isSome = true ∨ id ∈ created rs

theorem rebuilt_records (hrs : ∀ r ∈ rs, IsRecord r)
    (hturn : InTurn (appendEvent H) (accepted H) w rs) (hs : Rebuilt w.log s) :
    (NoClash s rs → ∃ s', Rebuilt (afterAll H w rs).log s' ∧ TasksAfter s s' rs)
      ∧ (¬NoClash s rs → ∀ s', ¬Rebuilt (afterAll H w rs).log s') := by
  induction rs generalizing w s with
  | nil =>
    refine ⟨fun _ => ⟨s, hs, fun id => ?_⟩, fun h => absurd ⟨List.nodup_nil, ?_⟩ h⟩
    · exact ⟨Or.inl, fun h => h.resolve_right (nofun)⟩
    · exact nofun
  | cons r rs ih =>
    obtain ⟨fields, e, log, -, happended, hrun⟩ := appendEvent_accepted hturn.1
    have hafter : afterAll H w (r :: rs) = afterAll H { w.drawn with log := log } rs := by
      show afterAll H (appendEvent H r w).2 rs = _
      rw [hrun]
    have hrest := hturn.2
    rw [hrun] at hrest
    rw [hafter]
    have hrs' : ∀ r ∈ rs, IsRecord r := fun d hd =>
      hrs d (List.mem_cons_of_mem _ hd)
    rcases reduceType_record (s := s) (hrs r (List.mem_cons_self ..))
      happended.entityId with ⟨hother, mid, hmid, htasks⟩ | ⟨id, htask, hid, hmid⟩
    · obtain ⟨hok, hbad⟩ := ih hrs' hrest (rebuilt_append hs happended hmid)
      have hclash : NoClash s (r :: rs) ↔
        NoClash { mid with lastSeq := e.seq, lastHash := e.eventHash } rs := by
        unfold NoClash
        rw [created_cons_other hother]
        show _ ↔ _ ∧ ∀ id ∈ created rs, mid.tasks.get? id = none
        rw [htasks]
      refine ⟨fun h => ?_, fun h => hbad (fun h' => h (hclash.mpr h'))⟩
      obtain ⟨s', hs', hafter⟩ := hok (hclash.mp h)
      refine ⟨s', hs', fun id => ?_⟩
      rw [created_cons_other hother, hafter id]
      show (mid.tasks.get? id).isSome = true ∨ _ ↔ _
      rw [htasks]
    · cases hold : s.tasks.get? id with
      | some t =>
        rw [hold] at hmid
        refine ⟨fun h => ?_, fun _ => ?_⟩
        · have := h.2 id (by
            rw [created_cons_task htask hid]
            exact List.mem_cons_self ..)
          rw [hold] at this
          cases this
        · exact not_rebuilt_afterAll hrest (not_rebuilt_append hs happended hmid)
      | none =>
        rw [hold] at hmid
        obtain ⟨hok, hbad⟩ := ih hrs' hrest (rebuilt_append hs happended hmid)
        have hget : ∀ j, ((s.setTask id ⟨e.payload, .discovered, [], none⟩).tasks.get? j)
            = if j = id then some ⟨e.payload, .discovered, [], none⟩
              else s.tasks.get? j := fun j => Dict.get?_set _ _ _ _
        have hclash : NoClash s (r :: rs) ↔ NoClash
            { s.setTask id ⟨e.payload, .discovered, [], none⟩ with
              lastSeq := e.seq, lastHash := e.eventHash } rs := by
          unfold NoClash
          rw [created_cons_task htask hid, List.nodup_cons, List.forall_mem_cons]
          show _ ↔ _ ∧ ∀ j ∈ created rs,
            (s.setTask id ⟨e.payload, .discovered, [], none⟩).tasks.get? j = none
          simp only [hget]
          constructor
          · rintro ⟨⟨hnew, hnodup⟩, -, hall⟩
            refine ⟨hnodup, fun j hj => ?_⟩
            have hne : j ≠ id := fun heq => hnew (heq ▸ hj)
            rw [if_neg hne]
            exact hall j hj
          · rintro ⟨hnodup, hall⟩
            have hnew : id ∉ created rs := by
              intro h
              have := hall id h
              rw [if_pos rfl] at this
              cases this
            refine ⟨⟨hnew, hnodup⟩, hold, fun j hj => ?_⟩
            have := hall j hj
            have hne : j ≠ id := fun heq => hnew (heq ▸ hj)
            rwa [if_neg hne] at this
        refine ⟨fun h => ?_, fun h => hbad (fun h' => h (hclash.mpr h'))⟩
        obtain ⟨s', hs', hafter⟩ := hok (hclash.mp h)
        refine ⟨s', hs', fun j => ?_⟩
        rw [created_cons_task htask hid, hafter j, List.mem_cons]
        show ((s.setTask id ⟨e.payload, .discovered, [], none⟩).tasks.get? j).isSome = true ∨ _ ↔ _
        rw [hget]
        by_cases hj : j = id
        · simp [hj]
        · simp [hj]

-- == dependencies

theorem dependency_payload (taskId dependencyId sourceId : PyStr) (d : Dependency) :
    (NewEvent.fields ⟨.dependencyAdded, payloadOf [(py "task_id", .str taskId),
        (py "depends_on", .str dependencyId), (py "source_id", .str sourceId),
        (py "external_task_id", .str d.1),
        (py "external_dependency_id", .str d.2)], some taskId⟩).map Fields.members
      = .ok [(py "depends_on", .str dependencyId),
        (py "external_dependency_id", .str d.2), (py "external_task_id", .str d.1),
        (py "source_id", .str sourceId), (py "task_id", .str taskId)] := rfl

structure IsDependency (r : NewEvent) (taskId : PyStr) : Prop where
  type : r.type = .dependencyAdded
  named : taskId ≠ []
  stored : ∃ dependencyId, ∀ fields, r.fields = .ok fields →
    fields.get? (py "task_id") = some (.str taskId)
      ∧ fields.get? (py "depends_on") = some (.str dependencyId)

theorem dependencyEvent_spec
    {d : Dependency} (h : dependencyEvent digest sourceId taskIds d = .ok r)
    (hnamed : ∀ x taskId, taskIds.get? x = some taskId → taskId ≠ []) :
    ∃ taskId, taskIds.get? d.1 = some taskId ∧ IsDependency r taskId := by
  unfold dependencyEvent at h
  split at h
  · cases h
  · next taskId htask =>
    cases h
    refine ⟨taskId, htask, rfl, hnamed _ _ htask,
      (taskIds.get? d.2).getD (entityId (py "task") digest d.2),
      fun fields hfields => ?_⟩
    have hmembers := dependency_payload taskId
      ((taskIds.get? d.2).getD (entityId (py "task") digest d.2)) sourceId d
    rw [hfields] at hmembers
    have heq := Except.ok.inj hmembers
    unfold Fields.get?
    rw [heq]
    exact ⟨rfl, rfl⟩

theorem reduceType_dependency {dependencyId : PyStr}
    (htask : e.payload.get? (py "task_id") = some (.str taskId))
    (hdep : e.payload.get? (py "depends_on") = some (.str dependencyId))
    (hne : taskId ≠ []) (hold : (s.tasks.get? taskId).isSome = true) :
    ∃ mid, reduceType s e .dependencyAdded = .ok mid
      ∧ ∀ id, (s.tasks.get? id).isSome = true → (mid.tasks.get? id).isSome = true := by
  obtain ⟨t, ht⟩ := Option.isSome_iff_exists.mp hold
  have htruthy : (Json.str taskId).truthy = true := by
    cases taskId with
    | nil => exact absurd rfl hne
    | cons c cs => rfl
  have hid : dependentId e = some taskId := by
    unfold dependentId
    simp only [htask, htruthy, if_true]
    rfl
  refine ⟨s.setTask taskId { t with
    dependencies := addDependency t.dependencies dependencyId }, ?_, fun id h => ?_⟩
  · show dependTask s e = _
    unfold dependTask
    rw [hid, hdep]
    simp only [Option.bind_some, Json.str?, ht]
  · unfold ProjectState.setTask
    rw [Dict.get?_set]
    split
    · rfl
    · exact h

theorem rebuilt_dependencies
    (hrs : ∀ r ∈ rs, ∃ taskId, IsDependency r taskId ∧ (s.tasks.get? taskId).isSome = true)
    (hturn : InTurn (appendEvent H) (accepted H) w rs) (hs : Rebuilt w.log s) :
    ∃ s', Rebuilt (afterAll H w rs).log s' := by
  induction rs generalizing w s with
  | nil => exact ⟨s, hs⟩
  | cons r rs ih =>
    obtain ⟨fields, e, log, hfields, happended, hrun⟩ :=
      appendEvent_accepted hturn.1
    obtain ⟨taskId, hdep, hold⟩ := hrs r (List.mem_cons_self ..)
    obtain ⟨dependencyId, hstored⟩ := hdep.stored
    obtain ⟨htask, hdepends⟩ := hstored fields hfields
    rw [← happended.payload] at htask hdepends
    obtain ⟨mid, hmid, hkeeps⟩ := reduceType_dependency htask hdepends hdep.named hold
    rw [← hdep.type] at hmid
    have hrest := hturn.2
    rw [hrun] at hrest
    have hnext := ih (w := { w.drawn with log := log })
      (fun d hd => ?_) hrest (rebuilt_append hs happended hmid)
    · obtain ⟨s', hs'⟩ := hnext
      refine ⟨s', ?_⟩
      show Rebuilt (afterAll H (appendEvent H r w).2 rs).log s'
      rw [hrun]
      exact hs'
    · obtain ⟨taskId', hdep', hold'⟩ := hrs d (List.mem_cons_of_mem _ hd)
      exact ⟨taskId', hdep', hkeeps taskId' hold'⟩

-- == the plan

theorem entityId_ne_nil (kind digest externalId : PyStr) :
    entityId kind digest externalId ≠ [] := by
  simp [entityId, py]

theorem validateRecords_spec {seen : List (PyStr × PyStr)} {ids : Dict PyStr PyStr}
    (h : validateRecords digest seen ids records = .ok taskIds)
    (hx : taskIds.get? x = some taskId) :
    ids.get? x = some taskId ∨ ∃ r ∈ records, r.kind = py "task"
      ∧ taskId = entityId (py "task") digest r.externalId := by
  induction records generalizing seen ids with
  | nil =>
    cases h
    exact Or.inl hx
  | cons r rest ih =>
    unfold validateRecords at h
    split at h
    · cases h
    · rcases ih h with hids | ⟨d, hd, hrest⟩
      · by_cases htask : r.kind = py "task"
        · rw [if_pos htask, Dict.get?_set] at hids
          split at hids
          · cases hids
            exact Or.inr ⟨r, List.mem_cons_self .., htask, rfl⟩
          · exact Or.inl hids
        · rw [if_neg htask] at hids
          exact Or.inl hids
      · exact Or.inr ⟨d, List.mem_cons_of_mem _ hd, hrest⟩

theorem validatePlan_spec {dependencies : List Dependency}
    (h : validatePlan records dependencies digest = .ok taskIds)
    (hx : taskIds.get? x = some taskId) : ∃ r ∈ records, r.kind = py "task"
      ∧ taskId = entityId (py "task") digest r.externalId := by
  obtain ⟨ids, hids, h⟩ := of_bind_ok h
  split at h
  · cases h
    exact (validateRecords_spec hids hx).resolve_left (fun h => by cases h)
  · cases h

theorem recordEvent_isRecord {record : PendingRecord}
    (h : recordEvent digest sourceId record = .ok r) :
    IsRecord r ∧ r.entityId = some (entityId record.kind digest record.externalId)
      ∧ (record.kind = py "task" → r.type = .taskCreated) := by
  unfold recordEvent at h
  split at h
  · cases h
  · next type idKey hkind =>
    cases h
    obtain ⟨-, hdep, hmove⟩ := kindOf_ne_source hkind
    refine ⟨⟨hdep, hmove, _, rfl, entityId_ne_nil _ _ _⟩, rfl, fun htask => ?_⟩
    rw [htask, show kindOf? (py "task") = some (.taskCreated, py "task_id") by
      decide] at hkind
    exact (Prod.mk.inj (Option.some.inj hkind)).1.symm

theorem mem_created : id ∈ created rs ↔ ∃ r ∈ rs, r.type = .taskCreated ∧ r.entityId = some id := by
  unfold created
  rw [List.mem_filterMap]
  constructor
  · rintro ⟨r, hr, h⟩
    split at h
    · next htype => exact ⟨r, hr, htype, h⟩
    · cases h
  · rintro ⟨r, hr, htype, hid⟩
    exact ⟨r, hr, by rw [if_pos htype, hid]⟩

theorem prepare_valid (h : prepare H F src log = .ok (.inr p)) :
    validatePlan p.records p.dependencies (F.sha256 src.content).str = .ok p.taskIds := by
  unfold prepare at h
  split at h
  · cases h
  · obtain ⟨s, -, h⟩ := of_bind_ok h
    split at h
    · cases h
    · obtain ⟨m, -, h⟩ := of_bind_ok h
      obtain ⟨taskIds, htaskIds, h⟩ := of_bind_ok h
      cases h
      unfold Events.liftPy at htaskIds
      obtain ⟨ids, hids, rfl⟩ : ∃ ids, validatePlan m.1 m.2.1 (F.sha256 src.content).str
          = .ok ids ∧ ids = taskIds := by
        cases hvalid : validatePlan m.1 m.2.1 (F.sha256 src.content).str with
        | error e =>
          rw [hvalid] at htaskIds
          cases htaskIds
        | ok ids =>
          rw [hvalid] at htaskIds
          exact ⟨ids, rfl, Except.ok.inj htaskIds⟩
      exact hids

/-- The source and its records, as they are to be appended. -/
def Prepared.recordPart (p : Prepared) (F : Formats) (src : Source) :
    List (Except PyErr NewEvent) :=
  .ok (sourceEvent (F.sha256 src.content).str (sourceIdFor F src.content)
      src.content.length src.name src.path p.mediaType)
    :: (recordEvents (F.sha256 src.content).str (sourceIdFor F src.content) p.records).map Prod.snd

theorem events_eq (p : Prepared) (F : Formats) (src : Source) : p.events F src = p.recordPart F src
      ++ (dependencyEvents (F.sha256 src.content).str (sourceIdFor F src.content)
        p.taskIds p.dependencies).map Prod.snd :=
  (List.cons_append ..).symm

theorem recordPart_isRecord (h : .ok r ∈ p.recordPart F src) : IsRecord r := by
  rcases List.mem_cons.mp h with h | h
  · cases h
    exact ⟨nofun, rfl, _, rfl, by simp [sourceIdFor, py]⟩
  · obtain ⟨m, hm, heq⟩ := List.mem_map.mp h
    obtain ⟨record, -, rfl⟩ := List.mem_map.mp hm
    exact (recordEvent_isRecord heq).1

theorem dependency_created (hp : prepare H F src log = .ok (.inr p)) {ts : List NewEvent}
    (hts : ts.map .ok = p.recordPart F src)
    (hr : .ok r ∈ (dependencyEvents (F.sha256 src.content).str
      (sourceIdFor F src.content) p.taskIds p.dependencies).map Prod.snd) :
    ∃ taskId, IsDependency r taskId ∧ taskId ∈ created ts := by
  obtain ⟨m, hm, heq⟩ := List.mem_map.mp hr
  obtain ⟨d, -, rfl⟩ := List.mem_map.mp hm
  have hvalid := prepare_valid hp
  obtain ⟨taskId, htask, hdep⟩ := dependencyEvent_spec heq fun x taskId hx => by
    obtain ⟨record, -, -, rfl⟩ := validatePlan_spec hvalid hx
    exact entityId_ne_nil _ _ _
  refine ⟨taskId, hdep, ?_⟩
  obtain ⟨record, hrecord, hkind, rfl⟩ := validatePlan_spec hvalid htask
  have hmem : recordEvent (F.sha256 src.content).str (sourceIdFor F src.content)
      record ∈ ts.map .ok := by
    rw [hts]
    refine List.mem_cons_of_mem _ (List.mem_map.mpr ⟨(record.kind, _), ?_, rfl⟩)
    exact List.mem_map_of_mem hrecord
  obtain ⟨ev, hev, hok⟩ := List.mem_map.mp hmem
  obtain ⟨-, hid, htype⟩ := recordEvent_isRecord hok.symm
  rw [hkind] at hid
  exact mem_created.mpr ⟨ev, hev, htype hkind, hid⟩

theorem created_append (rs ts : List NewEvent) :
    created (rs ++ ts) = created rs ++ created ts := List.filterMap_append

theorem created_dependencies (h : ∀ r ∈ rs, r.type = .dependencyAdded) : created rs = [] := by
  induction rs with
  | nil => rfl
  | cons r rs ih =>
    rw [created_cons_other (by rw [h r (List.mem_cons_self ..)]; decide)]
    exact ih fun d hd => h d (List.mem_cons_of_mem _ hd)

/-- After a call, the log reduces exactly if the tasks it creates are distinct
and new to the log. -/
theorem reduces_iff {src : Source} {w : StoreWorld} {s : ProjectState} (hs : Rebuilt w.log s) :
    (∃ s', Rebuilt (ingestBytes H F src w).2.log s') ↔ NoClash s (taken H F src w) := by
  rw [ingestBytes_log]
  unfold taken plan
  split
  · next p hp =>
    have hpart : ∀ r, .ok r ∈ p.recordPart F src → IsRecord r := fun r hr =>
      recordPart_isRecord hr
    rw [events_eq, taken_append]
    revert hpart
    generalize hps : p.recordPart F src = ps
    intro hpart
    generalize hts : Plan.taken (appendEvent H) (accepted H) w ps = ts
    have hturn : InTurn (appendEvent H) (accepted H) w ts := by
      rw [← hts]
      exact taken_inTurn w ps
    have hrecords : ∀ r ∈ ts, IsRecord r := by
      rw [← hts]
      exact fun r hr => hpart r (mem_of_taken hr)
    obtain ⟨hok, hbad⟩ := rebuilt_records hrecords hturn hs
    split
    · next hwhole =>
      have hmap : ts.map .ok = p.recordPart F src := by
        rw [hps, ← hts]
        exact map_taken (by rw [hts]; exact hwhole)
      have hdepends : ∀ r, .ok r ∈ (dependencyEvents (F.sha256 src.content).str
          (sourceIdFor F src.content) p.taskIds p.dependencies).map Prod.snd →
          ∃ taskId, IsDependency r taskId ∧ taskId ∈ created ts := fun r hr =>
        dependency_created hp hmap hr
      revert hdepends
      generalize (dependencyEvents (F.sha256 src.content).str
        (sourceIdFor F src.content) p.taskIds p.dependencies).map Prod.snd = qs
      intro hdepends
      generalize hds : Plan.taken (appendEvent H) (accepted H)
        (Plan.after (appendEvent H) w ts) qs = ds
      have hdeps : ∀ r ∈ ds, ∃ taskId, IsDependency r taskId ∧ taskId ∈ created ts := by
        rw [← hds]
        exact fun r hr => hdepends r (mem_of_taken hr)
      have hdturn : InTurn (appendEvent H) (accepted H) (afterAll H w ts) ds := by
        rw [← hds]
        exact taken_inTurn _ qs
      have hclash : NoClash s (ts ++ ds) ↔ NoClash s ts := by
        have hnone : created ds = [] := created_dependencies fun r hr => by
          obtain ⟨taskId, hdep, -⟩ := hdeps r hr
          exact hdep.type
        unfold NoClash
        rw [created_append, hnone, List.append_nil]
      rw [hclash, show afterAll H w (ts ++ ds) = afterAll H (afterAll H w ts) ds
        from after_append w ts ds]
      constructor
      · rintro ⟨s', hs'⟩
        by_contra hclash
        exact not_rebuilt_afterAll hdturn (hbad hclash) s' hs'
      · intro hclash
        obtain ⟨s1, hs1, htasks⟩ := hok hclash
        refine rebuilt_dependencies (fun r hr => ?_) hdturn hs1
        obtain ⟨taskId, hdep, hcreated⟩ := hdeps r hr
        exact ⟨taskId, hdep, (htasks taskId).mpr (Or.inr hcreated)⟩
    · next hpart =>
      rw [List.append_nil]
      constructor
      · rintro ⟨s', hs'⟩
        by_contra hclash
        exact hbad hclash s' hs'
      · intro hclash
        obtain ⟨s1, hs1, -⟩ := hok hclash
        exact ⟨s1, hs1⟩
  · exact ⟨fun _ => ⟨List.nodup_nil, nofun⟩, fun _ => ⟨s, hs⟩⟩

-- == samples

namespace Sample

/-- Two tasks whose identifiers have one token. -/
def twins : Source := source "TASK [a b]: paint\nTASK [a-b]: mow"

def apart : Source := source "TASK [a]: paint\nTASK [b]: mow\nDEPENDS: b -> a"

theorem rebuilt_world : Rebuilt world.log .empty := ⟨[], rfl, rfl⟩

end Sample

/-- The call returns, the log reduces no more, and the next call raises. -/
theorem poisoned : (ingestBytes Events.Sample.host Sample.formats Sample.twins Sample.world).1.isOk
        = true
      ∧ (∀ s, ¬Rebuilt (ingestBytes Events.Sample.host Sample.formats Sample.twins
        Sample.world).2.log s)
      ∧ (ingestBytes Events.Sample.host Sample.formats Sample.apart
        (ingestBytes Events.Sample.host Sample.formats Sample.twins
          Sample.world).2).1.isOk = false := by
  -- one evaluation of the ingest for all three facts
  obtain ⟨hingested, hfails, hrefused⟩ :
      (ingestBytes Events.Sample.host Sample.formats Sample.twins Sample.world).1.isOk = true
      ∧ ((events (ingestBytes Events.Sample.host Sample.formats Sample.twins
        Sample.world).2.log.rows) >>= rebuildState).isOk = false
      ∧ (ingestBytes Events.Sample.host Sample.formats Sample.apart
        (ingestBytes Events.Sample.host Sample.formats Sample.twins
          Sample.world).2).1.isOk = false := by decide +kernel
  refine ⟨hingested, fun s hs => ?_, hrefused⟩
  obtain ⟨es, hes, hs⟩ := hs
  rw [hes, bind_ok_eq, hs] at hfails
  cases hfails

theorem reduces_apart : ∃ s', Rebuilt (ingestBytes Events.Sample.host
    Sample.formats Sample.apart Sample.world).2.log s' := by
  have hclash : NoClash .empty (taken Events.Sample.host Sample.formats Sample.apart
      Sample.world) := by
    refine ⟨by decide +kernel, fun id _ => rfl⟩
  exact (@reduces_iff Events.Sample.host Sample.formats Sample.apart Sample.world
    .empty Sample.rebuilt_world).mpr hclash

end Centinal26.Ingest
