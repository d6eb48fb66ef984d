/-
All or nothing: when a call that raises leaves the log as it was. The condition is one on the source
and the store: what the records are, what JSON can write of them, and which identifiers and hashes
the table has already.
-/
import Centinal26.Ingest.Store

namespace Centinal26.Ingest

open Py Steps Events Plan

variable {H : Host} {F : Formats}

-- == one call

/-- A call that raises leaves the log as it was. -/
def AllOrNothing (H : Host) (F : Formats) (src : Source) (w : StoreWorld) : Prop :=
  ∀ e, (ingestBytes H F src w).1 = .error e → (ingestBytes H F src w).2.log = w.log

/-- JSON has a text for the payload, without NaN or Infinity, and every string of the event has an
encoding. -/
def Writable (r : NewEvent) : Prop :=
  ∃ fields, r.fields = .ok fields ∧ fields.doc.json.isFinite = true
    ∧ fields.doc.json.isEncodable = true ∧ encodableOpt r.entityId = true

/-- The hashes of events that follow one another behind a hash. -/
def hashesFrom (H : Host) (previous : Text) (ticks draws : Nat) : List NewEvent → List Text
  | [] => []
  | r :: rest =>
    match r.fields.bind fun fields => eventHash H (H.uuid4 draws).str
        (H.isoformat (H.clock ticks)).str (py r.type.value) r.entityId fields previous.str with
    | .error _ => []
    | .ok digest => digest :: hashesFrom H digest (ticks + 1) (draws + 1) rest

/-- JSON can write the events, and their identifiers and hashes are new to the table. -/
structure Appendable (H : Host) (w : StoreWorld) (rs : List NewEvent) : Prop where
  writable : ∀ r ∈ rs, Writable r
  ids : ∀ i < rs.length, ∀ row ∈ w.log.rows, row.eventId ≠ H.uuid4 (w.draws + i)
  hashes : (w.log.rows.map EventRow.eventHash).Disjoint
    (hashesFrom H w.log.lastHash w.ticks w.draws rs)
  distinct : (hashesFrom H w.log.lastHash w.ticks w.draws rs).Nodup

/-- The source passes the checks, which read this of it. -/
structure Prepares (H : Host) (F : Formats) (src : Source) (log : EventLog) (p : Prepared) :
    Prop where
  size : src.content.length ≤ src.maxBytes
  state : ∃ s, existingState H log = .ok s ∧ s.sources.contains (sourceIdFor F src.content) = false
  extracted : extract F src.content src.name = .ok (p.records, p.dependencies, p.mediaType)
  valid : validatePlan p.records p.dependencies (F.sha256 src.content).str = .ok p.taskIds

/-- Where the source passes the checks, its own event cannot be appended, or every record is of one
of the five kinds and all events can be. -/
def Whole (H : Host) (F : Formats) (src : Source) (w : StoreWorld) : Prop :=
  ∀ p, Prepares H F src w.log p →
    ¬ Appendable H w [sourceEvent (F.sha256 src.content).str (sourceIdFor F src.content)
        src.content.length src.name src.path p.mediaType]
      ∨ (∀ record ∈ p.records, (kindOf? record.kind).isSome = true)
        ∧ Appendable H w ((p.events F src).filterMap Except.toOption)

-- == the table

variable {r : NewEvent} {digest : Text} {p : Prepared} {srcs : List Source} {row : EventRow}
  {result : IngestResult}

theorem accepted_iff {w : StoreWorld} : accepted H w r = true ↔ Writable r
    ∧ (∀ row ∈ w.log.rows, row.eventId ≠ H.uuid4 w.draws)
    ∧ ∃ digest, (∀ row ∈ w.log.rows, row.eventHash ≠ digest)
      ∧ (r.fields.bind fun fields => eventHash H (w.eventId H) (w.now H) (py r.type.value)
        r.entityId fields w.log.lastHash.str) = .ok digest := by
  unfold accepted Writable isFresh
  cases r.fields with
  | error e => exact ⟨fun h => (by cases h), fun h => (by obtain ⟨⟨_, h, -⟩, -⟩ := h; cases h)⟩
  | ok fields =>
    have hid : ∀ row : EventRow, row.eventId.str = w.eventId H ↔ row.eventId = H.uuid4 w.draws :=
      fun row => ⟨fun h => Text.ext h, congrArg Text.str⟩
    simp only [Except.bind, Bool.and_eq_true]
    cases eventHash H (w.eventId H) (w.now H) (py r.type.value) r.entityId fields
        w.log.lastHash.str with
    | error e => simp
    | ok digest =>
      simp only [List.all_eq_true, Bool.and_eq_true, decide_eq_true_eq, ne_eq, hid,
        Except.ok.injEq, exists_eq_left', exists_eq_right', forall₂_and, and_assoc]

theorem hashesFrom_cons {w : StoreWorld}
    (h : (r.fields.bind fun fields => eventHash H (w.eventId H) (w.now H) (py r.type.value)
      r.entityId fields w.log.lastHash.str) = .ok digest) (rs : List NewEvent) :
    hashesFrom H w.log.lastHash w.ticks w.draws (r :: rs)
      = digest :: hashesFrom H digest (w.ticks + 1) (w.draws + 1) rs := by
  unfold StoreWorld.eventId StoreWorld.now at h
  rw [hashesFrom, h]

/-- What an event that is accepted does to the table. -/
theorem appendEvent_row {w : StoreWorld} (h : accepted H w r = true)
    (hdigest : (r.fields.bind fun fields => eventHash H (w.eventId H) (w.now H) (py r.type.value)
      r.entityId fields w.log.lastHash.str) = .ok digest) :
    ∃ log, (appendEvent H r w).2 = { w.drawn with log } ∧ log.lastHash = digest
      ∧ ∃ row, log.rows = w.log.rows ++ [row] ∧ row.eventId = H.uuid4 w.draws
        ∧ row.eventHash = digest := by
  obtain ⟨fields, e, log, hfields, happended, hrun⟩ := appendEvent_accepted h
  have hhash : e.eventHash = digest := by
    obtain ⟨-, t, ht, hsha⟩ := happended.sound
    rw [hfields] at hdigest
    obtain ⟨t', ht', hsha'⟩ := of_bind_ok (show eventHash H _ _ _ _ _ _ = .ok digest from hdigest)
    have hbody : e.body = eventBody (w.eventId H) (w.now H) (py r.type.value) r.entityId fields
        w.log.lastHash.str := by
      unfold Event.body
      rw [happended.eventId, happended.ts, happended.type, happended.entityId, happended.payload,
        happended.prevHash]
      rfl
    rw [hbody, ht'] at ht
    cases ht
    exact hsha.symm.trans (Except.ok.inj hsha')
  refine ⟨log, by rw [hrun], ?_, EventLog.rowOf e, happended.rows, Text.ext happended.eventId,
    hhash⟩
  unfold EventLog.lastHash
  rw [happended.rows, List.getLast?_concat]
  exact hhash

/-- Events are accepted in turn just if the table can take them. -/
theorem inTurn_iff (rs : List NewEvent) (w : StoreWorld) :
    InTurn (appendEvent H) (accepted H) w rs ↔ Appendable H w rs := by
  induction rs generalizing w with
  | nil =>
    refine iff_of_true trivial ⟨fun _ h => (by cases h), fun _ h => absurd h (Nat.not_lt_zero _),
      List.disjoint_nil_right _, List.nodup_nil⟩
  | cons r rs ih =>
    show accepted H w r = true ∧ InTurn _ _ _ rs ↔ _
    constructor
    · rintro ⟨haccepted, hrest⟩
      obtain ⟨hwritable, hfresh, digest, hnew, hdigest⟩ := accepted_iff.mp haccepted
      obtain ⟨log, hafter, hlast, row, hrows, hid, hhash⟩ := appendEvent_row haccepted hdigest
      rw [hafter] at hrest
      obtain ⟨hall, hids, hhashes, hdistinct⟩ := (ih _).mp hrest
      have hfrom := hashesFrom_cons hdigest rs
      rw [hlast] at hhashes hdistinct
      rw [hrows] at hids hhashes
      rw [List.map_append, List.map_singleton, hhash, List.disjoint_append_left,
        List.singleton_disjoint] at hhashes
      refine ⟨List.forall_mem_cons.mpr ⟨hwritable, hall⟩, fun i hi row' hrow' => ?_, ?_, ?_⟩
      · cases i with
        | zero => exact hfresh row' hrow'
        | succ i =>
          have hne := hids i (Nat.lt_of_succ_lt_succ hi) row' (List.mem_append_left _ hrow')
          rwa [Nat.add_comm i, ← Nat.add_assoc]
      · rw [hfrom, List.disjoint_cons_right]
        refine ⟨fun hmem => ?_, hhashes.1⟩
        obtain ⟨row', hrow', heq⟩ := List.mem_map.mp hmem
        exact hnew row' hrow' heq
      · rw [hfrom]
        exact List.nodup_cons.mpr ⟨hhashes.2, hdistinct⟩
    · rintro ⟨hall, hids, hhashes, hdistinct⟩
      obtain ⟨hwritable, hall⟩ := List.forall_mem_cons.mp hall
      obtain ⟨fields, hfields, hfinite, hencodable, hentity⟩ := hwritable
      obtain ⟨digest, hdigest⟩ := exists_ok ((@eventHash_isOk H r.type r.entityId fields _ _ _
        (H.uuid4 w.draws).encodable (H.isoformat (H.clock w.ticks)).encodable
        w.log.lastHash.encodable).mpr ⟨hfinite, hencodable, hentity⟩)
      replace hdigest : (r.fields.bind fun fields => eventHash H (w.eventId H) (w.now H)
          (py r.type.value) r.entityId fields w.log.lastHash.str) = .ok digest := by
        rw [hfields]
        exact hdigest
      have hfrom := hashesFrom_cons hdigest rs
      rw [hfrom, List.disjoint_cons_right] at hhashes
      rw [hfrom, List.nodup_cons] at hdistinct
      have haccepted := accepted_iff.mpr ⟨⟨fields, hfields, hfinite, hencodable, hentity⟩,
        hids 0 (Nat.succ_pos _), digest,
        fun row hrow heq => hhashes.1 (heq ▸ List.mem_map_of_mem hrow), hdigest⟩
      obtain ⟨log, hafter, hlast, row, hrows, hid, hhash⟩ := appendEvent_row haccepted hdigest
      refine ⟨haccepted, ?_⟩
      rw [hafter]
      refine (ih _).mpr ⟨hall, fun i hi row' hrow' => ?_, ?_, ?_⟩
      · rw [show ({ w.drawn with log } : StoreWorld).draws + i = w.draws + (i + 1) from
          Nat.add_right_comm ..]
        rcases List.mem_append.mp (hrows ▸ hrow' : row' ∈ w.log.rows ++ [row]) with hrow' | hrow'
        · exact hids (i + 1) (Nat.succ_lt_succ hi) row' hrow'
        · rw [List.mem_singleton.mp hrow', hid]
          intro heq
          have := H.uuid4_injective heq
          omega
      · show (log.rows.map EventRow.eventHash).Disjoint (hashesFrom H log.lastHash _ _ rs)
        rw [hrows, hlast, List.map_append, List.map_singleton, hhash, List.disjoint_append_left,
          List.singleton_disjoint]
        exact ⟨hhashes.2, hdistinct.1⟩
      · show (hashesFrom H log.lastHash _ _ rs).Nodup
        rw [hlast]
        exact hdistinct.2

-- == the plan

theorem prepare_iff {src : Source} {log : EventLog} :
    prepare H F src log = .ok (.inr p) ↔ Prepares H F src log p := by
  unfold prepare
  constructor
  · intro h
    split at h
    · cases h
    · next hsize =>
      obtain ⟨s, hs, h⟩ := of_bind_ok h
      split at h
      · cases h
      · next hnew =>
        obtain ⟨⟨records, dependencies, mediaType⟩, hextract, h⟩ := of_bind_ok h
        obtain ⟨taskIds, hvalid, h⟩ := of_bind_ok h
        cases h
        exact ⟨by omega, ⟨s, hs, by simpa using hnew⟩, of_mapError_ok hextract,
          of_mapError_ok hvalid⟩
  · rintro ⟨hsize, ⟨s, hs, hnew⟩, hextract, hvalid⟩
    rw [if_neg (by omega), hs, bind_ok_eq, hnew, if_neg (by decide), hextract]
    show (Events.liftPy (validatePlan p.records p.dependencies (F.sha256 src.content).str) >>= _)
      = _
    rw [hvalid]
    rfl

/-- A plan that can be made is accepted whole just if its events are, in turn. -/
theorem whole_iff {w : StoreWorld} (ps : List (Except PyErr NewEvent)) :
    (Plan.taken (appendEvent H) (accepted H) w ps).length = ps.length ↔ (∀ p ∈ ps, ∃ r, p = .ok r)
        ∧ InTurn (appendEvent H) (accepted H) w (ps.filterMap Except.toOption) := by
  induction ps generalizing w with
  | nil => exact iff_of_true rfl ⟨fun _ h => (by cases h), trivial⟩
  | cons p ps ih =>
    cases p with
    | error e =>
      rw [Plan.taken_error]
      refine iff_of_false (fun h => by cases h) fun h => ?_
      obtain ⟨r, hr⟩ := h.1 _ (List.mem_cons_self ..)
      cases hr
    | ok r =>
      rw [Plan.taken_ok, List.forall_mem_cons]
      by_cases haccepted : accepted H w r = true
      · rw [if_pos haccepted, List.length_cons, List.length_cons, Nat.add_right_cancel_iff, ih]
        exact ⟨fun h => ⟨⟨⟨r, rfl⟩, h.1⟩, haccepted, h.2⟩, fun h => ⟨h.1.2, h.2.2⟩⟩
      · rw [if_neg haccepted]
        exact iff_of_false (fun h => by cases h) fun h => haccepted h.2.1

theorem events_ok {src : Source} {log : EventLog} (h : Prepares H F src log p) :
    (∀ e ∈ p.events F src, ∃ r, e = .ok r)
      ↔ ∀ record ∈ p.records, (kindOf? record.kind).isSome = true := by
  have hdependencies : ∀ d ∈ p.dependencies, ∃ r, dependencyEvent (F.sha256 src.content).str
      (sourceIdFor F src.content) p.taskIds d = .ok r := by
    intro d hd
    have hknown : p.taskIds.contains d.1 = true := by
      obtain ⟨taskIds, -, hall⟩ := of_bind_ok h.valid
      split at hall
      · next hcontains =>
        cases hall
        exact List.all_eq_true.mp hcontains d hd
      · cases hall
    obtain ⟨id, hid⟩ := Option.isSome_iff_exists.mp hknown
    unfold dependencyEvent
    rw [hid]
    exact ⟨_, rfl⟩
  have hrecord : ∀ record : PendingRecord, (∃ r, recordEvent (F.sha256 src.content).str
      (sourceIdFor F src.content) record = .ok r) ↔ (kindOf? record.kind).isSome = true := by
    intro record
    unfold recordEvent
    cases kindOf? record.kind with
    | none => exact ⟨fun ⟨_, h⟩ => (by cases h), fun h => (by cases h)⟩
    | some k => exact iff_of_true ⟨_, rfl⟩ rfl
  unfold Prepared.events recordEvents dependencyEvents
  simp only [List.forall_mem_cons, List.forall_mem_append, List.map_map, List.forall_mem_map,
    Function.comp_apply, hrecord, Except.ok.injEq, exists_eq', true_and]
  exact and_iff_left fun d hd => hdependencies d hd

/-- The call appends none of the events of its plan, or all of them. -/
def AllTaken (H : Host) (F : Formats) (src : Source) (w : StoreWorld) : Prop :=
  taken H F src w = [] ∨ (taken H F src w).length = (plan H F src w.log).length

theorem allTaken_iff {src : Source} {w : StoreWorld} : AllTaken H F src w ↔ Whole H F src w := by
  unfold AllTaken Whole taken plan
  simp only [← prepare_iff]
  cases hprepare : prepare H F src w.log with
  | error e => exact iff_of_true (Or.inl rfl) fun p hp => (by cases hp)
  | ok r =>
    cases r with
    | inl result => exact iff_of_true (Or.inl rfl) fun p hp => (by cases hp)
    | inr p =>
      simp only [Except.ok.injEq, Sum.inr.injEq, forall_eq']
      rw [whole_iff, events_ok (prepare_iff.mp hprepare), inTurn_iff, ← inTurn_iff [_]]
      refine or_congr ?_ Iff.rfl
      unfold Prepared.events
      rw [Plan.taken_ok]
      by_cases haccepted : accepted H w (sourceEvent (F.sha256 src.content).str
          (sourceIdFor F src.content) src.content.length src.name src.path p.mediaType) = true
      · rw [if_pos haccepted]
        exact iff_of_false (List.cons_ne_nil _ _) fun h => h ⟨haccepted, trivial⟩
      · rw [if_neg haccepted]
        exact iff_of_true rfl fun h => haccepted h.1

theorem taken_length (src : Source) (w : StoreWorld) : (ingestBytes H F src w).2.log.rows.length
      = w.log.rows.length + (taken H F src w).length := by
  rw [ingestBytes_log]
  exact afterAll_length (taken_inTurn _ _)

variable {src : Source} {w : StoreWorld} {s : ProjectState} {type : EventType} {log : EventLog}
  {sourceId : PyStr}

theorem plan_ne_nil (h : taken H F src w ≠ []) : plan H F src w.log ≠ [] := by
  intro hplan
  refine h ?_
  unfold taken
  rw [hplan]
  rfl

theorem allOrNothing_iff : AllOrNothing H F src w ↔ AllTaken H F src w := by
  constructor
  · intro h
    by_cases hnone : taken H F src w = []
    · exact Or.inl hnone
    · refine Or.inr ((ingestBytes_isOk (plan_ne_nil hnone)).mp ?_)
      cases hrun : (ingestBytes H F src w).1 with
      | ok result => rfl
      | error e =>
        have hlength := taken_length (H := H) (F := F) src w
        rw [h e hrun] at hlength
        exact absurd (List.length_eq_zero_iff.mp (by omega)) hnone
  · rintro (hnone | hwhole) e he
    · rw [ingestBytes_log, hnone]
      rfl
    · by_cases hplan : plan H F src w.log = []
      · rw [ingestBytes_log]
        unfold taken
        rw [hplan]
        rfl
      · have hok := (ingestBytes_isOk hplan).mpr hwhole
        rw [he] at hok
        cases hok

-- == runs

def Logged (log : EventLog) (r : NewEvent) : Prop :=
  ∃ row ∈ log.rows, ∃ fields, r.fields = .ok fields
    ∧ row.type = Text.lit r.type.value ∧ row.entityId.map Text.str = r.entityId
    ∧ row.payloadJson = some fields.doc

theorem afterAll_rows {rs : List NewEvent} (h : InTurn (appendEvent H) (accepted H) w rs) :
    (∀ row ∈ w.log.rows, row ∈ (afterAll H w rs).log.rows)
      ∧ (∀ r ∈ rs, Logged (afterAll H w rs).log r)
      ∧ ∀ row ∈ (afterAll H w rs).log.rows, row ∈ w.log.rows ∨ ∃ r ∈ rs,
        row.type = Text.lit r.type.value ∧ row.entityId.map Text.str = r.entityId := by
  induction rs generalizing w with
  | nil => exact ⟨fun _ h => h, fun r hr => (by cases hr), fun _ h => Or.inl h⟩
  | cons r rs ih =>
    obtain ⟨fields, e, log, hfields, happended, hrun⟩ := appendEvent_accepted h.1
    obtain ⟨hold, hnew, hback⟩ := ih h.2
    rw [hrun] at hold hnew hback
    replace hold : ∀ row ∈ log.rows, row ∈ (afterAll H w (r :: rs)).log.rows := by
      intro row hrow
      show row ∈ (afterAll H (appendEvent H r w).2 rs).log.rows
      rw [hrun]
      exact hold row hrow
    have hafter : afterAll H w (r :: rs) = afterAll H { w.drawn with log := log } rs := by
      show afterAll H (appendEvent H r w).2 rs = _
      rw [hrun]
    have hrow : EventLog.rowOf e ∈ log.rows := by
      rw [happended.rows]
      exact List.mem_append_right _ (List.mem_singleton_self _)
    refine ⟨fun row hrow => hold row ?_, fun d hd => ?_, fun row hrow => ?_⟩
    · rw [happended.rows]
      exact List.mem_append_left _ hrow
    · rcases List.mem_cons.mp hd with rfl | hd
      · exact ⟨_, hold _ hrow, fields, hfields, happended.type,
          happended.entityId, congrArg (fun p => some (Fields.doc p)) happended.payload⟩
      · rw [hafter]
        exact hnew d hd
    · rw [hafter] at hrow
      rcases hback row hrow with hrow | ⟨d, hd, hrow⟩
      · rw [happended.rows] at hrow
        rcases List.mem_append.mp hrow with hrow | hrow
        · exact Or.inl hrow
        · rw [List.mem_singleton.mp hrow]
          exact Or.inr ⟨r, List.mem_cons_self .., happended.type, happended.entityId⟩
      · exact Or.inr ⟨d, List.mem_cons_of_mem _ hd, hrow⟩

/-- The row says that the source is in the log. -/
def Tells (row : EventRow) (sourceId : PyStr) : Prop :=
  ∃ e, row.toEvent = .ok e ∧ EventType.ofName? e.type.str = some .sourceIngested
    ∧ Events.entityId e "source_id" = .ok sourceId

theorem reduceType_sources {mid : ProjectState} {e : Event}
    (htype : type ≠ .sourceIngested) (h : reduceType s e type = .ok mid) :
    mid.sources = s.sources := by
  cases type with
  | sourceIngested => exact absurd rfl htype
  | taskCreated =>
    obtain ⟨id, -, h⟩ := of_bind_ok h
    split at h
    · cases h
    · cases h
      rfl
  | dependencyAdded =>
    replace h : dependTask s e = .ok mid := h
    unfold dependTask at h
    split at h
    · split at h
      · cases h
      · cases h
        rfl
    · cases h
  | goalDiscovered | artifactCreated | decisionRecorded | blockerRecorded =>
    obtain ⟨id, -, h⟩ := of_bind_ok h
    cases h
    rfl
  | taskReady | taskAuthorized | taskStarted | taskExecuted | verificationPassed
  | verificationFailed | taskCompleted | taskFailed =>
    obtain ⟨id, -, h⟩ := of_bind_ok h
    split at h
    · cases h
    · cases h
      rfl

theorem source_told {es : List Event} (h : rebuildState es = .ok s) (sourceId : PyStr)
    (hsource : s.sources.contains sourceId = true) :
    ∃ e ∈ es, EventType.ofName? e.type.str = some .sourceIngested
      ∧ Events.entityId e "source_id" = .ok sourceId := by
  revert hsource
  refine Replay.replay_history reduceEvent (P := fun es s =>
    s.sources.contains sourceId = true → ∃ e ∈ es,
      EventType.ofName? e.type.str = some .sourceIngested
        ∧ Events.entityId e "source_id" = .ok sourceId)
    (fun hsource => (by cases hsource)) (fun es s e s' hs he hsource => ?_) h
  have hold : s.sources.contains sourceId = true → ∃ d ∈ es ++ [e],
      EventType.ofName? d.type.str = some .sourceIngested
        ∧ Events.entityId d "source_id" = .ok sourceId := by
    intro hsource
    obtain ⟨d, hd, htold⟩ := hs hsource
    exact ⟨d, List.mem_append_left _ hd, htold⟩
  obtain ⟨⟨type, hnamed, -, -, mid, hmid, rfl⟩⟩ := reduceEvent_ok he
  by_cases htype : type = .sourceIngested
  · subst htype
    obtain ⟨id, hid, hmid⟩ := of_bind_ok hmid
    cases hmid
    by_cases hsame : sourceId = id
    · subst hsame
      exact ⟨e, List.mem_append_right _ (List.mem_singleton_self e), hnamed, hid⟩
    · refine hold ?_
      unfold Dict.contains at hsource ⊢
      rwa [Dict.get?_set, if_neg hsame] at hsource
  · refine hold ?_
    have hsources := reduceType_sources htype hmid
    show s.sources.contains sourceId = true
    rw [← hsources]
    exact hsource

theorem tells_of_state (h : Rebuilt log s) (hsource : s.sources.contains sourceId = true) :
    ∃ row ∈ log.rows, Tells row sourceId := by
  obtain ⟨es, hes, hs⟩ := h
  obtain ⟨e, he, hnamed, hid⟩ := source_told hs sourceId hsource
  obtain ⟨row, hrow, hevent⟩ := mem_events hes he
  exact ⟨row, hrow, e, hevent, hnamed, hid⟩

theorem kindOf_ne_source {kind : PyStr} {idKey : PyStr} (h : kindOf? kind = some (type, idKey)) :
    type ≠ .sourceIngested ∧ type ≠ .dependencyAdded ∧ type.status? = none := by
  obtain ⟨k, hk, heq⟩ := Option.map_eq_some_iff.mp h
  have hall : ∀ k ∈ kinds, k.2.1 ≠ .sourceIngested ∧ k.2.1 ≠ .dependencyAdded
      ∧ k.2.1.status? = none := by decide
  cases heq
  exact hall k (List.mem_of_find?_eq_some hk)

theorem source_of_plan (hr : .ok r ∈ plan H F src log) (htype : r.type = .sourceIngested) :
    r.entityId = some (sourceIdFor F src.content) := by
  unfold plan at hr
  split at hr
  · next p _ =>
    rcases List.mem_cons.mp hr with hr | hr
    · cases hr
      rfl
    · exfalso
      rcases List.mem_append.mp hr with hr | hr
      · obtain ⟨m, hm, heq⟩ := List.mem_map.mp hr
        obtain ⟨record, -, rfl⟩ := List.mem_map.mp hm
        unfold recordEvent at heq
        split at heq
        · cases heq
        · next type idKey hkind =>
          cases heq
          exact (kindOf_ne_source hkind).1 htype
      · obtain ⟨m, hm, heq⟩ := List.mem_map.mp hr
        obtain ⟨d, -, rfl⟩ := List.mem_map.mp hm
        unfold dependencyEvent at heq
        split at heq
        · cases heq
        · cases heq
          cases htype
  · cases hr

def ingestAll (H : Host) (F : Formats) (srcs : List Source) (w : StoreWorld) : StoreWorld :=
  srcs.foldl (fun w src => (ingestBytes H F src w).2) w

/-- Each of the calls meets the condition, on the store it comes to. -/
def WholeCalls (H : Host) (F : Formats) : StoreWorld → List Source → Prop
  | _, [] => True
  | w, src :: rest =>
    Whole H F src w ∧ WholeCalls H F (ingestBytes H F src w).2 rest

theorem ingestAll_append (srcs rest : List Source) (w : StoreWorld) :
    ingestAll H F (srcs ++ rest) w = ingestAll H F rest (ingestAll H F srcs w) :=
  List.foldl_append

theorem wholeCalls_append {rest : List Source} : WholeCalls H F w (srcs ++ rest)
      ↔ WholeCalls H F w srcs ∧ WholeCalls H F (ingestAll H F srcs w) rest := by
  induction srcs generalizing w with
  | nil => exact ⟨fun h => ⟨trivial, h⟩, fun h => h.2⟩
  | cons src srcs ih =>
    show _ ∧ WholeCalls H F _ (srcs ++ rest) ↔ (_ ∧ WholeCalls H F _ srcs) ∧ _
    rw [ih, and_assoc]
    rfl

/-- One of the calls was about the source, and all it had to say is logged. -/
def ToldWhole (H : Host) (F : Formats) (w : StoreWorld) (srcs : List Source)
    (log : EventLog) (sourceId : PyStr) : Prop :=
  ∃ before src after, srcs = before ++ src :: after ∧ sourceIdFor F src.content = sourceId
    ∧ ∀ p ∈ plan H F src (ingestAll H F before w).log, ∃ r, p = .ok r ∧ Logged log r

theorem tells_entity {id : PyStr} (h : Tells row sourceId)
    (hid : id ≠ []) (hrow : row.entityId.map Text.str = some id) : sourceId = id := by
  obtain ⟨e, he, -, htold⟩ := h
  rw [← (toEvent_columns he).2] at hrow
  exact Except.ok.inj (htold.symm.trans (entityId_of_column hrow hid))

theorem tells_type
    (h : Tells row sourceId) (hrow : row.type = Text.lit type.value) : type = .sourceIngested := by
  obtain ⟨e, he, hnamed, -⟩ := h
  rw [(toEvent_columns he).1, hrow] at hnamed
  exact Option.some.inj ((EventLog.ofName?_value type).symm.trans hnamed)

/-- Over whole calls, a source the log tells of was there before, or is there
with all it says. -/
theorem told_run (h : WholeCalls H F w srcs) :
    ∀ row ∈ (ingestAll H F srcs w).log.rows, ∀ sourceId, Tells row sourceId → row ∈ w.log.rows
        ∨ ToldWhole H F w srcs (ingestAll H F srcs w).log sourceId := by
  induction srcs using List.reverseRecOn with
  | nil => exact fun row hrow _ _ => Or.inl hrow
  | append_singleton srcs src ih =>
    obtain ⟨hsrcs, hlast, -⟩ := wholeCalls_append.mp h
    rw [ingestAll_append]
    generalize hw : ingestAll H F srcs w = mid at hlast ih ⊢
    show ∀ row ∈ (ingestBytes H F src mid).2.log.rows, _
    rw [show (ingestAll H F [src] mid).log = (ingestBytes H F src mid).2.log
      from rfl, ingestBytes_log]
    obtain ⟨hold, hlogged, hback⟩ := afterAll_rows
      (show Plan.InTurn (appendEvent H) (accepted H) mid _ from
        taken_inTurn mid (plan H F src mid.log))
    intro row hrow sourceId htells
    rcases hback row hrow with hrow | ⟨r, hr, htype, hentity⟩
    · rcases ih hsrcs row hrow sourceId htells with hrow | htold
      · exact Or.inl hrow
      · obtain ⟨before, src', after, rfl, hid, hplan⟩ := htold
        refine Or.inr ⟨before, src', after ++ [src], by simp, hid, fun p hp => ?_⟩
        obtain ⟨r, hr, row', hrow', hrest⟩ := hplan p hp
        exact ⟨r, hr, row', hold row' hrow', hrest⟩
    · have hsource : r.type = .sourceIngested := tells_type htells htype
      rw [source_of_plan (mem_of_taken hr) hsource] at hentity
      have hwhole : (taken H F src mid).length = (plan H F src mid.log).length := by
        rcases allTaken_iff.mpr hlast with hnone | hwhole
        · unfold taken at hnone
          rw [hnone] at hr
          cases hr
        · exact hwhole
      refine Or.inr ⟨srcs, src, [], rfl,
        (tells_entity htells (by simp [sourceIdFor, py]) hentity).symm,
        fun p hp => ?_⟩
      rw [hw, ← map_taken hwhole] at hp
      obtain ⟨d, hd, rfl⟩ := List.mem_map.mp hp
      exact ⟨d, rfl, hlogged d hd⟩

theorem rebuilt_of_existingState (h : existingState H log = .ok s) : Rebuilt log s := by
  obtain ⟨valid, -, h⟩ := of_bind_ok h
  cases valid with
  | false => cases h
  | true =>
    obtain ⟨es, hes, hs⟩ := of_bind_ok h
    exact ⟨es, hes, hs⟩

theorem commit_new (src : Source) (p : Prepared) (w : StoreWorld) :
    (commit H F src p).Ends w (fun result _ => result.duplicate = false) fun _ _ => True := by
  have hany : ∀ {α : Type} (m : Block EventError StoreWorld α) (w : StoreWorld),
      m.Ends w (fun _ _ => True) fun _ _ => True := fun m w =>
    Block.Ends.of_state (R := fun _ => True) trivial
  refine (hany _ w).bind fun start w _ => ?_
  refine (hany _ w).bind fun _ w _ => ?_
  refine (hany _ w).bind fun counts w _ => ?_
  refine (hany _ w).bind fun counts w _ => ?_
  exact (hany _ w).bind fun stop w _ => ⟨rfl⟩

theorem prepare_duplicate (h : prepare H F src log = .ok (.inl result)) : ∃ s, Rebuilt log s
      ∧ s.sources.contains (sourceIdFor F src.content) = true := by
  unfold prepare at h
  split at h
  · cases h
  · obtain ⟨s, hs, h⟩ := of_bind_ok h
    split at h
    · next hsource => exact ⟨s, rebuilt_of_existingState hs, hsource⟩
    · obtain ⟨m, -, h⟩ := of_bind_ok h
      obtain ⟨taskIds, -, h⟩ := of_bind_ok h
      cases h

theorem duplicate_source
    (h : (ingestBytes H F src w).1 = .ok result) (hdup : result.duplicate = true) :
    ∃ s, Rebuilt w.log s ∧ s.sources.contains (sourceIdFor F src.content) = true := by
  unfold ingestBytes at h
  split at h
  · cases h
  · next result' hprepare => exact prepare_duplicate hprepare
  · next p hprepare =>
    have hnew := (commit_new src p w).value h
    rw [hdup] at hnew
    cases hnew

/-- A call is all or nothing exactly if its source passes no checks, its first event cannot be
appended, or all its events can. -/
theorem all_or_nothing (H : Host) (F : Formats) :
    (∀ src w, AllOrNothing H F src w ↔ Whole H F src w)
    ∧ ∀ srcs src w result, WholeCalls H F w srcs →
      (ingestBytes H F src (ingestAll H F srcs w)).1 = .ok result →
      result.duplicate = true →
      (∃ row ∈ w.log.rows, Tells row (sourceIdFor F src.content))
        ∨ ToldWhole H F w srcs (ingestAll H F srcs w).log (sourceIdFor F src.content) := by
  refine ⟨fun src w => allOrNothing_iff.trans allTaken_iff,
    fun srcs src w result hwhole hresult hdup => ?_⟩
  obtain ⟨s, hs, hsource⟩ := duplicate_source hresult hdup
  obtain ⟨row, hrow, htells⟩ := tells_of_state hs hsource
  rcases told_run hwhole row hrow _ htells with hrow | htold
  · exact Or.inl ⟨row, hrow, htells⟩
  · exact Or.inr htold

-- == samples

namespace Sample

/-- A machine that counts bytes for a digest, and reads no JSON. -/
def formats : Formats where
  sha256 content := Text.lit (toString content.length)
  jsonLoads _ := .error (.valueError "Expecting value")
  containerStr _ := []

def source (lines : String) : Source :=
  ⟨lines.toUTF8.toList, py "notes.txt", none, 1000⟩

def world : StoreWorld := ⟨.empty, 0, 0⟩

/-- A goal, and a task spelled with a long s. -/
def longS : Source := source "GOAL: ship
TAſK: pack"

end Sample

/-- The call raises with the source and its goal in the log, and the next one
reports a duplicate. -/
theorem half_ingested :
    (ingestBytes Events.Sample.host Sample.formats Sample.longS Sample.world).1.isOk = false
      ∧ (ingestBytes Events.Sample.host Sample.formats Sample.longS
        Sample.world).2.log.rows.length = 2
      ∧ ((ingestBytes Events.Sample.host Sample.formats Sample.longS
        (ingestBytes Events.Sample.host Sample.formats Sample.longS
          Sample.world).2).1.map IngestResult.duplicate).toOption = some true
      ∧ ¬AllOrNothing Events.Sample.host Sample.formats Sample.longS Sample.world := by
  have hraises : (ingestBytes Events.Sample.host Sample.formats Sample.longS
      Sample.world).1.isOk = false := by decide +kernel
  have hlength : (ingestBytes Events.Sample.host Sample.formats Sample.longS
      Sample.world).2.log.rows.length = 2 := by decide +kernel
  refine ⟨hraises, hlength, by decide +kernel, fun hall => ?_⟩
  cases hrun : (ingestBytes Events.Sample.host Sample.formats Sample.longS Sample.world).1 with
  | ok result =>
    rw [hrun] at hraises
    cases hraises
  | error e =>
    rw [hall e hrun] at hlength
    cases hlength

end Centinal26.Ingest
