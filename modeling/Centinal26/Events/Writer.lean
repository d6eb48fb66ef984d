/-
Writing to a store: the log with the clock and the identifiers an append draws
on, and what one append does to the state the log reduces to.
-/
import Centinal26.Events.Chain
import Centinal26.Events.LifeCycle
import Centinal26.Lib.Ends

namespace Centinal26.Events

open Py Steps Replay

variable {H : Host}

/-- The store, with what the machine has handed out so far. -/
structure StoreWorld where
  log : EventLog
  ticks : Nat
  draws : Nat

/-- The arguments the program gives `append`. -/
structure NewEvent where
  type : EventType
  payload : PyVal
  entityId : Option PyStr

namespace StoreWorld

def eventId (H : Host) (w : StoreWorld) : PyStr := (H.uuid4 w.draws).str

def now (H : Host) (w : StoreWorld) : PyStr := (H.isoformat (H.clock w.ticks)).str

def drawn (w : StoreWorld) : StoreWorld := ⟨w.log, w.ticks + 1, w.draws + 1⟩

end StoreWorld

/-- The payload `append` stores, if it is a dictionary JSON has a text for. -/
def NewEvent.fields (r : NewEvent) : Except PyErr Fields :=
  match r.payload with
  | .dict _ => EventLog.normalizedPayload r.payload
  | _ => .error .typeError

/-- `store.append(type, payload, entity_id=..)`. -/
def appendEvent (H : Host) (r : NewEvent) : Block EventError StoreWorld Event :=
  fun w =>
    match r.fields with
    | .error e => (.error (.py e), w)
    | .ok fields =>
      match w.log.insertEvent H r.type fields r.entityId (w.eventId H) (w.now H) with
      | .error e => (.error (.py e), w.drawn)
      | .ok (event, log) => (.ok event, { w.drawn with log := log })

-- == acceptance

theorem canonicalJson_isOk {d : Json} :
    (canonicalJson d).isOk = true ↔ d.isFinite = true ∧ d.isEncodable = true := by
  unfold canonicalJson
  split
  · next hfinite =>
    rw [← encodable_text d]
    unfold encode
    split
    · next h => exact ⟨fun _ => ⟨hfinite, h⟩, fun _ => rfl⟩
    · next h => exact ⟨fun hok => (by cases hok), fun hok => absurd hok.2 h⟩
  · next hfinite =>
    exact ⟨fun hok => (by cases hok), fun hok => absurd hok.1 hfinite⟩

def encodableOpt (s : Option PyStr) : Bool := s.all fun s => decide (Encodable s)

theorem encodable_optJson (s : Option PyStr) : (optJson s).isEncodable = encodableOpt s := by
  cases s <;> rfl

theorem eventHash_isOk {type : EventType} {entityId : Option PyStr}
    {payload : Fields} {eventId ts prevHash : PyStr} (hid : Encodable eventId)
    (hts : Encodable ts) (hprev : Encodable prevHash) :
    (eventHash H eventId ts (py type.value) entityId payload prevHash).isOk = true
      ↔ payload.doc.json.isFinite = true ∧ payload.doc.json.isEncodable = true
        ∧ encodableOpt entityId = true := by
  have hok : ∀ r : Except PyErr Text,
      (do .ok (H.sha256 (← r)) : Except PyErr Text).isOk = r.isOk := by
    intro r
    cases r <;> rfl
  unfold eventHash
  rw [hok, canonicalJson_isOk, eventBody_eq, Json.isFinite, Json.isEncodable,
    allFiniteMembers_eq, allEncodableMembers_eq]
  simp only [List.all_cons, List.all_nil, Json.isFinite, Json.isEncodable,
    encodable_optJson, hid, hts, hprev, encodable_py, decide_true, Bool.and_true,
    Bool.true_and, Bool.and_eq_true]
  have hentity : (optJson entityId).isFinite = true := by
    cases entityId <;> rfl
  rw [hentity]
  tauto

/-- Neither the identifier nor the hash is in the table. -/
def isFresh (H : Host) (w : StoreWorld) (r : NewEvent) (fields : Fields) : Bool :=
  match eventHash H (w.eventId H) (w.now H) (py r.type.value) r.entityId fields
      w.log.lastHash.str with
  | .error _ => false
  | .ok digest => w.log.rows.all fun row =>
    decide (row.eventId.str ≠ w.eventId H) && decide (row.eventHash ≠ digest)

/-- `append` takes the event: its payload has a JSON text without NaN or
Infinity, everything encodes, and it is new. -/
def accepted (H : Host) (w : StoreWorld) (r : NewEvent) : Bool :=
  match r.fields with
  | .error _ => false
  | .ok fields => fields.doc.json.isFinite && fields.doc.json.isEncodable
      && encodableOpt r.entityId && isFresh H w r fields

variable {row : EventRow} {s : ProjectState} {w : StoreWorld} {r : NewEvent} {rows : List EventRow}
  {es : List Event} {e : Event}

theorem EventLog.insert_eq_ok {log : EventLog} {hseq : row.seq = log.lastSeq + 1} :
    (log.insert row hseq).isOk = true
      ↔ ∀ r ∈ log.rows, r.eventId ≠ row.eventId ∧ r.eventHash ≠ row.eventHash := by
  unfold insert
  split
  · next h =>
    obtain ⟨r, hr, hclash⟩ := List.any_eq_true.mp h
    rw [Bool.or_eq_true, decide_eq_true_eq, decide_eq_true_eq] at hclash
    exact ⟨fun hok => (by cases hok), fun hall => by
      rcases hclash with hclash | hclash
      · exact absurd hclash (hall r hr).1
      · exact absurd hclash (hall r hr).2⟩
  · next h =>
    refine ⟨fun _ r hr => ?_, fun _ => rfl⟩
    constructor
    · intro hclash
      exact h (List.any_eq_true.mpr ⟨r, hr, by simp [hclash]⟩)
    · intro hclash
      exact h (List.any_eq_true.mpr ⟨r, hr, by simp [hclash]⟩)

theorem encode_isOk {s : PyStr} : (encode s).isOk = true ↔ Encodable s := by
  unfold encode
  split
  · next h => exact ⟨fun _ => h, fun _ => rfl⟩
  · next h => exact ⟨fun hok => (by cases hok), fun hok => absurd hok h⟩

theorem encodeOpt_isOk {s : Option PyStr} : (EventLog.encodeOpt s).isOk = encodableOpt s := by
  cases s with
  | none => rfl
  | some s =>
    have h : (EventLog.encodeOpt (some s)).isOk = (encode s).isOk := by
      show (do .ok (some (← encode s)) : Except PyErr (Option Text)).isOk = _
      cases encode s <;> rfl
    rw [h, Bool.eq_iff_iff, encode_isOk]
    exact decide_eq_true_iff.symm

theorem insertEvent_isOk {fields : Fields} :
    (w.log.insertEvent H r.type fields r.entityId (w.eventId H) (w.now H)).isOk = true
      ↔ fields.doc.json.isFinite = true ∧ fields.doc.json.isEncodable = true
        ∧ encodableOpt r.entityId = true ∧ isFresh H w r fields = true := by
  have hhash := @eventHash_isOk H r.type r.entityId fields _ _ _ (H.uuid4 w.draws).encodable
    (H.isoformat (H.clock w.ticks)).encodable w.log.lastHash.encodable
  unfold EventLog.insertEvent isFresh StoreWorld.eventId StoreWorld.now
  cases hdigest : eventHash H (H.uuid4 w.draws).str
      (H.isoformat (H.clock w.ticks)).str (py r.type.value) r.entityId fields
      w.log.lastHash.str with
  | error e => exact ⟨nofun, fun h => (by cases h.2.2.2)⟩
  | ok digest =>
    rw [hdigest] at hhash
    obtain ⟨hfinite, hencodable, hentity⟩ := hhash.mp rfl
    obtain ⟨entity, heq⟩ := exists_ok (encodeOpt_isOk.trans hentity)
    rw [heq, encode_str, encode_str]
    simp only [bind_ok_eq]
    have hok : ∀ (x : Except PyErr EventLog) (event : Event),
        (do .ok (event, ← x) : Except PyErr (Event × EventLog)).isOk = x.isOk := by
      intro x event
      cases x <;> rfl
    rw [hok]
    refine EventLog.insert_eq_ok.trans ?_
    simp only [hfinite, hencodable, hentity, true_and, List.all_eq_true,
      Bool.and_eq_true, decide_eq_true_eq]
    constructor
    · intro h row hrow
      exact ⟨fun hid => (h row hrow).1 (Text.ext hid), (h row hrow).2⟩
    · intro h row hrow
      exact ⟨fun hid => (h row hrow).1 (congrArg Text.str hid), (h row hrow).2⟩

theorem appendEvent_accepted (h : accepted H w r = true) : ∃ fields e log', r.fields = .ok fields
      ∧ EventLog.Appended H w.log log' r.type fields r.entityId (w.eventId H) (w.now H) e
      ∧ appendEvent H r w = (.ok e, { w.drawn with log := log' }) := by
  unfold accepted at h
  cases hfields : r.fields with
  | error e =>
    rw [hfields] at h
    cases h
  | ok fields =>
    rw [hfields] at h
    simp only [Bool.and_eq_true] at h
    obtain ⟨⟨⟨hfinite, hencodable⟩, hentity⟩, hfresh⟩ := h
    obtain ⟨m, hm⟩ := exists_ok (insertEvent_isOk.mpr ⟨hfinite, hencodable, hentity, hfresh⟩)
    refine ⟨fields, m.1, m.2, rfl, EventLog.insertEvent_appended hm, ?_⟩
    unfold appendEvent
    rw [hfields]
    simp only [hm]

theorem appendEvent_refused (h : accepted H w r = false) :
    ∃ err w', appendEvent H r w = (.error err, w') ∧ w'.log = w.log := by
  unfold appendEvent
  cases hfields : r.fields with
  | error e => exact ⟨_, w, rfl, rfl⟩
  | ok fields =>
    cases hm : w.log.insertEvent H r.type fields r.entityId (w.eventId H) (w.now H) with
    | error e => exact ⟨.py e, w.drawn, by simp only [hm], rfl⟩
    | ok m =>
      have hok := insertEvent_isOk.mp (by rw [hm]; rfl)
      unfold accepted at h
      rw [hfields] at h
      simp only [hok.1, hok.2.1, hok.2.2.1, hok.2.2.2] at h
      cases h

-- == reduction

def Rebuilt (log : EventLog) (s : ProjectState) : Prop :=
  ∃ es, events log.rows = .ok es ∧ rebuildState es = .ok s

theorem rebuilt_unique {log : EventLog} {s' : ProjectState}
    (h : Rebuilt log s) (h' : Rebuilt log s') : s = s' := by
  obtain ⟨es, hes, hs⟩ := h
  obtain ⟨es', hes', hs'⟩ := h'
  cases hes.symm.trans hes'
  exact Except.ok.inj (hs.symm.trans hs')

theorem events_concat
    (h : events rows = .ok es) : events (rows ++ [EventLog.rowOf e]) = .ok (es ++ [e]) := by
  induction rows generalizing es with
  | nil =>
    cases h
    rfl
  | cons row rest ih =>
    rw [events_cons] at h
    obtain ⟨d, hd, h⟩ := of_bind_ok h
    obtain ⟨ds, hds, h⟩ := of_bind_ok h
    cases h
    rw [List.cons_append, events_cons, hd, ih hds]
    rfl

theorem events_of_concat (h : events (rows ++ [row]) = .ok es) : ∃ es', events rows = .ok es' ∧
      ∃ e, row.toEvent = .ok e ∧ es = es' ++ [e] := by
  induction rows generalizing es with
  | nil =>
    obtain ⟨e, he, h⟩ := of_bind_ok (events_cons row [] ▸ h)
    cases h
    exact ⟨[], rfl, e, he, rfl⟩
  | cons r rest ih =>
    rw [List.cons_append, events_cons] at h
    obtain ⟨d, hd, h⟩ := of_bind_ok h
    obtain ⟨ds, hds, h⟩ := of_bind_ok h
    cases h
    obtain ⟨es', hes', e, he, rfl⟩ := ih hds
    refine ⟨d :: es', ?_, e, he, rfl⟩
    rw [events_cons, hd, hes']
    rfl

theorem rebuildState_last (h : rebuildState es = .ok s) :
    s.lastHash = Chain.last Event.eventHash genesis es
      ∧ (s.lastSeq = 0 ∨ ∃ e ∈ es, s.lastSeq = e.seq) := by
  refine replay_history reduceEvent (P := fun es s =>
    s.lastHash = Chain.last Event.eventHash genesis es
      ∧ (s.lastSeq = 0 ∨ ∃ e ∈ es, s.lastSeq = e.seq))
    ⟨rfl, Or.inl rfl⟩ (fun es s e s' _ he => ?_) h
  obtain ⟨⟨type, -, -, -, mid, -, rfl⟩⟩ := reduceEvent_ok he
  exact ⟨(Chain.last_concat Event.eventHash genesis es e).symm,
    Or.inr ⟨e, List.mem_append_right _ (List.mem_singleton_self e), rfl⟩⟩

theorem toEvent_seq (h : row.toEvent = .ok e) : e.seq = row.seq := by
  unfold EventRow.toEvent at h
  split at h
  · cases h
  · split at h
    · cases h
    · split at h
      · cases h
      · cases h
        rfl

theorem toEvent_columns (h : row.toEvent = .ok e) :
    e.type = row.type ∧ e.entityId = row.entityId := by
  unfold EventRow.toEvent at h
  split at h
  · cases h
  · split at h
    · cases h
    · split at h
      · cases h
      · cases h
        exact ⟨rfl, rfl⟩

theorem entityId_of_column {id : PyStr} {key : String}
    (h : e.entityId.map Text.str = some id) (hid : id ≠ []) : entityId e key = .ok id := by
  obtain ⟨t, ht, rfl⟩ := Option.map_eq_some_iff.mp h
  unfold entityId
  rw [ht]
  cases hstr : t.str with
  | nil => exact absurd hstr hid
  | cons c cs => simp only [hstr]

theorem mem_events
    (h : events rows = .ok es) (he : e ∈ es) : ∃ row ∈ rows, row.toEvent = .ok e := by
  induction rows generalizing es with
  | nil =>
    cases h
    cases he
  | cons row rest ih =>
    rw [events_cons] at h
    obtain ⟨d, hd, h⟩ := of_bind_ok h
    obtain ⟨ds, hds, h⟩ := of_bind_ok h
    cases h
    rcases List.mem_cons.mp he with rfl | he
    · exact ⟨row, List.mem_cons_self .., hd⟩
    · obtain ⟨row', hrow', hevent⟩ := ih hds he
      exact ⟨row', List.mem_cons_of_mem _ hrow', hevent⟩

theorem rebuilt_last {log : EventLog} (h : Rebuilt log s) :
    s.lastHash = log.lastHash ∧ s.lastSeq ≤ log.lastSeq := by
  obtain ⟨es, hes, hs⟩ := h
  obtain ⟨hhash, hseq⟩ := rebuildState_last hs
  refine ⟨by rw [hhash, last_events hes, EventLog.lastHash_eq], ?_⟩
  rcases hseq with hseq | ⟨e, he, hseq⟩
  · rw [hseq]
    exact log.nonneg
  · obtain ⟨row, hrow, hevent⟩ := mem_events hes he
    rw [hseq, toEvent_seq hevent]
    exact log.bound row hrow

theorem reduceEvent_next {log : EventLog} {mid : ProjectState}
    {type : EventType} (h : Rebuilt log s) (hseq : e.seq = log.lastSeq + 1)
    (hprev : e.prevHash = log.lastHash) (htype : e.type = Text.lit type.value)
    (hmid : reduceType s e type = .ok mid) :
    reduceEvent s e = .ok { mid with lastSeq := e.seq, lastHash := e.eventHash } := by
  obtain ⟨hhash, hlast⟩ := rebuilt_last h
  have hname : EventType.ofName? (Text.lit type.value).str = some type :=
    EventLog.ofName?_value type
  unfold reduceEvent
  rw [if_neg (by omega), if_neg (by rw [hprev, hhash]; exact not_not_intro rfl), htype]
  simp only [hname, hmid, bind_ok_eq]

section Append

variable {log log' : EventLog} {type : EventType} {fields : Fields}
  {entityId : Option PyStr} {eventId ts : PyStr} {e : Event}

theorem rebuilt_append {s mid : ProjectState} (h : Rebuilt log s)
    (ha : EventLog.Appended H log log' type fields entityId eventId ts e)
    (hmid : reduceType s e type = .ok mid) :
    Rebuilt log' { mid with lastSeq := e.seq, lastHash := e.eventHash } := by
  have hreduce := reduceEvent_next h ha.seq ha.prevHash ha.type hmid
  obtain ⟨es, hes, hs⟩ := h
  refine ⟨es ++ [e], by rw [ha.rows]; exact events_concat hes, ?_⟩
  exact replay_concat_ok.mpr ⟨s, hs, hreduce⟩

/-- A log that reduces after an append did before, and the reducer took the
event in. -/
theorem rebuilt_of_append {s' : ProjectState}
    (ha : EventLog.Appended H log log' type fields entityId eventId ts e) (h : Rebuilt log' s') :
    ∃ s mid, Rebuilt log s ∧ reduceType s e type = .ok mid
      ∧ s' = { mid with lastSeq := e.seq, lastHash := e.eventHash } := by
  obtain ⟨es', hes', hs'⟩ := h
  rw [ha.rows] at hes'
  obtain ⟨es, hes, e', hrow, rfl⟩ := events_of_concat hes'
  have heq : es ++ [e'] = es ++ [e] := by
    have := hes'.symm.trans (events_concat hes)
    exact Except.ok.inj this
  cases List.singleton_inj.mp (List.append_cancel_left heq)
  obtain ⟨s, hs, he⟩ := replay_concat_ok.mp hs'
  obtain ⟨⟨type', hnamed, -, -, mid, hmid, hafter⟩⟩ := reduceEvent_ok he
  rw [ha.type] at hnamed
  have htype : type' = type :=
    (Option.some.inj ((EventLog.ofName?_value type).symm.trans hnamed)).symm
  rw [htype] at hmid
  exact ⟨s, mid, ⟨es, hes, hs⟩, hmid, hafter⟩

theorem not_rebuilt_append {s : ProjectState} {err : EventError} (h : Rebuilt log s)
    (ha : EventLog.Appended H log log' type fields entityId eventId ts e)
    (herr : reduceType s e type = .error err) (s' : ProjectState) : ¬Rebuilt log' s' := by
  intro h'
  obtain ⟨s₀, mid, hs₀, hmid, -⟩ := rebuilt_of_append ha h'
  rw [rebuilt_unique hs₀ h, herr] at hmid
  cases hmid

theorem not_rebuilt_mono (ha : EventLog.Appended H log log' type fields entityId eventId ts e)
    (h : ∀ s, ¬Rebuilt log s) (s' : ProjectState) : ¬Rebuilt log' s' := by
  intro h'
  obtain ⟨s, -, hs, -⟩ := rebuilt_of_append ha h'
  exact h s hs

end Append

end Centinal26.Events
