/-
The hash chain binds the log: two tables that verify and end in one hash hold
the same events, and what `append` builds verifies.
-/
import Centinal26.Events.Store
import Centinal26.Lib.Chain

namespace Centinal26.Events

open Py

variable {H : Host}

-- == bodies

theorem eventBody_eq (eventId ts type : PyStr) (entityId : Option PyStr)
    (payload : Fields) (prevHash : PyStr) :
    eventBody eventId ts type entityId payload prevHash
      = .obj [(py "entity_id", optJson entityId), (py "event_id", .str eventId),
        (py "payload", payload.doc.json), (py "prev_hash", .str prevHash),
        (py "schema_version", .int eventSchemaVersion), (py "ts", .str ts),
        (py "type", .str type)] := rfl

theorem optJson_injective {s t : Option PyStr} (h : optJson s = optJson t) : s = t := by
  cases s <;> cases t <;> cases h <;> rfl

theorem doc_injective {p q : Fields} (h : p.doc.json = q.doc.json) : p = q :=
  Fields.ext (Json.obj.inj h)

theorem canonicalJson_injective {d d' : Json} {t : Text}
    (h : canonicalJson d = .ok t) (h' : canonicalJson d' = .ok t) : d = d' := by
  unfold canonicalJson at h h'
  split at h
  · split at h'
    · refine text_injective ?_
      rw [← encode_eq_ok.mp h, ← encode_eq_ok.mp h']
    · cases h'
  · cases h

/-- What the chain binds of an event. -/
structure Content where
  eventId : Text
  ts : Text
  type : Text
  entityId : Option Text
  payload : Option Doc

def EventRow.content (r : EventRow) : Content :=
  ⟨r.eventId, r.ts, r.type, r.entityId, r.payloadJson⟩

def Event.content (e : Event) : Content :=
  ⟨e.eventId, e.ts, e.type, e.entityId, some e.payload.doc⟩

theorem map_str_injective {s t : Option Text} (h : s.map Text.str = t.map Text.str) : s = t :=
  Option.map_injective (fun _ _ => Text.ext) h

variable {e : Event} {g : Text} {es : List Event}

theorem body_injective {e' : Event} (h : e.body = e'.body) :
    e.content = e'.content ∧ e.prevHash = e'.prevHash := by
  unfold Event.body at h
  rw [eventBody_eq, eventBody_eq] at h
  simp only [Json.obj.injEq, List.cons.injEq, Prod.mk.injEq, true_and, and_true,
    Json.str.injEq] at h
  obtain ⟨hentity, hid, hpayload, hprev, hts, htype⟩ := h
  unfold Event.content
  rw [Text.ext hid, Text.ext hts, Text.ext htype,
    map_str_injective (optJson_injective hentity), doc_injective hpayload]
  exact ⟨rfl, Text.ext hprev⟩

-- == verification

/-- The event's type is known, and its hash is that of its body. -/
def Sound (H : Host) (e : Event) : Prop :=
  (EventType.ofName? e.type.str).isSome = true
    ∧ ∃ t, canonicalJson e.body = .ok t ∧ H.sha256 t = e.eventHash

theorem verifyEvents_cons {rest : List Event} : verifyEvents H g (e :: rest) = .ok true
      ↔ e.prevHash = g ∧ Sound H e ∧ verifyEvents H e.eventHash rest = .ok true := by
  unfold Sound
  rw [verifyEvents]
  by_cases hprev : e.prevHash = g
  · rw [if_neg (not_not_intro hprev)]
    cases htype : EventType.ofName? e.type.str with
    | none => exact ⟨nofun, fun h => (by cases h.2.1.1)⟩
    | some type =>
      cases hbody : canonicalJson e.body with
      | error err =>
        refine ⟨nofun, fun h => ?_⟩
        obtain ⟨t, ht, -⟩ := h.2.1.2
        cases ht
      | ok t =>
        show (if H.sha256 t ≠ e.eventHash then _ else _) = _ ↔ _
        by_cases hhash : H.sha256 t = e.eventHash
        · rw [if_neg (not_not_intro hhash)]
          exact ⟨fun h => ⟨hprev, ⟨rfl, t, rfl, hhash⟩, h⟩, fun h => h.2.2⟩
        · rw [if_pos hhash]
          refine ⟨nofun, fun h => ?_⟩
          obtain ⟨t', ht', heq⟩ := h.2.1.2
          cases ht'
          exact absurd heq hhash
  · rw [if_pos hprev]
    exact ⟨nofun, fun h => absurd h.1 hprev⟩

theorem verifyEvents_eq_true : verifyEvents H g es = .ok true
      ↔ Chain.Linked Event.prevHash Event.eventHash g es ∧ ∀ e ∈ es, Sound H e := by
  induction es generalizing g with
  | nil => exact ⟨fun _ => ⟨trivial, nofun⟩, fun _ => rfl⟩
  | cons e rest ih =>
    rw [verifyEvents_cons, ih, List.forall_mem_cons, Chain.linked_cons]
    tauto

theorem verifyChain_eq_true {rows : List EventRow} : verifyChain H rows = .ok true
      ↔ ∃ es, events rows = .ok es ∧ Chain.Linked Event.prevHash Event.eventHash genesis es
        ∧ ∀ e ∈ es, Sound H e := by
  unfold verifyChain
  cases events rows with
  | error e => exact ⟨nofun, fun ⟨_, h, _⟩ => (by cases h)⟩
  | ok es =>
    rw [verifyEvents_eq_true]
    exact ⟨fun h => ⟨es, rfl, h⟩, fun ⟨_, h, hes⟩ => (by cases h; exact hes)⟩

-- == reads

theorem toEvent_spec {r : EventRow} (h : r.toEvent = .ok e) :
    e.content = r.content ∧ e.eventHash = r.eventHash := by
  unfold EventRow.toEvent at h
  split at h
  · cases h
  · split at h
    · cases h
    · next doc hdoc =>
      split at h
      · cases h
      · next payload hpayload =>
        cases h
        refine ⟨?_, rfl⟩
        unfold Event.content EventRow.content
        rw [hdoc, Doc.doc_of_fields? hpayload]

theorem events_cons (r : EventRow) (rest : List EventRow) :
    events (r :: rest) = (do .ok ((← r.toEvent) :: (← events rest))) :=
  List.mapM_cons

theorem events_spec {rows : List EventRow} (h : events rows = .ok es) :
    es.map Event.content = rows.map EventRow.content
      ∧ es.map Event.eventHash = rows.map EventRow.eventHash := by
  induction rows generalizing es with
  | nil =>
    cases h
    exact ⟨rfl, rfl⟩
  | cons r rest ih =>
    rw [events_cons] at h
    cases hr : r.toEvent with
    | error e =>
      rw [hr] at h
      cases h
    | ok e =>
      cases hrest : events rest with
      | error e =>
        rw [hr, hrest] at h
        cases h
      | ok es' =>
        rw [hr, hrest] at h
        cases h
        obtain ⟨hcontent, hhash⟩ := toEvent_spec hr
        obtain ⟨hcontents, hhashes⟩ := ih hrest
        exact ⟨by rw [List.map_cons, List.map_cons, hcontent, hcontents],
          by rw [List.map_cons, List.map_cons, hhash, hhashes]⟩

/-- The hash a table ends in, genesis for an empty one. -/
def lastEventHash (rows : List EventRow) : Text :=
  Chain.last EventRow.eventHash genesis rows

theorem last_events {rows : List EventRow} (h : events rows = .ok es) :
    Chain.last Event.eventHash genesis es = lastEventHash rows := by
  unfold lastEventHash
  rw [Chain.last_eq, Chain.last_eq, (events_spec h).2]

-- == binding

/-- A text `verify_chain` hashes for a table. -/
def Hashed (rows : List EventRow) (t : Text) : Prop :=
  ∃ es, events rows = .ok es ∧ ∃ e ∈ es, canonicalJson e.body = .ok t

theorem contents_of_verifyChain {rows rows' : List EventRow}
    (h : verifyChain H rows = .ok true) (h' : verifyChain H rows' = .ok true)
    (hinj : ∀ s t, Hashed rows s → Hashed rows' t → H.sha256 s = H.sha256 t → s = t)
    (hgen : ∀ s, Hashed rows s ∨ Hashed rows' s → H.sha256 s ≠ genesis)
    (hlast : lastEventHash rows = lastEventHash rows') :
    rows.map EventRow.content = rows'.map EventRow.content := by
  obtain ⟨es, hes, hlinked, hsound⟩ := verifyChain_eq_true.mp h
  obtain ⟨es', hes', hlinked', hsound'⟩ := verifyChain_eq_true.mp h'
  rw [← (events_spec hes).1, ← (events_spec hes').1]
  refine Chain.contents_eq hlinked hlinked' (fun e he e' he' heq => ?_)
    (fun e he => ?_) (fun e he => ?_) ?_
  · obtain ⟨-, t, ht, hsha⟩ := hsound e he
    obtain ⟨-, t', ht', hsha'⟩ := hsound' e' he'
    have htexts : t = t' := hinj t t' ⟨es, hes, e, he, ht⟩ ⟨es', hes', e', he', ht'⟩
      (by rw [hsha, hsha', heq])
    exact body_injective (canonicalJson_injective ht (htexts ▸ ht'))
  · obtain ⟨-, t, ht, hsha⟩ := hsound e he
    exact hsha ▸ hgen t (Or.inl ⟨es, hes, e, he, ht⟩)
  · obtain ⟨-, t, ht, hsha⟩ := hsound' e he
    exact hsha ▸ hgen t (Or.inr ⟨es', hes', e, he, ht⟩)
  · rw [last_events hes, last_events hes', hlast]

-- == appends

namespace EventLog

theorem ofName?_value (t : EventType) : EventType.ofName? (py t.value) = some t := by
  cases t <;> decide

/-- The table reads as a chain of sound events. -/
def Chained (H : Host) (log : EventLog) : Prop :=
  ∃ es, log.rows = es.map rowOf ∧ Chain.Linked Event.prevHash Event.eventHash genesis es
    ∧ ∀ e ∈ es, Sound H e

theorem toEvent_rowOf (e : Event) : (rowOf e).toEvent = .ok e := rfl

theorem events_map_rowOf (es : List Event) : events (es.map rowOf) = .ok es := by
  induction es with
  | nil => rfl
  | cons e rest ih =>
    rw [List.map_cons, events_cons, ih, toEvent_rowOf]
    rfl

variable {log log' : EventLog} {e : Event}

theorem Chained.verifies (h : log.Chained H) : verifyChain H log.rows = .ok true := by
  obtain ⟨es, hrows, hes⟩ := h
  rw [hrows]
  exact verifyChain_eq_true.mpr ⟨es, events_map_rowOf es, hes⟩

/-- What an accepted append has done. -/
structure Appended (H : Host) (log log' : EventLog) (type : EventType)
    (payload : Fields) (entityId : Option PyStr) (eventId ts : PyStr)
    (e : Event) : Prop where
  rows : log'.rows = log.rows ++ [rowOf e]
  lastSeq : log'.lastSeq = e.seq
  seq : e.seq = log.lastSeq + 1
  eventId : e.eventId.str = eventId
  ts : e.ts.str = ts
  type : e.type = Text.lit type.value
  entityId : e.entityId.map Text.str = entityId
  payload : e.payload = payload
  prevHash : e.prevHash = log.lastHash
  sound : Sound H e

theorem encodeOpt_eq_ok {s : Option PyStr} {t : Option Text}
    (h : encodeOpt s = .ok t) : t.map Text.str = s := by
  cases s with
  | none =>
    cases h
    rfl
  | some s =>
    obtain ⟨u, hu, h⟩ := of_bind_ok h
    cases h
    rw [Option.map_some, encode_eq_ok.mp hu]

theorem insert_spec {row : EventRow}
    {hseq : row.seq = log.lastSeq + 1} (h : log.insert row hseq = .ok log') :
    log'.rows = log.rows ++ [row] ∧ log'.lastSeq = log.lastSeq + 1 := by
  unfold insert at h
  split at h
  · cases h
  · cases h
    exact ⟨rfl, rfl⟩

theorem insertEvent_appended {type : EventType}
    {payload : Fields} {entityId : Option PyStr} {eventId ts : PyStr}
    (h : log.insertEvent H type payload entityId eventId ts = .ok (e, log')) :
    Appended H log log' type payload entityId eventId ts e := by
  unfold insertEvent at h
  obtain ⟨digest, hdigest, h⟩ := of_bind_ok h
  obtain ⟨id, hid, h⟩ := of_bind_ok h
  obtain ⟨stamp, hstamp, h⟩ := of_bind_ok h
  obtain ⟨entity, hentity, h⟩ := of_bind_ok h
  obtain ⟨log'', hlog, h⟩ := of_bind_ok h
  cases h
  obtain ⟨hrows, hlast⟩ := insert_spec hlog
  obtain ⟨t, ht, hsha⟩ := of_bind_ok hdigest
  refine ⟨hrows, hlast, rfl, encode_eq_ok.mp hid, encode_eq_ok.mp hstamp, rfl,
    encodeOpt_eq_ok hentity, rfl, rfl, ?_⟩
  refine ⟨by rw [Text.lit, ofName?_value]; rfl, t, ?_, Except.ok.inj hsha⟩
  unfold Event.body
  rw [encode_eq_ok.mp hid, encode_eq_ok.mp hstamp, encodeOpt_eq_ok hentity]
  exact ht

theorem lastHash_eq (log : EventLog) : log.lastHash = lastEventHash log.rows := by
  unfold lastHash lastEventHash Chain.last
  cases log.rows.getLast? <;> rfl

theorem Chained.append {type : EventType}
    {payload : Fields} {entityId : Option PyStr} {eventId ts : PyStr}
    (h : log.Chained H) (ha : Appended H log log' type payload entityId eventId ts e) :
    log'.Chained H := by
  obtain ⟨es, hrows, hlinked, hsound⟩ := h
  refine ⟨es ++ [e], ?_, (Chain.linked_concat _ _).mpr ⟨hlinked, ?_⟩, ?_⟩
  · rw [ha.rows, hrows, List.map_append, List.map_singleton]
  · rw [ha.prevHash, lastHash_eq, ← last_events]
    rw [hrows, events_map_rowOf]
  · rw [List.forall_mem_append]
    exact ⟨hsound, fun d hd => List.mem_singleton.mp hd ▸ ha.sound⟩

theorem append_appended {type : PyStr} {payload : PyVal}
    {entityId : Option PyStr} {eventId ts : PyStr}
    (h : log.append H type payload entityId eventId ts = .ok (e, log')) :
    ∃ known fields, EventType.ofName? type = some known ∧ normalizedPayload payload = .ok fields
      ∧ Appended H log log' known fields entityId eventId ts e := by
  unfold append at h
  split at h
  · cases h
  · next known hknown =>
    split at h
    · obtain ⟨fields, hfields, h⟩ := of_bind_ok h
      exact ⟨known, fields, hknown, hfields, insertEvent_appended h⟩
    · cases h

theorem chained_appendAll (requests : List AppendRequest) : (appendAll H requests).Chained H := by
  induction requests using List.reverseRecOn with
  | nil => exact ⟨[], rfl, trivial, nofun⟩
  | append_singleton rs r ih =>
    have hlast : appendAll H (rs ++ [r]) = after H (appendAll H rs) r := by
      unfold appendAll
      rw [List.foldl_append]
      rfl
    rw [hlast]
    unfold after
    split
    · next e log' happ =>
      obtain ⟨known, fields, -, -, ha⟩ := append_appended happ
      exact ih.append ha
    · exact ih

end EventLog

namespace Sample

/-- A machine whose digest of a text is the text behind a letter. -/
def host : Host :=
  { Host.sample fun n => n with
    sha256 := fun t => ⟨97 :: t.str, encodable_append.mpr
      ⟨(ascii_py_of (s := "a") (by decide)).encodable, t.encodable⟩⟩ }

theorem host_injective {s t : Text} (h : host.sha256 s = host.sha256 t) : s = t :=
  Text.ext (List.cons.inj (congrArg Text.str h)).2

theorem host_ne_genesis (t : Text) : host.sha256 t ≠ genesis := by
  intro h
  exact absurd (List.cons.inj (congrArg Text.str h)).1 (by decide)

def blocked : List EventRow :=
  (EventLog.appendAll host [⟨py "BLOCKER_RECORDED", .dict [item "task_id"
    (.str (py "task-1"))], some (py "b-1"), py "e-1", py "now"⟩]).rows

def renumbered : List EventRow :=
  blocked.map fun r => { r with seq := r.seq + 6 }

end Sample

/-- Every table `append` builds verifies, and two tables that verify and end in
one hash hold the same events, where the hash is injective on what is hashed
and never the genesis hash. -/
theorem chain_binds (H : Host) : (∀ requests : List EventLog.AppendRequest,
      verifyChain H (EventLog.appendAll H requests).rows = .ok true) ∧ ∀ rows rows' : List EventRow,
      verifyChain H rows = .ok true → verifyChain H rows' = .ok true →
      (∀ s t, Hashed rows s → Hashed rows' t → H.sha256 s = H.sha256 t → s = t) →
      (∀ s, Hashed rows s ∨ Hashed rows' s → H.sha256 s ≠ genesis) →
      lastEventHash rows = lastEventHash rows' →
      rows.map EventRow.content = rows'.map EventRow.content :=
  ⟨fun requests => (EventLog.chained_appendAll requests).verifies,
    fun _ _ h h' hinj hgen hlast => contents_of_verifyChain h h' hinj hgen hlast⟩

theorem chain_binds_renumbered : Sample.blocked.map EventRow.content
      = Sample.renumbered.map EventRow.content :=
  (chain_binds Sample.host).2 _ _ ((chain_binds Sample.host).1 _)
    (by decide +kernel) (fun _ _ _ _ h => Sample.host_injective h)
    (fun s _ => Sample.host_ne_genesis s) (by decide +kernel)

end Centinal26.Events
