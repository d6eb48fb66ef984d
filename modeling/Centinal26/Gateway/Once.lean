/-
One call of a gateway, on a store that only gateways and advance runs have
written.
-/
import Centinal26.Gateway.Race
import Centinal26.Gateway.Records
import Centinal26.Lib.Cut

namespace Centinal26.Gateway

open Py Steps Events

variable {H : Host}

-- == hashing

def appendText (H : Host) (r : NewEvent) (w : StoreWorld) : Option Text :=
  match r.fields with
  | .error _ => none
  | .ok fields => (canonicalJson (eventBody (w.eventId H) (w.now H) (py r.type.value)
      r.entityId fields w.log.lastHash.str)).toOption

def Access.text (H : Host) (w : StoreWorld) : Access → Option Text
  | .append r => appendText H r w
  | _ => none

/-- The digest tells apart the requests and the texts. -/
structure CollisionFree (H : Host) (P : Prepared → Prop) (T : Text → Prop) : Prop where
  prepared : ∀ p, P p → ∃ catalog r, prepare H catalog r = .ok p
  apart : ∀ p q, P p → P q → Apart H p q
  digests : ∀ p q, P p → P q → p.digest = q.digest → p.body.fields = q.body.fields
  texts : ∀ t t', T t → T t' → H.sha256 t = H.sha256 t' → t = t'

/-- What is in the log was drawn and hashed there. -/
structure Kept (H : Host) (T : Text → Prop) (w : StoreWorld) : Prop where
  chained : w.log.Chained H
  drawn : ∀ row ∈ w.log.rows, ∃ n < w.draws, row.eventId = H.uuid4 n
  hashed : ∀ row ∈ w.log.rows, ∃ (e : Events.Event) (t : Text), row = EventLog.rowOf e
    ∧ canonicalJson e.body = .ok t ∧ H.sha256 t = e.eventHash ∧ T t

section Append

variable {P : Prepared → Prop} {T : Text → Prop} {w : StoreWorld} {r : NewEvent}

theorem draws_le (r : NewEvent) (w : StoreWorld) : w.draws ≤ (appendEvent H r w).2.draws := by
  unfold appendEvent
  split
  · exact Nat.le_refl _
  · split
    · exact Nat.le_succ _
    · exact Nat.le_succ _

theorem body_of_appended {log log' : EventLog} {type : EventType} {fields : Fields}
    {entityId : Option PyStr} {eventId ts : PyStr} {e : Events.Event}
    (h : EventLog.Appended H log log' type fields entityId eventId ts e) :
    e.body = eventBody eventId ts (py type.value) entityId fields log.lastHash.str := by
  unfold Events.Event.body
  rw [h.eventId, h.ts, h.type, h.entityId, h.payload, h.prevHash]
  rfl

theorem Kept.append (h : Kept H T w) (hT : ∀ t, appendText H r w = some t → T t) :
    Kept H T (appendEvent H r w).2 := by
  cases hacc : accepted H w r with
  | false =>
    obtain ⟨err, w', hrun, hlog⟩ := appendEvent_refused hacc
    have hdraws := draws_le (H := H) r w
    rw [hrun] at hdraws ⊢
    refine ⟨hlog ▸ h.chained, fun row hrow => ?_, hlog ▸ h.hashed⟩
    obtain ⟨n, hn, hid⟩ := h.drawn row (hlog ▸ hrow)
    exact ⟨n, Nat.lt_of_lt_of_le hn hdraws, hid⟩
  | true =>
    obtain ⟨fields, e, log, hfields, ha, hrun⟩ := appendEvent_accepted hacc
    rw [hrun]
    have hrows : log.rows = w.log.rows ++ [EventLog.rowOf e] := ha.rows
    refine ⟨h.chained.append ha, fun row hrow => ?_, fun row hrow => ?_⟩
    · rcases List.mem_append.mp (hrows ▸ hrow) with hrow | hrow
      · obtain ⟨n, hn, hid⟩ := h.drawn row hrow
        exact ⟨n, Nat.lt_succ_of_lt hn, hid⟩
      · rw [List.mem_singleton.mp hrow]
        exact ⟨w.draws, Nat.lt_succ_self _, Text.ext ha.eventId⟩
    · rcases List.mem_append.mp (hrows ▸ hrow) with hrow | hrow
      · exact h.hashed row hrow
      · rw [List.mem_singleton.mp hrow]
        obtain ⟨-, t, ht, hsha⟩ := ha.sound
        refine ⟨e, t, rfl, ht, hsha, hT t ?_⟩
        unfold appendText
        rw [hfields]
        show (canonicalJson _).toOption = _
        rw [← body_of_appended ha, ht]
        rfl

theorem event_accepted (hfree : CollisionFree H P T) (h : Kept H T w) {p : Prepared}
    (hp : P p) {k : Kind} (hT : ∀ t, appendText H (k.event p) w = some t → T t) :
    accepted H w (k.event p) = true := by
  obtain ⟨catalog, q, hprepared⟩ := hfree.prepared p hp
  obtain ⟨fields, hfields, hmembers⟩ := event_fields hprepared k
  have hfinite := finite_sorted hmembers (finite_members hprepared k)
  have hencodable := encodable_sorted hmembers (encodable_members hprepared k)
  have hid : encodableOpt (k.event p).entityId = true := by
    have hp := prepared_encodes hprepared
    cases k with
    | source => exact decide_eq_true hp.requestId
    | task => exact decide_eq_true hp.taskId
  unfold accepted
  rw [hfields]
  simp only [hfinite, hencodable, hid, Bool.true_and]
  have hok := (@eventHash_isOk H (k.event p).type (k.event p).entityId fields
    (w.eventId H) (w.now H) w.log.lastHash.str (H.uuid4 w.draws).encodable
    (H.isoformat (H.clock w.ticks)).encodable w.log.lastHash.encodable).mpr
    ⟨hfinite, hencodable, hid⟩
  unfold isFresh
  cases hdigest : eventHash H (w.eventId H) (w.now H) (py (k.event p).type.value)
      (k.event p).entityId fields w.log.lastHash.str with
  | error err =>
    rw [hdigest] at hok
    cases hok
  | ok digest =>
    obtain ⟨t, ht, hsha⟩ := of_bind_ok hdigest
    have hsha : H.sha256 t = digest := Except.ok.inj hsha
    have htext : T t := hT t (by
      unfold appendText
      rw [hfields]
      show (canonicalJson _).toOption = _
      rw [ht]
      rfl)
    show w.log.rows.all _ = true
    rw [List.all_eq_true]
    intro row hrow
    obtain ⟨n, hn, hdrawn⟩ := h.drawn row hrow
    have hne : row.eventId.str ≠ w.eventId H := by
      intro heq
      have := H.uuid4_injective (hdrawn.symm.trans (Text.ext heq))
      omega
    rw [Bool.and_eq_true, decide_eq_true_eq, decide_eq_true_eq]
    refine ⟨hne, fun heq => ?_⟩
    obtain ⟨e, t', rfl, ht', hsha', hT'⟩ := h.hashed row hrow
    have hsame : t' = t := hfree.texts t' t hT' htext (by
      rw [hsha', hsha]
      exact heq)
    have hbody := canonicalJson_injective (hsame ▸ ht') ht
    unfold Events.Event.body at hbody
    rw [eventBody_eq, eventBody_eq] at hbody
    simp only [Json.obj.injEq, List.cons.injEq, Prod.mk.injEq, true_and, Json.str.injEq] at hbody
    exact hne hbody.2.1

end Append

-- == pairs

def payloadMember (row : EventRow) (key : String) : Option Json :=
  (row.payloadJson.bind Doc.fields?).bind fun d => d.get? (py key)

def isAbout (adapterId externalId : PyStr) (row : EventRow) : Bool :=
  saysStr (payloadMember row "adapter_id") adapterId
    && saysStr (payloadMember row "external_id") externalId

def Kind.about (k : Kind) (adapterId externalId : PyStr) (rows : List EventRow) : List EventRow :=
  (k.rows rows).filter (isAbout adapterId externalId)

def AtMostOnce (rows : List EventRow) : Prop :=
  ∀ (k : Kind) (adapterId externalId : PyStr), (k.about adapterId externalId rows).length ≤ 1

/-- What is recorded of the pair, if anything, is the content of the request. -/
def Agrees (rows : List EventRow) (p : Prepared) : Prop :=
  ∀ row ∈ Kind.source.about p.body.adapterId p.body.externalId rows,
    payloadMember row "request" = some p.body.fields.doc.json

/-- The record of a kind, if the pair has none. -/
def Kind.missing (k : Kind) (rows : List EventRow) (p : Prepared) : List NewEvent :=
  if (k.about p.body.adapterId p.body.externalId rows).isEmpty then [k.event p] else []

def missing (rows : List EventRow) (p : Prepared) : List NewEvent :=
  Kind.source.missing rows p ++ Kind.task.missing rows p

structure Stored (r : NewEvent) (row : EventRow) : Prop where
  type : row.type = Text.lit r.type.value
  entityId : row.entityId.map Text.str = r.entityId
  payload : ∃ fields, r.fields = .ok fields ∧ row.payloadJson = some fields.doc

section Pairs

variable {P : Prepared → Prop} {T : Text → Prop} {rows : List EventRow} {s : ProjectState}
  {p : Prepared}

theorem saysStr_str (s t : PyStr) : saysStr (some (.str s)) t = decide (s = t) := by
  unfold saysStr
  simp [Json.str?]

variable {k : Kind} {row : EventRow}

theorem payloadMember_of_records (h : Records k p row)
    {key : String} {v : Json} (hm : (py key, v) ∈ k.members p) :
    payloadMember row key = some v := by
  obtain ⟨d, hd, hmembers⟩ := h.payload
  unfold payloadMember
  rw [hd]
  exact get?_of_sorted hmembers hm

theorem isAbout_of_records (h : Records k p row)
    (adapterId externalId : PyStr) : isAbout adapterId externalId row = true
      ↔ p.body.adapterId = adapterId ∧ p.body.externalId = externalId := by
  unfold isAbout
  rw [payloadMember_of_records h (pair_mem p k).1,
    payloadMember_of_records h (pair_mem p k).2, saysStr_str, saysStr_str,
    Bool.and_eq_true, decide_eq_true_eq, decide_eq_true_eq]

theorem mem_about (hfree : CollisionFree H P T) (h : Tells P rows s) (hp : P p) (k : Kind)
    : row ∈ k.about p.body.adapterId p.body.externalId rows
      ↔ row ∈ k.rows rows ∧ row.entityId.map Text.str = some (k.id p) := by
  unfold Kind.about
  rw [List.mem_filter]
  refine and_congr_right fun hrow => ?_
  obtain ⟨q, hq, hrecords⟩ := (h.filed k).records row hrow
  obtain ⟨catalog, r, hprepared⟩ := hfree.prepared p hp
  obtain ⟨catalog', r', hprepared'⟩ := hfree.prepared q hq
  rw [isAbout_of_records hrecords, hrecords.id]
  constructor
  · intro hpair
    exact congrArg some (id_of_pair hprepared' hprepared hpair.1 hpair.2 k)
  · intro hid
    exact pair_of_id hprepared' hprepared (hfree.apart q p hq hp) (Option.some.inj hid)

theorem length_le_one {α β : Type} {f : α → β} {l : List α} (h : (l.map f).Nodup) {b : β}
    (hb : ∀ a ∈ l, f a = b) : l.length ≤ 1 := by
  have hrep : l.map f = List.replicate l.length b := by
    rw [List.eq_replicate_iff]
    refine ⟨List.length_map .., fun c hc => ?_⟩
    obtain ⟨a, ha, rfl⟩ := List.mem_map.mp hc
    exact hb a ha
  rw [hrep, List.nodup_replicate] at h
  exact h

theorem atMostOnce_of_tells (hfree : CollisionFree H P T) (h : Tells P rows s) :
    AtMostOnce rows := by
  intro k adapterId externalId
  cases hrows : k.about adapterId externalId rows with
  | nil => exact Nat.zero_le _
  | cons first rest =>
    rw [← hrows]
    have hfirst : first ∈ k.about adapterId externalId rows := by
      rw [hrows]
      exact List.mem_cons_self ..
    obtain ⟨hmem, habout⟩ := List.mem_filter.mp hfirst
    obtain ⟨p, hp, hrecords⟩ := (h.filed k).records first hmem
    obtain ⟨rfl, rfl⟩ := (isAbout_of_records hrecords _ _).mp habout
    have hsub : (k.about p.body.adapterId p.body.externalId rows).Sublist (k.rows rows) :=
      List.filter_sublist
    refine length_le_one ((hsub.map EventRow.entityId).nodup (h.filed k).once)
      (b := first.entityId) fun row hrow => ?_
    refine map_str_injective ?_
    rw [((mem_about hfree h hp k).mp hrow).2, ((mem_about hfree h hp k).mp hfirst).2]

theorem missing_eq (hfree : CollisionFree H P T) (h : Tells P rows s) (hp : P p) (k : Kind) :
    k.missing rows p = if (k.find s (k.id p)).isNone then [k.event p] else [] := by
  unfold Kind.missing
  have hiff : (k.about p.body.adapterId p.body.externalId rows).isEmpty
      = (k.find s (k.id p)).isNone := by
    rw [Bool.eq_iff_iff, List.isEmpty_iff, Option.isNone_iff_eq_none]
    constructor
    · intro hempty
      cases hfind : k.find s (k.id p) with
      | none => rfl
      | some d =>
        obtain ⟨row, hrow, hid, -⟩ := ((h.filed k).found _ d).mp hfind
        have hmem := (mem_about hfree h hp k).mpr ⟨hrow, hid⟩
        rw [hempty] at hmem
        cases hmem
    · intro hnone
      rw [List.eq_nil_iff_forall_not_mem]
      intro row hrow
      obtain ⟨hmem, hid⟩ := (mem_about hfree h hp k).mp hrow
      obtain ⟨q, -, hrecords⟩ := (h.filed k).records row hmem
      obtain ⟨d, hd, -⟩ := hrecords.payload
      rw [((h.filed k).found _ d).mpr ⟨row, hmem, hid, hd⟩] at hnone
      cases hnone
  rw [hiff]

theorem found_of_pair (hfree : CollisionFree H P T) (h : Tells P rows s) (hp : P p)
    {d : Fields} (hd : k.find s (k.id p) = some d) :
    ∃ q, P q ∧ p.body.adapterId = q.body.adapterId ∧ p.body.externalId = q.body.externalId
      ∧ d.members = sortByName (k.members q) := by
  obtain ⟨q, hq, hid, hmembers⟩ := (h.filed k).of_found hd
  obtain ⟨catalog, r, hprepared⟩ := hfree.prepared p hp
  obtain ⟨catalog', r', hprepared'⟩ := hfree.prepared q hq
  obtain ⟨hadapter, hexternal⟩ :=
    pair_of_id hprepared' hprepared (hfree.apart q p hq hp) hid
  exact ⟨q, hq, hadapter.symm, hexternal.symm, hmembers⟩

theorem agrees_iff (hfree : CollisionFree H P T) (h : Tells P rows s) (hp : P p) :
    Agrees rows p ↔ ∀ d, s.sources.get? p.requestId = some d →
      d.get? (py "request_sha256") = some (.str p.digest.str) := by
  have hsource : ∀ {q : Prepared}, (py "request", q.body.fields.doc.json)
      ∈ Kind.source.members q := by
    intro q
    simp [Kind.members, Prepared.sourceMembers]
  constructor
  · intro hagrees d hd
    obtain ⟨row, hrow, hid, hpayload⟩ := ((h.filed .source).found p.requestId d).mp hd
    have habout := (mem_about hfree h hp .source).mpr ⟨hrow, hid⟩
    obtain ⟨q, hq, hrecords⟩ := (h.filed .source).records row hrow
    have hcontent := hagrees row habout
    rw [payloadMember_of_records hrecords hsource] at hcontent
    have hfields := doc_injective (Option.some.inj hcontent)
    have hdigest : q.digest = p.digest := by
      obtain ⟨catalog, r, hprepared⟩ := hfree.prepared p hp
      obtain ⟨catalog', r', hprepared'⟩ := hfree.prepared q hq
      obtain ⟨-, -, -, hdigest, -⟩ := prepare_ok hprepared
      obtain ⟨-, -, -, hdigest', -⟩ := prepare_ok hprepared'
      unfold requestSha256 at hdigest hdigest'
      rw [hfields, hdigest] at hdigest'
      exact (Except.ok.inj hdigest').symm
    have hmember := payloadMember_of_records hrecords (digest_mem q .source)
    unfold payloadMember at hmember
    rw [hpayload] at hmember
    rw [← hdigest]
    exact hmember
  · intro hdigest row hrow
    obtain ⟨hmem, hid⟩ := (mem_about hfree h hp .source).mp hrow
    obtain ⟨q, hq, hrecords⟩ := (h.filed .source).records row hmem
    obtain ⟨d, hd, hmembers⟩ := hrecords.payload
    have hfound : s.sources.get? p.requestId = some d :=
      ((h.filed .source).found _ d).mpr ⟨row, hmem, hid, hd⟩
    have hsame := hdigest d hfound
    rw [get?_of_sorted hmembers (digest_mem q .source)] at hsame
    have hequal : q.digest = p.digest := Text.ext (Json.str.inj (Option.some.inj hsame))
    rw [payloadMember_of_records hrecords hsource, hfree.digests q p hq hp hequal]

end Pairs

-- == stores

/-- A store that reduces to what its rows tell of requests. -/
structure Good (H : Host) (P : Prepared → Prop) (T : Text → Prop) (w : StoreWorld)
    (s : ProjectState) : Prop where
  kept : Kept H T w
  rebuilt : Rebuilt w.log s
  tells : Tells P w.log.rows s

def IsGood (H : Host) (P : Prepared → Prop) (T : Text → Prop) (w : StoreWorld) : Prop :=
  ∃ s, Good H P T w s

/-- The row is the last one, and is the event. -/
structure Grown (rs : List NewEvent) (w w' : StoreWorld) : Prop where
  grown : ∃ rows, w'.log.rows = w.log.rows ++ rows ∧ List.Forall₂ Stored rs rows

theorem Grown.refl (w : StoreWorld) : Grown [] w w :=
  ⟨[], (List.append_nil _).symm, .nil⟩

theorem Grown.trans {rs ts : List NewEvent} {w w' w'' : StoreWorld} (h : Grown rs w w')
    (h' : Grown ts w' w'') : Grown (rs ++ ts) w w'' := by
  obtain ⟨rows, hrows, hall⟩ := h.grown
  obtain ⟨rows', hrows', hall'⟩ := h'.grown
  exact ⟨rows ++ rows', by rw [hrows', hrows, List.append_assoc], List.rel_append hall hall'⟩

theorem Grown.length {rs : List NewEvent} {w w' : StoreWorld} (h : Grown rs w w') :
    w'.log.rows.length = w.log.rows.length + rs.length := by
  obtain ⟨rows, hrows, hall⟩ := h.grown
  rw [hrows, List.length_append, hall.length_eq]

section Steps

variable {P : Prepared → Prop} {T : Text → Prop} {w : StoreWorld} {s : ProjectState}
  {p : Prepared}

/-- What is assumed of a step: what it hashes is told apart. -/
abbrev Hashes (H : Host) (T : Text → Prop) (l : Access) (w : StoreWorld) : Prop :=
  ∀ t, l.text H w = some t → T t

theorem appendStep_through (hfree : CollisionFree H P T) (h : Good H P T w s) (hp : P p)
    {k : Kind} {Q : ProjectState → Prop}
    (hmid : ∀ e : Events.Event, e.type = Text.lit k.type.value →
      e.entityId.map Text.str = some (k.id p) →
      e.payload.members = sortByName (k.members p) →
      ∃ mid, reduceType s e k.type = .ok mid ∧ Tells P (w.log.rows ++ [EventLog.rowOf e]) mid
        ∧ ∀ seq hash, Q { mid with lastSeq := seq, lastHash := hash }) :
    (appendStep H (k.event p)).Through (Hashes H T) (IsGood H P T)
      (fun _ w' => ∃ s', Good H P T w' s' ∧ Q s' ∧ Grown [k.event p] w w')
      (fun _ _ => False) w := by
  refine Prog.Through.block fun hT => ?_
  have haccepted := event_accepted hfree h.kept hp hT
  have hkept := h.kept.append hT
  obtain ⟨fields, e, log, hfields, ha, hrun⟩ := appendEvent_accepted haccepted
  rw [hrun] at hkept ⊢
  obtain ⟨catalog, r, hprepared⟩ := hfree.prepared p hp
  obtain ⟨fields', hfields', hmembers⟩ := event_fields hprepared k
  rw [hfields] at hfields'
  cases hfields'
  have htype : e.type = Text.lit k.type.value := by
    rw [ha.type]
    cases k <;> rfl
  have hid : e.entityId.map Text.str = some (k.id p) := by
    rw [ha.entityId]
    cases k <;> rfl
  obtain ⟨mid, hreduce, htells, hQ⟩ := hmid e htype hid (by rw [ha.payload, hmembers])
  have hktype : (k.event p).type = k.type := by
    cases k <;> rfl
  have hgood : Good H P T ⟨log, w.ticks + 1, w.draws + 1⟩
      { mid with lastSeq := e.seq, lastHash := e.eventHash } := by
    refine ⟨hkept, rebuilt_append h.rebuilt ha (hktype ▸ hreduce), ?_⟩
    rw [ha.rows]
    exact htells.congr rfl rfl
  refine ⟨⟨_, hgood⟩, _, hgood, hQ _ _, ⟨[EventLog.rowOf e], ha.rows, .cons ?_ .nil⟩⟩
  exact ⟨ha.type, ha.entityId, fields, hfields, by rw [← ha.payload]; rfl⟩

theorem read_through {α : Type} {l : Access} {m : Block GatewayError StoreWorld α} {a : α}
    (h : IsGood H P T w) (hm : m w = (.ok a, w)) :
    (Prog.block l m : GProg α).Through (Hashes H T) (IsGood H P T)
      (fun b w' => b = a ∧ w' = w) (fun _ _ => False) w :=
  Prog.Through.block fun _ => by
    rw [hm]
    exact ⟨h, rfl, rfl⟩

theorem read_bind {α β : Type} {m : GProg α} {a : α} {f : α → GProg β}
    {Q : β → StoreWorld → Prop} {E : GatewayError → StoreWorld → Prop}
    (hm : m.Through (Hashes H T) (IsGood H P T) (fun b w' => b = a ∧ w' = w) (fun _ _ => False) w)
    (hf : (f a).Through (Hashes H T) (IsGood H P T) Q E w) :
    (m >>= f).Through (Hashes H T) (IsGood H P T) Q E w := by
  refine Prog.Through.bind (hm.imp (fun _ h => h) (fun _ _ h => h) fun _ _ h => h.elim) ?_
  rintro _ _ ⟨rfl, rfl⟩
  exact hf

theorem rebuildStep_through (h : Good H P T w s) : rebuildStep.Through (Hashes H T) (IsGood H P T)
      (fun b w' => b = s ∧ w' = w) (fun _ _ => False) w :=
  read_through ⟨s, h⟩ (by rw [stateOf_ok.mpr h.rebuilt]; rfl)

def HasSource (p : Prepared) (s : ProjectState) : Prop :=
  ∃ d, s.sources.get? p.requestId = some d ∧ d.get? (py "request_sha256") = some (.str p.digest.str)

theorem saysStr_eq (v : Option Json) (t : PyStr) : saysStr v t = true ↔ v = some (.str t) := by
  unfold saysStr
  rw [decide_eq_true_eq]
  cases v with
  | none => exact ⟨nofun, nofun⟩
  | some v => cases v <;> simp [Json.str?]

theorem requestId_ne_nil {catalog : FederationCatalog} {r : AdapterRequest}
    (h : prepare H catalog r = .ok p) (k : Kind) : k.id p ≠ [] := by
  obtain ⟨suffix, -, -, -, -, hrequest, htask⟩ := prepare_ok h
  cases k with
  | source =>
    rw [Kind.id, hrequest]
    exact List.cons_ne_nil _ _
  | task =>
    rw [Kind.id, htask]
    exact List.cons_ne_nil _ _

/-- The source is appended if it is missing, or it is as it should be, or it is
another one. -/
theorem recordSource_through (hfree : CollisionFree H P T) (h : Good H P T w s) (hp : P p) :
    (recordSource H p).Through (Hashes H T) (IsGood H P T)
      (fun _ w' => ∃ s', Good H P T w' s' ∧ HasSource p s' ∧ s'.tasks = s.tasks
        ∧ Agrees w.log.rows p ∧ Grown (Kind.source.missing w.log.rows p) w w')
      (fun e w' => IsGood H P T w' ∧ w' = w ∧ e = .conflict ∧ ¬Agrees w.log.rows p) w := by
  refine read_bind (rebuildStep_through h) ?_
  have hmissing := missing_eq hfree h.tells hp .source
  have hfind : Kind.source.find s (Kind.source.id p) = s.sources.get? p.requestId := rfl
  rw [hfind] at hmissing
  have hagrees := agrees_iff hfree h.tells hp
  cases hd : s.sources.get? p.requestId with
  | some d =>
    rw [hd] at hmissing
    simp only [hd, Option.some.injEq, forall_eq'] at hagrees
    simp only
    split
    · next htold =>
      have hdigest := (saysStr_eq _ _).mp htold
      refine ⟨s, h, ⟨d, hd, hdigest⟩, rfl, hagrees.mpr hdigest, ?_⟩
      rw [hmissing]
      exact Grown.refl _
    · next htold =>
      refine ⟨⟨s, h⟩, rfl, rfl, fun hag => htold ?_⟩
      exact (saysStr_eq _ _).mpr (hagrees.mp hag)
  | none =>
    rw [hd] at hmissing
    obtain ⟨catalog, r, hprepared⟩ := hfree.prepared p hp
    have happend := appendStep_through (k := .source) hfree h hp
      (Q := fun s' => HasSource p s' ∧ s'.tasks = s.tasks)
      fun e htype hid hmembers => by
        have hentity : Events.entityId e "source_id" = .ok p.requestId :=
          entityId_of_column hid (requestId_ne_nil hprepared .source)
        refine ⟨{ s with sources := s.sources.set p.requestId e.payload }, ?_,
          h.tells.source hp htype hid hmembers hd, fun _ _ => ⟨⟨e.payload, ?_, ?_⟩, rfl⟩⟩
        · show reduceType s e .sourceIngested = _
          simp only [reduceType, hentity, bind_ok_eq]
        · exact (Dict.get?_set _ _ _ _).trans (if_pos rfl)
        · exact get?_of_sorted hmembers (digest_mem p .source)
    refine Prog.Through.bind (happend.imp (fun _ h => h) (fun _ _ h => h) fun _ _ h => h.elim) ?_
    rintro _ w'' ⟨s', hgood, ⟨hsource, htasks⟩, hgrown⟩
    refine ⟨s', hgood, hsource, htasks, hagrees.mpr fun d hd' => ?_, ?_⟩
    · rw [hd] at hd'
      cases hd'
    · rw [hmissing]
      exact hgrown

theorem recordTask_through (hfree : CollisionFree H P T) (h : Good H P T w s) (hp : P p)
    (hsource : HasSource p s) : (recordTask H p).Through (Hashes H T) (IsGood H P T)
      (fun _ w' => ∃ s', Good H P T w' s' ∧ (s'.tasks.get? p.taskId).isSome = true
        ∧ Grown (Kind.task.missing w.log.rows p) w w')
      (fun _ _ => False) w := by
  refine read_bind (rebuildStep_through h) ?_
  have hmissing := missing_eq hfree h.tells hp .task
  have hfind : Kind.task.find s (Kind.task.id p) = (s.tasks.get? p.taskId).map Task.payload := rfl
  rw [hfind] at hmissing
  obtain ⟨d, hd, hdigest⟩ := hsource
  obtain ⟨catalog, r, hprepared⟩ := hfree.prepared p hp
  cases ht : s.tasks.get? p.taskId with
  | some t =>
    rw [ht] at hmissing hfind
    obtain ⟨q, hq, hadapter, hexternal, hmembers⟩ := found_of_pair hfree h.tells hp hfind
    obtain ⟨catalog', r', hprepared'⟩ := hfree.prepared q hq
    have hsourceId : t.payload.get? (py "source_id") = some (.str p.requestId) := by
      have hsame : p.requestId = q.requestId :=
        id_of_pair hprepared hprepared' hadapter hexternal .source
      rw [hsame]
      exact get?_of_sorted hmembers (by simp [Kind.members, Prepared.taskMembers])
    have hsame : t.payload.get? (py "request_sha256") = some (.str p.digest.str) := by
      obtain ⟨source, d', hsource, hd', hsame⟩ := h.tells.backed _ t ht
      rw [hsourceId] at hsource
      cases hsource
      rw [hd] at hd'
      cases hd'
      rw [← hsame, hdigest]
    have hget : ∀ key : PyStr, key = py "request_sha256" ∨ key = py "source_id" →
        t.get? key = t.payload.get? key := by
      rintro key (rfl | rfl)
      · unfold Task.get?
        rw [if_neg (by decide +kernel), if_neg (by decide +kernel), if_neg (by decide +kernel)]
      · unfold Task.get?
        rw [if_neg (by decide +kernel), if_neg (by decide +kernel), if_neg (by decide +kernel)]
    have htold : (saysStr (t.get? (py "request_sha256")) p.digest.str
        && saysStr (t.get? (py "source_id")) p.requestId) = true := by
      rw [hget _ (Or.inl rfl), hget _ (Or.inr rfl), Bool.and_eq_true, saysStr_eq, saysStr_eq]
      exact ⟨hsame, hsourceId⟩
    simp only [htold, if_true]
    refine ⟨s, h, by rw [ht]; rfl, ?_⟩
    rw [hmissing]
    exact Grown.refl _
  | none =>
    rw [ht] at hmissing
    have happend := appendStep_through (k := .task) hfree h hp
      (Q := fun s' => (s'.tasks.get? p.taskId).isSome = true)
      fun e htype hid hmembers => by
        have hentity : Events.entityId e "task_id" = .ok p.taskId :=
          entityId_of_column hid (requestId_ne_nil hprepared .task)
        refine ⟨s.setTask p.taskId ⟨e.payload, .discovered, [], none⟩, ?_,
          h.tells.task hp htype hid hmembers ht hd hdigest, fun _ _ => ?_⟩
        · show createTask s e = _
          unfold createTask
          simp only [hentity, bind_ok_eq, ht]
        · show ((s.tasks.set p.taskId _).get? p.taskId).isSome = true
          rw [Dict.get?_set, if_pos rfl]
          rfl
    refine Prog.Through.bind happend ?_
    rintro _ w'' ⟨s', hgood, htask, hgrown⟩
    refine ⟨s', hgood, htask, ?_⟩
    rw [hmissing]
    exact hgrown

theorem confirm_through (h : Good H P T w s) (htask : (s.tasks.get? p.taskId).isSome = true) :
    (confirm p).Through (Hashes H T) (IsGood H P T) (fun _ w' => w' = w) (fun _ _ => False) w := by
  refine read_bind (rebuildStep_through h) ?_
  obtain ⟨t, ht⟩ := Option.isSome_iff_exists.mp htask
  have hfree := h.tells.free _ t ht
  split
  · exact rfl
  · next hready =>
    simp only [ht]
    split
    · exact rfl
    · next hno =>
      refine hready ?_
      unfold deriveReadyTasks
      rw [List.mem_insertionSort]
      refine List.mem_map.mpr ⟨(p.taskId, t), List.mem_filter.mpr ⟨Dict.mem_items.mpr ht, ?_⟩, rfl⟩
      rw [Bool.or_eq_true, not_or] at hno
      unfold isReady
      rw [hfree, Bool.eq_false_iff.mpr hno.1, Bool.eq_false_iff.mpr hno.2]
      rfl

end Steps

-- == calls

def answer (p : Prepared) (rs : List NewEvent) : AdapterIngestResult :=
  ⟨p.body.adapterId, p.body.externalId, p.requestId, p.taskId, p.digest, rs.isEmpty, rs.length⟩

/-- A call appends what is missing and says so, or it finds another content and
appends nothing; the store stays good all along. -/
theorem ingest_through {P : Prepared → Prop} {T : Text → Prop} {w : StoreWorld}
    {s : ProjectState} {p : Prepared} (hfree : CollisionFree H P T) (h : Good H P T w s)
    {c : Call} (hc : prepare H c.1 c.2 = .ok p) (hp : P p) :
    (ingest H c).Through (Hashes H T) (IsGood H P T)
      (fun a w' => IsGood H P T w' ∧ Agrees w.log.rows p
        ∧ a = answer p (missing w.log.rows p) ∧ Grown (missing w.log.rows p) w w')
      (fun e w' => IsGood H P T w' ∧ w' = w ∧ e = .conflict ∧ ¬Agrees w.log.rows p) w := by
  have hgood : IsGood H P T w := ⟨s, h⟩
  have hverify : (verifyStep H).Through (Hashes H T) (IsGood H P T)
      (fun b w' => b = true ∧ w' = w) (fun _ _ => False) w :=
    read_through hgood (by rw [h.kept.chained.verifies]; rfl)
  have hcount : ∀ {w : StoreWorld}, IsGood H P T w → countStep.Through (Hashes H T) (IsGood H P T)
        (fun n w' => n = w.log.rows.length ∧ w' = w) (fun _ _ => False) w :=
    fun h => read_through h rfl
  refine read_bind hverify ?_
  rw [if_pos rfl, hc]
  show Prog.Through _ _ _ _ (countStep >>= _) w
  refine read_bind (hcount hgood) ?_
  refine Prog.Through.bind (recordSource_through hfree h hp) ?_
  rintro _ w₁ ⟨s₁, h₁, hsource, htasks, hagrees, hgrown₁⟩
  refine Prog.Through.bind ((recordTask_through hfree h₁ hp hsource).imp (fun _ h => h)
    (fun _ _ h => h) fun _ _ h => h.elim) ?_
  rintro _ w₂ ⟨s₂, h₂, htask, hgrown₂⟩
  refine Prog.Through.bind ((confirm_through h₂ htask).imp (fun _ h => h)
    (fun _ _ h => h) fun _ _ h => h.elim) ?_
  rintro _ _ rfl
  have hmissing : Kind.task.missing w₁.log.rows p = Kind.task.missing w.log.rows p := by
    rw [missing_eq hfree h₁.tells hp, missing_eq hfree h.tells hp]
    show (if ((s₁.tasks.get? p.taskId).map Task.payload).isNone then _ else _) = _
    rw [htasks]
    rfl
  rw [hmissing] at hgrown₂
  have hgrown := hgrown₁.trans hgrown₂
  have hlength := hgrown.length
  refine read_bind (hcount ⟨s₂, h₂⟩) (read_bind (hcount ⟨s₂, h₂⟩) ?_)
  refine ⟨⟨s₂, h₂⟩, hagrees, ?_, hgrown⟩
  unfold answer missing
  congr 1
  · rw [hlength, Bool.eq_iff_iff, decide_eq_true_eq, List.isEmpty_iff, ← List.length_eq_zero_iff]
    omega
  · rw [hlength]
    omega

theorem refused_through {P : Prepared → Prop} {T : Text → Prop} {w : StoreWorld}
    {s : ProjectState} (h : Good H P T w s) {c : Call} {err : PyErr}
    (hc : prepare H c.1 c.2 = .error err) :
    (ingest H c).Through (Hashes H T) (IsGood H P T) (fun _ _ => False)
      (fun e w' => w' = w ∧ e = .py err) w := by
  have hverify : (verifyStep H).Through (Hashes H T) (IsGood H P T)
      (fun b w' => b = true ∧ w' = w) (fun _ _ => False) w :=
    read_through ⟨s, h⟩ (by rw [h.kept.chained.verifies]; rfl)
  refine read_bind hverify ?_
  rw [if_pos rfl, hc]
  exact ⟨rfl, rfl⟩

end Centinal26.Gateway
