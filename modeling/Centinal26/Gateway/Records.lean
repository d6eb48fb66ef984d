/-
What the log holds of requests.
-/
import Centinal26.Gateway.Payload

namespace Centinal26.Gateway

open Py Events

variable {H : Host}

-- == kinds

/-- The two records of a request. -/
inductive Kind : Type
  | source
  | task
deriving DecidableEq

namespace Kind

def type : Kind → EventType
  | source => .sourceIngested
  | task => .taskCreated

def id (p : Prepared) : Kind → PyStr
  | source => p.requestId
  | task => p.taskId

def members (p : Prepared) : Kind → List (PyStr × Json)
  | source => p.sourceMembers
  | task => p.taskMembers

def event (p : Prepared) : Kind → NewEvent
  | source => p.sourceEvent
  | task => p.taskEvent

end Kind

section Prepared

variable {catalog : FederationCatalog} {r : AdapterRequest} {p : Prepared}

theorem event_fields (h : prepare H catalog r = .ok p) (k : Kind) :
    ∃ fields, (k.event p).fields = .ok fields ∧ fields.members = sortByName (k.members p) := by
  cases k with
  | source => exact sourceEvent_fields h
  | task => exact taskEvent_fields h

theorem pair_mem (p : Prepared) (k : Kind) : (py "adapter_id", .str p.body.adapterId) ∈ k.members p
      ∧ (py "external_id", .str p.body.externalId) ∈ k.members p := by
  cases k <;> simp [Kind.members, Prepared.sourceMembers, Prepared.taskMembers]

theorem digest_mem (p : Prepared) (k : Kind) :
    (py "request_sha256", .str p.digest.str) ∈ k.members p := by
  cases k <;> simp [Kind.members, Prepared.sourceMembers, Prepared.taskMembers]

theorem finite_members (h : prepare H catalog r = .ok p) (k : Kind) :
    ∀ m ∈ k.members p, m.2.isFinite = true := by
  cases k with
  | source =>
    simp only [Kind.members, Prepared.sourceMembers, List.forall_mem_cons, Json.isFinite, true_and]
    exact ⟨(plain_body h).finite, fun _ hm => (by cases hm)⟩
  | task =>
    simp only [Kind.members, Prepared.taskMembers, List.forall_mem_cons, Json.isFinite, true_and]
    exact ⟨(plain_get? (plain_body h) _).finite, (plain_get? (plain_body h) _).finite,
      fun _ hm => (by cases hm)⟩

/-- What a request says of itself encodes. -/
structure Prepared.Encodes (p : Prepared) : Prop where
  adapterId : Encodable p.body.adapterId
  externalId : Encodable p.body.externalId
  capability : Encodable p.body.capability
  objective : encodableOpt p.body.objective = true
  actor : encodableOpt p.body.actor = true
  body : p.body.fields.doc.json.isEncodable = true
  requestId : Encodable p.requestId
  taskId : Encodable p.taskId

theorem prepared_encodes (h : prepare H catalog r = .ok p) : p.Encodes := by
  obtain ⟨suffix, hbody, hadmits, hdigest, hsuffix, hrequest, htask⟩ := prepare_ok h
  obtain ⟨id, hid, heq⟩ := canonical_of_admits hadmits
  have htoken : Encodable (safeToken p.body.adapterId) := heq ▸ (canonical_token hid).1
  have hencodable := encodable_body hdigest
  have hholds := requestBody_holds hbody
  have hsuffix : Encodable suffix := by
    obtain ⟨text, -, hsuffix⟩ := of_bind_ok hsuffix
    cases hsuffix
    exact fun c hc => (H.sha256 text).encodable c (List.mem_of_mem_take hc)
  have hid : ∀ s : String,
      Encodable (py s ++ safeToken p.body.adapterId ++ py ":" ++ suffix) := fun s =>
    encodable_append.mpr ⟨encodable_append.mpr ⟨encodable_append.mpr
      ⟨encodable_py s, htoken⟩, encodable_py ":"⟩, hsuffix⟩
  exact {
    adapterId := encodable_of_str hencodable hholds.adapterId
    externalId := encodable_of_str hencodable hholds.externalId
    capability := encodable_of_str hencodable hholds.capability
    objective := encodable_optJson _ ▸ encodable_get? hencodable hholds.objective
    actor := encodable_optJson _ ▸ encodable_get? hencodable hholds.actor
    body := hencodable
    requestId := hrequest ▸ hid _
    taskId := htask ▸ hid _ }

theorem encodable_orElse {s : Option PyStr} {t : PyStr} (hs : encodableOpt s = true)
    (ht : Encodable t) : Encodable (s.getD t) := by
  cases s with
  | none => exact ht
  | some s => exact of_decide_eq_true hs

theorem encodable_members (h : prepare H catalog r = .ok p) (k : Kind) :
    ∀ m ∈ k.members p, Encodable m.1 ∧ m.2.isEncodable = true := by
  have hp := prepared_encodes h
  have hstr : ∀ {s : PyStr}, Encodable s → (Json.str s).isEncodable = true :=
    fun hs => decide_eq_true hs
  cases k with
  | source =>
    simp only [Kind.members, Prepared.sourceMembers, List.forall_mem_cons, encodable_py, true_and]
    exact ⟨hstr hp.requestId, hstr (encodable_py _), hstr hp.adapterId,
      hstr hp.externalId, hstr p.digest.encodable, hstr hp.capability,
      hstr (encodable_py _), hstr (encodable_py _), hp.body, fun _ hm => (by cases hm)⟩
  | task =>
    have hobjective : Encodable (p.body.objective.getD
        (p.body.adapterId ++ py " request for " ++ p.body.capability)) :=
      encodable_orElse hp.objective (encodable_append.mpr
        ⟨encodable_append.mpr ⟨hp.adapterId, encodable_py _⟩, hp.capability⟩)
    have hactor : Encodable (p.body.actor.getD (py "adapter:" ++ p.body.adapterId)) :=
      encodable_orElse hp.actor (encodable_append.mpr ⟨encodable_py _, hp.adapterId⟩)
    simp only [Kind.members, Prepared.taskMembers, List.forall_mem_cons, encodable_py, true_and]
    exact ⟨hstr hp.taskId, hstr hp.requestId, hstr hobjective, hstr hp.capability,
      encodable_getD hp.body _, encodable_getD hp.body _, hstr hp.adapterId,
      hstr hp.externalId, hstr p.digest.encodable, hstr hactor, hstr (encodable_py _),
      fun _ hm => (by cases hm)⟩

variable {catalog' : FederationCatalog} {r' : AdapterRequest} {p' : Prepared}

theorem id_of_pair (h : prepare H catalog r = .ok p) (h' : prepare H catalog' r' = .ok p')
    (hadapter : p.body.adapterId = p'.body.adapterId)
    (hexternal : p.body.externalId = p'.body.externalId) (k : Kind) : k.id p = k.id p' := by
  obtain ⟨suffix, -, -, -, hsuffix, hrequest, htask⟩ := prepare_ok h
  obtain ⟨suffix', -, -, -, hsuffix', hrequest', htask'⟩ := prepare_ok h'
  rw [hadapter, hexternal, hsuffix'] at hsuffix
  cases hsuffix
  cases k with
  | source => rw [Kind.id, Kind.id, hrequest, hrequest', hadapter]
  | task => rw [Kind.id, Kind.id, htask, htask', hadapter]

/-- The string the suffix is a digest of. -/
def Prepared.identity (p : Prepared) : PyStr :=
  p.body.adapterId ++ [0] ++ p.body.externalId

def Apart (H : Host) (p p' : Prepared) : Prop :=
  stableSuffix H p.body.adapterId p.body.externalId
      = stableSuffix H p'.body.adapterId p'.body.externalId →
    p.identity = p'.identity

theorem split_at_first {a : Nat} {x y u v : List Nat} (hx : a ∉ x) (hy : a ∉ y)
    (h : x ++ a :: u = y ++ a :: v) : x = y ∧ u = v := by
  induction x generalizing y with
  | nil =>
    cases y with
    | nil => exact ⟨rfl, (List.cons.inj h).2⟩
    | cons c y => exact absurd (List.cons.inj h).1 (fun hc => hy (hc ▸ List.mem_cons_self ..))
  | cons b x ih =>
    cases y with
    | nil => exact absurd (List.cons.inj h).1.symm (fun hb => hx (hb ▸ List.mem_cons_self ..))
    | cons c y =>
      obtain ⟨hbc, hrest⟩ := List.cons.inj h
      obtain ⟨hxy, huv⟩ := ih (fun hm => hx (List.mem_cons_of_mem _ hm))
        (fun hm => hy (List.mem_cons_of_mem _ hm)) hrest
      exact ⟨by rw [hbc, hxy], huv⟩

theorem pair_of_id (h : prepare H catalog r = .ok p) (h' : prepare H catalog' r' = .ok p')
    (hapart : Apart H p p') {k : Kind} (hid : k.id p = k.id p') :
    p.body.adapterId = p'.body.adapterId ∧ p.body.externalId = p'.body.externalId := by
  obtain ⟨suffix, -, hadmits, -, hsuffix, hrequest, htask⟩ := prepare_ok h
  obtain ⟨suffix', -, hadmits', -, hsuffix', hrequest', htask'⟩ := prepare_ok h'
  obtain ⟨id, hcanonical, heq⟩ := canonical_of_admits hadmits
  obtain ⟨id', hcanonical', heq'⟩ := canonical_of_admits hadmits'
  have htoken := (canonical_token hcanonical).2
  have htoken' := (canonical_token hcanonical').2
  rw [heq] at htoken
  rw [heq'] at htoken'
  have hsplit : ∀ s : String, py s ++ safeToken p.body.adapterId ++ py ":" ++ suffix
        = py s ++ safeToken p'.body.adapterId ++ py ":" ++ suffix' →
      suffix = suffix' := by
    intro s hs
    rw [List.append_assoc, List.append_assoc, List.append_assoc, List.append_assoc] at hs
    exact (split_at_first htoken.1 htoken'.1 (List.append_cancel_left hs)).2
  have hsame : suffix = suffix' := by
    cases k with
    | source =>
      rw [Kind.id, Kind.id, hrequest, hrequest'] at hid
      exact hsplit _ hid
    | task =>
      rw [Kind.id, Kind.id, htask, htask'] at hid
      exact hsplit _ hid
  have hidentity := hapart (by rw [hsuffix, hsuffix', hsame])
  unfold Prepared.identity at hidentity
  rw [List.append_assoc, List.append_assoc] at hidentity
  exact split_at_first htoken.2 htoken'.2 hidentity

end Prepared

-- == records

def Kind.rows (k : Kind) (rows : List EventRow) : List EventRow :=
  rows.filter fun row => decide (row.type = Text.lit k.type.value)

structure Records (k : Kind) (p : Prepared) (row : EventRow) : Prop where
  id : row.entityId.map Text.str = some (k.id p)
  payload : ∃ d : Fields, row.payloadJson = some d.doc ∧ d.members = sortByName (k.members p)

/-- The rows of a kind are records of requests, one for an identifier, and are
what is found. -/
structure Filed (P : Prepared → Prop) (k : Kind) (rows : List EventRow)
    (find : PyStr → Option Fields) : Prop where
  records : ∀ row ∈ k.rows rows, ∃ p, P p ∧ Records k p row
  once : ((k.rows rows).map EventRow.entityId).Nodup
  found : ∀ id d, find id = some d ↔ ∃ row ∈ k.rows rows,
    row.entityId.map Text.str = some id ∧ row.payloadJson = some d.doc

section Filed

variable {P : Prepared → Prop} {k : Kind} {rows : List EventRow}
  {find : PyStr → Option Fields} {e : Events.Event}

theorem type_lit_injective {a b : EventType} (h : Text.lit a.value = Text.lit b.value) : a = b := by
  have hname := congrArg (fun t : Text => EventType.ofName? t.str) h
  have : some a = some b :=
    ((EventLog.ofName?_value a).symm.trans hname).trans (EventLog.ofName?_value b)
  exact Option.some.inj this

theorem rows_other {type : EventType} (htype : e.type = Text.lit type.value) (hne : type ≠ k.type) :
    k.rows (rows ++ [EventLog.rowOf e]) = k.rows rows := by
  unfold Kind.rows
  rw [List.filter_append, List.filter_cons_of_neg, List.filter_nil, List.append_nil]
  rw [decide_eq_true_eq]
  exact fun h => hne (type_lit_injective (htype.symm.trans h))

theorem rows_same (htype : e.type = Text.lit k.type.value) :
    k.rows (rows ++ [EventLog.rowOf e]) = k.rows rows ++ [EventLog.rowOf e] := by
  unfold Kind.rows
  rw [List.filter_append]
  simp [EventLog.rowOf, htype]

theorem Filed.skip (h : Filed P k rows find) {type : EventType}
    (htype : e.type = Text.lit type.value) (hne : type ≠ k.type) :
    Filed P k (rows ++ [EventLog.rowOf e]) find := by
  have hrows : k.rows (rows ++ [EventLog.rowOf e]) = k.rows rows := rows_other htype hne
  exact ⟨hrows ▸ h.records, hrows ▸ h.once, fun id d => hrows ▸ h.found id d⟩

theorem Filed.add (h : Filed P k rows find) {p : Prepared} (hp : P p)
    (htype : e.type = Text.lit k.type.value) (hid : e.entityId.map Text.str = some (k.id p))
    (hmembers : e.payload.members = sortByName (k.members p))
    (hnew : find (k.id p) = none) :
    Filed P k (rows ++ [EventLog.rowOf e])
      fun id => if id = k.id p then some e.payload else find id := by
  have hrows : k.rows (rows ++ [EventLog.rowOf e]) = k.rows rows ++ [EventLog.rowOf e] :=
    rows_same htype
  have hfresh : ∀ row ∈ k.rows rows, row.entityId.map Text.str ≠ some (k.id p) := by
    intro row hrow hsame
    obtain ⟨q, -, hq⟩ := h.records row hrow
    obtain ⟨d, hd, -⟩ := hq.payload
    rw [(h.found _ d).mpr ⟨row, hrow, hsame, hd⟩] at hnew
    cases hnew
  refine ⟨fun row hrow => ?_, ?_, fun id d => ?_⟩
  · rw [hrows] at hrow
    rcases List.mem_append.mp hrow with hrow | hrow
    · exact h.records row hrow
    · rw [List.mem_singleton.mp hrow]
      exact ⟨p, hp, hid, e.payload, rfl, hmembers⟩
  · rw [hrows, List.map_append, List.nodup_append]
    refine ⟨h.once, List.nodup_singleton _, fun a ha b hb => ?_⟩
    rintro rfl
    obtain ⟨row, hrow, rfl⟩ := List.mem_map.mp ha
    rw [List.map_singleton, List.mem_singleton] at hb
    refine hfresh row hrow ?_
    rw [hb]
    exact hid
  · rw [hrows]
    by_cases hsame : id = k.id p
    · rw [if_pos hsame]
      constructor
      · intro hd
        cases hd
        exact ⟨_, List.mem_append_right _ (List.mem_singleton_self _), hsame ▸ hid, rfl⟩
      · rintro ⟨row, hrow, hrowid, hpayload⟩
        rcases List.mem_append.mp hrow with hrow | hrow
        · exact absurd (hsame ▸ hrowid) (hfresh row hrow)
        · rw [List.mem_singleton.mp hrow] at hpayload
          exact congrArg some (doc_injective (congrArg Doc.json (Option.some.inj hpayload)))
    · rw [if_neg hsame, h.found]
      constructor
      · rintro ⟨row, hrow, hrest⟩
        exact ⟨row, List.mem_append_left _ hrow, hrest⟩
      · rintro ⟨row, hrow, hrowid, hpayload⟩
        rcases List.mem_append.mp hrow with hrow | hrow
        · exact ⟨row, hrow, hrowid, hpayload⟩
        · rw [List.mem_singleton.mp hrow] at hrowid
          have hrowid : e.entityId.map Text.str = some id := hrowid
          rw [hid] at hrowid
          exact absurd (Option.some.inj hrowid).symm hsame

theorem Filed.of_found (h : Filed P k rows find) {id : PyStr} {d : Fields} (hd : find id = some d) :
    ∃ p, P p ∧ k.id p = id ∧ d.members = sortByName (k.members p) := by
  obtain ⟨row, hrow, hid, hpayload⟩ := (h.found id d).mp hd
  obtain ⟨p, hp, hrecords⟩ := h.records row hrow
  obtain ⟨d', hd', hmembers⟩ := hrecords.payload
  rw [hpayload] at hd'
  have hsame : d = d' := doc_injective (congrArg Doc.json (Option.some.inj hd'))
  refine ⟨p, hp, ?_, hsame ▸ hmembers⟩
  exact Option.some.inj (hrecords.id.symm.trans hid)

end Filed

-- == states

/-- What a state finds under the identifiers of a kind. -/
def Kind.find (k : Kind) (s : ProjectState) (id : PyStr) : Option Fields :=
  match k with
  | source => s.sources.get? id
  | task => (s.tasks.get? id).map Task.payload

/-- The rows and the state agree on the requests. -/
structure Tells (P : Prepared → Prop) (rows : List EventRow) (s : ProjectState) : Prop where
  filed : ∀ k : Kind, Filed P k rows (k.find s)
  free : ∀ id t, s.tasks.get? id = some t → t.dependencies = []
  backed : ∀ id t, s.tasks.get? id = some t → ∃ source d,
    t.payload.get? (py "source_id") = some (.str source) ∧ s.sources.get? source = some d
      ∧ d.get? (py "request_sha256") = t.payload.get? (py "request_sha256")

section Tells

variable {P : Prepared → Prop} {rows : List EventRow} {s mid : ProjectState}
  {e : Events.Event} {p : Prepared} {type : EventType}

theorem tells_empty (P : Prepared → Prop) : Tells P [] .empty where
  filed k := by
    have hnone : ∀ id d, Kind.find k .empty id ≠ some d := by
      intro id d h
      cases k <;> cases h
    exact ⟨nofun, List.nodup_nil,
      fun id d => ⟨fun h => absurd h (hnone id d), fun ⟨_, hrow, _⟩ => (by cases hrow)⟩⟩
  free _ _ h := by cases h
  backed _ _ h := by cases h

theorem Tells.congr {s' : ProjectState} (h : Tells P rows s)
    (hsources : s'.sources = s.sources) (htasks : s'.tasks = s.tasks) : Tells P rows s' := by
  have hfind : ∀ k : Kind, k.find s' = k.find s := by
    intro k
    funext id
    cases k with
    | source => exact congrArg (fun d : Dict PyStr Fields => d.get? id) hsources
    | task =>
      exact congrArg (fun d : Dict PyStr Task => (d.get? id).map Task.payload) htasks
  exact ⟨fun k => hfind k ▸ h.filed k, fun id t ht => h.free id t (htasks ▸ ht),
    fun id t ht => hsources ▸ h.backed id t (htasks ▸ ht)⟩

theorem Tells.skip (h : Tells P rows s) (htype : e.type = Text.lit type.value)
    (hne : ∀ k : Kind, type ≠ k.type) : Tells P (rows ++ [EventLog.rowOf e]) s :=
  ⟨fun k => (h.filed k).skip htype (hne k), h.free, h.backed⟩

theorem Tells.moved (h : Tells P rows s) {id : PyStr} {t t' : Task}
    (htype : e.type = Text.lit type.value) (hne : ∀ k : Kind, type ≠ k.type)
    (hold : s.tasks.get? id = some t) (hpayload : t'.payload = t.payload)
    (hdeps : t'.dependencies = t.dependencies) :
    Tells P (rows ++ [EventLog.rowOf e]) (s.setTask id t') := by
  have hget : ∀ id', (s.setTask id t').tasks.get? id'
      = if id' = id then some t' else s.tasks.get? id' := fun id' =>
    Dict.get?_set s.tasks id t' id'
  have hback : ∀ id' u, (s.setTask id t').tasks.get? id' = some u →
      ∃ v, s.tasks.get? id' = some v ∧ u.payload = v.payload ∧ u.dependencies = v.dependencies := by
    intro id' u hu
    rw [hget] at hu
    split at hu
    · next heq =>
      cases hu
      exact ⟨t, heq ▸ hold, hpayload, hdeps⟩
    · exact ⟨u, hu, rfl, rfl⟩
  refine ⟨fun k => ?_, fun id' u hu => ?_, fun id' u hu => ?_⟩
  · have hfind : k.find (s.setTask id t') = k.find s := by
      funext id'
      cases k with
      | source => rfl
      | task =>
        show ((s.setTask id t').tasks.get? id').map Task.payload = _
        rw [hget]
        show _ = (s.tasks.get? id').map Task.payload
        split
        · next heq =>
          rw [heq, hold]
          show some t'.payload = some t.payload
          rw [hpayload]
        · rfl
    rw [hfind]
    exact (h.filed k).skip htype (hne k)
  · obtain ⟨v, hv, -, hvdeps⟩ := hback id' u hu
    rw [hvdeps]
    exact h.free id' v hv
  · obtain ⟨v, hv, hvpayload, -⟩ := hback id' u hu
    rw [hvpayload]
    exact h.backed id' v hv

theorem Tells.source (h : Tells P rows s) (hp : P p)
    (htype : e.type = Text.lit Kind.source.type.value)
    (hid : e.entityId.map Text.str = some p.requestId)
    (hmembers : e.payload.members = sortByName p.sourceMembers)
    (hnew : s.sources.get? p.requestId = none) : Tells P (rows ++ [EventLog.rowOf e])
      { s with sources := s.sources.set p.requestId e.payload } := by
  refine ⟨fun k => ?_, h.free, fun id t ht => ?_⟩
  · cases k with
    | source =>
      have hadd := (h.filed .source).add hp htype hid hmembers hnew
      have hfind : Kind.source.find { s with sources := s.sources.set p.requestId e.payload }
            = fun id => if id = Kind.source.id p then some e.payload
              else Kind.source.find s id :=
        funext fun id => Dict.get?_set s.sources p.requestId e.payload id
      rw [hfind]
      exact hadd
    | task => exact (h.filed .task).skip htype (by decide)
  · obtain ⟨source, d, hsource, hd, hsame⟩ := h.backed id t ht
    refine ⟨source, d, hsource, ?_, hsame⟩
    rw [Dict.get?_set, if_neg]
    · exact hd
    · rintro rfl
      rw [hnew] at hd
      cases hd

theorem Tells.task (h : Tells P rows s) (hp : P p) (htype : e.type = Text.lit Kind.task.type.value)
    (hid : e.entityId.map Text.str = some p.taskId)
    (hmembers : e.payload.members = sortByName p.taskMembers)
    (hnew : s.tasks.get? p.taskId = none)
    {d : Fields} (hd : s.sources.get? p.requestId = some d)
    (hdigest : d.get? (py "request_sha256") = some (.str p.digest.str)) :
    Tells P (rows ++ [EventLog.rowOf e])
      (s.setTask p.taskId ⟨e.payload, .discovered, [], none⟩) := by
  have hget : ∀ id, (s.setTask p.taskId ⟨e.payload, .discovered, [], none⟩).tasks.get? id
      = if id = p.taskId then some ⟨e.payload, .discovered, [], none⟩
        else s.tasks.get? id := fun id => Dict.get?_set s.tasks p.taskId _ id
  refine ⟨fun k => ?_, fun id t ht => ?_, fun id t ht => ?_⟩
  · cases k with
    | source => exact (h.filed .source).skip htype (by decide)
    | task =>
      have hnone : Kind.task.find s (Kind.task.id p) = none := by
        show (s.tasks.get? p.taskId).map Task.payload = none
        rw [hnew]
        rfl
      have hadd := (h.filed .task).add hp htype hid hmembers hnone
      have hfind : Kind.task.find (s.setTask p.taskId ⟨e.payload, .discovered, [], none⟩)
            = fun id => if id = Kind.task.id p then some e.payload
              else Kind.task.find s id := by
        funext id
        show ((s.setTask p.taskId _).tasks.get? id).map Task.payload = _
        rw [hget]
        show _ = if id = p.taskId then _ else _
        split <;> rfl
      rw [hfind]
      exact hadd
  · rw [hget] at ht
    split at ht
    · cases ht
      rfl
    · exact h.free id t ht
  · rw [hget] at ht
    split at ht
    · cases ht
      refine ⟨p.requestId, d, ?_, hd, ?_⟩
      · exact get?_of_sorted hmembers (by simp [Prepared.taskMembers])
      · rw [hdigest]
        exact (get?_of_sorted hmembers (digest_mem p .task)).symm
    · exact h.backed id t ht

end Tells

end Centinal26.Gateway
