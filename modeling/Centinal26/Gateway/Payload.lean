/-
What the gateway's events carry once they are stored: the members they are made
of, in the order of their names.
-/
import Centinal26.Gateway.Request
import Centinal26.Py.ReadBack

namespace Centinal26.Gateway

open Py Events

variable {H : Host}

-- == records

theorem normal_of_get? {d : Fields} {k : PyStr} {v : Json} (h : d.get? k = some v) :
    v.isNormal = true := by
  have hnormal := d.normal
  rw [Json.isNormal, Bool.and_eq_true, allNormalMembers_eq, List.all_eq_true] at hnormal
  obtain ⟨m, hm, rfl⟩ := Option.map_eq_some_iff.mp h
  exact hnormal.2 m (List.mem_of_find?_eq_some hm)

/-- A value that is stored as it is. -/
structure Plain (v : Json) : Prop where
  normal : v.isNormal = true
  short : v.isShort = true
  finite : v.isFinite = true

theorem plain_str (s : PyStr) : Plain (.str s) := ⟨rfl, rfl, rfl⟩

theorem plain_null : Plain .null := ⟨rfl, rfl, rfl⟩

theorem fields_payloadOf (ms : List (PyStr × Json)) (hnames : (ms.map Prod.fst).Nodup)
    (hplain : ∀ m ∈ ms, Plain m.2) :
    ∃ fields, EventLog.normalizedPayload (Prepared.payloadOf ms) = .ok fields
      ∧ fields.members = sortByName ms := by
  have hmembers : allNormalMembers ms = true := by
    rw [allNormalMembers_eq, List.all_eq_true]
    exact fun m hm => (hplain m hm).normal
  have hshort : allShortMembers ms = true := by
    rw [allShortMembers_eq, List.all_eq_true]
    exact fun m hm => (hplain m hm).short
  have hordered : Ordered (sortByName ms) := ordered_sortByName hnames
  have hnormal : (Json.obj (sortByName ms)).isNormal = true := by
    rw [Json.isNormal, Bool.and_eq_true, decide_eq_true_eq, allNormalMembers_eq, List.all_eq_true]
    exact ⟨hordered, fun m hm => (hplain m (mem_sortByName.mp hm)).normal⟩
  have hdumps : dumps (Prepared.payloadOf ms) = .ok (.obj (sortByName ms)) := by
    rw [Prepared.payloadOf, loads_obj hnames, dumps_strItems, dumpsFields_loads ms hmembers hshort]
    rfl
  have hfinite : (Prepared.payloadOf ms).isFinite = true := by
    rw [Prepared.payloadOf, loads_obj hnames, PyVal.isFinite, allItemsFinite_strItems,
      allFiniteMembers_loads ms hmembers, allFiniteMembers_eq, List.all_eq_true]
    exact fun m hm => (hplain m hm).finite
  refine ⟨⟨sortByName ms, hnormal⟩, ?_, rfl⟩
  unfold EventLog.normalizedPayload dumpsStrict
  rw [hdumps]
  simp only [bind_ok_eq, hfinite, if_true]
  have hload : (Json.obj (sortByName ms)).load.fields? = some ⟨sortByName ms, hnormal⟩ := by
    have hdoc : (Json.obj (sortByName ms)).load
        = (⟨sortByName ms, hnormal⟩ : Fields).doc := Doc.ext (normalise_eq _ hnormal)
    rw [hdoc, Fields.fields?_doc]
  rw [hload]

-- == contents

theorem get?_normalized {ms : List (PyStr × PyVal)} {fields : Fields}
    (hnames : (ms.map Prod.fst).Nodup)
    (h : EventLog.normalizedPayload (.dict (strItems ms)) = .ok fields)
    {k : PyStr} {v : PyVal} (hm : (k, v) ∈ ms) :
    ∃ d, dumps v = .ok d ∧ fields.get? k = some d.normalise := by
  unfold EventLog.normalizedPayload dumpsStrict at h
  obtain ⟨doc, hdoc, h⟩ := of_bind_ok h
  obtain ⟨d, hdumps, hdoc⟩ := of_bind_ok hdoc
  rw [dumps_strItems] at hdumps
  obtain ⟨ds, hds, rfl⟩ := of_map_ok hdumps
  obtain ⟨hsame, hmem⟩ := dumpsFields_spec hds
  obtain ⟨dv, hdv, hin⟩ := hmem _ hm
  refine ⟨dv, hdv, ?_⟩
  split at hdoc
  · cases hdoc
    have hload : fields.members = sortByName (dictOf (normaliseMembers (sortByName ds))) := by
      cases h
      rfl
    have hdistinct : ((normaliseMembers (sortByName ds)).map Prod.fst).Nodup := by
      have hordered : Ordered (sortByName ds) :=
        ordered_sortByName (by rw [hsame]; exact hnames)
      rw [normaliseMembers_map, List.map_map]
      exact hordered.nodup
    refine get?_of_mem ?_
    rw [hload, mem_sortByName, dictOf_eq hdistinct, normaliseMembers_map]
    exact List.mem_map.mpr ⟨(k, dv), mem_sortByName.mpr hin, rfl⟩
  · cases hdoc

theorem dumps_optText (s : Option PyStr) : dumps (optText s) = .ok (optJson s) := by
  cases s with
  | none => rw [optText, dumps]; rfl
  | some s => rw [optText, dumps]; rfl

theorem normalise_optJson (s : Option PyStr) : (optJson s).normalise = optJson s := by
  cases s <;> rfl

structure RequestBody.Holds (b : RequestBody) : Prop where
  adapterId : b.fields.get? (py "adapter_id") = some (.str b.adapterId)
  externalId : b.fields.get? (py "external_id") = some (.str b.externalId)
  capability : b.fields.get? (py "capability") = some (.str b.capability)
  objective : b.fields.get? (py "objective") = some (optJson b.objective)
  actor : b.fields.get? (py "actor") = some (optJson b.actor)

theorem requestBody_holds {r : AdapterRequest} {b : RequestBody}
    (h : requestBody r = .ok b) : b.Holds := by
  unfold requestBody at h
  obtain ⟨adapterId, -, h⟩ := of_bind_ok h
  obtain ⟨externalId, -, h⟩ := of_bind_ok h
  obtain ⟨capability, -, h⟩ := of_bind_ok h
  obtain ⟨u, -, h⟩ := of_bind_ok h
  obtain ⟨u', -, h⟩ := of_bind_ok h
  obtain ⟨objective, -, h⟩ := of_bind_ok h
  obtain ⟨actor, -, h⟩ := of_bind_ok h
  obtain ⟨fields, hfields, h⟩ := of_bind_ok h
  cases h
  have hget := @get?_normalized [(py "adapter_id", .str adapterId),
    (py "external_id", .str externalId), (py "capability", .str capability),
    (py "payload", r.payload), (py "constraints", r.constraints),
    (py "objective", optText objective), (py "actor", optText actor)] fields
    (by simp only [List.map_cons, List.map_nil]; decide +kernel) hfields
  have hstr : ∀ {k s : PyStr}, (∃ d, dumps (.str s) = .ok d
      ∧ fields.get? k = some d.normalise) → fields.get? k = some (.str s) := by
    rintro k s ⟨d, hd, hk⟩
    rw [dumps] at hd
    cases hd
    exact hk
  have hopt : ∀ {k : PyStr} {s : Option PyStr}, (∃ d, dumps (optText s) = .ok d
      ∧ fields.get? k = some d.normalise) → fields.get? k = some (optJson s) := by
    rintro k s ⟨d, hd, hk⟩
    rw [dumps_optText] at hd
    cases hd
    rw [hk, normalise_optJson]
  exact ⟨hstr (hget (by simp)), hstr (hget (by simp)), hstr (hget (by simp)),
    hopt (hget (by simp)), hopt (hget (by simp))⟩

theorem RequestBody.Holds.pair {b b' : RequestBody} (h : b.Holds) (h' : b'.Holds)
    (heq : b.fields = b'.fields) : b.adapterId = b'.adapterId ∧ b.externalId = b'.externalId := by
  have hadapter := h.adapterId
  have hexternal := h.externalId
  rw [heq, h'.adapterId] at hadapter
  rw [heq, h'.externalId] at hexternal
  exact ⟨(Json.str.inj (Option.some.inj hadapter)).symm,
    (Json.str.inj (Option.some.inj hexternal)).symm⟩

-- == requests

theorem plain_fields {b : RequestBody} {r : AdapterRequest} {digest : Text}
    (hb : requestBody r = .ok b) (hd : requestSha256 H b = .ok digest) :
    Plain b.fields.doc.json := by
  refine ⟨b.fields.doc.normal, ?_, ?_⟩
  · unfold requestBody at hb
    obtain ⟨adapterId, -, hb⟩ := of_bind_ok hb
    obtain ⟨externalId, -, hb⟩ := of_bind_ok hb
    obtain ⟨capability, -, hb⟩ := of_bind_ok hb
    obtain ⟨u, -, hb⟩ := of_bind_ok hb
    obtain ⟨u', -, hb⟩ := of_bind_ok hb
    obtain ⟨objective, -, hb⟩ := of_bind_ok hb
    obtain ⟨actor, -, hb⟩ := of_bind_ok hb
    obtain ⟨fields, hfields, hb⟩ := of_bind_ok hb
    cases hb
    unfold EventLog.normalizedPayload dumpsStrict at hfields
    obtain ⟨doc, hdoc, hfields⟩ := of_bind_ok hfields
    obtain ⟨d, hdumps, hdoc⟩ := of_bind_ok hdoc
    split at hdoc
    · cases hdoc
      split at hfields
      · cases hfields
      · next fields' hload =>
        cases hfields
        rw [Doc.doc_of_fields? hload]
        exact isShort_normalise _ (isShort_dumps _ _ hdumps)
    · cases hdoc
  · unfold requestSha256 at hd
    obtain ⟨text, htext, -⟩ := of_bind_ok hd
    have hok : (canonicalJson b.fields.doc.json).isOk = true := by
      rw [htext]
      rfl
    exact (canonicalJson_isOk.mp hok).1

theorem plain_get? {d : Fields} (h : Plain d.doc.json) (k : PyStr) :
    Plain ((d.get? k).getD .null) := by
  cases hv : d.get? k with
  | none => exact plain_null
  | some v =>
    obtain ⟨m, hm, rfl⟩ := Option.map_eq_some_iff.mp hv
    have hmem : m ∈ d.members := List.mem_of_find?_eq_some hm
    have hshort : allShortMembers d.members = true := h.short
    have hfinite : allFiniteMembers d.members = true := h.finite
    rw [allShortMembers_eq, List.all_eq_true] at hshort
    rw [allFiniteMembers_eq, List.all_eq_true] at hfinite
    exact ⟨normal_of_get? hv, hshort m hmem, hfinite m hmem⟩

-- == encoding

theorem encodable_get? {d : Fields} (h : d.doc.json.isEncodable = true) {k : PyStr}
    {v : Json} (hv : d.get? k = some v) : v.isEncodable = true := by
  have hall : allEncodableMembers d.members = true := h
  rw [allEncodableMembers_eq, List.all_eq_true] at hall
  obtain ⟨m, hm, rfl⟩ := Option.map_eq_some_iff.mp hv
  have hboth := hall m (List.mem_of_find?_eq_some hm)
  rw [Bool.and_eq_true] at hboth
  exact hboth.2

theorem encodable_getD {d : Fields} (h : d.doc.json.isEncodable = true) (k : PyStr) :
    ((d.get? k).getD .null).isEncodable = true := by
  cases hv : d.get? k with
  | none => rfl
  | some v => exact encodable_get? h hv

theorem encodable_of_str {d : Fields} (h : d.doc.json.isEncodable = true) {k s : PyStr}
    (hs : d.get? k = some (.str s)) : Encodable s :=
  of_decide_eq_true (encodable_get? h hs)

theorem encodable_body {b : RequestBody} {digest : Text}
    (h : requestSha256 H b = .ok digest) : b.fields.doc.json.isEncodable = true := by
  obtain ⟨text, htext, -⟩ := of_bind_ok h
  have hok : (canonicalJson b.fields.doc.json).isOk = true := by
    rw [htext]
    rfl
  exact (canonicalJson_isOk.mp hok).2

theorem encodable_sorted {fields : Fields} {ms : List (PyStr × Json)}
    (h : fields.members = sortByName ms) (hms : ∀ m ∈ ms, Encodable m.1 ∧ m.2.isEncodable = true) :
    fields.doc.json.isEncodable = true := by
  show allEncodableMembers fields.members = true
  rw [h, allEncodableMembers_eq, List.all_eq_true]
  intro m hm
  obtain ⟨hname, hvalue⟩ := hms m (mem_sortByName.mp hm)
  rw [Bool.and_eq_true, decide_eq_true_eq]
  exact ⟨hname, hvalue⟩

theorem finite_sorted {fields : Fields} {ms : List (PyStr × Json)}
    (h : fields.members = sortByName ms) (hms : ∀ m ∈ ms, m.2.isFinite = true) :
    fields.doc.json.isFinite = true := by
  show allFiniteMembers fields.members = true
  rw [h, allFiniteMembers_eq, List.all_eq_true]
  exact fun m hm => hms m (mem_sortByName.mp hm)

-- == names

theorem canonical_token {id : String} (h : id ∈ canonicalAdapterIds) :
    Encodable (safeToken (py id)) ∧ 58 ∉ safeToken (py id) ∧ 0 ∉ py id := by
  have hall : ∀ id ∈ canonicalAdapterIds,
      Encodable (safeToken (py id)) ∧ 58 ∉ safeToken (py id) ∧ 0 ∉ py id := by
    decide +kernel
  exact hall id h

theorem canonical_of_admits {catalog : FederationCatalog} {adapterId : PyStr}
    {status : AdapterStatus} (h : admits catalog adapterId = .ok status) :
    ∃ id ∈ canonicalAdapterIds, py id = adapterId := by
  unfold admits at h
  split at h
  · cases h
  · next hno =>
    rw [List.all_eq_true] at hno
    push Not at hno
    obtain ⟨id, hid, heq⟩ := hno
    exact ⟨id, hid, by simpa using heq⟩

-- == prepared

section Prepared

variable {catalog : FederationCatalog} {r : AdapterRequest} {p : Prepared}

theorem prepare_ok (h : prepare H catalog r = .ok p) :
    ∃ suffix, requestBody r = .ok p.body ∧ admits catalog p.body.adapterId = .ok p.status
      ∧ requestSha256 H p.body = .ok p.digest
      ∧ stableSuffix H p.body.adapterId p.body.externalId = .ok suffix
      ∧ p.requestId = py "adapter-request:" ++ safeToken p.body.adapterId ++ py ":" ++ suffix
      ∧ p.taskId = py "task:adapter:" ++ safeToken p.body.adapterId ++ py ":" ++ suffix := by
  unfold prepare at h
  obtain ⟨body, hbody, h⟩ := of_bind_ok h
  obtain ⟨status, hstatus, h⟩ := of_bind_ok h
  obtain ⟨digest, hdigest, h⟩ := of_bind_ok h
  obtain ⟨suffix, hsuffix, h⟩ := of_bind_ok h
  cases h
  exact ⟨suffix, hbody, hstatus, hdigest, hsuffix, rfl, rfl⟩

theorem plain_body (h : prepare H catalog r = .ok p) : Plain p.body.fields.doc.json := by
  obtain ⟨-, hbody, -, hdigest, -⟩ := prepare_ok h
  exact plain_fields hbody hdigest

theorem sourceEvent_fields (h : prepare H catalog r = .ok p) :
    ∃ fields, p.sourceEvent.fields = .ok fields ∧ fields.members = sortByName p.sourceMembers := by
  refine fields_payloadOf p.sourceMembers ?_ ?_
  · simp only [Prepared.sourceMembers, List.map_cons, List.map_nil]
    decide +kernel
  · simp only [Prepared.sourceMembers, List.forall_mem_cons, plain_str, true_and]
    exact ⟨plain_body h, nofun⟩

theorem taskEvent_fields (h : prepare H catalog r = .ok p) :
    ∃ fields, p.taskEvent.fields = .ok fields ∧ fields.members = sortByName p.taskMembers := by
  refine fields_payloadOf p.taskMembers ?_ ?_
  · simp only [Prepared.taskMembers, List.map_cons, List.map_nil]
    decide +kernel
  · simp only [Prepared.taskMembers, List.forall_mem_cons, plain_str, true_and]
    exact ⟨plain_get? (plain_body h) _, plain_get? (plain_body h) _, nofun⟩

theorem get?_of_sorted {fields : Fields} {ms : List (PyStr × Json)}
    (h : fields.members = sortByName ms) {k : PyStr} {v : Json} (hm : (k, v) ∈ ms) :
    fields.get? k = some v :=
  get?_of_mem (h ▸ mem_sortByName.mpr hm)

end Prepared

end Centinal26.Gateway
