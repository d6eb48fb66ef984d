/-
What a request that was validated is made of, and what is read of the bodies that are built of it.
-/
import Centinal26.Provider.Effect

namespace Centinal26.Provider

open Py Js

variable {L : Libraries}

-- == hashes

theorem verifyHash_withHash {field : String} {ms : List (String × Json)}
    (h : field ∉ ms.map Prod.fst) :
    verifyHash L (withHash L field (defined ms)).json field = true := by
  have hjson : (withHash L field (defined ms)).json = .obj (ms.map (fun m => (py m.1, m.2))
        ++ [(py field, .str (L.sha (defined ms).canonical))]) := by
    have hdefined : withHash L field (defined ms)
        = defined (ms ++ [(field, .str (L.sha (defined ms).canonical))]) := by
      rw [withHash, defined, defined, List.map_append]
      rfl
    rw [hdefined, json_defined, List.map_append]
    rfl
  have hnew : ∀ m ∈ ms.map (fun m => (py m.1, m.2)), m.1 ≠ py field := by
    intro m hm
    obtain ⟨n, hn, rfl⟩ := List.mem_map.mp hm
    exact fun heq => h (List.mem_map.mpr ⟨n, hn, py_inj.mp heq⟩)
  have hprop : prop (withHash L field (defined ms)).json field
      = some (.str (L.sha (defined ms).canonical)) := by
    rw [hjson]
    show getItem? _ _ = _
    unfold getItem?
    rw [List.find?_append, List.find?_eq_none.mpr (by simpa using hnew)]
    simp
  rw [verifyHash, is_iff, hprop, hjson, hashBody, List.filter_append,
    List.filter_eq_self.mpr (by simpa using hnew)]
  simp [canonical_defined, json_defined, sha256]

-- == requests

theorem nonEmpty?_eq {v : Option Json} {s : PyStr} (h : nonEmpty? v = some s) :
    v = some (.str s) := by
  unfold nonEmpty? at h
  split at h
  · split at h
    · cases h
    · cases h
      rfl
  · cases h

structure Valid (request : Json) where
  id : PyStr
  capability : PyStr
  key : PyStr
  actor : PyStr
  payload : Json
  marker : PyStr
  value : PyStr
  isObject : ∃ ms, request = .obj ms
  hid : prop request "request_id" = some (.str id)
  hcapability : prop request "capability" = some (.str capability)
  hkey : prop request "idempotency_key" = some (.str key)
  hactor : prop request "actor" = some (.str actor)
  hpayload : prop request "payload" = some payload
  isPayload : ∃ ms, payload = .obj ms
  hmarker : prop payload "marker" = some (.str marker)
  hvalue : prop payload "value" = some (.str value)

theorem validatePayload_ok {payload : Option Json} (h : validatePayload payload = .ok ()) :
    ∃ ms marker value, payload = some (.obj ms) ∧ prop (.obj ms) "marker" = some (.str marker)
      ∧ prop (.obj ms) "value" = some (.str value) := by
  unfold validatePayload at h
  split at h
  · next ms =>
    rw [demand_bind_ok] at h
    obtain ⟨-, h⟩ := h
    split at h
    · cases h
    · cases h
    · next marker value hmarker hvalue =>
      exact ⟨ms, marker, value, rfl, nonEmpty?_eq hmarker, nonEmpty?_eq hvalue⟩
  · cases h

theorem forM_ok {α : Type} {xs : List α} {f : α → Except Thrown Unit}
    (h : xs.forM f = .ok ()) : ∀ x ∈ xs, f x = .ok () := by
  induction xs with
  | nil => exact fun x hx => by cases hx
  | cons y ys ih =>
    replace h : (f y >>= fun _ => ys.forM f) = .ok () := h
    obtain ⟨u, hy, hys⟩ := of_bind_ok h
    intro x hx
    rcases List.mem_cons.mp hx with rfl | hx
    · exact hy
    · exact ih hys x hx

theorem valid_of_validateRequest {request : Json} {now : Option Rat}
    (h : validateRequest L request now = .ok ()) : Nonempty (Valid request) := by
  unfold validateRequest at h
  split at h
  · next ms =>
    simp only [demand_bind_ok] at h
    obtain ⟨-, -, h⟩ := h
    obtain ⟨u, hfields, h⟩ := of_bind_ok h
    rw [demand_bind_ok] at h
    obtain ⟨-, h⟩ := h
    obtain ⟨u', hpayload, -⟩ := of_bind_ok h
    obtain ⟨pms, marker, value, hpms, hmarker, hvalue⟩ := validatePayload_ok hpayload
    have hstring : ∀ key ∈ ["request_id", "capability", "idempotency_key", "actor"],
        ∃ s, prop (.obj ms) key = some (.str s) := by
      intro key hkey
      have hsome := demand_ok.mp (forM_ok hfields key hkey)
      obtain ⟨s, hs⟩ := Option.isSome_iff_exists.mp hsome
      exact ⟨s, nonEmpty?_eq hs⟩
    obtain ⟨id, hid⟩ := hstring "request_id" (by decide)
    obtain ⟨capability, hcapability⟩ := hstring "capability" (by decide)
    obtain ⟨key, hkey⟩ := hstring "idempotency_key" (by decide)
    obtain ⟨actor, hactor⟩ := hstring "actor" (by decide)
    exact ⟨⟨id, capability, key, actor, .obj pms, marker, value, ⟨ms, rfl⟩, hid, hcapability,
      hkey, hactor, hpms, ⟨pms, rfl⟩, hmarker, hvalue⟩⟩
  · cases h

namespace Valid

variable {request : Json} (v : Valid request)

include v in
theorem requestIdentity_eq : requestIdentity L request = .ok (sha256 L request) := by
  obtain ⟨ms, rfl⟩ := v.isObject
  rfl

theorem payloadOf_eq : payloadOf request = .ok v.payload := by
  obtain ⟨ms, hms⟩ := v.isPayload
  unfold payloadOf
  rw [v.hpayload, hms]

def markerMembers (L : Libraries) (v : Valid request) : List (String × Json) := [
  ("schema", .str (py "frost-effect-marker/1.0")), ("protocol", .str protocol),
  ("provider", .str provider), ("capability", .str v.capability), ("request_id", .str v.id),
  ("request_sha256", .str (sha256 L request)),
  ("provider_idempotency_key", .str (providerIdempotencyKey L request)),
  ("payload_sha256", .str (sha256 L v.payload)), ("marker", .str v.marker),
  ("value", .str v.value)]

theorem markerBody_eq : markerBody L request v.payload
    = withHash L "marker_sha256" (defined (v.markerMembers L)) := by
  rw [markerBody, v.hcapability, v.hid, v.hmarker, v.hvalue]
  rfl

theorem verifyHash_marker :
    verifyHash L (markerBody L request v.payload).json "marker_sha256" = true := by
  rw [markerBody_eq]
  refine verifyHash_withHash ?_
  simp only [markerMembers, List.map_cons, List.map_nil]
  decide

theorem canonical_marker : canonical (markerBody L request v.payload).json
    = (markerBody L request v.payload).canonical := by
  rw [markerBody_eq]
  have hdefined : withHash L "marker_sha256" (defined (v.markerMembers L))
      = defined (v.markerMembers L
        ++ [("marker_sha256", .str (L.sha (defined (v.markerMembers L)).canonical))]) := by
    rw [withHash, defined, defined, List.map_append]
    rfl
  rw [hdefined, ← canonical_defined]

/-- The members of its intent, but for the hash. -/
def intentMembers (L : Libraries) (v : Valid request) (o : Options) : List (String × Json) := [
  ("schema", .str (py "frost-effect-intent/1.0")), ("protocol", .str protocol),
  ("state", .str (py "EXECUTION_INTENT_PERSISTED")), ("request_id", .str v.id),
  ("request_sha256", .str (sha256 L request)), ("capability", .str v.capability),
  ("actor", .str v.actor), ("guardian", guardianDecision request o), ("provider", .str provider),
  ("provider_idempotency_key", .str (providerIdempotencyKey L request)),
  ("marker_path", .str (markerPathFor L request)), ("payload_sha256", .str (sha256 L v.payload)),
  ("source_attestation", sourceAttestation L o)]

theorem intendedBody_eq (o : Options) :
    intendedBody L request o = withHash L "intent_hash" (defined (v.intentMembers L o)) := by
  unfold intendedBody given
  rw [v.hid, v.hcapability, v.hactor, v.hpayload]
  rfl

include v in
theorem verifyHash_intent (o : Options) :
    verifyHash L (intendedBody L request o).json "intent_hash" = true := by
  rw [v.intendedBody_eq]
  refine verifyHash_withHash ?_
  simp only [intentMembers, List.map_cons, List.map_nil]
  decide

theorem prop_intent (o : Options) :
    prop (intendedBody L request o).json "request_sha256" = some (.str (sha256 L request))
    ∧ prop (intendedBody L request o).json "capability" = some (.str v.capability)
    ∧ prop (intendedBody L request o).json "guardian" = some (guardianDecision request o)
    ∧ prop (intendedBody L request o).json "provider_idempotency_key"
      = some (.str (providerIdempotencyKey L request))
    ∧ prop (intendedBody L request o).json "marker_path" = some (.str (markerPathFor L request))
    ∧ prop (intendedBody L request o).json "source_attestation" = some (sourceAttestation L o) := by
  rw [v.intendedBody_eq]
  simp [withHash, defined, intentMembers, prop_cons]

theorem expectedMarker_eq (o : Options) (h : approved request = true) :
    expectedMarker L request (intendedBody L request o).json
      = .ok (markerBody L request v.payload) := by
  obtain ⟨hsha, hcapability, hguardian, hkey, hpath, -⟩ := v.prop_intent (L := L) o
  have hqualified : v.capability = qualificationCapability := by
    have h' := is_iff.mp h
    rw [v.hcapability] at h'
    exact Json.str.inj (Option.some.inj h')
  have happroved : ((prop (intendedBody L request o).json "guardian").bind fun g =>
      prop g "approved") = some (.bool true) := by
    rw [hguardian, Option.bind_some, guardianDecision]
    simp [prop_record_cons, h]
  unfold expectedMarker
  rw [demand_true (v.verifyHash_intent o), v.requestIdentity_eq, bind_ok_eq,
    demand_true (is_iff.mpr hsha), demand_true (by rw [happroved]),
    demand_true (is_iff.mpr (by rw [hcapability, hqualified])), demand_true (is_iff.mpr hkey),
    demand_true (is_iff.mpr hpath), v.payloadOf_eq, bind_ok_eq]

/-- The members of its result, but for the hash. -/
def resultMembers (L : Libraries) (v : Valid request) (o : Options) (commit : PyStr) :
    List (String × Json) := [
  ("schema", .str (py "frost-effect-result/1.0")), ("protocol", .str protocol),
  ("state", .str (py "EXECUTED")), ("request_id", .str v.id),
  ("request_sha256", .str (sha256 L request)), ("capability", .str v.capability),
  ("intent_hash", .str (hashBody L (intendedBody L request o).json "intent_hash")),
  ("provider", .str provider),
  ("provider_idempotency_key", .str (providerIdempotencyKey L request)),
  ("marker_path", .str (markerPathFor L request)),
  ("marker_sha256", .str (hashBody L (markerBody L request v.payload).json "marker_sha256")),
  ("provider_receipt", record [
    ("schema", .str (py "frost-provider-receipt/1.0")), ("provider", .str provider),
    ("branch", .str (py "callable-runtime")), ("effect_commit", .str commit),
    ("marker_path", .str (markerPathFor L request)),
    ("marker_sha256", .str (hashBody L (markerBody L request v.payload).json "marker_sha256"))]),
  ("source_attestation", sourceAttestation L o)]

theorem resultBody_eq (o : Options) {commit : PyStr} (h : approved request = true)
    (hcommit : isSha40 commit = true) :
    resultBody L request (intendedBody L request o).json (markerBody L request v.payload).json commit
      = .ok (withHash L "result_sha256" (defined (v.resultMembers L o commit))) := by
  obtain ⟨-, -, -, hkey, hpath, hsource⟩ := v.prop_intent (L := L) o
  have hmarker : (verifyHash L (markerBody L request v.payload).json "marker_sha256"
      && decide (canonical (markerBody L request v.payload).json
        = (markerBody L request v.payload).canonical)) = true := by
    rw [v.verifyHash_marker, v.canonical_marker]
    simp
  unfold resultBody
  rw [demand_true hcommit, v.expectedMarker_eq o h, bind_ok_eq, demand_true hmarker, v.hid,
    v.hcapability, hkey, hpath, hsource, is_iff.mp (v.verifyHash_intent o),
    is_iff.mp v.verifyHash_marker]
  rfl

def receiptMembers (L : Libraries) (v : Valid request) (commit : PyStr) : List (String × Json) := [
  ("schema", .str (py "frost-provider-receipt/1.0")), ("provider", .str provider),
  ("branch", .str (py "callable-runtime")), ("effect_commit", .str commit),
  ("marker_path", .str (markerPathFor L request)),
  ("marker_sha256", .str (hashBody L (markerBody L request v.payload).json "marker_sha256"))]

theorem prop_result (o : Options) (commit : PyStr) {result : Json}
    (h : (withHash L "result_sha256" (defined (v.resultMembers L o commit))).json = result) :
    prop result "request_sha256" = some (.str (sha256 L request))
    ∧ prop result "state" = some (.str (py "EXECUTED"))
    ∧ prop result "intent_hash"
      = some (.str (hashBody L (intendedBody L request o).json "intent_hash"))
    ∧ prop result "provider_receipt" = some (record (v.receiptMembers L commit))
    ∧ prop result "provider_idempotency_key" = some (.str (providerIdempotencyKey L request))
    ∧ prop result "marker_path" = some (.str (markerPathFor L request))
    ∧ prop result "marker_sha256"
      = some (.str (hashBody L (markerBody L request v.payload).json "marker_sha256")) := by
  subst h
  simp [withHash, defined, resultMembers, receiptMembers, prop_cons]

theorem prop_receipt (commit : PyStr) : prop (record (v.receiptMembers L commit)) "marker_sha256"
    = some (.str (hashBody L (markerBody L request v.payload).json "marker_sha256")) := by
  simp [receiptMembers, prop_record_cons]

end Valid

end Centinal26.Provider
