/-
The provider of bounded effects: it turns a request into an intent or a denial, an intent into a
marker, and a marker into a result.
-/
import Centinal26.Js.Canonical

namespace Centinal26.Provider

open Py Js

-- == libraries

/-- What the provider calls. -/
structure Libraries where
  /-- the hex digest of a text -/
  sha : PyStr → PyStr
  /-- a value in a template -/
  display : Option Json → PyStr
  display_str : ∀ s, display (some (.str s)) = s
  /-- `Date.parse(s)`, unless it is `NaN` -/
  dateParse : PyStr → Option Rat
  providerSource : PyStr
  /-- `workflow_source_sha256`, where the file is there -/
  workflowSource : Option PyStr

-- == strings

def protocol : PyStr := py "frost-effect/1.0"

def provider : PyStr := py "github-actions"

def qualificationCapability : PyStr := py "github.runtime.qualification_marker.put"

-- == hashes

variable (L : Libraries)

def sha256 (v : Json) : PyStr := L.sha (canonical v)

def hashBody (v : Json) (hashField : String) : PyStr :=
  match v with
  | .obj ms => sha256 L (.obj (ms.filter fun m => !decide (m.1 = py hashField)))
  | v => sha256 L v

def verifyHash (v : Json) (hashField : String) : Bool :=
  is (prop v hashField) (hashBody L v hashField)

/-- `{...body, [hashField]: sha256(body)}`. -/
def withHash (hashField : String) (o : Literal) : Literal :=
  o ++ [(hashField, some (.str (L.sha o.canonical)))]

-- == requests

def requestIdentity (request : Json) : Except Thrown PyStr :=
  match request with
  | .obj _ => .ok (sha256 L request)
  | _ => thrown "request must be a JSON object"

def allowedFields : List String :=
  ["protocol", "request_id", "capability", "idempotency_key", "actor", "payload", "expires_at"]

def validatePayload (payload : Option Json) : Except Thrown Unit :=
  match payload with
  | some (.obj ms) => do
    demand (decide ((sortKeys ms).map Prod.fst = [py "marker", py "value"]))
      "payload must contain exactly marker and value"
    match nonEmpty? (prop (.obj ms) "marker"), nonEmpty? (prop (.obj ms) "value") with
    | none, _ => thrown "payload.marker must be a non-empty string"
    | some _, none => thrown "payload.value must be a non-empty string"
    | some marker, some value => do
      demand (decide (bytes marker ≤ 256)) "payload.marker exceeds 256 bytes"
      demand (decide (bytes value ≤ 1024)) "payload.value exceeds 1024 bytes"
  | _ => thrown "payload must be a JSON object"

/-- The check of the expiry, with the time if it is a number. -/
def validateExpiry (expiresAt : Option Json) (now : Option Rat) : Except Thrown Unit :=
  match expiresAt with
  | some (.str s) =>
    if isInstant s then
      match L.dateParse s with
      | none => thrown "expires_at is invalid"
      | some t =>
        if now.any fun n => decide (t ≤ n) then
          .error ⟨"StaleEffectRequest", "request expired"⟩
        else .ok ()
    else thrown "expires_at must be an RFC3339 timestamp with timezone"
  | _ => thrown "expires_at must be an RFC3339 timestamp with timezone"

def validateRequest (request : Json) (now : Option Rat) : Except Thrown Unit :=
  match request with
  | .obj ms => do
    demand (ms.all fun m => allowedFields.any fun f => decide (m.1 = py f))
      "unexpected request field"
    demand (is (prop request "protocol") protocol) "protocol must be frost-effect/1.0"
    ["request_id", "capability", "idempotency_key", "actor"].forM fun key =>
      demand (nonEmpty? (prop request key)).isSome (key ++ " must be a non-empty string")
    demand ((nonEmpty? (prop request "idempotency_key")).any fun s => decide (bytes s ≤ 256))
      "idempotency_key exceeds 256 bytes"
    validatePayload (prop request "payload")
    validateExpiry L (prop request "expires_at") now
  | _ => thrown "request must be a JSON object"

def providerIdempotencyKey (request : Json) : PyStr :=
  L.sha (wellFormed (provider ++ 0 :: L.display (prop request "capability")
    ++ 0 :: L.display (prop request "idempotency_key")))

def markerPathFor (request : Json) : PyStr :=
  py "runtime/effect-markers/" ++ providerIdempotencyKey L request ++ py ".json"

-- == bodies

/-- The options of `prepareFile` that end up in files: `null` where they are empty. -/
structure Options where
  providerActor : Option PyStr
  checkedOutSha : Option PyStr

def orNull (s : Option PyStr) : Json := s.elim .null .str

/-- `sourceAttestation(checkedOutSha)`. -/
def sourceAttestation (o : Options) : Json := record [
  ("schema", .str (py "frost-source-attestation/1.0")), ("provider", .str provider),
  ("provider_source_sha256", .str L.providerSource),
  ("workflow_source_sha256", orNull L.workflowSource),
  ("checked_out_sha", orNull o.checkedOutSha)]

/-- A property of a request that has been validated. -/
def given (request : Json) (key : String) : Json := (prop request key).getD .null

def approved (request : Json) : Bool := is (prop request "capability") qualificationCapability

def guardianDecision (request : Json) (o : Options) : Json := record [
  ("schema", .str (py "frost-guardian-decision/1.0")),
  ("policy", .str (py "github-actions-qualification-marker/v1")),
  ("approved", .bool (approved request)), ("capability", given request "capability"),
  ("provider_actor", orNull o.providerActor),
  ("reason", .str (if approved request then py "bounded_qualification_capability"
    else py "capability_not_allowlisted")),
  ("constraints", if approved request then record [
      ("provider", .str provider), ("effect", .str (py "create_immutable_qualification_marker")),
      ("namespace", .str (py "runtime/effect-markers/")), ("caller_supplied_path", .bool false),
      ("shell", .bool false), ("network_target_selection", .bool false)]
    else record [])]

def intendedBody (request : Json) (o : Options) : Literal :=
  withHash L "intent_hash" (defined [
    ("schema", .str (py "frost-effect-intent/1.0")), ("protocol", .str protocol),
    ("state", .str (py "EXECUTION_INTENT_PERSISTED")), ("request_id", given request "request_id"),
    ("request_sha256", .str (sha256 L request)), ("capability", given request "capability"),
    ("actor", given request "actor"), ("guardian", guardianDecision request o),
    ("provider", .str provider),
    ("provider_idempotency_key", .str (providerIdempotencyKey L request)),
    ("marker_path", .str (markerPathFor L request)),
    ("payload_sha256", .str (sha256 L (given request "payload"))),
    ("source_attestation", sourceAttestation L o)])

def denialBody (request : Json) (o : Options) : Literal :=
  withHash L "result_sha256" (defined [
    ("schema", .str (py "frost-effect-result/1.0")), ("protocol", .str protocol),
    ("state", .str (py "DENIED")), ("request_id", given request "request_id"),
    ("request_sha256", .str (sha256 L request)), ("capability", given request "capability"),
    ("guardian", guardianDecision request o), ("provider", .str provider),
    ("source_attestation", sourceAttestation L o)])

def markerBody (request payload : Json) : Literal :=
  withHash L "marker_sha256" [
    ("schema", some (.str (py "frost-effect-marker/1.0"))), ("protocol", some (.str protocol)),
    ("provider", some (.str provider)), ("capability", prop request "capability"),
    ("request_id", prop request "request_id"), ("request_sha256", some (.str (sha256 L request))),
    ("provider_idempotency_key", some (.str (providerIdempotencyKey L request))),
    ("payload_sha256", some (.str (sha256 L payload))), ("marker", prop payload "marker"),
    ("value", prop payload "value")]

/-- `request.payload`, where it is read and `marker` and `value` are read of it. -/
def payloadOf (request : Json) : Except Thrown Json :=
  match prop request "payload" with
  | none => typeError
  | some .null => typeError
  | some payload => .ok payload

/-- `expectedMarker(request, intent)`: the key in the marker is the one of the intent, which is
the one of the request. -/
def expectedMarker (request intent : Json) : Except Thrown Literal := do
  demand (verifyHash L intent "intent_hash") "intent_hash verification failed"
  let identity ← requestIdentity L request
  demand (is (prop intent "request_sha256") identity) "intent request hash mismatch"
  demand (((prop intent "guardian").bind fun g => prop g "approved") matches some (.bool true))
    "intent is not Guardian-authorized"
  demand (is (prop intent "capability") qualificationCapability)
    "intent capability is not provider-qualified"
  demand (is (prop intent "provider_idempotency_key") (providerIdempotencyKey L request))
    "provider idempotency key mismatch"
  demand (is (prop intent "marker_path") (markerPathFor L request)) "marker path mismatch"
  .ok (markerBody L request (← payloadOf request))

def resultBody (request intent marker : Json) (effectCommit : PyStr) : Except Thrown Literal := do
  demand (isSha40 effectCommit) "effect_commit must be a lowercase 40-character git SHA"
  let expected ← expectedMarker L request intent
  demand (verifyHash L marker "marker_sha256" && decide (canonical marker = expected.canonical))
    "marker does not match authorized execution intent"
  .ok (withHash L "result_sha256" [
    ("schema", some (.str (py "frost-effect-result/1.0"))), ("protocol", some (.str protocol)),
    ("state", some (.str (py "EXECUTED"))), ("request_id", prop request "request_id"),
    ("request_sha256", some (.str (sha256 L request))), ("capability", prop request "capability"),
    ("intent_hash", prop intent "intent_hash"), ("provider", some (.str provider)),
    ("provider_idempotency_key", prop intent "provider_idempotency_key"),
    ("marker_path", prop intent "marker_path"), ("marker_sha256", prop marker "marker_sha256"),
    ("provider_receipt", some (Literal.json [
      ("schema", some (.str (py "frost-provider-receipt/1.0"))),
      ("provider", some (.str provider)), ("branch", some (.str (py "callable-runtime"))),
      ("effect_commit", some (.str effectCommit)), ("marker_path", prop intent "marker_path"),
      ("marker_sha256", prop marker "marker_sha256")])),
    ("source_attestation", prop intent "source_attestation")])

end Centinal26.Provider

/-
The independent verifier of effects: it reads a request, what the provider says of it and a git
repository, and either finds the denial or the marker it expects, or throws.
-/

namespace Centinal26.Provider

open Py Js

-- == repository

structure Repository where
  /-- `git rev-parse --verify …^{commit}` -/
  resolve : PyStr → Option PyStr
  /-- the file of a commit, with the JSON value it holds if it holds one -/
  tree : PyStr → PyStr → Option (Option Json)

variable (L : Libraries) (R : Repository)

def notNull (request : Json) : Except Thrown Unit :=
  match request with
  | .null => typeError
  | _ => .ok ()

/-- `expectedMarker(request)`, as the verifier has it. -/
def rederivedMarker (request : Json) : Except Thrown Literal := do
  .ok (markerBody L request (← payloadOf request))

/-- `remoteAbsenceEvidence`. -/
structure Absence where
  remoteRef : PyStr
  remoteRefSha : PyStr
  markerPath : PyStr
  markerAbsent : Bool

def remoteAbsenceEvidence (request : Json) (remoteRef : PyStr) : Except Thrown Absence := do
  demand (!remoteRef.all isTrimmed) "remote_ref is required"
  match R.resolve remoteRef with
  | none => thrown "git rev-parse failed"
  | some sha => do
    demand (isSha40 sha) "remote_ref did not resolve to a commit SHA"
    notNull request
    .ok ⟨remoteRef, sha, markerPathFor L request, (R.tree sha (markerPathFor L request)).isNone⟩

def remoteMarkerFromCommit (request : Json) (effectCommit : PyStr) : Except Thrown Json := do
  demand (isSha40 effectCommit) "effect_commit must be a lowercase 40-character git SHA"
  demand (R.resolve effectCommit).isSome "git rev-parse failed"
  notNull request
  match R.tree effectCommit (markerPathFor L request) with
  | none => thrown "git show failed"
  | some none => thrown "remote marker is not valid JSON"
  | some (some marker) => .ok marker

-- == verdicts

def verificationBodyForDenied (request result : Json) (absence : Absence) :
    Except Thrown Literal := do
  demand (verifyHash L result "result_sha256") "denial result hash verification failed"
  demand (is (prop result "protocol") protocol && is (prop result "provider") provider
    && is (prop result "state") (py "DENIED"))
    "denial result has invalid protocol/provider/state"
  demand (is (prop result "request_sha256") (sha256 L request)) "denial request hash mismatch"
  demand (((prop result "guardian").bind fun g => prop g "approved") matches some (.bool false))
    "denial result is not a Guardian denial"
  demand ((prop result "provider_receipt").isNone && (prop result "marker_path").isNone)
    "denied effect unexpectedly contains provider execution evidence"
  demand (decide (absence.markerPath = markerPathFor L request))
    "denial absence evidence marker path mismatch"
  demand (isSha40 absence.remoteRefSha) "denial absence evidence lacks an immutable remote commit"
  demand absence.markerAbsent "provider marker exists for denied effect"
  .ok (withHash L "verification_hash" [("schema", some (.str (py "frost-effect-verification/1.0"))),
    ("protocol", some (.str protocol)), ("state", some (.str (py "VERIFIED"))),
    ("decision", some (.str (py "DENIAL_VERIFIED"))), ("independent", some (.bool true)),
    ("verifier_id", some (.str (py "github-actions-effect-independent-git/v2"))),
    ("request_id", prop request "request_id"), ("request_sha256", some (.str (sha256 L request))),
    ("result_sha256", prop result "result_sha256"), ("provider", some (.str provider)),
    ("derived_marker_path", some (.str (markerPathFor L request))),
    ("remote_ref", some (.str absence.remoteRef)),
    ("remote_ref_sha", some (.str absence.remoteRefSha)),
    ("postcondition", some (record [("provider_execution_absent", .bool true),
      ("guardian_denial_present", .bool true),
      ("derived_marker_absent_at_remote_ref", .bool true)]))])

/-- What the receipt in a result has to say. -/
def receiptMatches (request receipt : Json) (effectCommit : PyStr) : Except Thrown Unit := do
  demand (is (prop receipt "effect_commit") effectCommit) "provider receipt commit mismatch"
  demand (is (prop receipt "provider") provider && is (prop receipt "branch") (py "callable-runtime"))
    "provider receipt identity mismatch"
  demand (is (prop receipt "marker_path") (markerPathFor L request))
    "provider receipt idempotency/path mismatch"

def verificationBodyForExecuted (request intent result marker : Json) (effectCommit : PyStr) :
    Except Thrown Literal := do
  demand (verifyHash L intent "intent_hash") "intent hash verification failed"
  demand (verifyHash L result "result_sha256") "result hash verification failed"
  demand (verifyHash L marker "marker_sha256") "remote marker hash verification failed"
  demand (approved request) "request capability is not qualified"
  let expected ← rederivedMarker L request
  demand (is (prop intent "request_sha256") (sha256 L request)
    && is (prop result "request_sha256") (sha256 L request)) "request hash binding mismatch"
  demand (((prop intent "guardian").bind fun g => prop g "approved") matches some (.bool true))
    "intent is not Guardian-authorized"
  demand (is (prop intent "provider_idempotency_key") (providerIdempotencyKey L request))
    "intent provider idempotency mismatch"
  demand (is (prop intent "marker_path") (markerPathFor L request)) "intent marker path mismatch"
  demand (is (prop result "state") (py "EXECUTED")) "result is not EXECUTED"
  demand (is (prop result "intent_hash") (hashBody L intent "intent_hash"))
    "result intent hash mismatch"
  let receipt := prop result "provider_receipt"
  receiptMatches L request (receipt.getD .null) effectCommit
  demand (is (prop result "provider_idempotency_key") (providerIdempotencyKey L request))
    "provider receipt idempotency/path mismatch"
  demand (is (prop result "marker_path") (markerPathFor L request)) "result marker path mismatch"
  demand (decide (canonical marker = expected.canonical)) "remote marker content mismatch"
  demand (is (prop result "marker_sha256") (hashBody L marker "marker_sha256")
    && is (receipt.bind fun r => prop r "marker_sha256") (hashBody L marker "marker_sha256"))
    "remote marker hash does not match provider receipt"
  .ok (withHash L "verification_hash" [("schema", some (.str (py "frost-effect-verification/1.0"))),
    ("protocol", some (.str protocol)), ("state", some (.str (py "VERIFIED"))),
    ("decision", some (.str (py "POSTCONDITION_VERIFIED"))), ("independent", some (.bool true)),
    ("verifier_id", some (.str (py "github-actions-effect-independent-git/v2"))),
    ("request_id", prop request "request_id"), ("request_sha256", some (.str (sha256 L request))),
    ("intent_hash", prop intent "intent_hash"), ("result_sha256", prop result "result_sha256"),
    ("provider", some (.str provider)),
    ("provider_idempotency_key", some (.str (providerIdempotencyKey L request))),
    ("effect_commit", some (.str effectCommit)),
    ("marker_path", some (.str (markerPathFor L request))),
    ("marker_sha256", prop marker "marker_sha256"),
    ("postcondition", some (record [("remote_commit_observed", .bool true),
      ("marker_exists_at_effect_commit", .bool true), ("marker_hash_matches_receipt", .bool true),
      ("request_binding_matches", .bool true), ("provider_idempotency_rederived", .bool true),
      ("marker_path_rederived", .bool true), ("marker_content_rederived", .bool true),
      ("payload_matches", .bool true)]))])

/-- `verifyDeniedFile`, up to the file it writes. -/
def verifyDenied (request result : Json) (remoteRef : PyStr) : Except Thrown Literal := do
  let absence ← remoteAbsenceEvidence L R request remoteRef
  verificationBodyForDenied L request result absence

/-- `verifyExecutedFile`, up to the file it writes. -/
def verifyExecuted (request intent result : Json) (effectCommit : PyStr) :
    Except Thrown Literal := do
  let marker ← remoteMarkerFromCommit L R request effectCommit
  verificationBodyForExecuted L request intent result marker effectCommit

end Centinal26.Provider
