/-
The independent verifier: what it demands of a result file for a request file, and the
verification it writes.
-/
import Centinal26.Callable.Policy

namespace Centinal26.Callable

open Py Js

-- == files

def verificationSchema : PyStr := py "frost-independent-verification/1.0"

def maxFileBytes : Nat := 1024 * 1024

def effectPolicyMarker : PyStr := py "REQUIRED_SIDE_EFFECT_PROTOCOL = 'frost-effect/1.0'"

def workerRepoPath : PyStr := py "deploy/github/callable-worker-v1.0.0/worker.js"

def workflowRepoPath : PyStr := py ".github/workflows/callable-fabric-worker.yml"

def fabricRepoPath : PyStr := py "deploy/vercel/callable-fabric-v1.1.0/lib/fabric.js"

def includes (part : PyStr) : PyStr → Bool
  | [] => part.isEmpty
  | c :: rest => part.isPrefixOf (c :: rest) || includes part rest

/-- `git show commit:path`, unless it fails. -/
abbrev History := PyStr → PyStr → Option PyStr

variable (L : Libraries) (git : History)

/-- `readBounded(path)`, of a file with these bytes. -/
def readBounded (bytes : PyStr) : Except Thrown PyStr := do
  demand (decide (bytes.length ≤ maxFileBytes)) "file exceeds 1048576 bytes"
  .ok bytes

def gitFileAt (commitSha : Option Json) (repoPath : PyStr) : Except Thrown PyStr :=
  match commitSha with
  | some (.str commit) => do
    demand (isSha40 commit) "provider_sha must be a 40-character lowercase git SHA"
    match git commit repoPath with
    | none => thrown "unable to read"
    | some bytes => readBounded bytes
  -- no other value reads as forty hexadecimal digits, once it has been compared
  | _ => thrown "provider_sha must be a 40-character lowercase git SHA"

-- == hashes

/-- What the request file is: no value and no key, if it is not JSON. -/
structure RequestFile where
  request : Json
  sha256 : PyStr
  key : Option PyStr

namespace Verifier

def requestIdentity (raw : PyStr) : Except Thrown RequestFile :=
  match L.parse (L.decode raw) with
  | none => .ok ⟨.null, L.digest raw, none⟩
  | some (.obj ms) => match keyOf (.obj ms) (L.sha (canonical (.obj ms))) with
      | none => thrown "idempotency_key must be a non-empty string"
      | some key => .ok ⟨.obj ms, L.sha (canonical (.obj ms)), some key⟩
  | some _ => thrown "request must be a JSON object"

/-- A value holds the hash of what it has besides it. -/
def hashed (value : Json) (field : String) (expected : PyStr) : Bool :=
  match value with
  | .obj ms => decide (L.sha (canonical (.obj (ms.filter fun m => !decide (m.1 = py field))))
      = expected)
  | _ => false

def verifyReceipt (receipt : Json) : Except Thrown Unit :=
  match prop receipt "record_hash" with
  | some (.str expected) => demand (hashed L receipt "record_hash" expected) "receipt hash mismatch"
  | _ => thrown "receipt record_hash missing"

def verifyEnvelope (result : Json) : Except Thrown Unit :=
  match prop result "envelope_hash" with
  | some (.str expected) => demand (hashed L result "envelope_hash" expected)
      "envelope hash mismatch"
  | _ => thrown "envelope_hash missing"

-- == expiry

def instant (expiry : Json) : Option Rat :=
  match expiry with
  | .str s => if isInstant s then L.dateParse s else none
  | _ => none

/-- The checks of a request that expires at an instant. -/
def verifyInstant (expiry : Json) (expires : Rat) (result : Json) : Except Thrown String := do
  let evidence := prop result "request_expiry"
  demand (truthy evidence) "request expiry evidence missing"
  demand (same (read evidence "expires_at") (some expiry)) "request expiry value mismatch"
  match read evidence "observed_at" with
  | some (.str observedAt) => match L.dateParse observedAt with
      | none => thrown "request expiry observed_at invalid"
      | some observed =>
        if is (read (prop result "error") "type") (py "StaleRequest") then do
          demand (is (read evidence "status") (py "EXPIRED")) "stale request status must be EXPIRED"
          demand (decide (expires ≤ observed)) "stale request observed before expiry"
          demand (prop result "ok" matches some (.bool false)) "stale request cannot be successful"
          .ok "request_expiry:EXPIRED_VERIFIED"
        else do
          demand (is (read evidence "status") (py "FRESH")) "non-stale request status must be FRESH"
          demand (decide (observed < expires)) "fresh request observed at or after expiry"
          .ok "request_expiry:FRESH_VERIFIED"
  | _ => thrown "request expiry observed_at missing"

def verifyRequestExpiry (request result : Json) : Except Thrown String :=
  match expiresAt request with
  | none => do
    demand (prop result "request_expiry").isNone "unexpected request_expiry metadata"
    .ok "request_expiry:NOT_REQUESTED"
  | some expiry => match instant L expiry with
      | none => do
        demand (is (read (prop result "error") "type") (py "InvalidExpiry"))
          "invalid expiry was not rejected"
        demand (is (read (prop result "request_expiry") "status") (py "INVALID"))
          "invalid expiry status missing"
        demand (same (read (prop result "request_expiry") "expires_at") (some expiry))
          "invalid expiry value mismatch"
        .ok "request_expiry:INVALID_REJECTED"
      | some expires => verifyInstant L expiry expires result

-- == source

/-- What the attestation of the source is worth. -/
structure Source where
  status : String
  providerCodeIdentity : Json
  semanticCore : Json
  effectPolicyCapable : Bool

/-- The source of a result without an attestation. -/
def legacySource : Source where
  status := "UNAVAILABLE_LEGACY"
  providerCodeIdentity := .null
  semanticCore := .null
  effectPolicyCapable := false

def providerCodeIdentity (core worker workflow : PyStr) : PyStr :=
  L.sha (canonical (record [
    ("provider", .str (py "github-actions")), ("semantic_core_file_sha256", .str core),
    ("worker_source_sha256", .str worker), ("workflow_source_sha256", .str workflow)]))

def verifySourceAttestation (result : Json) : Except Thrown (Source × String) :=
  let attestation := prop result "source_attestation"
  if truthy attestation then do
    let semanticCore := read attestation "semantic_core"
    let runtime := read attestation "provider_runtime"
    demand (is (read attestation "schema") (py "frost-source-attestation/1.0"))
      "unsupported source attestation schema"
    demand (truthy semanticCore && truthy runtime) "source attestation sections missing"
    demand (same (read semanticCore "canonical_git_sha") (prop result "canonical_git_sha"))
      "semantic canonical_git_sha mismatch"
    demand (same (read semanticCore "source_identity_sha256")
      (prop result "source_identity_sha256")) "semantic source identity mismatch"
    demand (same (read semanticCore "deployment_adapter_sha256")
      (prop result "deployment_adapter_sha256")) "semantic adapter identity mismatch"
    demand (same (read runtime "checked_out_sha") (prop result "provider_sha"))
      "provider checked_out_sha mismatch"
    let coreBytes ← gitFileAt git (prop result "provider_sha") fabricRepoPath
    let workerBytes ← gitFileAt git (prop result "provider_sha") workerRepoPath
    let workflowBytes ← gitFileAt git (prop result "provider_sha") workflowRepoPath
    demand (is (read semanticCore "file_sha256") (L.digest coreBytes))
      "semantic core file hash mismatch"
    demand (is (read runtime "worker_source_sha256") (L.digest workerBytes))
      "worker source hash mismatch"
    demand (is (read runtime "workflow_source_sha256") (L.digest workflowBytes))
      "workflow source hash mismatch"
    let identity := providerCodeIdentity L (L.digest coreBytes) (L.digest workerBytes)
      (L.digest workflowBytes)
    demand (is (read attestation "provider_code_identity_sha256") identity)
      "provider code identity mismatch"
    .ok ({
      status := "VERIFIED"
      providerCodeIdentity := .str identity
      semanticCore := .str (L.digest coreBytes)
      effectPolicyCapable := includes effectPolicyMarker workerBytes },
      "source_attestation:VERIFIED_HISTORICAL_BYTES")
  else .ok (legacySource, "source_attestation:UNAVAILABLE_LEGACY")

-- == policy

/-- What is demanded of the result where the decision is not to let the request through. -/
def verifyBlocked (expected : Decision) (result : Json) : Except Thrown Unit := do
  demand (prop result "ok" matches some (.bool false)) "blocked effect request cannot be successful"
  demand (is (read (prop result "error") "type")
    (py (if expected.status = "SEMANTIC_CORE_POLICY_DRIFT" then "SemanticCorePolicyDrift"
      else "SideEffectProtocolRequired"))) "blocked effect request error mismatch"
  demand (prop result "response").isNone "blocked effect request must not have semantic response"

def verifyProviderEffectPolicy (request result : Json) (source : Source) :
    Except Thrown String := do
  let policy := prop result "provider_effect_policy"
  if source.effectPolicyCapable then do
    demand (truthy policy) "provider effect policy evidence missing"
    let expected ← effectDecision request source.semanticCore
    demand (policy.any fun p => decide (canonical p = canonical expected.json))
      "provider effect policy decision mismatch"
    if expected.allowed then .ok () else verifyBlocked expected result
    .ok ("provider_effect_policy:" ++ expected.status ++ "_VERIFIED")
  else do
    demand policy.isNone "legacy worker unexpectedly emitted provider_effect_policy"
    .ok "provider_effect_policy:UNAVAILABLE_LEGACY"

-- == response

/-- The checks of the receipt, if there is one. -/
def verifyResponseReceipt (result response : Json) : Except Thrown (List String) :=
  let receipt := prop response "receipt"
  if truthy receipt then do
    verifyReceipt L (receipt.getD .null)
    demand (same (read receipt "canonical_git_sha") (prop result "canonical_git_sha"))
      "receipt canonical_git_sha mismatch"
    demand (same (read receipt "source_identity_sha256") (prop result "source_identity_sha256"))
      "receipt source identity mismatch"
    .ok ["semantic_receipt:VERIFIED"]
  else .ok []

/-- The checks of a response that is successful. -/
def verifyResponseResult (response : Json) : Except Thrown (List String) :=
  match prop response "ok" with
  | some (.bool true) => match prop response "result" with
      | none => thrown "successful response result missing"
      | some value => do
        demand (truthy (prop response "diagnostics") && truthy (prop response "receipt"))
          "successful response verification fields missing"
        demand (is (read (prop response "diagnostics") "result_hash") (L.sha (canonical value)))
          "diagnostic result hash mismatch"
        demand (is (read (prop response "receipt") "result_hash") (L.sha (canonical value)))
          "receipt result hash mismatch"
        .ok ["semantic_result_hash:VERIFIED"]
  | _ => .ok []

def verifySemanticResponse (result : Json) : Except Thrown (List String) :=
  if truthy (prop result "response") then do
    let response := (prop result "response").getD .null
    let receipt ← verifyResponseReceipt L result response
    let value ← verifyResponseResult L response
    .ok (receipt ++ value)
  else .ok ["semantic_response:NOT_PRESENT"]

-- == verification

def verifyKey (result : Json) (key : Option PyStr) : Except Thrown String :=
  match nullish (prop result "idempotency_key") with
  | none => do
    demand (!truthy (prop result "source_attestation")) "attested result is missing idempotency_key"
    .ok "idempotency_key:UNAVAILABLE_LEGACY"
  | some given => do
    demand (same (some given) (some (key.elim .null .str))) "idempotency key mismatch"
    .ok "idempotency_key:VERIFIED"

/-- What the checks of the files come to. -/
structure Verified where
  result : Json
  source : Source
  checks : List String

/-- The checks of `verifyPaths(requestPath, resultPath, verificationPath)`. -/
def verifyFiles (requestFile resultFile : PyStr) : Except Thrown Verified := do
  let requestRaw ← readBounded requestFile
  let resultRaw ← readBounded resultFile
  let identity ← requestIdentity L requestRaw
  match L.parse (L.decode resultRaw) with
  | none => .error ⟨"SyntaxError", ""⟩
  | some result =>
    demand (is (prop result "protocol") protocol) "result protocol must be frost-call/1.0"
    demand (is (prop result "provider") (py "github-actions"))
      "result provider must be github-actions"
    demand (is (prop result "request_sha256") identity.sha256) "request SHA-256 mismatch"
    let key ← verifyKey result identity.key
    verifyEnvelope L result
    let expiry ← verifyRequestExpiry L identity.request result
    let (source, attestation) ← verifySourceAttestation L git result
    let policy ← verifyProviderEffectPolicy identity.request result source
    let response ← verifySemanticResponse L result
    .ok ⟨result, source, [key, "request_identity:VERIFIED", "envelope_hash:VERIFIED", expiry,
      attestation, policy] ++ response⟩

def Verified.status (v : Verified) : String :=
  if v.source.status = "VERIFIED" then "VERIFIED" else "VERIFIED_LEGACY_LIMITED"

/-- What is written to the verification file, without its hash. -/
def Verified.body (v : Verified) (resultFile verifierSource : PyStr) : Literal := [
  ("schema", some (.str verificationSchema)),
  ("verifier", some (.str (py "github-callable-independent-verifier"))),
  ("verification_status", some (.str (py v.status))),
  ("request_sha256", prop v.result "request_sha256"),
  ("result_file_sha256", some (.str (L.digest resultFile))),
  ("result_envelope_hash", prop v.result "envelope_hash"),
  ("source_attestation_status", some (.str (py v.source.status))),
  ("provider_code_identity_sha256", some v.source.providerCodeIdentity),
  ("verifier_source_sha256", some (.str (L.digest verifierSource))),
  ("checks", some (.arr (v.checks.map fun check => .str (py check))))]

/-- `verifyPaths(requestPath, resultPath, verificationPath)`, where there is no file yet at the
path of the verification. -/
def verifyPaths (requestFile resultFile verifierSource : PyStr) : Except Thrown Literal := do
  let v ← verifyFiles L git requestFile resultFile
  let body := v.body L resultFile verifierSource
  .ok (body ++ [("verification_hash", some (.str (L.sha body.canonical)))])

end Verifier

end Centinal26.Callable
