/-
The callable worker: what it writes for a request file, and the results directory it looks for
results of the same key in.
-/
import Centinal26.Callable.Policy
import Centinal26.Js.Written

namespace Centinal26.Callable

open Py Js

-- == errors

/-- An error, with the members the worker gives it. -/
structure Failure where
  name : String
  message : PyStr
  requestExpiry : Option Json := none
  effectPolicy : Option Json := none

/-- `new Error(message)`. -/
def failure (message : String) : Failure := { name := "Error", message := py message }

/-- What a run of the worker is given besides the files. -/
structure Env where
  /-- `process.env.GITHUB_RUN_ID`, `GITHUB_SHA` and `GITHUB_REF`, unless they are empty -/
  runId : Option PyStr
  sha : Option PyStr
  ref : Option PyStr
  /-- the hashes of the files of the provider -/
  core : PyStr
  worker : PyStr
  workflow : PyStr
  /-- `CANONICAL_GIT_SHA`, `SOURCE_IDENTITY_SHA256` and `ADAPTER_SPEC_SHA256` -/
  canonicalGitSha : PyStr
  sourceIdentity : PyStr
  adapterSpec : PyStr
  /-- `Date.now()`, and its ISO text -/
  now : Rat
  nowText : PyStr
  /-- what the fabric answers to a request, or throws -/
  respond : Json → Except Failure Json

namespace Worker

def maxRequestBytes : Nat := 64 * 1024

def maxIdempotencyKeyBytes : Nat := 256

variable (L : Libraries) (env : Env)

-- == requests

def requestIdentity (request : Json) : Except Failure Identity :=
  match request with
  | .obj ms => match keyOf (.obj ms) (L.sha (canonical (.obj ms))) with
      | none => .error (failure "idempotency_key must be a non-empty string")
      | some key =>
        if maxIdempotencyKeyBytes < bytes key then
          .error (failure "idempotency_key exceeds 256 bytes")
        else .ok ⟨L.sha (canonical (.obj ms)), key⟩
  | _ => .error (failure "request must be a JSON object")

def invalidExpiry (message : String) (expiry : Json) : Failure where
  name := "InvalidExpiry"
  message := py message
  requestExpiry := some (record [("status", .str (py "INVALID")), ("expires_at", expiry)])

/-- The metadata of an expiry that has been compared with the clock. -/
def expiryRecord (status : String) (expiry : PyStr) : Json := record [
  ("status", .str (py status)), ("expires_at", .str expiry), ("observed_at", .str env.nowText)]

def requestExpiry (request : Json) : Except Failure (Option Json) :=
  match expiresAt request with
  | none => .ok none
  | some (.str s) =>
    if isInstant s then
      match L.dateParse s with
      | none => .error (invalidExpiry "context.expires_at is not a valid timestamp" (.str s))
      | some expires =>
        if expires ≤ env.now then .error {
          name := "StaleRequest"
          message := py "request expired at " ++ s
          requestExpiry := some (expiryRecord env "EXPIRED" s) }
        else .ok (some (expiryRecord env "FRESH" s))
    else .error
      (invalidExpiry "context.expires_at must be an RFC3339 timestamp with timezone" (.str s))
  | some expiry => .error
      (invalidExpiry "context.expires_at must be an RFC3339 timestamp with timezone" expiry)

def effectPolicyError (d : Decision) : Failure :=
  if d.status = "SEMANTIC_CORE_POLICY_DRIFT" then {
    name := "SemanticCorePolicyDrift"
    message := py "semantic core bytes are not approved by the provider effect policy"
    effectPolicy := some d.json }
  else {
    name := "SideEffectProtocolRequired"
    message := py "operation requires unavailable " ++ requiredSideEffectProtocol
    effectPolicy := some d.json }

-- == envelopes

def orNull (s : Option PyStr) : Json := s.elim .null .str

def optional (name : String) (v : Option Json) : List (String × Json) :=
  v.elim [] fun v => [(name, v)]

def sourceAttestation : Json := record [("schema", .str (py "frost-source-attestation/1.0")),
  ("semantic_core", record [("canonical_git_sha", .str env.canonicalGitSha),
    ("source_identity_sha256", .str env.sourceIdentity),
    ("deployment_adapter_sha256", .str env.adapterSpec), ("file_sha256", .str env.core)]),
  ("provider_runtime", record [
    ("provider", .str (py "github-actions")), ("worker_source_sha256", .str env.worker),
    ("workflow_source_sha256", .str env.workflow), ("checked_out_sha", orNull env.sha),
    ("checked_out_ref", orNull env.ref)]),
  ("provider_code_identity_sha256", .str (L.sha (canonical (record [
    ("provider", .str (py "github-actions")), ("semantic_core_file_sha256", .str env.core),
    ("worker_source_sha256", .str env.worker), ("workflow_source_sha256", .str env.workflow)]))))]

def common (ok : Bool) (sha256 : PyStr) (key : Option PyStr) : List (String × Json) := [
  ("ok", .bool ok), ("protocol", .str protocol), ("provider", .str (py "github-actions")),
  ("provider_run_id", orNull env.runId), ("provider_sha", orNull env.sha),
  ("canonical_git_sha", .str env.canonicalGitSha),
  ("source_identity_sha256", .str env.sourceIdentity),
  ("deployment_adapter_sha256", .str env.adapterSpec),
  ("source_attestation", sourceAttestation L env), ("request_sha256", .str sha256),
  ("idempotency_key", orNull key)]

/-- `{...body, envelope_hash: envelopeHash(body)}`, written to a file and read back. -/
def envelope (body : List (String × Json)) : Json :=
  written (record (body ++ [("envelope_hash", .str (L.sha (canonical (record body))))]))

/-- `identity?.request_sha256 || sha256(raw)`, and `identity?.idempotency_key || null`: neither
the hash nor the key is empty. -/
def errorIdentity (raw : PyStr) (request : Option Json) : PyStr × Option PyStr :=
  match request with
  | none => (L.sha raw, none)
  | some request => match requestIdentity L request with
      | .ok identity => (identity.sha256, some identity.key)
      | .error _ => (L.sha raw, none)

/-- The members an error envelope has of what went on before: the request is one that was read. -/
structure Extra where
  requestExpiry : Option Json := none
  effectPolicy : Option Json := none
  existing : List (String × Json) := []

def errorPolicy (request : Option Json) (error : Failure) (extra : Extra) : Option Json :=
  (error.effectPolicy.or extra.effectPolicy).or (if truthy request then
      (effectDecision (request.getD .null) (.str env.core)).toOption.map Decision.json
    else none)

def errorEnvelope (raw : PyStr) (request : Option Json) (error : Failure) (extra : Extra) : Json :=
  envelope L (common L env false (errorIdentity L raw request).1 (errorIdentity L raw request).2
    ++ [("error", record [("type", .str (py error.name)), ("message", .str error.message)])]
    ++ extra.existing
    ++ optional "request_expiry" (error.requestExpiry.or extra.requestExpiry)
    ++ optional "provider_effect_policy" (errorPolicy env request error extra))

/-- The envelope of a request that has been answered. -/
def successEnvelope (identity : Identity) (expiry : Option Json) (policy : Decision)
    (response : Json) : Json :=
  envelope L (common L env true identity.sha256 (some identity.key)
    ++ [("provider_effect_policy", policy.json), ("response", response)]
    ++ optional "request_expiry" expiry)

-- == processing

/-- What a request comes to, and whether the fabric has been asked. -/
structure Outcome where
  output : Json
  invoked : Bool
  /-- the result that is used again -/
  reconciledFrom : Option PyStr

/-- A request that asks for something the fabric has. -/
def callable (request : Json) : Except Failure Unit :=
  if is (kindOf request) (py "invoke") then
    match prop request "operation" with
    | some (.str s) => if s.isEmpty then .error (failure "operation is required") else .ok ()
    | _ => .error (failure "operation is required")
  else if is (kindOf request) (py "mcp") then .ok ()
  else .error (failure "unsupported request kind")

/-- `processRequest(request, provider)`, of a request that was identified, has not expired and is
let through by the policy. -/
def processRequest (request : Json) (identity : Identity) (expiry : Option Json)
    (policy : Decision) : Except Failure Json × Bool :=
  if is (prop request "protocol") protocol then
    match callable request with
    | .error e => (.error e, false)
    | .ok () => ((env.respond request).map (successEnvelope L env identity expiry policy), true)
  else (.error (failure "protocol must be frost-call/1.0"), false)

def processNew (raw : PyStr) (request : Json) (identity : Identity) : Outcome :=
  let failed (e : Failure) (extra : Extra) := errorEnvelope L env raw (some request) e extra
  match requestExpiry L env request with
  | .error e => ⟨failed e {}, false, none⟩
  | .ok expiry => match effectDecision request (.str env.core) with
      | .error t => ⟨failed { name := t.name, message := py t.message } { requestExpiry := expiry },
          false, none⟩
      | .ok policy =>
        if policy.allowed then
          match processRequest L env request identity expiry policy with
          | (.ok output, invoked) => ⟨output, invoked, none⟩
          | (.error e, invoked) =>
            ⟨failed e { requestExpiry := expiry, effectPolicy := some policy.json }, invoked, none⟩
        else ⟨failed (effectPolicyError policy) { requestExpiry := expiry }, false, none⟩

/-- A directory of results, in the order they were written. -/
abbrev Dir := List (PyStr × Json)

def verifyEnvelope (value : Json) : Bool :=
  match value with
  | .obj ms => is (prop (.obj ms) "envelope_hash")
      (L.sha (canonical (.obj (ms.filter fun m => !decide (m.1 = py "envelope_hash")))))
  | _ => false

def isResultOf (key : PyStr) (value : Json) : Bool :=
  verifyEnvelope L value && is (prop value "protocol") protocol
    && is (prop value "provider") (py "github-actions") && is (prop value "idempotency_key") key

def priorResult (d : Dir) (key output : PyStr) : Option (PyStr × Json) :=
  (sortKeys (d.filter fun m => (py ".json").isSuffixOf m.1)).find? fun m =>
    !decide (m.1 = output) && isResultOf L key m.2

def conflict : Failure where
  name := "IdempotencyConflict"
  message := py "idempotency_key reused with different request content"

def processIdentified (d : Dir) (output raw : PyStr) (request : Json) (identity : Identity) :
    Outcome :=
  match priorResult L d identity.key output with
  | none => processNew L env raw request identity
  | some (name, value) =>
    if is (prop value "request_sha256") identity.sha256 then ⟨value, false, some name⟩
    else
      let existing := optional "existing_request_sha256" (prop value "request_sha256")
        ++ [("existing_result_file", .str name)]
      ⟨errorEnvelope L env raw (some request) conflict { existing := existing }, false, none⟩

def processRaw (d : Dir) (output raw : PyStr) : Outcome :=
  match L.parse raw with
  | none =>
    let error : Failure := { name := "SyntaxError", message := L.syntaxError raw }
    ⟨errorEnvelope L env raw none error {}, false, none⟩
  | some request => match requestIdentity L request with
      | .error e => ⟨errorEnvelope L env raw (some request) e {}, false, none⟩
      | .ok identity => processIdentified L env d output raw request identity

/-- `processFile(inputPath, outputPath, provider)`: nothing, where it throws. -/
def processFile (d : Dir) (input output : PyStr) : Option (Outcome × Dir) :=
  if maxRequestBytes < input.length then none
  else if (getItem? d output).isSome then none
  else
    let outcome := processRaw L env d output (L.decode input)
    some (outcome, d ++ [(output, outcome.output)])

end Worker

end Centinal26.Callable
