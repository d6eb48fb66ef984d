/-
The federation catalog: which adapters there are, what they may be asked to do, and how
far each has been validated. Membership describes an adapter and authorises nothing.
-/
import Centinal26.Py.Dict

namespace Centinal26.Interop

open Py

inductive AdapterKind : Type
  | cloudAi
  | localAi
  | agentFramework
  | protocol
  | messaging
  | executionProvider
  | controlPlane
  | softwareCreation
deriving DecidableEq

inductive AdapterStatus : Type
  | notConfigured
  | discovered
  | hostValidated
  | connectedValidated
  | deviceValidated
  | blocked
deriving DecidableEq

/-- `AdapterDescriptor`, as far as routing reads it. -/
structure AdapterDescriptor where
  adapterId : PyStr
  kind : AdapterKind
  operations : List PyStr
  status : AdapterStatus
deriving DecidableEq

structure FederationCatalog where
  descriptors : List (PyStr × AdapterDescriptor)

namespace FederationCatalog

/-- `FederationCatalog(descriptors)`: a later descriptor replaces an earlier one of the
same id. -/
def ofDescriptors (descriptors : List AdapterDescriptor) : FederationCatalog :=
  ⟨dictOf (descriptors.map fun d => (d.adapterId, d))⟩

def register (catalog : FederationCatalog) (descriptor : AdapterDescriptor) :
    Except PyErr FederationCatalog :=
  if isBlank descriptor.adapterId || descriptor.operations.isEmpty then
    .error (.valueError "adapter_id and operations are required")
  else .ok ⟨setItem catalog.descriptors descriptor.adapterId descriptor⟩

def get (catalog : FederationCatalog) (adapterId : PyStr) : Except PyErr AdapterDescriptor :=
  match getItem? catalog.descriptors adapterId with
  | some descriptor => .ok descriptor
  | none => .error (.keyError (py "unknown adapter: " ++ adapterId))

end FederationCatalog

def adapter (adapterId : String) (kind : AdapterKind) (operations : List String)
    (status : AdapterStatus) : AdapterDescriptor :=
  ⟨py adapterId, kind, operations.map py, status⟩

def defaultFederationCatalog : FederationCatalog :=
  .ofDescriptors [adapter "openai" .cloudAi ["model.invoke"] .notConfigured,
    adapter "anthropic" .cloudAi ["model.invoke"] .notConfigured,
    adapter "gemini" .cloudAi ["model.invoke"] .notConfigured,
    adapter "xai" .cloudAi ["model.invoke"] .notConfigured,
    adapter "mistral" .cloudAi ["model.invoke"] .notConfigured,
    adapter "cohere" .cloudAi ["model.invoke"] .notConfigured,
    adapter "openrouter" .cloudAi ["model.invoke"] .notConfigured,
    adapter "llama.cpp" .localAi ["model.invoke"] .notConfigured,
    adapter "ollama" .localAi ["model.invoke"] .notConfigured,
    adapter "lm-studio" .localAi ["model.invoke"] .notConfigured,
    adapter "langgraph" .agentFramework ["agent.invoke"] .notConfigured,
    adapter "crewai" .agentFramework ["agent.invoke"] .notConfigured,
    adapter "autogen" .agentFramework ["agent.invoke"] .notConfigured,
    adapter "google-adk" .agentFramework ["agent.invoke"] .notConfigured,
    adapter "semantic-kernel" .agentFramework ["agent.invoke"] .notConfigured,
    adapter "hermes" .agentFramework ["agent.invoke", "intent.submit"] .notConfigured,
    adapter "mcp" .protocol ["tools.list", "tools.call"] .notConfigured,
    adapter "frost-call" .protocol ["intent.submit"] .discovered,
    adapter "a2a" .protocol ["agent.message"] .notConfigured,
    adapter "nats" .messaging ["message.publish", "message.consume"] .notConfigured,
    adapter "mqtt" .messaging ["message.publish", "message.consume"] .notConfigured,
    adapter "zeromq" .messaging ["message.publish", "message.consume"] .notConfigured,
    adapter "matrix" .messaging ["message.publish", "message.consume"] .notConfigured,
    adapter "websocket" .messaging ["message.publish", "message.consume"] .notConfigured,
    adapter "discord" .controlPlane ["message.publish", "message.consume", "intent.submit"]
      .notConfigured,
    adapter "github-actions" .executionProvider
      ["frost.call", "github.runtime.qualification_marker.put"] .connectedValidated,
    adapter "termux-local" .executionProvider ["frost.call"] .hostValidated,
    adapter "vercel" .executionProvider ["http.invoke", "mcp.call"] .notConfigured,
    adapter "base44" .controlPlane ["state.mirror", "job.rendezvous", "intent.submit"]
      .notConfigured,
    adapter "aaard" .controlPlane ["intent.submit", "state.mirror"] .notConfigured,
    adapter "fras" .controlPlane ["intent.submit", "research.claim.submit"] .notConfigured,
    adapter "v0" .softwareCreation ["v0.chat.*", "v0.sync.prepare_pr"] .notConfigured]

end Centinal26.Interop

/-
An adapter manifest, and how one is read from a JSON object: the named members are
copied, and only their containers and the enumerations are checked.

`Json` is the value a JSON text denotes, with the members of an object in the order the
text gives them. Every exception the reading raises is one its caller expects
(`ParseError`), and shows in an error text.
-/

namespace Centinal26.Interop

open Py

/-- A `datetime`: what it reads, in microseconds from year 1, and its offset from UTC. -/
structure Stamp where
  reading : Int
  offset : Option Int

/-- What the standard library computes here. -/
structure Library where
  /-- `s.lower()` -/
  lower : PyStr → PyStr
  /-- the frames that the recursion limit leaves a validation -/
  frames : Nat
  /-- `repr(value)`; nothing where the value nests too deep for it -/
  repr : Json → Option String
  /-- `datetime.fromisoformat`, or the text of its `ValueError` -/
  fromisoformat : PyStr → Except String Stamp
  /-- `astimezone(UTC)` on a datetime without a timezone, which is taken to be local -/
  fromLocal : Int → Except PyErr Int
  /-- `dt.timestamp()` -/
  timestamp : Int → PyFloat
  /-- `float(n)`, for an integer that is not too large -/
  ofInt : Int → PyFloat
  /-- `a + b` -/
  add : PyFloat → PyFloat → PyFloat

-- == enumerations

inductive ProtocolFamily : Type
  | a2a
  | mcp
deriving DecidableEq

def ProtocolFamily.value : ProtocolFamily → String
  | a2a => "a2a"
  | mcp => "mcp"

inductive AuthorizationState : Type
  | unregistered
  | registered
  | authorized
  | revoked
  | expired
  | quarantined
deriving DecidableEq

def AuthorizationState.value : AuthorizationState → String
  | unregistered => "unregistered"
  | registered => "registered"
  | authorized => "authorized"
  | revoked => "revoked"
  | expired => "expired"
  | quarantined => "quarantined"

inductive TrustTier : Type
  | canonical
  | compatibleModule
  | experimental
  | superseded
  | rejected
deriving DecidableEq

def TrustTier.value : TrustTier → String
  | canonical => "CANONICAL"
  | compatibleModule => "COMPATIBLE_MODULE"
  | experimental => "EXPERIMENTAL"
  | superseded => "SUPERSEDED"
  | rejected => "REJECTED"

inductive HealthStatus : Type
  | healthy
  | degraded
  | stale
  | offline
  | quarantined
deriving DecidableEq

def HealthStatus.value : HealthStatus → String
  | healthy => "healthy"
  | degraded => "degraded"
  | stale => "stale"
  | offline => "offline"
  | quarantined => "quarantined"

inductive TransportSemantics : Type
  | statelessRequest
  | taskState
  | applicationState
deriving DecidableEq

def TransportSemantics.value : TransportSemantics → String
  | statelessRequest => "stateless_request"
  | taskState => "task_state"
  | applicationState => "application_state"

-- == records

structure CapabilityDescriptor where
  capabilityId : Json
  canonicalOperation : Json
  protocolOperation : Json
  requiredScopes : List PyStr
  sideEffects : Json
  verification : Json
  timeoutMs : Json
  concurrencyLimit : Json

structure AuthProfile where
  authType : Json
  credentialBinding : Json
  storagePolicy : Json
  requiresUserPresence : Json
  delegationAllowed : Json
  scopes : List PyStr
  issuer : Json
  audience : Json

structure SessionState where
  stateId : Json
  transportSemantics : TransportSemantics
  stateOwner : Json
  resumable : Json
  protocolState : Members

structure HealthLease where
  leaseId : Json
  subjectId : Json
  issuedAt : Json
  expiresAt : Json
  heartbeatIntervalS : Json
  graceS : Json
  status : HealthStatus
  lastSeenAt : Json
  renewalCounter : Json

structure ArtifactIdentity where
  sha256 : Json
  source : Json
  license : Json

structure AdapterManifest where
  schemaVersion : Json
  adapterId : Json
  adapterVersion : Json
  adapterType : Json
  protocolFamily : ProtocolFamily
  protocolVersion : Json
  endpoint : Json
  authorizationState : AuthorizationState
  trustTier : TrustTier
  discovery : Members
  authProfile : AuthProfile
  sessionState : SessionState
  healthLease : HealthLease
  capabilities : List CapabilityDescriptor
  artifact : ArtifactIdentity
  metadata : Members

-- == reading

/-- What reading a manifest raises. -/
inductive ParseError : Type
  | keyError (key : String)
  | typeError (message : String)
  | valueError (message : String)
  /-- no handler takes it -/
  | recursionError

def ParseError.text : ParseError → PyStr
  | keyError key => py "'" ++ py key ++ py "'"
  | typeError message => py message
  | valueError message => py message
  | recursionError => []

def ParseError.raised : ParseError → PyErr
  | keyError key => .keyError (py key)
  | typeError _ => .typeError
  | valueError message => .valueError message
  | recursionError => .recursionError

def member (d : Members) (key : String) : Except ParseError Json :=
  match getItem? d (py key) with
  | some v => .ok v
  | none => .error (.keyError key)

def subscript (value : Json) (key : String) : Except ParseError Json :=
  match value with
  | .obj d => member d key
  | .arr _ => .error (.typeError "list indices must be integers or slices, not str")
  | .str _ => .error (.typeError "string indices must be integers, not 'str'")
  | .null => .error (.typeError "'NoneType' object is not subscriptable")
  | .bool _ => .error (.typeError "'bool' object is not subscriptable")
  | .int _ => .error (.typeError "'int' object is not subscriptable")
  | .float _ => .error (.typeError "'float' object is not subscriptable")

def expectMapping (value : Json) (name : String) : Except ParseError Members :=
  match value with
  | .obj d => .ok d
  | _ => .error (.typeError (name ++ " must be an object"))

/-- The strings of an array, if it has nothing else. -/
def strings? : List Json → Option (List PyStr)
  | [] => some []
  | .str s :: rest => (strings? rest).map (s :: ·)
  | _ :: _ => none

def expectTuple (value : Json) (name : String) : Except ParseError (List PyStr) :=
  match value with
  | .arr items =>
    match strings? items with
    | some ss => .ok ss
    | none => .error (.typeError (name ++ " must be an array of strings"))
  | _ => .error (.typeError (name ++ " must be an array of strings"))

/-- `Class(value)`, for an enumeration of strings. -/
def enumOf {α : Type} (L : Library) (members : List α) (nameOf : α → String) (className : String)
    (value : Json) : Except ParseError α :=
  match members.find? fun a => match value with
    | .str s => decide (s = py (nameOf a))
    | _ => false with
  | some a => .ok a
  | none =>
    match L.repr value with
    | some shown => .error (.valueError (shown ++ " is not a valid " ++ className))
    | none => .error .recursionError

section Reading

variable (L : Library)

def capabilityOf (item : Json) : Except ParseError CapabilityDescriptor := do
  let capabilityId ← subscript item "capability_id"
  let canonicalOperation ← subscript item "canonical_operation"
  let protocolOperation ← subscript item "protocol_operation"
  -- an item that is not an object is refused above, so `item.get` has one
  let d ← expectMapping item "item"
  let requiredScopes ←
    expectTuple ((getItem? d (py "required_scopes")).getD (.arr [])) "required_scopes"
  let sideEffects ← member d "side_effects"
  let verification ← member d "verification"
  let timeoutMs ← member d "timeout_ms"
  let concurrencyLimit ← member d "concurrency_limit"
  .ok { capabilityId, canonicalOperation, protocolOperation, requiredScopes, sideEffects,
        verification, timeoutMs, concurrencyLimit }

def authProfileOf (auth : Members) : Except ParseError AuthProfile := do
  let authType ← member auth "auth_type"
  let credentialBinding ← member auth "credential_binding"
  let storagePolicy ← member auth "storage_policy"
  let requiresUserPresence ← member auth "requires_user_presence"
  let delegationAllowed ← member auth "delegation_allowed"
  let scopes ← expectTuple ((getItem? auth (py "scopes")).getD (.arr [])) "scopes"
  .ok { authType, credentialBinding, storagePolicy, requiresUserPresence, delegationAllowed,
        scopes, issuer := field auth "issuer", audience := field auth "audience" }

def sessionStateOf (session : Members) : Except ParseError SessionState := do
  let stateId ← member session "state_id"
  let transportSemantics ← enumOf L [.statelessRequest, .taskState, .applicationState]
    TransportSemantics.value "TransportSemantics" (← member session "transport_semantics")
  let stateOwner ← member session "state_owner"
  let resumable ← member session "resumable"
  let protocolState ←
    expectMapping ((getItem? session (py "protocol_state")).getD (.obj [])) "protocol_state"
  .ok { stateId, transportSemantics, stateOwner, resumable, protocolState }

def healthLeaseOf (health : Members) : Except ParseError HealthLease := do
  let leaseId ← member health "lease_id"
  let subjectId ← member health "subject_id"
  let issuedAt ← member health "issued_at"
  let expiresAt ← member health "expires_at"
  let heartbeatIntervalS ← member health "heartbeat_interval_s"
  let graceS ← member health "grace_s"
  let status ← enumOf L [.healthy, .degraded, .stale, .offline, .quarantined]
    HealthStatus.value "HealthStatus" (← member health "status")
  let lastSeenAt ← member health "last_seen_at"
  let renewalCounter ← member health "renewal_counter"
  .ok { leaseId, subjectId, issuedAt, expiresAt, heartbeatIntervalS, graceS, status,
        lastSeenAt, renewalCounter }

def artifactOf (artifact : Members) : ArtifactIdentity :=
  ⟨field artifact "sha256", field artifact "source", field artifact "license"⟩

def manifestFromDict (raw : Members) : Except ParseError AdapterManifest := do
  let protocol ← expectMapping (← member raw "protocol") "protocol"
  let auth ← expectMapping (← member raw "auth_profile") "auth_profile"
  let session ← expectMapping (← member raw "session_state") "session_state"
  let health ← expectMapping (← member raw "health_lease") "health_lease"
  let artifact ← expectMapping (← member raw "artifact") "artifact"
  let capabilities ← match ← member raw "capabilities" with
    | .arr items => items.mapM capabilityOf
    | _ => .error (.typeError "capabilities must be an array")
  let schemaVersion ← member raw "schema_version"
  let adapterId ← member raw "adapter_id"
  let adapterVersion ← member raw "adapter_version"
  let adapterType ← member raw "adapter_type"
  let protocolFamily ← enumOf L [.a2a, .mcp] ProtocolFamily.value "ProtocolFamily"
    (← member protocol "family")
  let protocolVersion ← member protocol "version"
  let endpoint ← member raw "endpoint"
  let authorizationState ← enumOf L
    [.unregistered, .registered, .authorized, .revoked, .expired, .quarantined]
    AuthorizationState.value "AuthorizationState" (← member raw "authorization_state")
  let trustTier ← enumOf L
    [.canonical, .compatibleModule, .experimental, .superseded, .rejected]
    TrustTier.value "TrustTier" (← member raw "trust_tier")
  let discovery ← expectMapping (← member raw "discovery") "discovery"
  let authProfile ← authProfileOf auth
  let sessionState ← sessionStateOf L session
  let healthLease ← healthLeaseOf L health
  let metadata ← expectMapping ((getItem? raw (py "metadata")).getD (.obj [])) "metadata"
  .ok { schemaVersion, adapterId, adapterVersion, adapterType, protocolFamily,
        protocolVersion, endpoint, authorizationState, trustTier, discovery, authProfile,
        sessionState, healthLease, capabilities, artifact := artifactOf artifact, metadata }

end Reading

end Centinal26.Interop
