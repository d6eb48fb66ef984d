/-
The validation of an adapter manifest.
-/
import Centinal26.Interop.Manifest
import Centinal26.Py.Host

namespace Centinal26.Interop

open Py

-- == secrets

def forbiddenSecretKeys : List PyStr :=
  ["password", "secret", "token", "token_value", "api_key", "api_key_value", "credential",
    "credential_value", "private_key"].map py

def indexText (n : Nat) : PyStr := (Nat.toDigits 10 n).map Char.toNat

section Secrets

variable (L : Library)

mutual

/-- `_find_secret_keys`, which calls itself on every value below, with the frames that the
interpreter's recursion limit leaves it. -/
def findSecretKeys (path : PyStr) : Nat → Json → Except PyErr (List PyStr)
  | 0, _ => .error .recursionError
  | frames + 1, .obj d => secretMembers path frames d
  | frames + 1, .arr items => secretItems path 0 frames items
  | _ + 1, _ => .ok []

def secretMembers (path : PyStr) (frames : Nat) : List (PyStr × Json) → Except PyErr (List PyStr)
  | [] => .ok []
  | (key, child) :: rest => do
    let below ← findSecretKeys (path ++ py "." ++ key) frames child
    let more ← secretMembers path frames rest
    .ok ((if L.lower key ∈ forbiddenSecretKeys then [path ++ py "." ++ key] else [])
      ++ below ++ more)

def secretItems (path : PyStr) (index : Nat) (frames : Nat) : List Json → Except PyErr (List PyStr)
  | [] => .ok []
  | child :: rest => do
    let below ← findSecretKeys (path ++ py "[" ++ indexText index ++ py "]") frames child
    let more ← secretItems path (index + 1) frames rest
    .ok (below ++ more)

end

mutual

/-- How many values stand in one another, with the value itself. -/
def height : Json → Nat
  | .obj d => 1 + heightMembers d
  | .arr items => 1 + heightItems items
  | _ => 1

def heightMembers : List (PyStr × Json) → Nat
  | [] => 0
  | (_, child) :: rest => max (height child) (heightMembers rest)

def heightItems : List Json → Nat
  | [] => 0
  | child :: rest => max (height child) (heightItems rest)

end

end Secrets

-- == small checks

def note (condition : Bool) (text : PyStr) : List PyStr := if condition then [text] else []

def equals (value : Json) (s : String) : Bool := value.isStr (py s)

def isTrue : Json → Bool
  | .bool b => b
  | _ => false

/-- What `re` takes for a text. -/
def matchable : Json → Except PyErr PyStr
  | .str s => .ok s
  | _ => .error .typeError

def isId (s : PyStr) : Bool :=
  let alphanumeric (c : Nat) : Bool := (97 ≤ c && c ≤ 122) || (48 ≤ c && c ≤ 57)
  match s with
  | [] => false
  | c :: rest =>
    alphanumeric c && (2 ≤ rest.length && rest.length ≤ 127)
      && rest.all fun c => alphanumeric c || c == 46 || c == 95 || c == 58 || c == 45

def isSha256 (s : PyStr) : Bool :=
  decide (s.length = 64) && s.all fun c => (48 ≤ c && c ≤ 57) || (97 ≤ c && c ≤ 102)

/-- `hash(value)`: an array or an object has none. -/
def hashable : Json → Bool
  | .arr _ => false
  | .obj _ => false
  | _ => true

def inSet (value : Json) (names : List String) : Except PyErr Bool :=
  if hashable value then .ok (names.any fun name => equals value name) else .error .typeError

def number? : Json → Option Py.Num
  | .bool b => some (boolNum b)
  | .int n => some (.finite n)
  | .float x => some x.num
  | _ => none

def within (low high : Int) (value : Json) : Except PyErr Bool :=
  match number? value with
  | some n => .ok (!(n.lt (.finite low)) && !((Py.Num.finite high).lt n) && n.eq n)
  | none => .error .typeError

-- == timestamps

/-- `dt.astimezone(UTC)`. -/
def astimezone (L : Library) (t : Stamp) : Except PyErr Int :=
  match t.offset with
  | none => L.fromLocal t.reading
  | some offset =>
    if 0 ≤ t.reading - offset ∧ t.reading - offset ≤ maxInstant then .ok (t.reading - offset)
    else .error .overflowError

def parseDatetime (L : Library) (value : Json) : Except PyErr Int :=
  match value with
  | .str s =>
    match L.fromisoformat s with
    | .error message => .error (.valueError message)
    | .ok parsed =>
      if parsed.offset.isNone then .error (.valueError "timestamp must include an offset")
      else astimezone L parsed
  | _ => .error .typeError

/-- The least integer `float` has no value for. -/
def floatLimit : Nat := 2 ^ 1024 - 2 ^ 970

def addGrace (L : Library) (seconds : PyFloat) (grace : Json) : Except PyErr PyFloat :=
  match grace with
  | .bool b => .ok (L.add seconds (L.ofInt (if b then 1 else 0)))
  | .int n =>
    if n.natAbs < floatLimit then .ok (L.add seconds (L.ofInt n)) else .error .overflowError
  | .float x => .ok (L.add seconds x)
  | _ => .error .typeError

def HealthStatus.isLive : HealthStatus → Bool
  | healthy => true
  | degraded => true
  | _ => false

/-- The body of the `try` over the lease's timestamps. -/
def leaseErrors (L : Library) (lease : HealthLease) (now : Int) : Except PyErr (List PyStr) := do
  let issued ← parseDatetime L lease.issuedAt
  let expires ← parseDatetime L lease.expiresAt
  let lastSeen ← parseDatetime L lease.lastSeenAt
  let errors := note (decide (expires ≤ issued)) (py "health lease expires_at must follow issued_at")
    ++ note (decide (lastSeen < issued)) (py "health lease last_seen_at predates issued_at")
  if lease.status.isLive then do
    let deadline ← addGrace L (L.timestamp expires) lease.graceS
    .ok (errors ++ note (deadline.num.lt (L.timestamp now).num)
      (py "health lease is expired beyond grace"))
  else .ok errors

/-- Its `except ValueError`. -/
def orInvalid : Except PyErr (List PyStr) → Except PyErr (List PyStr)
  | .error (.valueError message) => .ok [py "invalid health timestamp: " ++ py message]
  | r => r

def healthErrors (L : Library) (lease : HealthLease) (now : Int) : Except PyErr (List PyStr) :=
  orInvalid (leaseErrors L lease now)

-- == checks

def schemaErrors (m : AdapterManifest) : List PyStr :=
  note (!equals m.schemaVersion "automation-os.adapter/1.0") (py "unsupported schema_version")

def identityErrors (m : AdapterManifest) : Except PyErr (List PyStr) := do
  let adapterId ← matchable m.adapterId
  let interop ← inSet m.adapterId ["a2a", "mcp"]
  let known ← inSet m.adapterType ["declarative", "executable", "remote"]
  .ok (note (!isId adapterId) (py "invalid adapter_id")
    ++ note (!interop) (py "interop adapter_id must be a2a or mcp")
    ++ note (!known) (py "unsupported adapter_type"))

def endpointErrors (m : AdapterManifest) : List PyStr :=
  note (match m.endpoint with
    | .str s => isBlank s
    | _ => true) (py "endpoint is required")

def protocolErrors (m : AdapterManifest) : List PyStr :=
  match m.protocolFamily with
  | .a2a =>
    note (!equals m.protocolVersion "1.0") (py "a2a protocol must use wire version 1.0")
      ++ note (!equals (field m.discovery "spec_release") "1.0.0")
        (py "a2a discovery must pin specification release 1.0.0")
      ++ note (match field m.discovery "agent_card_url" with
        | .str card => !(py "https://").isPrefixOf card
        | _ => true) (py "A2A requires an HTTPS Agent Card URL")
  | .mcp =>
    let state := m.sessionState.protocolState
    note (!equals m.protocolVersion "2026-07-28") (py "mcp protocol must be pinned to 2026-07-28")
      ++ note (decide (m.sessionState.transportSemantics ≠ .statelessRequest))
        (py "MCP 2026-07-28 must use stateless_request transport semantics")
      ++ note ((getItem? state (py "session_id")).isSome
          || (getItem? state (py "Mcp-Session-Id")).isSome)
        (py "legacy MCP session identifiers are forbidden")
      ++ note (isTrue (field state "initialize") || isTrue (field state "initialized"))
        (py "legacy MCP initialize handshake state is forbidden")

/-- `catalog.get(manifest.adapter_id)`, on an id that has matched its pattern or not. -/
def lookup (catalog : FederationCatalog) (adapterId : Json) : Except PyErr AdapterDescriptor :=
  match adapterId with
  | .str s => catalog.get s
  | _ => .error (.keyError [])

def catalogErrors (m : AdapterManifest) (descriptor : Option AdapterDescriptor) : List PyStr :=
  note (!equals m.adapterId m.protocolFamily.value) (py "adapter_id must match the protocol family")
    ++ match descriptor with
      | none => [py "adapter is absent from the Automation OS federation catalog"]
      | some d => note (decide (d.kind ≠ .protocol))
          (py "interop adapter must map to a PROTOCOL catalog descriptor")

def authorityErrors (m : AdapterManifest) : List PyStr :=
  note (isTrue (field m.metadata "discovery_is_authority"))
    (py "discovery cannot be authorization authority")

def artifactErrors (m : AdapterManifest) : Except PyErr (List PyStr) :=
  if equals m.adapterType "executable" then
    match m.artifact.sha256 with
    | .null => .ok [py "executable adapter requires SHA-256 identity"]
    | digest => do
      let s ← matchable digest
      .ok (note (!isSha256 s) (py "executable adapter requires SHA-256 identity"))
  else .ok []

def authErrors (m : AdapterManifest) : Except PyErr (List PyStr) := do
  let known ← inSet m.authProfile.authType
    ["none", "api_key", "bearer", "oauth2", "oidc", "mtls", "local_identity"]
  .ok (note (!known) (py "unsupported auth_type"))

section Capabilities

variable (adapterId : Json) (descriptor : Option AdapterDescriptor) (granted : List PyStr)

/-- An id inside an error text: it has matched its pattern's type by then. -/
def shown : Json → PyStr
  | .str s => s
  | _ => []

/-- The body of the loop over the capabilities. -/
def capabilityErrors (seen : List PyStr) (c : CapabilityDescriptor) :
    Except PyErr (List PyStr) := do
  let capabilityId ← matchable c.capabilityId
  let sideEffects ← inSet c.sideEffects ["none", "reversible", "irreversible"]
  let verification ← inSet c.verification ["required", "optional", "none"]
  let timeout ← within 1 3600000 c.timeoutMs
  let concurrency ← within 1 1024 c.concurrencyLimit
  .ok (note (!isId capabilityId || capabilityId.contains 42)
      (capabilityId ++ py ": invalid capability_id")
    ++ note (seen.contains capabilityId) (py "duplicate capability_id: " ++ capabilityId)
    ++ note (!sideEffects) (capabilityId ++ py ": invalid side_effects")
    ++ note (!verification) (capabilityId ++ py ": invalid verification")
    ++ note (equals c.sideEffects "irreversible" && !equals c.verification "required")
      (capabilityId ++ py ": irreversible capability requires verification")
    ++ note (!timeout) (capabilityId ++ py ": timeout_ms out of bounds")
    ++ note (!concurrency) (capabilityId ++ py ": concurrency_limit out of bounds")
    ++ note (!c.requiredScopes.all fun scope => granted.contains scope)
      (capabilityId ++ py ": required scope is not granted")
    ++ match descriptor with
      | none => []
      | some d => note (!d.operations.any fun op => c.canonicalOperation.isStr op)
          (capabilityId ++ py ": canonical operation is not registered for " ++ shown adapterId))

def capabilitiesErrors : List PyStr → List CapabilityDescriptor → Except PyErr (List PyStr)
  | _, [] => .ok []
  | seen, c :: rest => do
    let errors ← capabilityErrors adapterId descriptor granted seen c
    let more ← capabilitiesErrors (shown c.capabilityId :: seen) rest
    .ok (errors ++ more)

end Capabilities

def remoteErrors (m : AdapterManifest) : List PyStr :=
  note (m.capabilities.any (fun c => equals c.sideEffects "irreversible")
      && equals m.adapterType "remote" && equals m.authProfile.authType "none")
    (py "remote irreversible capability cannot use auth_type=none")

-- == validation

section Validation

variable (L : Library)

/-- The checks of a manifest that has been read. -/
def manifestErrors (catalog : FederationCatalog) (now : Int) (m : AdapterManifest) :
    Except PyErr (List PyStr) := do
  let descriptor := (lookup catalog m.adapterId).toOption
  let identity ← identityErrors m
  let artifact ← artifactErrors m
  let auth ← authErrors m
  let capabilities ←
    capabilitiesErrors m.adapterId descriptor m.authProfile.scopes [] m.capabilities
  let health ← healthErrors L m.healthLease now
  .ok (schemaErrors m ++ identity ++ endpointErrors m ++ protocolErrors m
    ++ catalogErrors m descriptor ++ authorityErrors m ++ artifact ++ auth ++ capabilities
    ++ remoteErrors m ++ health)

def validateManifestDict (catalog : Option FederationCatalog) (now : Stamp) (raw : Members) :
    Except PyErr (List PyStr) := do
  let secretHits ← findSecretKeys L (py "$") L.frames (.obj raw)
  let errors := note (!secretHits.isEmpty)
    (py "inline credentials forbidden: " ++ joinWith (py ",") secretHits)
  match manifestFromDict L raw with
  | .error .recursionError => .error .recursionError
  | .error e => .ok (errors ++ [py "manifest parse failed: " ++ e.text])
  | .ok m => do
    let now ← astimezone L now
    let found ← manifestErrors L (catalog.getD defaultFederationCatalog) now m
    .ok (errors ++ found)

end Validation

end Centinal26.Interop
