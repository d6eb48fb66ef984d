/-
`verify_runtime_objective_context`: the gate before a provider or a process is
invoked.
-/
import Centinal26.Objects.Store
import Centinal26.Py.Dict

namespace Centinal26.Governance

open Py Steps Objects

variable {τ : Type}

-- == proposals

inductive Source : Type
  | owner
  | ownerPolicy
  | localAgent
  | remoteAgent
  | tool
  | importedDocument
  | web
  | unknown
deriving DecidableEq

def Source.value : Source → String
  | owner => "OWNER"
  | ownerPolicy => "OWNER_POLICY"
  | localAgent => "LOCAL_AGENT"
  | remoteAgent => "REMOTE_AGENT"
  | tool => "TOOL"
  | importedDocument => "IMPORTED_DOCUMENT"
  | web => "WEB"
  | unknown => "UNKNOWN"

def Source.isExecutable : Source → Bool
  | owner => true
  | ownerPolicy => true
  | _ => false

inductive Decision : Type
  | execute
  | proposeOnly
  | quarantine
  | deny
deriving DecidableEq

def Decision.value : Decision → String
  | execute => "EXECUTE"
  | proposeOnly => "PROPOSE_ONLY"
  | quarantine => "QUARANTINE"
  | deny => "DENY"

structure Proposal where
  objectiveId : PyStr
  text : PyStr
  source : Source
  sourceRef : PyStr
  rootObjective : PyStr
  parentObjectiveId : Option PyStr
  requestedCapabilities : List PyStr
  authorizationRef : Option PyStr

structure Evaluation where
  objectiveId : PyStr
  decision : Decision
  reasons : List PyStr
  authorizationVerified : Bool

/-- `ObjectiveIntegrityRegistry`, but for its store and its verifier. -/
structure Registry where
  canonicalRoots : List PyStr
  forbiddenCapabilities : List PyStr

/-- `ObjectiveIntegrityRegistry.__init__`. -/
def Registry.new (canonicalRoots forbiddenCapabilities : List PyStr) : Except PyErr Registry :=
  let roots := (canonicalRoots.map strip).filter fun root => decide (root ≠ [])
  if roots = [] then .error (.valueError "canonical_roots may not be empty")
  else .ok ⟨roots, forbiddenCapabilities⟩

namespace Registry

variable (r : Registry) (p : Proposal)

/-- The forbidden capabilities a proposal requests. -/
def forbidden : List PyStr :=
  (r.forbiddenCapabilities.filter fun c => decide (c ∈ p.requestedCapabilities)).eraseDups

/-- Why a proposal may be refused, whatever else is the matter with it. -/
def remarks : List PyStr :=
  if strip p.sourceRef = [] then [py "missing_source_ref"] else []

/-- `evaluate`; `accepted` is what the verifier says, if it is asked. -/
def evaluate (accepted : Bool) : Evaluation :=
  if strip p.objectiveId = [] then ⟨p.objectiveId, .deny, [py "missing_objective_id"], false⟩
  else if strip p.text = [] then ⟨p.objectiveId, .deny, [py "missing_objective_text"], false⟩
  else if !p.source.isExecutable then
    ⟨p.objectiveId, .proposeOnly, remarks p ++ [py "non_owner_source"], false⟩
  else if p.rootObjective ∉ r.canonicalRoots then
    ⟨p.objectiveId, .quarantine, remarks p ++ [py "unknown_root_objective"], false⟩
  else if r.forbidden p ≠ [] then
    ⟨p.objectiveId, .deny, remarks p ++ ((r.forbidden p).mergeSort fun a b =>
      !decide (b < a)).map fun c => py "forbidden_capability:" ++ c, false⟩
  else if !accepted then
    ⟨p.objectiveId, .quarantine, remarks p ++ [py "authorization_not_verified"], false⟩
  else ⟨p.objectiveId, .execute, [], true⟩

end Registry

-- == records

namespace Proposal

variable (p : Proposal)

/-- `{**asdict(proposal), "source": proposal.source.value}`. -/
def members : List (PyStr × PyVal) :=
  [(py "objective_id", .str p.objectiveId), (py "text", .str p.text),
    (py "source", .str (py p.source.value)), (py "source_ref", .str p.sourceRef),
    (py "root_objective", .str p.rootObjective),
    (py "parent_objective_id", optText p.parentObjectiveId),
    (py "requested_capabilities", .tuple (p.requestedCapabilities.map PyVal.str)),
    (py "authorization_ref", optText p.authorizationRef)]

/-- The payload of an authorized objective. -/
def authorizedMembers (decisionId : Text) : List (PyStr × PyVal) :=
  p.members ++ [(py "evaluation_object_id", .str decisionId.str)]

/-- `f"objective/current/{proposal.objective_id}"`. -/
def currentName : PyStr := py "objective/current/" ++ p.objectiveId

end Proposal

/-- `{**asdict(evaluation), "decision": evaluation.decision.value}`. -/
def Evaluation.members (e : Evaluation) : List (PyStr × PyVal) :=
  [(py "objective_id", .str e.objectiveId), (py "decision", .str (py e.decision.value)),
    (py "reasons", .tuple (e.reasons.map PyVal.str)),
    (py "authorization_verified", .bool e.authorizationVerified)]

section Puts

variable (p : Proposal) (now : τ)

def proposalPut : PutArgs τ :=
  ⟨py "objective_proposal", .dict (strItems p.members), py p.source.value, p.sourceRef,
    py (if p.source.isExecutable then "OWNER_ASSERTED_PROPOSAL" else "UNTRUSTED_PROPOSAL"),
    now⟩

def evaluationPut (e : Evaluation) (proposalId : Text) : PutArgs τ :=
  ⟨py "objective_evaluation", .dict (strItems e.members), py "objective_integrity",
    proposalId.str, py "AUTHORIZATION_DECISION", now⟩

def authorizedPut (decisionId : Text) : PutArgs τ :=
  ⟨py "authorized_objective", .dict (strItems (p.authorizedMembers decisionId)),
    py "objective_integrity", decisionId.str, py "OWNER_AUTHORIZED", now⟩

end Puts

section Record

variable (H : Host) (F : Floats τ)

def pointAt (name : PyStr) (objectId : Text) (now : τ) : Block StoreError (Db τ) Unit :=
  fun db =>
    if strip name = [] then (.error (.py (.valueError "alias may not be empty")), db)
    else if db.has objectId then (pointTo F (strip name) objectId now).commit db
    else (.error (.py (.keyError objectId.str)), db)

/-- The part of `record` for an evaluation that comes to `EXECUTE`. -/
def promote (p : Proposal) (decisionId : Text) (clock : Nat → τ) :
    Block StoreError (Db τ) Unit := do
  let authorizedId ← (put H F (authorizedPut p (clock 3) decisionId)).commit
  (link F decisionId.str (py "authorizes") authorizedId.str (clock 4)).commit
  pointAt F p.currentName authorizedId (clock 5)

def record (r : Registry) (p : Proposal) (accepted : Bool) (clock : Nat → τ) :
    Block StoreError (Db τ) (Text × Text × Evaluation) := do
  let proposalId ← (put H F (proposalPut p (clock 0))).commit
  let decisionId ← (put H F (evaluationPut (clock 1) (r.evaluate p accepted)
    proposalId)).commit
  (link F proposalId.str (py "evaluated_as") decisionId.str (clock 2)).commit
  if (r.evaluate p accepted).decision = .execute then promote H F p decisionId clock
  pure (proposalId, decisionId, r.evaluate p accepted)

end Record

-- == tokens

/-- `CapabilityToken`; of its sets, only what is in them matters. -/
structure CapabilityToken where
  taskId : PyStr
  objectiveId : PyStr
  rootObjective : PyStr
  allowedActions : List PyStr
  networkScope : List PyStr
  allowedSecrets : List PyStr
  destructiveActions : Bool

structure Action where
  name : PyStr
  destination : Option PyStr
  secretId : Option PyStr
  destructive : Bool
  requiresNetwork : Bool

def executionGate (token : CapabilityToken) (action : Action) : Bool :=
  if action.name ∉ token.allowedActions then false
  else if action.destructive && !token.destructiveActions then false
  else if action.requiresNetwork && !action.destination.any fun d =>
      !d.isEmpty && decide (d ∈ token.networkScope) then false
  else !action.secretId.any fun s => !s.isEmpty && !decide (s ∈ token.allowedSecrets)

end Centinal26.Governance

namespace Centinal26.Governance

open Py Steps Objects

variable {τ : Type}

structure RuntimeDecision where
  allowed : Bool
  status : String
  reason : String
  objectiveId : Option PyStr

def refuse (status reason : String) (objectiveId : Option PyStr) : RuntimeDecision :=
  ⟨false, status, reason, objectiveId⟩

-- == readers

def text? (s : PyStr) : Option PyStr := if strip s = [] then none else some s

def fieldText? (payload : Fields) (key : String) : Option PyStr :=
  ((payload.get? (py key)).bind Json.str?).bind text?

def item? (task : List (PyKey × PyVal)) (key : String) : Option PyVal :=
  getItem? task (.str (py key))

def itemText? (task : List (PyKey × PyVal)) (key : String) : Option PyStr :=
  match item? task key with
  | some (.str s) => text? s
  | _ => none

def itemTrue (task : List (PyKey × PyVal)) (key : String) : Bool :=
  match item? task key with
  | some (.bool true) => true
  | _ => false

def setItem? (v : Json) : Option PyStr := v.str?.bind fun s => if s = [] then none else some s

def stringSet? (payload : Fields) (key : String) (default : Option Json) : Option (List PyStr) :=
  match (payload.get? (py key)).or default with
  | some (.arr xs) => xs.mapM setItem?
  | _ => none

def destructiveActions? (payload : Fields) : Option Bool :=
  match (payload.get? (py "destructive_actions")).getD (.bool false) with
  | .bool b => some b
  | _ => none

def capabilityToken (payload : Doc) : Option CapabilityToken := do
  let payload ← payload.fields?
  let taskId ← fieldText? payload "task_id"
  let objectiveId ← fieldText? payload "objective_id"
  let rootObjective ← fieldText? payload "root_objective"
  let allowedActions ← stringSet? payload "allowed_actions" none
  let networkScope ← stringSet? payload "network_scope" (some (.arr []))
  let allowedSecrets ← stringSet? payload "allowed_secrets" (some (.arr []))
  let destructive ← destructiveActions? payload
  some ⟨taskId, objectiveId, rootObjective, allowedActions, networkScope, allowedSecrets,
    destructive⟩

def hasProvenance (db : Db τ) (objectId : PyStr) (sourceType evidenceClass : String) :
    Except StoreError Bool := do
  let rows ← db.provenanceOf objectId
  .ok (rows.any fun row => decide (row.sourceType.str = py sourceType)
    && decide (row.evidenceClass.str = py evidenceClass))

/-- The call, or nothing if it raises `KeyError`. -/
def exceptKeyError {α : Type} (r : Except StoreError α) : Except StoreError (Option α) :=
  match r with
  | .ok a => .ok (some a)
  | .error (.py (.keyError _)) => .ok none
  | .error e => .error e

-- == gate

def isField (payload : Fields) (key : String) (value : PyStr) : Bool :=
  ((payload.get? (py key)).bind Json.str?).any fun s => decide (s = value)

/-- `payload.get("authorization_verified") is True`. -/
def isVerified (payload : Fields) : Bool :=
  match payload.get? (py "authorization_verified") with
  | some (.bool true) => true
  | _ => false

def requestedAction (task : List (PyKey × PyVal)) (name : PyStr) : Action :=
  ⟨name, itemText? task "network_destination", itemText? task "secret_id",
    itemTrue task "destructive", itemTrue task "requires_network"⟩

def checkToken (db : Db τ) (task : List (PyKey × PyVal)) (actionName tokenId : PyStr)
    (token : StoredObject τ) (objectiveId rootObjective : PyStr) :
    Except StoreError RuntimeDecision := do
  if !(← hasProvenance db tokenId "guardian" "CAPABILITY_AUTHORIZATION") then
    .ok (refuse "CAPABILITY_TOKEN_INVALID" "guardian_provenance_missing" objectiveId)
  else match capabilityToken token.payload with
  | none => .ok (refuse "CAPABILITY_TOKEN_INVALID" "token_payload_invalid" objectiveId)
  | some token =>
    if token.objectiveId ≠ objectiveId ∨ token.rootObjective ≠ rootObjective then
      .ok (refuse "CAPABILITY_TOKEN_INVALID" "token_objective_binding_mismatch" objectiveId)
    else if itemText? task "task_id" ≠ some token.taskId then
      .ok (refuse "CAPABILITY_TOKEN_INVALID" "token_task_binding_mismatch" objectiveId)
    else if !executionGate token (requestedAction task actionName) then
      .ok (refuse "CAPABILITY_SCOPE_DENIED" "invocation_scope_exceeds_token" objectiveId)
    else .ok ⟨true, "OBJECTIVE_AUTHORIZED", "runtime_gate_passed", some objectiveId⟩

/-- The middle part: the objective is authorized, and the current one. -/
def checkObjective (db : Db τ) (task : List (PyKey × PyVal))
    (actionName authorizedId evaluationId tokenId : PyStr) (token : StoredObject τ)
    (authorized evaluation : Fields) : Except StoreError RuntimeDecision :=
  match fieldText? authorized "objective_id", fieldText? authorized "root_objective" with
  | some objectiveId, some rootObjective =>
    if !isField authorized "evaluation_object_id" evaluationId then
      .ok (refuse "OBJECTIVE_CONTEXT_INVALID" "objective_evaluation_binding_mismatch" objectiveId)
    else if !isField evaluation "objective_id" objectiveId
        || !isField evaluation "decision" (py "EXECUTE") || !isVerified evaluation then
      .ok (refuse "OBJECTIVE_NOT_AUTHORIZED" "evaluation_not_executable" objectiveId)
    else do
      if !(← hasProvenance db authorizedId "objective_integrity" "OWNER_AUTHORIZED") then
        .ok (refuse "OBJECTIVE_NOT_AUTHORIZED" "objective_provenance_invalid" objectiveId)
      else match ← exceptKeyError (db.resolve (py "objective/current/" ++ objectiveId)) with
      | none =>
        .ok (refuse "OBJECTIVE_NOT_CURRENT" "current_objective_alias_missing" objectiveId)
      | some current =>
        if current.objectId.str ≠ authorizedId then
          .ok (refuse "OBJECTIVE_NOT_CURRENT" "authorized_objective_superseded" objectiveId)
        else checkToken db task actionName tokenId token objectiveId rootObjective
  | _, _ => .ok (refuse "OBJECTIVE_CONTEXT_INVALID" "objective_identity_missing" none)

def getThree (db : Db τ) (authorizedId evaluationId tokenId : PyStr) :
    Except StoreError (StoredObject τ × StoredObject τ × StoredObject τ) := do
  let authorized ← db.get authorizedId
  let evaluation ← db.get evaluationId
  let token ← db.get tokenId
  .ok (authorized, evaluation, token)

def verifyRuntimeObjectiveContext (db : Db τ) (task : List (PyKey × PyVal))
    (actionName : PyStr) : Except StoreError RuntimeDecision :=
  match item? task "objective_context" with
  | some (.dict context) =>
    match itemText? context "authorized_objective_id",
      itemText? context "objective_evaluation_id", itemText? context "capability_token_id" with
    | some authorizedId, some evaluationId, some tokenId => do
      match ← exceptKeyError (getThree db authorizedId evaluationId tokenId) with
      | none => .ok (refuse "OBJECTIVE_REFERENCE_NOT_FOUND" "canonical_object_missing" none)
      | some (authorized, evaluation, token) =>
        if authorized.kind.str ≠ py "authorized_objective" then
          .ok (refuse "OBJECTIVE_CONTEXT_INVALID" "wrong_objective_kind" none)
        else if evaluation.kind.str ≠ py "objective_evaluation" then
          .ok (refuse "OBJECTIVE_CONTEXT_INVALID" "wrong_evaluation_kind" none)
        else if token.kind.str ≠ py "capability_token" then
          .ok (refuse "OBJECTIVE_CONTEXT_INVALID" "wrong_token_kind" none)
        else match authorized.payload.fields?, evaluation.payload.fields? with
        | some fields, some fields' =>
          checkObjective db task actionName authorizedId evaluationId tokenId token fields fields'
        | _, _ => .ok (refuse "OBJECTIVE_CONTEXT_INVALID" "invalid_object_payload" none)
    | _, _, _ =>
      .ok (refuse "OBJECTIVE_CONTEXT_INVALID" "missing_immutable_reference" none)
  | _ => .ok (refuse "OBJECTIVE_CONTEXT_REQUIRED" "missing_context" none)

end Centinal26.Governance
