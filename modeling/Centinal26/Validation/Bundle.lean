/-
The validator of governance bundles: six collections of records that refer to one another.
-/
import Centinal26.Validation.Checks

namespace Centinal26.Validation

open Py Check

-- == schemas

def bundleSchema : String := "centinal26-governance-bundle-v1"

def collections : List String :=
  ["authorizations", "evidence", "operations", "claims", "promotions", "terminal_events"]

def bundleFields : List String := "schema" :: collections

def authFields : List String := ["schema", "authorization_id", "issuer", "subject", "capability",
  "scope", "risk_class", "issued_at", "expires_at", "signature"]

def evidenceFields : List String :=
  ["schema", "evidence_id", "sha256", "source_type", "created_at", "immutable"]

def operationFields : List String := ["schema", "operation_id", "actor", "authorization_id",
  "capability_id", "scope", "risk_class", "preconditions", "postconditions", "destructive",
  "preservation_evidence_refs"]

def claimFields : List String :=
  ["schema", "claim_id", "status", "proposition", "evidence_refs", "uncertainty"]

def promotionFields : List String := ["schema", "promotion_id", "operation_id", "executor",
  "verifier", "authorized", "safe", "traceable", "verified", "evidence_refs"]

def terminalFields : List String :=
  ["schema", "terminal_event_id", "operation_id", "status", "evidence_refs"]

def terminalStates : List String := ["PASS", "REVIEW", "FAIL"]

def claimStatuses : List String :=
  ["VERIFIED", "REPORTED", "DERIVED", "PROPOSED", "FAILED", "SUPERSEDED", "UNKNOWN"]

/-- The keys of `RISK_RANK`, in the order of their ranks. -/
def riskClasses : List String := ["LOW", "MEDIUM", "HIGH", "CRITICAL"]

def riskRank (risk : PyStr) : Option Nat := riskClasses.findIdx? fun r => decide (py r = risk)

def isSha256 (s : PyStr) : Bool :=
  decide (s.length = 64) && s.all fun c => (48 ≤ c && c ≤ 57) || (97 ≤ c && c ≤ 102)

def pathOf (collection : String) (index : Nat) : PyStr :=
  py (collection ++ "[" ++ toString index ++ "]")

/-- The records of a collection by their ids. -/
abbrev Index := List (PyStr × Items)

-- == records

/-- A condition on two values that have both been read. -/
def both {α β : Type} (a : Option α) (b : Option β) (condition : α → β → Bool) : Bool :=
  match a, b with
  | some a, some b => condition a b
  | _, _ => true

def checkAuthorization (fromisoformat : PyStr → Option DateTime) (now : Instant) (index : Nat)
    (value : PyVal) : Check Unit := do
  let path := pathOf "authorizations" index
  match ← record value path "AUTH" "authorization" "centinal26-authorization-v1" authFields with
  | none => pure ()
  | some item => do
    let _ ← text item "authorization_id" path "AUTHORIZATION_ID_INVALID"
    let issuer ← text item "issuer" path "AUTH_ISSUER_REQUIRED"
    let subject ← text item "subject" path "AUTH_SUBJECT_REQUIRED"
    check (both issuer subject fun i s => decide (i ≠ s)) "SELF_AUTHORIZATION_FORBIDDEN" path
      (py "authorization issuer cannot authorize itself")
    let _ ← text item "capability" path "AUTH_CAPABILITY_REQUIRED"
    let _ ← mapping item "scope" path "AUTH_SCOPE_INVALID"
    let _ ← enum item "risk_class" riskClasses path "AUTH_RISK_INVALID"
    let issued ← timestamp fromisoformat item "issued_at" path "AUTH_ISSUED_AT_INVALID"
    let expires ← timestamp fromisoformat item "expires_at" path "AUTH_EXPIRY_INVALID"
    check (issued.all fun t => decide (t ≤ now)) "AUTH_NOT_YET_VALID" (below path ".issued_at")
      (py "authorization is not yet valid")
    check (expires.all fun t => decide (now < t)) "AUTH_EXPIRED" (below path ".expires_at")
      (py "authorization is expired")
    check (both issued expires fun i e => decide (i < e)) "AUTH_TIME_RANGE_INVALID" path
      (py "issued_at must precede expires_at")
    let _ ← text item "signature" path "AUTH_SIGNATURE_REQUIRED"
    pure ()

def checkEvidence (fromisoformat : PyStr → Option DateTime) (now : Instant) (index : Nat)
    (value : PyVal) : Check Unit := do
  let path := pathOf "evidence" index
  match ← record value path "EVIDENCE" "evidence" "centinal26-governance-evidence-v1"
    evidenceFields with
  | none => pure ()
  | some item => do
    let _ ← text item "evidence_id" path "EVIDENCE_ID_INVALID"
    check ((itemOf item "sha256").text?.any isSha256) "EVIDENCE_SHA256_INVALID"
      (below path ".sha256") (py "sha256 must be 64 lowercase hex characters")
    check (itemOf item "immutable").isTrue "EVIDENCE_NOT_IMMUTABLE" (below path ".immutable")
      (py "evidence must be explicitly immutable")
    let _ ← enum item "source_type" ["SOURCE", "DERIVED", "SUMMARY"] path
      "EVIDENCE_SOURCE_TYPE_INVALID"
    let created ← timestamp fromisoformat item "created_at" path "EVIDENCE_CREATED_AT_INVALID"
    check (created.all fun t => decide (t ≤ now)) "EVIDENCE_FROM_FUTURE"
      (below path ".created_at") (py "evidence must exist by validation time")

mutual

/-- `a == b` on what `json.loads` has made. Its NaN is one object, and containers compare what they
have by identity first. -/
def same : PyVal → PyVal → Bool
  | .list xs, .list ys => sameList xs ys
  | .dict xs, .dict ys => xs.length == ys.length && sameItems xs ys
  | .float .nan, .float .nan => true
  | a, b => a.eq b

def sameList : List PyVal → List PyVal → Bool
  | [], [] => true
  | x :: xs, y :: ys => same x y && sameList xs ys
  | _, _ => false

def sameItems : List (PyKey × PyVal) → List (PyKey × PyVal) → Bool
  | [], _ => true
  | (k, v) :: rest, ys =>
    (match ys.find? fun item => item.1.eq k with
      | some item => same v item.2
      | none => false) && sameItems rest ys

end

/-- The comparison of an operation with its authorization. -/
def checkAuthorized (authorization : Items) (path : PyStr) (actor capability : Option PyStr)
    (scope : Option Items) (risk : Option PyStr) : Check Unit := do
  check (actor.all fun a => (itemOf authorization "subject").eq (.str a)) "AUTH_SUBJECT_MISMATCH"
    path (py "authorization subject must equal operation actor")
  check (actor.all fun a => !(itemOf authorization "issuer").eq (.str a))
    "SELF_AUTHORIZATION_FORBIDDEN" path
    (py "operation actor cannot be its own authorization issuer")
  check (capability.all fun c => (itemOf authorization "capability").eq (.str c))
    "AUTH_CAPABILITY_MISMATCH" path
    (py "authorization capability must match operation capability")
  check (both scope (itemOf authorization "scope").dict? fun s a =>
    same (.dict a) (.dict s)) "AUTH_SCOPE_MISMATCH" path
    (py "authorization scope must exactly match operation scope")
  check (both (risk.bind riskRank) ((itemOf authorization "risk_class").text?.bind riskRank)
    fun r a => decide (r ≤ a)) "AUTH_RISK_INSUFFICIENT" path
    (py "authorization risk class is weaker than operation risk class")

def checkOperation (authorizations evidence : Index) (index : Nat) (value : PyVal) :
    Check Unit := do
  let path := pathOf "operations" index
  match ← record value path "OPERATION" "operation" "centinal26-operation-v1" operationFields with
  | none => pure ()
  | some item => do
    let _ ← text item "operation_id" path "OPERATION_ID_INVALID"
    let actor ← text item "actor" path "OPERATION_ACTOR_INVALID"
    let authId ← text item "authorization_id" path "OPERATION_AUTHORIZATION_ID_INVALID"
    let capability ← text item "capability_id" path "OPERATION_CAPABILITY_INVALID"
    let scope ← mapping item "scope" path "OPERATION_SCOPE_INVALID"
    let risk ← enum item "risk_class" riskClasses path "OPERATION_RISK_INVALID"
    let _ ← strings item "preconditions" path "PRECONDITIONS_INVALID" 0
    let _ ← strings item "postconditions" path "POSTCONDITIONS_REQUIRED" 1
    check ((itemOf item "destructive") matches .bool _) "DESTRUCTIVE_FLAG_INVALID"
      (below path ".destructive") (py "destructive must be a boolean")
    let refs ← strings item "preservation_evidence_refs" path "PRESERVATION_REFS_INVALID" 0
    let valid ← refsExist refs evidence (below path ".preservation_evidence_refs")
      "PRESERVATION_EVIDENCE_UNKNOWN"
    let authorization := authId.bind (getItem? authorizations)
    check (authId.isNone || authorization.isSome) "AUTHORIZATION_REQUIRED"
      (below path ".authorization_id")
      (py "operation must reference an existing authorization")
    authorization.forM fun a => checkAuthorized a path actor capability scope risk
    check (!(itemOf item "destructive").isTrue || (refs.any fun r => !r.isEmpty) && valid)
      "PRESERVATION_REQUIRED_BEFORE_DESTRUCTIVE_ACTION"
      (below path ".preservation_evidence_refs")
      (py "destructive operations require evidence present by validation time")

/-- `uncertainty_valid`, of a member that is there. -/
def isUncertainty : PyVal → Bool
  | .none => true
  | .str _ => true
  | .int _ => true
  | .float _ => true
  | _ => false

def checkClaim (evidence : Index) (index : Nat) (value : PyVal) : Check Unit := do
  let path := pathOf "claims" index
  match ← record value path "CLAIM" "claim" "centinal26-claim-v1" claimFields with
  | none => pure ()
  | some item => do
    let _ ← text item "claim_id" path "CLAIM_ID_INVALID"
    let status ← enum item "status" claimStatuses path "CLAIM_STATUS_INVALID"
    let _ ← text item "proposition" path "CLAIM_PROPOSITION_INVALID"
    check ((item.any fun m => decide (m.1 = .str (py "uncertainty")))
        && isUncertainty (itemOf item "uncertainty")) "CLAIM_UNCERTAINTY_REQUIRED"
      (below path ".uncertainty") (py "uncertainty must be a string, number, or null")
    let refs ← strings item "evidence_refs" path "CLAIM_EVIDENCE_REFS_INVALID" 0
    let valid ← refsExist refs evidence (below path ".evidence_refs") "CLAIM_EVIDENCE_UNKNOWN"
    let derived := status.any fun s => decide (s = py "DERIVED" ∨ s = py "VERIFIED")
    let cites := (refs.any fun r => !r.isEmpty) && valid
    check (!derived || cites) "CLAIM_PROVENANCE_REQUIRED" (below path ".evidence_refs")
      (py "derived and verified claims require existing evidence")
    let summaries := (refs.getD []).all fun r => (getItem? evidence r).any fun e =>
      (itemOf e "source_type").eq (.str (py "SUMMARY"))
    check (!derived || !cites || !summaries) "SUMMARY_CANNOT_REPLACE_SOURCE"
      (below path ".evidence_refs") (py "a summary alone cannot substantiate this claim status")

/-- The gates of a promotion, with the parts of their codes. -/
def gates : List (String × String) := [("authorized", "AUTHORIZED"), ("safe", "SAFE"),
  ("traceable", "TRACEABLE"), ("verified", "VERIFIED")]

def checkPromotion (evidence operations : Index) (index : Nat) (value : PyVal) : Check Unit := do
  let path := pathOf "promotions" index
  match ← record value path "PROMOTION" "promotion" "centinal26-promotion-v1" promotionFields with
  | none => pure ()
  | some item => do
    let _ ← text item "promotion_id" path "PROMOTION_ID_INVALID"
    let operationId ← text item "operation_id" path "PROMOTION_OPERATION_ID_INVALID"
    let executor ← text item "executor" path "PROMOTION_EXECUTOR_INVALID"
    let verifier ← text item "verifier" path "PROMOTION_VERIFIER_INVALID"
    check (both executor verifier fun e v => decide (e ≠ v)) "INDEPENDENT_VERIFICATION_REQUIRED"
      (below path ".verifier") (py "promotion verifier must differ from executor")
    let operation := operationId.bind (getItem? operations)
    check (operationId.isNone || operation.isSome) "PROMOTION_OPERATION_UNKNOWN"
      (below path ".operation_id") (py "promotion must reference an existing operation")
    check (both operation executor fun o e => (itemOf o "actor").eq (.str e))
      "PROMOTION_EXECUTOR_MISMATCH" (below path ".executor")
      (py "promotion executor must match operation actor")
    each (fun _ gate => check (itemOf item gate.1).isTrue
      ("PROMOTION_" ++ gate.2 ++ "_REQUIRED") (below path ("." ++ gate.1))
      (py ("promotion requires " ++ gate.1 ++ "=true"))) 0 gates
    let refs ← strings item "evidence_refs" path "PROMOTION_EVIDENCE_REFS_INVALID" 1
    let valid ← refsExist refs evidence (below path ".evidence_refs")
      "PROMOTION_EVIDENCE_UNKNOWN"
    check ((refs.any fun r => !r.isEmpty) && valid) "PROMOTION_EVIDENCE_REQUIRED"
      (below path ".evidence_refs") (py "promotion requires existing evidence")

def checkTerminal (evidence operations : Index) (index : Nat) (value : PyVal) : Check Unit := do
  let path := pathOf "terminal_events" index
  match ← record value path "TERMINAL" "terminal event" "centinal26-terminal-event-v1"
    terminalFields with
  | none => pure ()
  | some item => do
    let _ ← text item "terminal_event_id" path "TERMINAL_EVENT_ID_INVALID"
    let operationId ← text item "operation_id" path "TERMINAL_OPERATION_ID_INVALID"
    check (operationId.all fun o => (getItem? operations o).isSome) "TERMINAL_OPERATION_UNKNOWN"
      (below path ".operation_id") (py "terminal event must reference an existing operation")
    let _ ← enum item "status" terminalStates path "TERMINAL_STATE_INVALID"
    let refs ← strings item "evidence_refs" path "TERMINAL_EVIDENCE_REFS_INVALID" 1
    let _ ← refsExist refs evidence (below path ".evidence_refs") "TERMINAL_EVIDENCE_UNKNOWN"
    pure ()

-- == bundle

def checkRoot (root : Items) : Check Unit := do
  each (fun _ f => add "BUNDLE_FIELD_REQUIRED" (below (py "$.") "" ++ f) (f ++ py " is required")) 0
    (sortedNames ((missing bundleFields root).map py))
  each (fun _ f => add "BUNDLE_ADDITIONAL_PROPERTY_FORBIDDEN" (below (py "$.") "" ++ f)
    (f ++ py " is not allowed by the bundle schema")) 0 (sortedNames (extra bundleFields root))
  check (!(root.any fun m => decide (m.1 = .str (py "schema")))
      || (itemOf root "schema").eq (.str (py bundleSchema)))
    "BUNDLE_SCHEMA_INVALID" (py "$.schema") (py ("schema must be " ++ bundleSchema))

/-- A collection of the root: empty where it is not an array. -/
def collection (root : Items) (name : String) : Check (List PyVal) :=
  match (itemOf root name).list? with
  | some values => pure values
  | none => do
    check (!(root.any fun m => decide (m.1 = .str (py name)))) "BUNDLE_COLLECTION_ARRAY_REQUIRED"
      (below (py "$.") name) (py (name ++ " must be an array"))
    pure []

def checkBundle (fromisoformat : PyStr → Option DateTime) (now : Instant) (root : Items) :
    Check Unit := do
  checkRoot root
  let authorizations ← collection root "authorizations"
  let evidence ← collection root "evidence"
  let operations ← collection root "operations"
  let claims ← collection root "claims"
  let promotions ← collection root "promotions"
  let terminalEvents ← collection root "terminal_events"
  each (checkAuthorization fromisoformat now) 0 authorizations
  each (checkEvidence fromisoformat now) 0 evidence
  let authorizationIndex ←
    indexUnique "authorization_id" "authorizations" "AUTHORIZATION" 0 [] authorizations
  let evidenceIndex ← indexUnique "evidence_id" "evidence" "EVIDENCE" 0 [] evidence
  each (checkOperation authorizationIndex evidenceIndex) 0 operations
  let operationIndex ← indexUnique "operation_id" "operations" "OPERATION" 0 [] operations
  each (checkClaim evidenceIndex) 0 claims
  let _ ← indexUnique "claim_id" "claims" "CLAIM" 0 [] claims
  each (checkPromotion evidenceIndex operationIndex) 0 promotions
  let _ ← indexUnique "promotion_id" "promotions" "PROMOTION" 0 [] promotions
  each (checkTerminal evidenceIndex operationIndex) 0 terminalEvents
  let _ ← indexUnique "terminal_event_id" "terminal_events" "TERMINAL_EVENT" 0 [] terminalEvents
  pure ()

/-- One violation is not after the other. -/
def Violation.Le (v w : Violation) : Prop :=
  v.code < w.code ∨ v.code = w.code ∧ (v.path < w.path ∨ v.path = w.path ∧ v.message ≤ w.message)

instance : DecidableRel Violation.Le := fun v w =>
  inferInstanceAs (Decidable (v.code < w.code
    ∨ v.code = w.code ∧ (v.path < w.path ∨ v.path = w.path ∧ v.message ≤ w.message)))

def validateBundle (fromisoformat : PyStr → Option DateTime) (bundle : PyVal) (now : DateTime) :
    Except PyErr (List Violation) :=
  match bundle.dict? with
  | none => .ok [⟨py "BUNDLE_OBJECT_REQUIRED", py "$", py "bundle root must be an object"⟩]
  | some root => match now with
      | .naive _ => .ok [⟨py "REPLAY_TIME_INVALID", py "$",
          py "validation time must be offset-aware"⟩]
      | .aware t => do
        let now ← astimezone t
        let violations := (← checkBundle fromisoformat now root).2
        .ok (violations.dedup.mergeSort fun v w => decide (v.Le w))

end Centinal26.Validation
