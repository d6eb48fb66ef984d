/-
Mirror evidence: rows of a store anyone may write, believed only where the event log says so.
-/
import Centinal26.Events.Store
import Centinal26.Py.Dict

namespace Centinal26.Evidence

open Py Events

-- == kinds

inductive MirrorKind : Type
  | roleResult
  | verificationVerdict
deriving DecidableEq

namespace MirrorKind

def value : MirrorKind → PyStr
  | roleResult => py "AutomationRoleResult"
  | verificationVerdict => py "AutomationVerificationVerdict"

def ofName? (name : PyStr) : Option MirrorKind :=
  [roleResult, verificationVerdict].find? fun k => decide (k.value = name)

def schema : MirrorKind → PyStr
  | roleResult => py "centinal26-base44-automation-role-result-v1"
  | verificationVerdict => py "centinal26-base44-automation-verification-verdict-v1"

def required : MirrorKind → List String
  | roleResult => ["result_id", "contract_id", "role", "status", "payload_json", "result_hash",
      "created_at_client"]
  | verificationVerdict => ["verdict_id", "result_id", "contract_id", "verdict", "verifier",
      "details_json", "verdict_hash", "created_at_client"]

def optional (_ : MirrorKind) : List String := ["evidence_hash"]

def authority (k : MirrorKind) : List String := k.required ++ k.optional

def logicalIdField : MirrorKind → String
  | roleResult => "result_id"
  | verificationVerdict => "verdict_id"

end MirrorKind

def systemFields : List String :=
  ["id", "created_date", "updated_date", "created_by_id", "is_sample"]

def MirrorKind.isKnown (k : MirrorKind) (name : PyStr) : Bool :=
  (k.authority ++ systemFields).any fun f => decide (py f = name)

-- == fields

/-- What the functions raise: a `MirrorSchemaError`, or an error of Python's. -/
inductive MirrorError : Type
  | schema (reason : PyStr)
  | py (e : PyErr)
deriving DecidableEq

def invalidField (f : String) : MirrorError := .schema (py ("INVALID_MIRROR_FIELD:" ++ f))

/-- `record.get(field)`. -/
def valueOf (record : Fields) (f : String) : Json := (record.get? (py f)).getD .null

/-- `hmac.compare_digest` of two strings. -/
def compareDigest (a b : PyStr) : Except PyErr Bool :=
  if a.all (fun c => decide (c < 128)) && b.all (fun c => decide (c < 128)) then
    .ok (decide (a = b))
  else .error .typeError

def isSha256 (s : PyStr) : Bool :=
  decide (s.length = 64) && s.all fun c =>
    decide (48 ≤ c ∧ c ≤ 57 ∨ 97 ≤ c ∧ c ≤ 102 ∨ 65 ≤ c ∧ c ≤ 70)

def requireThat (holds : Bool) (e : MirrorError) : Except MirrorError Unit :=
  if holds then .ok () else .error e

def requireNonemptyString (record : Fields) (f : String) : Except MirrorError Json :=
  match record.get? (py f) with
  | some (.str (c :: s)) => .ok (.str (c :: s))
  | _ => .error (invalidField f)

/-- The required fields, into the projection. -/
def requiredMembers (record : Fields) : List String → Except MirrorError Members
  | [] => .ok []
  | f :: fs => do
    let value ← requireNonemptyString record f
    .ok ((py f, value) :: (← requiredMembers record fs))

/-- The optional fields, into the projection. -/
def optionalMembers (record : Fields) : List String → Except MirrorError Members
  | [] => .ok []
  | f :: fs =>
    match valueOf record f with
    | .null => do .ok ((py f, .null) :: (← optionalMembers record fs))
    | .str s => do .ok ((py f, .str s) :: (← optionalMembers record fs))
    | _ => .error (invalidField f)

/-- `_require_json_string`; `readsJson` is whether `json.loads` reads a string without
a constant JSON does not have, or what it raises that is no `ValueError`. -/
def requireJsonString (readsJson : PyStr → Except PyErr Bool) (value : Json) (f : String) :
    Except MirrorError Unit :=
  match value with
  | .str s => do
    let reads ← (readsJson s).mapError .py
    requireThat reads (.schema (py ("INVALID_MIRROR_JSON:" ++ f)))
  | _ => .error (invalidField f)

def kindChecks (readsJson : PyStr → Except PyErr Bool) (get : String → Json) :
    MirrorKind → Except MirrorError Unit
  | .verificationVerdict => do
    requireThat ((["VERIFIED", "VERIFICATION_FAILED", "INCONCLUSIVE", "BLOCKED_EXTERNAL"]).any
      fun v => (get "verdict").isStr (py v)) (invalidField "verdict")
    requireThat ((get "verifier").isStr (py "Frost Judge")) (invalidField "verifier")
    requireJsonString readsJson (get "details_json") "details_json"
    match get "verdict_hash" with
    | .str s => requireThat (isSha256 s) (invalidField "verdict_hash")
    | _ => .error (invalidField "verdict_hash")
  | .roleResult => do
    requireThat ((["GOVERNOR", "BUILDER", "JUDGE", "SRE", "EVOLUTION"]).any
      fun v => (get "role").isStr (py v)) (invalidField "role")
    requireJsonString readsJson (get "payload_json") "payload_json"
    match get "result_hash" with
    | .str s => requireThat (isSha256 s) (invalidField "result_hash")
    | _ => .error (invalidField "result_hash")

/-- The check of `evidence_hash`, which may be missing or empty. -/
def evidenceCheck (value : Json) : Except MirrorError Unit :=
  match value with
  | .str (c :: s) => requireThat (isSha256 (c :: s)) (invalidField "evidence_hash")
  | _ => .ok ()

-- == projection

def project (readsJson : PyStr → Except PyErr Bool) (kind : MirrorKind) (mirrorId : PyStr)
    (record : Fields) : Except MirrorError Members := do
  let requireds ← requiredMembers record kind.required
  let optionals ← optionalMembers record kind.optional
  match valueOf record kind.logicalIdField with
  | .str logicalId => do
    let same ← (compareDigest logicalId mirrorId).mapError .py
    requireThat same (.schema (py "MIRROR_LOGICAL_ID_MISMATCH"))
  | _ => .error (invalidField kind.logicalIdField)
  kindChecks readsJson (valueOf record) kind
  evidenceCheck (valueOf record "evidence_hash")
  .ok (sortByName ((py "schema", .str kind.schema) :: (py "mirror_kind", .str kind.value)
    :: (requireds ++ optionals)))

def canonicalMirrorProjection (readsJson : PyStr → Except PyErr Bool) (mirrorKind mirrorId : PyStr)
    (mirrorRecord : Doc) : Except MirrorError Members :=
  match MirrorKind.ofName? mirrorKind with
  | none => .error (.schema (py "UNSUPPORTED_MIRROR_KIND"))
  | some kind =>
    match mirrorRecord.fields? with
    | none => .error (.schema (py "INVALID_MIRROR_RECORD"))
    | some record =>
      if mirrorId = [] then .error (.schema (py "MISSING_MIRROR_ID"))
      else
        -- the members come in the order of their names, as `sorted` would bring them
        match record.members.find? (fun m => !kind.isKnown m.1),
          kind.required.find? (fun f => (record.get? (py f)).isNone) with
        | some m, _ => .error (.schema (py "UNKNOWN_MIRROR_FIELD:" ++ m.1))
        | none, some f => .error (.schema (py ("MISSING_MIRROR_FIELD:" ++ f)))
        | none, none => project readsJson kind mirrorId record

-- == binding

/-- A dictionary of strings, in the order it is built. -/
abbrev Strings := List (String × PyStr)

def Strings.document (d : Strings) : Members := sortByName (d.map fun p => (py p.1, .str p.2))

def stringOf (projection : Members) (f : String) : PyStr :=
  match field projection f with
  | .str s => s
  | _ => []

variable (H : Host) (readsJson : PyStr → Except PyErr Bool)

def projectionHash (projection : Members) : Except MirrorError PyStr :=
  ((canonicalJson (.obj projection)).mapError .py).map fun t => (H.sha256 t).str

def bindingOf (mirrorKind mirrorId scope : PyStr) (projection : Members) :
    Except MirrorError Strings := do
  let hash ← projectionHash H projection
  .ok [("schema", stringOf projection "schema"), ("mirror_kind", mirrorKind),
    ("mirror_id", mirrorId), ("contract_id", stringOf projection "contract_id"),
    ("result_id", stringOf projection "result_id"), ("mirror_sha256", hash),
    ("authority_scope", scope)]

def canonicalMirrorBinding (mirrorKind mirrorId : PyStr) (mirrorRecord : Doc)
    (authorityScope : PyStr) : Except MirrorError Strings :=
  if authorityScope = [] then .error (.py (.valueError "authority_scope is required"))
  else do
    let projection ← canonicalMirrorProjection readsJson mirrorKind mirrorId mirrorRecord
    bindingOf H mirrorKind mirrorId authorityScope projection

def canonicalAuthorityGrant (mirrorKind mirrorId authorityScope : PyStr) :
    Except MirrorError Strings :=
  match MirrorKind.ofName? mirrorKind with
  | none => .error (.schema (py "UNSUPPORTED_MIRROR_KIND"))
  | some kind =>
    if mirrorId = [] then .error (.py (.valueError "mirror_id is required"))
    else if authorityScope = [] then .error (.py (.valueError "authority_scope is required"))
    else .ok [("schema", py "centinal26-mirror-authority-grant-v1"), ("outcome", py "ALLOW"),
      ("mirror_schema", kind.schema), ("mirror_kind", mirrorKind), ("mirror_id", mirrorId),
      ("authority_scope", authorityScope)]

-- == verify

/-- `MirrorEvidenceVerification`. -/
structure Verification where
  ok : Bool
  reason : PyStr
  canonicalEventHash : Option PyStr

def refuse (reason : String) : Except MirrorError Verification := .ok ⟨false, py reason, none⟩

def sameNames (actual : Members) (expected : Strings) : Bool :=
  (actual.all fun m => expected.any fun p => decide (py p.1 = m.1))
    && expected.all fun p => actual.any fun m => decide (m.1 = py p.1)

/-- The first member that is not as expected. -/
def mismatch (actual : Members) : Strings → Except PyErr (Option String)
  | [] => .ok none
  | (f, value) :: rest =>
    match field actual f with
    | .str s => do if ← compareDigest s value then mismatch actual rest else .ok (some f)
    | _ => .ok (some f)

/-- The comparison of one dictionary of the event's with the one expected. -/
def compareTo (actual : Members) (expected : Strings) (schemaReason reason : String)
    (next : Except MirrorError Verification) : Except MirrorError Verification :=
  if sameNames actual expected then do
    match ← (mismatch actual expected).mapError .py with
    | some f => refuse (reason ++ f)
    | none => next
  else refuse schemaReason

/-- `decision is None or decision == "allow"`. -/
def allows : Option Json → Bool
  | none | some .null => true
  | some decision => decision.isStr (py "allow")

/-- What the payload of an authority event must say. -/
def verifyAuthority (event : Event) (mirrorKind mirrorId scope : PyStr)
    (projection : Members) : Except MirrorError Verification :=
  if allows (event.payload.get? (py "decision")) then
    match event.payload.get? (py "authority_grant") with
    | some (.obj grant) => do
      let expectedGrant ← canonicalAuthorityGrant mirrorKind mirrorId scope
      compareTo grant expectedGrant "AUTHORITY_GRANT_SCHEMA_MISMATCH" "AUTHORITY_GRANT_MISMATCH:"
        (match event.payload.get? (py "mirror_binding") with
        | some (.obj binding) => do
          let expectedBinding ← bindingOf H mirrorKind mirrorId scope projection
          compareTo binding expectedBinding "MIRROR_BINDING_SCHEMA_MISMATCH"
            "MIRROR_BINDING_MISMATCH:"
            (.ok ⟨true, py "CANONICAL_AUTHORITY_VERIFIED", some event.eventHash.str⟩)
        | _ => refuse "MISSING_MIRROR_BINDING")
    | _ => refuse "MISSING_AUTHORITY_GRANT"
  else refuse "AUTHORITY_DECISION_NOT_ALLOW"

/-- The event an authority is taken from. -/
def verifyEvent (rows : List EventRow) (mirrorKind mirrorId scope eventId eventHash : PyStr)
    (projection : Members) : Except MirrorError Verification := do
  if ← (verifyChain H rows).mapError .py then
    match events rows with
    | .error _ => .error (.py (.valueError "unsupported event"))
    | .ok es =>
      match es.find? fun e => decide (e.eventId.str = eventId) with
      | none => refuse "CANONICAL_EVENT_NOT_FOUND"
      | some event => do
        if ← (compareDigest event.eventHash.str eventHash).mapError .py then
          if event.type.str ≠ py "DECISION_RECORDED" then refuse "NON_AUTHORITY_EVENT"
          else verifyAuthority H event mirrorKind mirrorId scope projection
        else refuse "CANONICAL_EVENT_HASH_MISMATCH"
  else refuse "CANONICAL_CHAIN_INVALID"

def verifyMirrorEvidence (rows : List EventRow) (mirrorKind mirrorId : PyStr)
    (mirrorRecord : Doc) (eventId eventHash scope : PyStr) : Except MirrorError Verification :=
  if (MirrorKind.ofName? mirrorKind).isNone then refuse "UNSUPPORTED_MIRROR_KIND"
  else if eventId = [] ∨ eventHash = [] ∨ scope = [] then refuse "MISSING_CANONICAL_BINDING"
  else
    match canonicalMirrorProjection readsJson mirrorKind mirrorId mirrorRecord with
    | .error (.schema reason) => .ok ⟨false, reason, none⟩
    | .error (.py e) => .error (.py e)
    | .ok projection =>
      verifyEvent H rows mirrorKind mirrorId scope eventId eventHash projection

end Centinal26.Evidence
