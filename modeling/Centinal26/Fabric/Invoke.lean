/-
The callable fabric: its operations, who may call them with what, and what it answers.
-/
import Centinal26.Js.Written

namespace Centinal26.Fabric

open Py Js

-- == objects

def objectNames : List PyStr :=
  [py "constructor", py "hasOwnProperty", py "isPrototypeOf", py "toLocaleString", py "toString",
    py "valueOf", py "__proto__", py "__defineGetter__", py "__defineSetter__",
    py "__lookupGetter__", py "__lookupSetter__", py "propertyIsEnum" ++ py "erable"]

/-- What `table[name]` is, unless it is undefined. -/
inductive Entry (α : Type) : Type
  | own (value : α)
  | inherited

def entry {α : Type} (table : List (PyStr × α)) (name : PyStr) : Option (Entry α) :=
  match getItem? table name with
  | some value => some (.own value)
  | none => if name ∈ objectNames then some .inherited else none

def isIn {α : Type} (name : PyStr) (object : List (PyStr × α)) : Bool :=
  isOneOf name (object.map Prod.fst) || isOneOf name objectNames

-- == schemas

inductive Schema : Type
  | any
  | string
  | object (required : List PyStr) (properties : List (PyStr × Schema)) (additional : Bool)

mutual

def Schema.json : Schema → Json
  | .any => .obj []
  | .string => record [("type", .str (py "string"))]
  | .object required properties additional =>
    .obj ([(py "type", .str (py "object"))]
      ++ (if required.isEmpty then [] else [(py "required", .arr (required.map .str))])
      ++ [(py "properties", .obj (propertiesJson properties)),
        (py "additionalProperties", .bool additional)])

def propertiesJson : List (PyStr × Schema) → List (PyStr × Json)
  | [] => []
  | (name, s) :: rest => (name, s.json) :: propertiesJson rest

end

/-- An error: its name and its message. -/
structure Failure where
  name : PyStr
  message : PyStr

/-- `throw new Error(message)`. -/
def fail {α : Type} (message : PyStr) : Except Failure α := .error ⟨py "Error", message⟩

/-- The first required name that is not there. -/
def validateRequired {α : Type} (object : List (PyStr × α)) (p : PyStr) :
    List PyStr → Except Failure Unit
  | [] => .ok ()
  | k :: rest =>
    if isIn k object then validateRequired object p rest
    else fail (p ++ py "." ++ k ++ py ": required")

mutual

/-- `validate(d, s, p)`. -/
def validate : Json → Schema → PyStr → Except Failure Unit
  | _, .any, _ => .ok ()
  | d, .string, p => match d with
      | .str _ => .ok ()
      | _ => fail (p ++ py ": expected string")
  | .obj ms, .object required properties additional, p => do
    validateRequired ms p required
    validateEntries ms properties additional p
  | _, .object .., p => fail (p ++ py ": expected object")

def validateEntries : List (PyStr × Json) → List (PyStr × Schema) → Bool → PyStr →
    Except Failure Unit
  | [], _, _, _ => .ok ()
  | (k, v) :: rest, properties, additional, p =>
    let checked := match entry properties k with
      | some (.own s) => validate v s (p ++ py "." ++ k)
      -- an inherited property has no names of its own: any value passes
      | some .inherited => .ok ()
      | none =>
        if additional = false then fail (p ++ py "." ++ k ++ py ": unexpected field")
        else .ok ()
    checked >>= fun _ => validateEntries rest properties additional p

end

-- == operations

structure Operation where
  description : PyStr
  destructive : Bool
  approvalRequired : Bool
  allowedRoles : List PyStr
  inputSchema : Schema

def Operation.risk (op : Operation) : PyStr :=
  if op.destructive then py "DESTRUCTIVE" else py "READ_ONLY"

def readOnly (description : PyStr) (required : List PyStr) (properties : List (PyStr × Schema)) :
    Operation where
  description := description
  destructive := false
  approvalRequired := false
  allowedRoles := [py "operator", py "admin"]
  inputSchema := .object required properties false

/-- The operations that are executed. -/
inductive Action : Type
  | health
  | capabilities
  | echo
  | sha256
  | canonicalize
  | dangerousDemo
deriving DecidableEq

def Action.name : Action → PyStr
  | .health => py "system.health"
  | .capabilities => py "system." ++ py "capabilities"
  | .echo => py "frost." ++ py "diagnostics.echo"
  | .sha256 => py "frost." ++ py "diagnostics." ++ py "sha256"
  | .canonicalize => py "frost." ++ py "diagnostics." ++ py "canonicalize"
  | .dangerousDemo =>
    py "frost." ++ py "diagnostics." ++ py "dangerous_demo" ++ py "_policy_test"

def Action.operation : Action → Operation
  | .health => readOnly (py "Return canonical deployment health and source identity.") [] []
  | .capabilities => readOnly (py "Return the semantic capability contract.") [] []
  | .echo => readOnly (py "Echo UTF-8 text and return its code-point length.") [py "text"]
      [(py "text", .string)]
  | .sha256 => readOnly (py "Hash UTF-8 text with SHA-256.") [py "text"] [(py "text", .string)]
  | .canonicalize => readOnly (py "Canonicalize a JSON value and hash it.") [py "value"]
      [(py "value", .any)]
  | .dangerousDemo => {
      description := py "Guardian negative-control; no destructive implementation."
      destructive := true
      approvalRequired := true
      allowedRoles := [py "admin"]
      inputSchema := .object [py "target"] [(py "target", .string)] false }

def actions : List Action :=
  [.health, .capabilities, .echo, .sha256, .canonicalize, .dangerousDemo]

def operations : List (PyStr × Operation) := actions.map fun a => (a.name, a.operation)

def Operation.json (op : Operation) : Json := record [
  ("description", .str op.description), ("risk", .str op.risk),
  ("approval_required", .bool op.approvalRequired),
  ("allowed_roles", .arr (op.allowedRoles.map .str)), ("input_schema", op.inputSchema.json)]

def serviceId : PyStr := py "frost.callable" ++ py ".fabric"

def version : Json := .str (py "1.1.0")

def canonicalRepo : PyStr := py "12ephods-source/centinal26"

def canonicalGitSha : PyStr := py "6e5731bfbb073573c044bcc2e106d3906f6dddf5"

def sourceIdentity : PyStr := py "github:" ++ canonicalRepo ++ py "@" ++ canonicalGitSha

def sourceIdentitySha256 : Json :=
  .str (py "623c8ab6ae44939098fbdbd5f1b362d4239077498a277616f6dee76b38ada733")

def adapterSpecSha256 : Json :=
  .str (py "96fedc9ec3affe883fd3fa8f67e1813db9ca153ce9cd3b3aea7fd3379268676a")

/-- The names of this deployment, as records have them. -/
def identity : List (String × Json) := [
  ("canonical_git_sha", .str canonicalGitSha), ("source_identity_sha256", sourceIdentitySha256),
  ("deployment_adapter_sha256", adapterSpecSha256)]

def manifest : Json := record ([
  ("service_id", .str serviceId), ("version", version), ("canonical_repo", .str canonicalRepo),
  ("canonical_git_sha", .str canonicalGitSha), ("source_identity", .str sourceIdentity),
  ("source_identity_sha256", sourceIdentitySha256),
  ("deployment_adapter_sha256", adapterSpecSha256),
  ("protocols", .arr [.str (py "frost-call/1.0"), .str (py "mcp/2025-06-18")]),
  ("policy", record [("semantic_tools_only", .bool true),
    ("unrestricted_remote_shell", .bool false), ("guardian", .bool true),
    ("schema_validation", .bool true), ("provenance_receipt", .bool true)]),
  ("operations", .obj (operations.map fun m => (m.1, m.2.json)))])

-- == authorization

/-- The arguments' caller and the rest that is not part of the request: an object. -/
abbrev Context := List (PyStr × Json)

def orElse (c : Context) (key : String) (value : PyStr) : Json :=
  if truthy (prop (.obj c) key) then (prop (.obj c) key).getD .null else .str value

def role (c : Context) : Json := orElse c "role" (py "operator")

def approved (c : Context) : Bool := truthy (prop (.obj c) "approved")

def stringify (value : Json) : PyStr := (written value).text .canonical

/-- What the guardian says: the reason is given in either case. -/
structure Guardian where
  allowed : Bool
  reason : PyStr

def Guardian.json (g : Guardian) : Json :=
  record [("allowed", .bool g.allowed), ("reason", .str g.reason)]

def authorize (op : Entry Operation) (c : Context) : Guardian :=
  match op with
  | .own op =>
    if !op.allowedRoles.any fun r => (role c).isStr r then
      ⟨false, py "role " ++ stringify (role c) ++ py " not allowed"⟩
    else if (op.approvalRequired || op.destructive) && !approved c then
      ⟨false, op.risk ++ py " requires explicit approval"⟩
    else if op.destructive && !(role c).isStr (py "admin") then
      ⟨false, py "DESTRUCTIVE requires admin role"⟩
    else ⟨true, py "authorized"⟩
  | .inherited =>
    if !(role c).isStr (py "operator") && !(role c).isStr (py "admin") then
      ⟨false, py "role " ++ stringify (role c) ++ py " not allowed"⟩
    else ⟨true, py "authorized"⟩

-- == execution

/-- What the fabric is given besides the call. -/
structure Env where
  /-- SHA-256 of the UTF-8 bytes of a text -/
  sha : PyStr → PyStr
  /-- `s.toLowerCase()` -/
  lower : PyStr → PyStr
  /-- `crypto.randomUUID()` -/
  uuid : PyStr
  /-- the time of the receipt, and how many milliseconds the call took -/
  timestamp : PyStr
  elapsed : Nat

variable (env : Env)

/-- `sha256(Buffer.from(text, 'utf8'))`. -/
def Env.hash (text : PyStr) : Json := .str (env.sha (wellFormed text))

def healthResult : Json := record ([
  ("ok", .bool true), ("service", .str serviceId), ("version", version),
  ("canonical_repo", .str canonicalRepo)] ++ identity ++ [
  ("semantic_tools_only", .bool true), ("unrestricted_remote_shell", .bool false)])

/-- `a.text`, where it has to be a string. -/
def stringArg (a : Json) (key : String) : Except Failure PyStr :=
  match prop a key with
  | some (.str s) => .ok s
  | _ => .error ⟨py "TypeError", []⟩

def execute (o : PyStr) (a : Json) : Except Failure Json :=
  match actions.find? fun action => decide (action.name = o) with
  | some .health => .ok healthResult
  | some .capabilities => .ok (record [("manifest", manifest)])
  | some .echo => do
    let text ← stringArg a "text"
    .ok (record [("text", .str text), ("length", .int text.length)])
  | some .sha256 => do
    let text ← stringArg a "text"
    .ok (record [("sha256", env.hash text)])
  | some .canonicalize =>
    let c := canonical ((prop a "value").getD .null)
    .ok (record [("canonical_json", .str c), ("sha256", env.hash c)])
  | some .dangerousDemo =>
    .ok (Literal.json [("target", prop a "target"), ("executed", some (.bool false)),
      ("reason", some (.str (py "policy-test operation has no destructive implementation")))])
  | none => fail (py "operation not implemented")

def entries : Json → List (PyStr × Json)
  | .obj ms => ms
  | .arr xs => xs.zipIdx.map fun m => (py (toString m.2), m.1)
  | .str s => (units s).zipIdx.map fun m => (py (toString m.2), .str [m.1])
  | _ => []

def redact (a : Json) : Json :=
  .obj ((entries a).map fun m =>
    if env.lower m.1 ∈ ["password", "passwd", "token", "secret", "api_key", "authorization"].map py
    then (m.1, .str (py "<redacted>")) else m)

-- == answers

/-- What a call comes to. -/
inductive Event : Type
  | notFound (message : PyStr)
  | denied (guardian : Guardian)
  | failed (guardian : Guardian) (error : Failure)
  | ok (guardian : Guardian) (result : Json)

def receipt (b : List (String × Json)) : Json :=
  record (b ++ [("record_hash", env.hash (canonical (record b)))])

def requestId (c : Context) : Json := orElse c "request_id" env.uuid

def common (s o : PyStr) (a : Json) (c : Context) : List (String × Json) := [
  ("request_id", requestId env c), ("service_id", .str s), ("operation", .str o),
  ("caller", orElse c "caller" (py "https")), ("role", role c)] ++ identity ++ [
  ("request_hash", env.hash (canonical (record [
    ("service_id", .str s), ("operation", .str o), ("arguments", redact env a)])))]

def answer (s o : PyStr) (a : Json) (c : Context) : Event → Json
  | .notFound message => record [("ok", .bool false),
      ("error", record [("type", .str (py "NOT_FOUND")), ("message", .str message)]),
      ("receipt", receipt env (common env s o a c ++ [
        ("event", .str (py "INVOCATION_NOT_FOUND")), ("timestamp", .str env.timestamp)]))]
  | .denied g => record [
      ("ok", .bool false), ("request_id", requestId env c), ("service_id", .str s),
      ("operation", .str o),
      ("error", record [("type", .str (py "DENIED")), ("message", .str g.reason)]),
      ("receipt", receipt env (common env s o a c ++ [
        ("guardian", g.json), ("event", .str (py "INVOCATION_DENIED")),
        ("timestamp", .str env.timestamp)]))]
  | .failed g e => record [("ok", .bool false),
      ("error", record [("type", .str e.name), ("message", .str e.message)]),
      ("receipt", receipt env (common env s o a c ++ [
        ("guardian", g.json), ("event", .str (py "INVOCATION_ERROR")),
        ("error_type", .str e.name), ("error", .str e.message),
        ("timestamp", .str env.timestamp)]))]
  | .ok g result =>
    let hash := env.hash (canonical result)
    record [("ok", .bool true), ("request_id", requestId env c), ("service_id", .str s),
      ("operation", .str o), ("result", result),
      ("diagnostics", record ([("elapsed_ms", .int env.elapsed), ("version", version)] ++ identity
        ++ [("result_hash", hash)])),
      ("receipt", receipt env (common env s o a c ++ [
        ("guardian", g.json), ("event", .str (py "INVOCATION_OK")), ("result_hash", hash),
        ("elapsed_ms", .int env.elapsed), ("timestamp", .str env.timestamp)]))]

def event (s o : PyStr) (a : Json) (c : Context) : Event :=
  if s ≠ serviceId then .notFound (py "service not registered")
  else match entry operations o with
    | none => .notFound (py "operation not registered")
    | some op =>
      let g := authorize op c
      if g.allowed = false then .denied g
      else
        let result := do
          match op with
            | .own op => validate a op.inputSchema (py "$")
            -- an inherited operation has no schema
            | .inherited => .ok ()
          execute env o a
        match result with
        | .ok result => .ok g result
        | .error e => .failed g e

def invoke (s o : PyStr) (a : Json) (c : Context) : Event × Json :=
  let e := event env s o a c
  (e, answer env s o a c e)

-- == contract

mutual

/-- A value fits a schema, where an object may have the names that are given besides those of the
schema. -/
def Fits (besides : List PyStr) : Json → Schema → Prop
  | _, .any => True
  | d, .string => ∃ s, d = .str s
  | .obj ms, .object required properties additional =>
    (∀ k ∈ required, k ∈ ms.map Prod.fst ∨ k ∈ besides)
      ∧ FitEntries besides ms properties additional
  | _, .object .. => False

def FitEntries (besides : List PyStr) : List (PyStr × Json) → List (PyStr × Schema) → Bool → Prop
  | [], _, _ => True
  | (k, v) :: rest, properties, additional =>
    (match getItem? properties k with
      | some s => Fits besides v s
      | none => additional = true ∨ k ∈ besides)
    ∧ FitEntries besides rest properties additional

end

structure Authorized (op : Operation) (c : Context) : Prop where
  role : ∃ r ∈ op.allowedRoles, role c = .str r
  approved : (op.approvalRequired || op.destructive) = true → approved c = true
  admin : op.destructive = true → Fabric.role c = .str (py "admin")

/-- What is executed: a declared operation of the service, for a caller that is allowed to, with
arguments that fit its schema. -/
def Contract (s o : PyStr) (a : Json) (c : Context) : Prop :=
  s = serviceId ∧ ∃ op, getItem? operations o = some op ∧ Authorized op c ∧ Fits [] a op.inputSchema

/-- The operation is not named like what every object has, and the arguments of a call that is
otherwise executed have no such names besides those of the schema. -/
def Plain (s o : PyStr) (a : Json) (c : Context) : Prop :=
  s = serviceId → o ∉ objectNames ∧ ∀ op, getItem? operations o = some op → Authorized op c →
    Fits objectNames a op.inputSchema → Fits [] a op.inputSchema

-- == checks

variable {α : Type} {object : List (PyStr × α)}

theorem fail_ne_ok {message : PyStr} {a : α} : fail message ≠ .ok a :=
  fun h => by cases h

theorem isIn_iff {name : PyStr} :
    isIn name object = true ↔ name ∈ object.map Prod.fst ∨ name ∈ objectNames := by
  rw [isIn, Bool.or_eq_true, isOneOf, isOneOf, decide_eq_true_eq, decide_eq_true_eq]

theorem validateRequired_ok {p : PyStr}
    {required : List PyStr} : validateRequired object p required = .ok ()
      ↔ ∀ k ∈ required, k ∈ object.map Prod.fst ∨ k ∈ objectNames := by
  induction required with
  | nil => exact iff_of_true rfl fun _ h => absurd h List.not_mem_nil
  | cons k rest ih =>
    rw [validateRequired, List.forall_mem_cons, ← isIn_iff]
    cases hk : isIn k object with
    | false => exact iff_of_false fail_ne_ok fun h => (by cases h.1)
    | true =>
      rw [if_pos rfl, ih]
      exact ⟨fun h => ⟨rfl, h⟩, fun h => h.2⟩

theorem then_ok {x : Except Failure Unit} {y : Except Failure Unit} :
    (x >>= fun _ => y) = .ok () ↔ x = .ok () ∧ y = .ok () := by
  cases x with
  | error e => exact iff_of_false (nofun) fun h => (by cases h.1)
  | ok u => exact ⟨fun h => ⟨rfl, h⟩, fun h => h.2⟩

mutual

theorem validate_ok : ∀ (d : Json) (s : Schema) (p : PyStr),
    validate d s p = .ok () ↔ Fits objectNames d s
  | .obj ms, .object required properties additional, p => by
    rw [validate, Fits, then_ok, validateRequired_ok, validateEntries_ok]
  | .null, s, p | .bool _, s, p | .int _, s, p | .float _, s, p | .arr _, s, p => by
    cases s with
    | any => exact iff_of_true rfl trivial
    | string => exact iff_of_false fail_ne_ok fun ⟨_, h⟩ => (by cases h)
    | object => exact iff_of_false fail_ne_ok id
  | .str t, s, p => by
    cases s with
    | any => exact iff_of_true rfl trivial
    | string => exact iff_of_true rfl ⟨t, rfl⟩
    | object => exact iff_of_false fail_ne_ok id
  | .obj _, .any, _ => iff_of_true rfl trivial
  | .obj _, .string, _ => iff_of_false fail_ne_ok fun ⟨_, h⟩ => (by cases h)

theorem validateEntries_ok : ∀ (ms : List (PyStr × Json)) (properties : List (PyStr × Schema))
    (additional : Bool) (p : PyStr),
    validateEntries ms properties additional p = .ok ()
      ↔ FitEntries objectNames ms properties additional
  | [], _, _, _ => iff_of_true rfl trivial
  | (k, v) :: rest, properties, additional, p => by
    rw [validateEntries, FitEntries, then_ok, validateEntries_ok rest, entry]
    refine and_congr ?_ Iff.rfl
    cases getItem? properties k with
    | some s => exact validate_ok v s _
    | none =>
      dsimp only
      by_cases hk : k ∈ objectNames
      · rw [if_pos hk]
        exact iff_of_true rfl (.inr hk)
      · rw [if_neg hk]
        cases additional with
        | false => exact iff_of_false fail_ne_ok fun h => h.elim (nofun) hk
        | true => exact iff_of_true rfl (.inl rfl)

end

variable {s o : PyStr} {op : Operation} {c : Context} {a : Json}

variable {v : Json} {k : PyStr} {besides : List PyStr}

theorem isStr_iff : v.isStr s = true ↔ v = .str s := by
  cases v <;> simp [Json.isStr]

theorem authorize_own : (authorize (.own op) c).allowed = true ↔ Authorized op c := by
  have hrole : (op.allowedRoles.any fun r => (role c).isStr r) = true
      ↔ ∃ r ∈ op.allowedRoles, role c = .str r := by
    simp only [List.any_eq_true, isStr_iff]
  unfold authorize
  dsimp only
  split
  · rename_i hnot
    refine iff_of_false (nofun) fun h => ?_
    rw [Bool.not_eq_true', hrole.mpr h.role] at hnot
    cases hnot
  · rename_i hany
    rw [Bool.not_eq_true', Bool.not_eq_false] at hany
    split
    · rename_i hnot
      rw [Bool.and_eq_true, Bool.not_eq_true'] at hnot
      refine iff_of_false (nofun) fun h => ?_
      have happroved := h.approved hnot.1
      rw [hnot.2] at happroved
      cases happroved
    · rename_i happroved
      split
      · rename_i hnot
        rw [Bool.and_eq_true, Bool.not_eq_true'] at hnot
        refine iff_of_false (nofun) fun h => ?_
        have hadmin := isStr_iff.mpr (h.admin hnot.1)
        rw [hnot.2] at hadmin
        cases hadmin
      · rename_i hadmin
        refine iff_of_true rfl ⟨hrole.mp hany, fun h => ?_, fun h => ?_⟩
        · rw [h, Bool.true_and, Bool.not_eq_true', Bool.not_eq_false] at happroved
          exact happroved
        · rw [h, Bool.true_and, Bool.not_eq_true', Bool.not_eq_false] at hadmin
          exact isStr_iff.mp hadmin

-- == execution

theorem action_of_operation (h : getItem? operations o = some op) :
    ∃ action, actions.find? (fun action => decide (action.name = o)) = some action
      ∧ action.operation = op := by
  unfold getItem? operations at h
  rw [List.find?_map, Option.map_map, Option.map_eq_some_iff] at h
  obtain ⟨action, hfind, hop⟩ := h
  exact ⟨action, hfind, hop⟩

theorem operations_objectNames : ∀ name ∈ objectNames, getItem? operations name = none := by
  decide +kernel

theorem getItem?_of_mem {α : Type} {ms : List (PyStr × α)}
    (h : k ∈ ms.map Prod.fst) : ∃ v, getItem? ms k = some v := by
  induction ms with
  | nil => exact absurd h List.not_mem_nil
  | cons m ms ih =>
    rw [getItem?_cons]
    by_cases hk : m.1 = k
    · exact ⟨m.2, if_pos hk⟩
    · rw [if_neg hk]
      rcases List.mem_cons.mp h with heq | hin
      · exact absurd heq.symm hk
      · exact ih hin

theorem fits_member {ms : List (PyStr × Json)}
    {properties : List (PyStr × Schema)} {additional : Bool} {s : Schema}
    (h : FitEntries besides ms properties additional) (hv : getItem? ms k = some v)
    (hs : getItem? properties k = some s) : Fits besides v s := by
  induction ms with
  | nil => cases hv
  | cons m ms ih =>
    rw [getItem?_cons] at hv
    by_cases hk : m.1 = k
    · rw [if_pos hk] at hv
      cases hv
      have hfit := h.1
      rw [hk, hs] at hfit
      exact hfit
    · rw [if_neg hk] at hv
      exact ih h.2 hv

theorem stringArg_ok {key : String}
    (h : Fits besides a (.object [py key] [(py key, .string)] false)) (hout : py key ∉ besides) :
    ∃ s, stringArg a key = .ok s := by
  match a, h with
  | .obj ms, h =>
    rw [Fits] at h
    obtain ⟨v, hv⟩ := getItem?_of_mem ((h.1 _ (List.mem_singleton.mpr rfl)).resolve_right hout)
    have hfits := fits_member h.2 hv (s := .string) (by rw [getItem?_cons, if_pos rfl])
    match v, hfits with
    | .str t, _ => exact ⟨t, by rw [stringArg, prop, hv]⟩

theorem execute_ok (hop : getItem? operations o = some op) (h : Fits objectNames a op.inputSchema) :
    ∃ result, execute env o a = .ok result := by
  obtain ⟨action, hfind, rfl⟩ := action_of_operation hop
  have htext : py "text" ∉ objectNames := by decide +kernel
  unfold execute
  rw [hfind]
  cases action with
  | health => exact ⟨_, rfl⟩
  | capabilities => exact ⟨_, rfl⟩
  | canonicalize => exact ⟨_, rfl⟩
  | dangerousDemo => exact ⟨_, rfl⟩
  | echo =>
    obtain ⟨text, harg⟩ := stringArg_ok h htext
    exact ⟨_, by simp only [harg]; rfl⟩
  | sha256 =>
    obtain ⟨text, harg⟩ := stringArg_ok h htext
    exact ⟨_, by simp only [harg]; rfl⟩

theorem execute_undeclared {result : Json} (h : getItem? operations o = none) :
    execute env o a ≠ .ok result := by
  unfold getItem? operations at h
  rw [List.find?_map, Option.map_map, Option.map_eq_none_iff] at h
  have hnone : actions.find? (fun action => decide (action.name = o)) = none := h
  unfold execute
  rw [hnone]
  exact fail_ne_ok

-- == contract

/-- Exactly the calls of a declared operation that is allowed, with arguments that pass its
validation, are answered with a result. -/
theorem event_ok : (∃ g result, event env s o a c = .ok g result)
      ↔ s = serviceId ∧ ∃ op, getItem? operations o = some op ∧ Authorized op c
        ∧ Fits objectNames a op.inputSchema := by
  unfold event
  by_cases hs : s = serviceId
  · rw [if_neg (not_not_intro hs), entry]
    cases hop : getItem? operations o with
    | none =>
      refine iff_of_false ?_ fun ⟨_, _, h, _⟩ => (by cases h)
      dsimp only
      split
      · exact fun ⟨_, _, h⟩ => (by cases h)
      · rename_i op hname
        split at hname
        · cases hname
          split
          · exact fun ⟨_, _, h⟩ => (by cases h)
          · split
            · rename_i result hresult
              exact absurd hresult (execute_undeclared env hop)
            · exact fun ⟨_, _, h⟩ => (by cases h)
        · cases hname
    | some op =>
      dsimp only
      cases hg : (authorize (.own op) c).allowed with
      | false =>
        refine iff_of_false (fun ⟨_, _, h⟩ => (by cases h)) ?_
        rintro ⟨-, op', hsame, hauth, -⟩
        cases hsame
        rw [authorize_own.mpr hauth] at hg
        cases hg
      | true =>
        have hauth := authorize_own.mp hg
        rw [if_neg (by decide)]
        cases hvalid : validate a op.inputSchema (py "$") with
        | error e =>
          refine iff_of_false (fun ⟨_, _, h⟩ => (by cases h)) ?_
          rintro ⟨-, op', hsame, -, hfits⟩
          cases hsame
          rw [(validate_ok _ _ _).mpr hfits] at hvalid
          cases hvalid
        | ok u =>
          have hfits := (validate_ok _ _ _).mp hvalid
          obtain ⟨result, hresult⟩ := execute_ok env hop hfits
          refine iff_of_true ⟨authorize (.own op) c, result, ?_⟩ ⟨hs, op, rfl, hauth, hfits⟩
          show (match execute env o a with
            | .ok result => Event.ok _ result
            | .error e => Event.failed _ e) = _
          rw [hresult]
  · rw [if_pos hs]
    exact iff_of_false (fun ⟨_, _, h⟩ => (by cases h)) fun h => absurd h.1 hs

/-- Exactly the calls of another service, or of a name that is neither declared nor one that every
object has, are answered with `NOT_FOUND`. -/
theorem event_notFound : (∃ message, event env s o a c = .notFound message)
      ↔ s = serviceId → getItem? operations o = none ∧ o ∉ objectNames := by
  unfold event
  by_cases hs : s = serviceId
  · rw [if_neg (not_not_intro hs), entry]
    have hfound : ∀ op : Entry Operation, ¬ ∃ message, (
        if (authorize op c).allowed = false then Event.denied (authorize op c)
        else match (do
            match op with
              | .own op => validate a op.inputSchema (py "$")
              | .inherited => .ok ()
            execute env o a) with
          | .ok result => .ok (authorize op c) result
          | .error e => .failed (authorize op c) e) = .notFound message := by
      rintro op ⟨message, h⟩
      split at h
      · cases h
      · split at h <;> cases h
    cases hop : getItem? operations o with
    | some op =>
      exact iff_of_false (hfound _) fun h => (by cases (h hs).1)
    | none =>
      dsimp only
      by_cases ho : o ∈ objectNames
      · rw [if_pos ho]
        exact iff_of_false (hfound _) fun h => (h hs).2 ho
      · rw [if_neg ho]
        exact iff_of_true ⟨_, rfl⟩ fun _ => ⟨rfl, ho⟩
  · rw [if_pos hs]
    exact iff_of_true ⟨_, rfl⟩ fun h => absurd h hs

/-- The fabric executes exactly its contract, and does not find what is not declared, unless a name
that every object has is called or is among the arguments of a call that is fine without it. -/
theorem invoke_contract (s o : PyStr) (a : Json) (c : Context) :
    ((∀ g result, (invoke env s o a c).1 = .ok g result → Contract s o a c)
        ∧ (getItem? operations o = none → ∃ message, (invoke env s o a c).1 = .notFound message))
      ↔ Plain s o a c := by
  constructor
  · rintro ⟨hok, hnone⟩ hs
    refine ⟨fun ho => ?_, fun op hop hauth hfits => ?_⟩
    · exact ((event_notFound env).mp (hnone (operations_objectNames o ho)) hs).2 ho
    · obtain ⟨g, result, hevent⟩ := (event_ok env).mpr ⟨hs, op, hop, hauth, hfits⟩
      obtain ⟨-, op', hop', -, hfits'⟩ := hok g result hevent
      rw [hop] at hop'
      cases hop'
      exact hfits'
  · intro h
    refine ⟨fun g result hevent => ?_, fun hop => ?_⟩
    · obtain ⟨hs, op, hop, hauth, hfits⟩ := (event_ok env).mp ⟨g, result, hevent⟩
      exact ⟨hs, op, hop, hauth, (h hs).2 op hop hauth hfits⟩
    · exact (event_notFound env).mpr fun hs => ⟨hop, (h hs).1⟩

-- == samples

section Sample

private def sampleEnv : Env where
  sha := id
  lower := id
  uuid := []
  timestamp := []
  elapsed := 0

/-- Every object has a `toString`: it is found, and the call is not answered with `NOT_FOUND`. -/
theorem invoke_toString : ¬ (getItem? operations (py "toString") = none →
      ∃ message, (invoke sampleEnv serviceId (py "toString") (.obj []) []).1
        = .notFound message) := by
  intro h
  have hevent : ∃ message, event sampleEnv serviceId (py "toString") (.obj []) []
      = .notFound message := h (by decide +kernel)
  exact ((event_notFound sampleEnv).mp hevent rfl).2 (by decide +kernel)

end Sample

end Centinal26.Fabric
