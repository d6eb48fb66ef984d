/-
What the callable worker and its verifier have in common: the operations they approve of, the
decision on the effects of a request, and the key a request goes by.
-/
import Centinal26.Js.Canonical

namespace Centinal26.Callable

open Py Js

-- == libraries

/-- What the worker and the verifier call. -/
structure Libraries where
  /-- the hex digest of a text -/
  sha : PyStr → PyStr
  /-- the hex digest of a file -/
  digest : PyStr → PyStr
  /-- `bytes.toString('utf8')` -/
  decode : PyStr → PyStr
  /-- `JSON.parse(text)`, unless it throws -/
  parse : PyStr → Option Json
  /-- the message of what it throws -/
  syntaxError : PyStr → PyStr
  /-- `Date.parse(s)`, unless it is `NaN` -/
  dateParse : PyStr → Option Rat

/-- The digests of two canonical texts tell them apart. -/
def CollisionFree (L : Libraries) : Prop :=
  ∀ v w, L.sha (canonical v) = L.sha (canonical w) → canonical v = canonical w

-- == operations

def protocol : PyStr := py "frost-call/1.0"

def requiredSideEffectProtocol : PyStr := py "frost-effect/1.0"

def approvedSemanticCoreFileSha256 : PyStr :=
  py "6e3c6dd26f472456f38b1504d12b1e36723494d663426a8fa8d5eb37f413e5a8"

def approvedReadOnlyOperations : List PyStr :=
  [py "system.health", py "system.capabilities", py "frost.diagnostics.echo",
    py "frost.diagnostics.sha256", py "frost.diagnostics.canonicalize"]

def effectFreeNegativeControls : List PyStr :=
  [py "frost.diagnostics.dangerous_demo_policy_test"]

/-- `/[A-Za-z0-9_-]/`. -/
def isToolChar (c : Nat) : Bool :=
  (65 ≤ c && c ≤ 90) || (97 ≤ c && c ≤ 122) || (48 ≤ c && c ≤ 57) || c == 95 || c == 45

def mcpToolName (name : PyStr) : PyStr := name.map fun c => if isToolChar c then c else 95

def kindOf (request : Json) : Option Json :=
  if truthy (prop request "kind") then prop request "kind" else some (.str (py "invoke"))

def method (request : Json) : Option Json := read (prop request "message") "method"

def semanticOperation (request : Json) : Except Thrown (Option PyStr) :=
  if is (kindOf request) (py "invoke") then
    match request with
    | .null => typeError
    | request => match prop request "operation" with
        | some (.str operation) => .ok (some operation)
        | _ => .ok none
  else if is (kindOf request) (py "mcp") && is (method request) (py "tools/call") then
    match read (read (prop request "message") "params") "name" with
    | some (.str tool) =>
      .ok (some (((approvedReadOnlyOperations ++ effectFreeNegativeControls).find? fun o =>
        mcpToolName o == tool).getD tool))
    | _ => .ok none
  else .ok none

-- == decision

/-- A decision on the effects of a request, with the members that depend on its status. -/
structure Decision where
  allowed : Bool
  status : String
  rest : List (String × Json)

def Decision.json (d : Decision) : Json :=
  record (("allowed", .bool d.allowed) :: ("status", .str (py d.status)) :: d.rest)

/-- A decision that lets the request through. -/
def allow (status : String) (operation : Option PyStr) (core : Json) : Decision where
  allowed := true
  status := status
  rest := [("operation", operation.elim .null .str), ("semantic_core_file_sha256", core)]

def decideOperation (operation : Option PyStr) (core : Json) : Decision :=
  if operation.any (approvedReadOnlyOperations.contains ·) then allow "READ_ONLY" operation core
  else if operation.any (effectFreeNegativeControls.contains ·) then
    allow "EFFECT_FREE_NEGATIVE_CONTROL" operation core
  else {
    allowed := false
    status := "SIDE_EFFECT_PROTOCOL_REQUIRED"
    rest := [("operation", operation.elim .null .str), ("semantic_core_file_sha256", core),
      ("required_protocol", .str requiredSideEffectProtocol)] }

def effectDecision (request core : Json) : Except Thrown Decision :=
  if core.isStr approvedSemanticCoreFileSha256 then
    if is (kindOf request) (py "mcp")
        && (is (method request) (py "initialize") || is (method request) (py "tools/list")) then
      .ok (allow "CONTROL_PLANE_READ_ONLY" none core)
    else if is (kindOf request) (py "mcp") && !is (method request) (py "tools/call") then
      .ok (allow "CONTROL_PLANE_NONEXECUTING" none core)
    else (semanticOperation request).map fun operation => decideOperation operation core
  else .ok {
    allowed := false
    status := "SEMANTIC_CORE_POLICY_DRIFT"
    rest := [("semantic_core_file_sha256", core),
      ("approved_semantic_core_file_sha256", .str approvedSemanticCoreFileSha256),
      ("required_protocol", .str requiredSideEffectProtocol)] }

def ControlPlane (request : Json) : Prop :=
  kindOf request = some (.str (py "mcp")) ∧ method request ≠ some (.str (py "tools/call"))

/-- The operation of the request is one that is approved of, or has no effects, or there is none
because the request is a message of the control plane. -/
def Approved (request : Json) : Prop :=
  (∃ operation, semanticOperation request = .ok (some operation)
    ∧ operation ∈ approvedReadOnlyOperations ++ effectFreeNegativeControls)
  ∨ ControlPlane request

theorem decideOperation_allowed {operation : Option PyStr} {core : Json}
    (h : (decideOperation operation core).allowed = true) : ∃ name, operation = some name
      ∧ name ∈ approvedReadOnlyOperations ++ effectFreeNegativeControls := by
  unfold decideOperation at h
  cases operation with
  | none => cases h
  | some name =>
    refine ⟨name, rfl, ?_⟩
    split at h
    · next hmem => exact List.mem_append_left _ (by simpa using hmem)
    · split at h
      · next hmem => exact List.mem_append_right _ (by simpa using hmem)
      · cases h

theorem effectDecision_allowed {request core : Json} {d : Decision}
    (h : effectDecision request core = .ok d) (hallowed : d.allowed = true) : Approved request := by
  unfold effectDecision at h
  split at h
  · split at h
    · next hmcp =>
      rw [Bool.and_eq_true, Bool.or_eq_true, is_iff, is_iff, is_iff] at hmcp
      refine .inr ⟨hmcp.1, fun hcall => ?_⟩
      rcases hmcp.2 with hmethod | hmethod
      all_goals
        rw [hcall, Option.some_inj, Json.str.injEq, py_inj] at hmethod
        exact absurd hmethod (by decide)
    · split at h
      · next hmcp =>
        rw [Bool.and_eq_true, is_iff, Bool.not_eq_true', ← Bool.not_eq_true, is_iff] at hmcp
        exact .inr hmcp
      · cases hop : semanticOperation request with
        | error e =>
          rw [hop] at h
          cases h
        | ok operation =>
          rw [hop] at h
          cases h
          obtain ⟨name, rfl, hmem⟩ := decideOperation_allowed hallowed
          exact .inl ⟨name, hop, hmem⟩
  · cases h
    cases hallowed

-- == identity

/-- The hash of a request and the key it goes by. -/
structure Identity where
  sha256 : PyStr
  key : PyStr

/-- `request.idempotency_key ?? request.context?.idempotency_key`. -/
def givenKey (request : Json) : Option Json :=
  (nullish (prop request "idempotency_key")).or
    (nullish (read (prop request "context") "idempotency_key"))

def keyOf (request : Json) (sha256 : PyStr) : Option PyStr :=
  match (givenKey request).getD (.str sha256) with
  | .str s => if (trim s).isEmpty then none else some (trim s)
  | _ => none

/-- `request?.context?.expires_at`, unless it is `null`. -/
def expiresAt (request : Json) : Option Json :=
  nullish (read (prop request "context") "expires_at")

end Centinal26.Callable
