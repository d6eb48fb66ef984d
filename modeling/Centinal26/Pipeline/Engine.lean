/-
`EvidenceStore` and `AutomatedEngine`.
-/
import Centinal26.Pipeline.Store

namespace Centinal26.Pipeline

open Py Centinal26.Core Steps

-- == capabilities

structure CapabilitySpec where
  name : PyStr
  executor : Nat → PyVal → Outcome PyVal × PyFloat
  verifier : Nat → PyVal → PyVal → Outcome PyVal
  reducer : Option (Nat → PyVal → PyVal → Outcome PyVal)
  timeoutSeconds : PyFloat
  maxAttempts : Int
  verifierIndependent : Bool
  /-- the verifier's `__qualname__` -/
  verifierName : PyStr

/-- `AutomatedEngine`: its connection, its registry, and `str` of a library's
exception. -/
structure AutomatedEngine where
  me : Nat
  capabilities : PyStr → Option CapabilitySpec
  describe : PyErr → PyStr

/-- A non-negative number rounded to the nearest integer, a tie to the even
one. -/
def roundHalfEven (q : Rat) : Nat :=
  let down := q.floor.toNat
  let rest := q - down
  if rest < 1 / 2 then down
  else if 1 / 2 < rest then down + 1
  else if down % 2 = 0 then down else down + 1

/-- `f"{x:.3f}"`. -/
def fixed3 : PyFloat → PyStr
  | .nan => py "nan"
  | .infinity => py "inf"
  | .negInfinity => py "-inf"
  | .finite ⟨q, spelled, _⟩ =>
    let n := roundHalfEven ((if q < 0 then -q else q) * 1000)
    let thousandths := intRepr (n % 1000 : Nat)
    (if spelled.head? = some 45 then [45] else []) ++ intRepr (n / 1000 : Nat)
      ++ [46] ++ List.replicate (3 - thousandths.length) 48 ++ thousandths

-- == evidence

section Evidence

variable (H : Host)

def evidenceDocument (jobId : Text) (attempt : Nat)
    (payload : List (PyKey × PyVal)) (recordedAt : Instant) :
    Except PyErr Json := do
  let body := payload ++ [item "job_id" jobId.val, item "attempt" (.int attempt),
    item "recorded_at" (H.isoformat recordedAt).val]
  let sha ← canonicalSha256 H (.dict body)
  dumps (.dict (body ++ [item "sha256" sha.val]))

/-- `if path.exists(): raise FileExistsError(path)`. -/
def checkAbsent (path : EvidencePath) : RBlock Unit := fun w =>
  match w.evidence.find? path with
  | some _ => (.error (.py .fileExistsError), w)
  | none => (.ok (), w)

/-- The document, once it is known that the file is not there. -/
def prepareEvidence (path : EvidencePath) (payload : List (PyKey × PyVal)) : RBlock Json := do
  let now ← readClock H
  let document ← liftPy (evidenceDocument H path.jobId path.attempt payload now)
  checkAbsent path
  pure document

/-- `os.replace(temp, path)`. -/
def replaceEvidence (file : EvidenceFile) : RBlock Unit := fun w =>
  match w.evidence.insert? file with
  | some evidence => (.ok (), { w with evidence })
  | none =>
    (.ok (), { w with
      evidence := w.evidence.modify file.path
        (fun old => { file with path := old.path }) fun _ => rfl })

def writeEvidence (jobId : Text) (attempt : Nat) (kind : EvidenceKind)
    (payload : List (PyKey × PyVal)) : RProg EvidencePath := do
  let path : EvidencePath := ⟨jobId, attempt, kind⟩
  let document ← Prog.block .outside (prepareEvidence H path payload)
  Prog.block .outside (replaceEvidence ⟨path, document⟩)
  pure path

/-- `EvidenceStore.verify`, of a file's document. -/
def verifyDocument (document : Json) : Except PyErr Bool :=
  match loads document with
  | .dict items => do
    let found := items.find? fun m => decide (m.1 = .str (py "sha256"))
    let body := items.filter fun m => !decide (m.1 = .str (py "sha256"))
    let sha ← canonicalSha256 H (.dict body)
    .ok ((found.map Prod.snd).getD .none |>.eq sha.val)
  | _ => .error .typeError

def readEvidence (path : EvidencePath) : RBlock Json := fun w =>
  match w.evidence.find? path with
  | some file => (.ok file.body, w)
  | none => (.error (.py (.operationalError "No such file or directory")), w)

def verifyEvidence (path : EvidencePath) : RProg Bool :=
  Prog.block .outside do
    let document ← readEvidence path
    liftPy (verifyDocument H document)

/-- `json.loads(path.read_text())["sha256"]`. -/
def evidenceSha (path : EvidencePath) : RProg PyVal :=
  Prog.block .outside do
    let document ← readEvidence path
    liftPy (match loads document with
      | .dict items =>
        match items.find? fun m => decide (m.1 = .str (py "sha256")) with
        | some m => .ok m.2
        | none => .error (.keyError (py "sha256"))
      | _ => .error .typeError)

end Evidence

-- == the engine

section Engine

variable (H : Host) (E : AutomatedEngine)

/-- `append`, at a reading of the clock. -/
def writeAudit (event : String) (payload : List (PyKey × PyVal))
    (now : Instant) : RBlock Unit := fun w =>
  match w.audit.append H event (.dict payload) now with
  | .ok audit => (.ok (), { w with audit })
  | .error e => (.error (.py e), w)

def auditAppend (event : String) (payload : List (PyKey × PyVal)) : RProg Unit :=
  Prog.block .outside do
    let now ← readClock H
    writeAudit H event payload now

def permits (grant : Grant) (capability : PyStr) : RProg Bool :=
  Prog.block .outside do
    let now ← readClock H
    liftPy (grant.permits capability now)

def invoke {α : Type} (f : Nat → α) : RProg α :=
  Prog.block .outside fun w => (.ok (f w.ticks), { w with ticks := w.ticks + 1 })

def register (spec : CapabilitySpec) : RProg AutomatedEngine := do
  if spec.timeoutSeconds.num.lt (.finite 0)
      || spec.timeoutSeconds.num.eq (.finite 0) || decide (spec.maxAttempts < 1) then
    raisePy (.valueError "capability bounds must be positive")
  else do
    auditAppend H "capability_registered" [item "capability" (.str spec.name)]
    pure { E with capabilities := fun name =>
      if name = spec.name then some spec else E.capabilities name }

def engineSubmit (intent : Intent) (grant : Grant)
    (idempotencyKey : Option PyStr) : RProg Text := do
  let about := [item "intent_id" (.str intent.intentId), item "capability" (.str intent.capability)]
  if !(← permits H grant intent.capability) then do
    auditAppend H "authorization_denied" about
    raisePy (.permissionError "grant does not authorize requested capability")
  else
    match E.capabilities intent.capability with
    | none => do
      auditAppend H "capability_unavailable" about
      raisePy (.keyError (py "unknown capability: " ++ intent.capability))
    | some spec => do
      let key := match idempotencyKey with
        | some key => if key = [] then py "intent:" ++ intent.intentId else key
        | none => py "intent:" ++ intent.intentId
      let (id, created) ← Prog.tryCatch
        (submit H E.me intent grant key spec.maxAttempts) fun e =>
          match e with
          | .idempotencyConflict _ => do
            auditAppend H "idempotency_conflict" (about ++ [item "key" (.str key)])
            Prog.raise e
          | _ => Prog.raise e
      auditAppend H (if created then "job_queued" else "job_deduplicated")
        (item "job_id" id.val :: about)
      pure id

def failure (fields : List (PyKey × PyVal)) : List (PyKey × PyVal) :=
  item "ok" (.bool false) :: fields

/-- `_execute`, with the exception it may end in as a value. -/
def execution (spec : CapabilitySpec) (payload : PyVal) :
    RProg (Except (PyStr × PyStr) (PyVal × PyFloat)) := do
  let (outcome, elapsed) ← invoke fun n => spec.executor n payload
  match outcome with
  | .returned output =>
    if spec.timeoutSeconds.num.lt elapsed.num then
      pure (.error (py "TimeoutError", py "capability exceeded "
        ++ fixed3 spec.timeoutSeconds ++ py "s bound (" ++ fixed3 elapsed
        ++ py "s)"))
    else pure (.ok (output, elapsed))
  | .raised name message => pure (.error (name, message))
  | .escaped => Prog.raise .escaped

def recordFailure (row : JobRow) (spec : CapabilitySpec)
    (result : List (PyKey × PyVal)) (recoveryTest : Bool) :
    RProg (Option Text) := do
  let path ← writeEvidence H row.id row.attempts .executionFailure
    [item "intent" row.intent.asdict, item "capability" (.str spec.name),
      item "execution_error" (.dict result)]
  let state ← retry H E.me row.id (.dict result) path
  auditAppend H ("job_" ++ state.value) (item "job_id" row.id.val :: result)
  let complete ← verifyEvidence H path
  record H E.me false complete recoveryTest spec.verifierIndependent false
  pure (some row.id)

/-- The exit for a job whose grant or capability is not valid. -/
def reject (row : JobRow) (recoveryTest : Bool) : RProg (Option Text) := do
  let result := failure
    [item "error" (.str (py "authorization_or_capability_invalid"))]
  let path ← writeEvidence H row.id row.attempts .rejected
    [item "intent" row.intent.asdict, item "result" (.dict result)]
  finish H E.me row.id .rejected (.dict result) (some path)
  auditAppend H "job_rejected" (item "job_id" row.id.val :: result)
  let complete ← verifyEvidence H path
  record H E.me false complete recoveryTest false false
  pure (some row.id)

def errorFields : Option (PyStr × PyStr) → PyVal
  | none => .none
  | some (name, message) =>
    .dict [item "error" (.str name), item "message" (.str message)]

/-- The exit for an output that is not verified, or not in evidence. -/
def failVerification (row : JobRow) (spec : CapabilitySpec)
    (verified complete : Bool) (error : Option (PyStr × PyStr))
    (path : EvidencePath) (recoveryTest : Bool) : RProg (Option Text) := do
  let result := failure [item "verified" (.bool verified),
    item "evidence_complete" (.bool complete),
    item "verifier_error" (errorFields error)]
  finish H E.me row.id .failedVerification (.dict result) (some path)
  auditAppend H "job_failed_verification" (item "job_id" row.id.val :: result)
  record H E.me false complete recoveryTest spec.verifierIndependent false
  pure (some row.id)

/-- The exit for a state that reads back different. -/
def divergeState (row : JobRow) (spec : CapabilitySpec) (path : EvidencePath)
    (updated observed : PyVal) (recoveryTest : Bool) : RProg Unit := do
  let result := failure [item "verified" (.bool true), item "error" (.str (py "state_diverged")),
    item "expected_state" updated, item "observed_state" observed]
  let divergence ← writeEvidence H row.id row.attempts .stateDivergence
    [item "output_evidence" (.str path.str), item "state_divergence" (.dict result)]
  finish H E.me row.id .stateDiverged (.dict result) (some divergence)
  auditAppend H "job_state_diverged" (item "job_id" row.id.val :: result)
  let complete ← verifyEvidence H divergence
  record H E.me false complete recoveryTest spec.verifierIndependent true

def errorText : EngineError → PyStr
  | .py e => E.describe e
  | .idempotencyConflict message => py message
  | .raised _ message => message
  | .escaped => []

/-- The exit for a reducer or a state write that raises, with the text of
what it raised. -/
def failStateUpdate (row : JobRow) (spec : CapabilitySpec)
    (path : EvidencePath) (message : PyStr) (recoveryTest : Bool) :
    RProg Unit := do
  let result := failure [item "verified" (.bool true),
    item "error" (.str (py "state_update_failed")),
    item "message" (.str message)]
  let failurePath ← writeEvidence H row.id row.attempts .stateUpdateFailure
    [item "output_evidence" (.str path.str), item "state_update_error" (.dict result)]
  finish H E.me row.id .stateUpdateFailed (.dict result) (some failurePath)
  auditAppend H "job_state_update_failed" (item "job_id" row.id.val :: result)
  let complete ← verifyEvidence H failurePath
  record H E.me false complete recoveryTest spec.verifierIndependent false

/-- Reduce, write the state and read it back: the version written, or nothing
when the state reads back different and the job has been ended. -/
def reduceState (row : JobRow) (spec : CapabilitySpec)
    (reducer : Nat → PyVal → PyVal → Outcome PyVal) (output : PyVal)
    (path : EvidencePath) (recoveryTest : Bool) : RProg (Option Nat) := do
  let found ← getState E.me spec.name
  let current := PyVal.orEmpty (found.getD .none)
  let outcome ← invoke fun n => reducer n current output
  match outcome with
  | .returned updated => do
    let version ← setState H E.me spec.name updated
    let observed ← getState E.me spec.name
    if (observed.getD .none).eq updated then pure (some version)
    else do
      divergeState H E row spec path updated (observed.getD .none) recoveryTest
      pure none
  | .raised name message => Prog.raise (.raised name message)
  | .escaped => Prog.raise .escaped

/-- The state commit of `run_once`, with its boundary. -/
def commitState (row : JobRow) (spec : CapabilitySpec)
    (reducer : Nat → PyVal → PyVal → Outcome PyVal) (output : PyVal)
    (path : EvidencePath) (recoveryTest : Bool) : RProg (Option Nat) :=
  Prog.tryCatch (reduceState H E row spec reducer output path recoveryTest) fun e =>
      match e with
      | .escaped => Prog.raise .escaped
      | e => do
        failStateUpdate H E row spec path (errorText E e) recoveryTest
        pure none

def succeed (row : JobRow) (spec : CapabilitySpec) (output : PyVal)
    (path : EvidencePath) (version : Option Nat) (recoveryTest : Bool) :
    RProg (Option Text) := do
  let sha ← evidenceSha path
  let result := [item "ok" (.bool true), item "verified" (.bool true), item "evidence_sha256" sha,
    item "state_version" (match version with
      | some v => .int v
      | none => .none),
    item "output" output]
  finish H E.me row.id .verified (.dict result) (some path)
  auditAppend H "job_verified" (item "job_id" row.id.val :: result)
  record H E.me true true recoveryTest spec.verifierIndependent false
  pure (some row.id)

/-- What the verifier makes of an output: its verdict, or its exception. -/
def verification (spec : CapabilitySpec) (payload output : PyVal) :
    RProg (Bool × Option (PyStr × PyStr)) := do
  let verdict ← invoke fun n => spec.verifier n payload output
  match verdict with
  | .returned v => pure (v.truthy, none)
  | .raised name message => pure (false, some (name, message))
  | .escaped => Prog.raise .escaped

/-- `run_once` from the output of the executor on. -/
def settleOutput (row : JobRow) (spec : CapabilitySpec) (output : PyVal)
    (elapsed : PyFloat) (recoveryTest : Bool) : RProg (Option Text) := do
  let (verified, error) ← verification spec row.intent.payload output
  let path ← writeEvidence H row.id row.attempts
    (if verified then .verifiedOutput else .verificationFailure)
    [item "intent" row.intent.asdict, item "grant" row.grant.asdict,
      item "capability" (.str spec.name), item "output" output,
      item "execution_seconds" (.float elapsed),
      item "verifier" (.dict [item "independent" (.bool spec.verifierIndependent),
        item "name" (.str spec.verifierName),
        item "passed" (.bool verified), item "error" (errorFields error)])]
  let complete ← verifyEvidence H path
  if !verified || !complete then
    failVerification H E row spec verified complete error path recoveryTest
  else
    match spec.reducer with
    | none => succeed H E row spec output path none recoveryTest
    | some reducer => do
      let version ← commitState H E row spec reducer output path recoveryTest
      match version with
      | none => pure (some row.id)
      | some version =>
        succeed H E row spec output path (some version) recoveryTest

def runOnce (recoveryTest : Bool) : RProg (Option Text) := do
  let claimed ← claim H E.me 60
  match claimed with
  | none => pure none
  | some row => do
    auditAppend H "job_started" [item "job_id" row.id.val, item "attempt" (.int row.attempts),
      item "capability" row.capability.val]
    match E.capabilities row.capability.str with
    | none => reject H E row recoveryTest
    | some spec =>
      if !(← permits H row.grant row.capability.str) then
        reject H E row recoveryTest
      else do
        let ran ← execution spec row.intent.payload
        match ran with
        | .error (name, message) =>
          recordFailure H E row spec
            (failure [item "error" (.str name), item "message" (.str message)])
            recoveryTest
        | .ok (output, elapsed) =>
          settleOutput H E row spec output elapsed recoveryTest

end Engine

end Centinal26.Pipeline
