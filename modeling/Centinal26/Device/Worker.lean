/-
The worker of a device: which jobs it takes, and what it writes down of them.
-/
import Centinal26.Lib.Machine
import Centinal26.Py.Typed

namespace Centinal26.Device

open Py

-- == surroundings

/-- What the worker calls. -/
structure Libraries where
  /-- `hmac.new(secret, data, hashlib.sha256).hexdigest()` -/
  hmac : List UInt8 → Text → PyStr
  ascii_hmac : ∀ secret data, Ascii (hmac secret data)
  /-- `hashlib.sha256(data).hexdigest()` -/
  sha256 : Text → PyStr
  /-- `datetime.fromisoformat(s)`, where it parses -/
  fromisoformat : PyStr → Option DateTime

/-- A worker, as far as jobs concern it: `config` and `secret`. -/
structure Worker where
  deviceId : PyStr
  sourceCommit : PyStr
  secret : List UInt8

/-- The files of the state directory. -/
structure State where
  /-- `seen_nonces.json`: strings that came out of JSON, which JSON gives back -/
  seen : Option (List PyStr)
  /-- `journal.jsonl` -/
  journal : List Items

/-- A state directory nothing has been written to. -/
def State.empty : State := ⟨none, []⟩

-- == records

def canonicalBytes (value : Items) (omitted : List String) : Except PyErr Text := do
  let d ← dumps (.dict (value.filter fun m => !omitted.any fun f => decide (m.1 = .str (py f))))
  .ok d.compactText

variable (L : Libraries)

def signRecord (record : Items) (secret : List UInt8) : Except PyErr PyStr := do
  .ok (L.hmac secret (← canonicalBytes record ["signature"]))

def compareDigest (supplied digest : PyStr) : Except PyErr Bool :=
  if supplied.all fun c => decide (c < 128) then .ok (decide (supplied = digest))
  else .error .typeError

def verifySignature (record : Items) (secret : List UInt8) : Except PyErr Bool :=
  match (itemOf record "signature").text? with
  | none => .ok false
  | some supplied => do compareDigest supplied (← signRecord L record secret)

/-- `parse_time(job["expires_at"]) <= now`, or nothing where the handler takes over. -/
def expired? (job : Items) (now : Instant) : Except PyErr (Option Bool) :=
  match (itemOf job "expires_at").text?.bind L.fromisoformat with
  | some (.aware t) => do .ok (some (decide ((← astimezone t) ≤ now)))
  | _ => .ok none

-- == journal

def tailHash (journal : List Items) : PyVal :=
  match journal.getLast? with
  | some record => itemOf record "record_hash"
  | none => .str (List.replicate 64 48)

def append (journal : List Items) (timestamp : PyStr) (event : Items) :
    Except PyErr (List Items) := do
  let record := item "timestamp" (.str timestamp) :: item "previous_hash" (tailHash journal)
    :: event
  let text ← canonicalBytes record []
  .ok (journal ++ [record ++ [item "record_hash" (.str (L.sha256 text))]])

-- == nonces

def sortedSet (names : List PyStr) : List PyStr :=
  names.dedup.mergeSort fun a b => decide (a ≤ b)

def lastOf (n : Nat) (names : List PyStr) : List PyStr := names.drop (names.length - n)

@[irreducible] def kept : Nat := 4096

def seenNonces (s : State) : List PyStr := s.seen.getD []

/-- `_remember_nonce`: the last of the sorted nonces. -/
def remember (s : State) (nonce : PyStr) : State :=
  { s with seen := some (lastOf kept (sortedSet (seenNonces s ++ [nonce]))) }

-- == jobs

def allowedCapabilities : List String := ["diagnostic_status", "inventory_snapshot"]

def jobFields : List String :=
  ["task_id", "target_device_id", "capability", "parameters", "authorization_scope",
    "expires_at", "nonce", "expected_source_commit", "signature"]

def hasFields (job : Items) : Bool :=
  (job.all fun m => jobFields.any fun f => decide (m.1 = .str (py f)))
    && jobFields.all fun f => job.any fun m => decide (m.1 = .str (py f))

/-- `capability in ALLOWED_CAPABILITIES`: a list or a dictionary has no hash. -/
def allowed : PyVal → Except PyErr Bool
  | .list _ => .error .typeError
  | .dict _ => .error .typeError
  | v => .ok (allowedCapabilities.any fun c => v.eq (.str (py c)))

def errorUnless (condition : Bool) (error : String) : List String := if condition then [] else [error]

def nonceErrors (s : State) (nonce : PyVal) : List String :=
  match nonce with
  | .str (c :: cs) => errorUnless (!(seenNonces s).contains (c :: cs)) "NONCE_REPLAY"
  | _ => ["NONCE_INVALID"]

def validateJob (w : Worker) (s : State) (job : Items) (now : Instant) :
    Except PyErr (List String) := do
  let capability := itemOf job "capability"
  let isAllowed ← allowed capability
  let isExpired ← expired? L job now
  let isSigned ← verifySignature L job w.secret
  .ok (errorUnless (hasFields job) "JOB_FIELDS_INVALID"
    ++ errorUnless ((itemOf job "target_device_id").eq (.str w.deviceId)) "DEVICE_TARGET_MISMATCH"
    ++ errorUnless isAllowed "CAPABILITY_NOT_ALLOWED"
    ++ errorUnless ((itemOf job "expected_source_commit").eq (.str w.sourceCommit))
      "SOURCE_COMMIT_MISMATCH"
    ++ errorUnless ((itemOf job "authorization_scope").eq
        (.dict [item "device_id" (.str w.deviceId), item "capability" capability]))
      "AUTHORIZATION_SCOPE_MISMATCH"
    ++ nonceErrors s (itemOf job "nonce")
    ++ (match isExpired with
      | some late => errorUnless (!late) "JOB_EXPIRED"
      | none => ["EXPIRY_INVALID"])
    ++ errorUnless isSigned "SIGNATURE_INVALID"
    ++ errorUnless (itemOf job "parameters").dict?.isSome "PARAMETERS_INVALID"
    ++ errorUnless ((itemOf job "task_id").text?.any fun t => !t.isEmpty) "TASK_ID_INVALID")

-- == calls

/-- A call of `execute_job`, of the worker that is running. -/
structure Call where
  worker : Worker
  job : Items
  /-- when the job is validated -/
  now : Instant
  /-- `utc_now().isoformat()`, in the result and in the journal -/
  resultTime : PyStr
  journalTime : PyStr
  /-- `output`: what the capability finds out -/
  output : Except PyErr Items

/-- What came of a call. -/
structure Outcome where
  /-- the capability that was run -/
  executed : Option PyVal
  returned : Except PyErr Items

def completed (s : State) (call : Call) (output : Items) : Except PyErr Items := do
  let result := [item "task_id" (itemOf call.job "task_id"),
    item "device_id" (.str call.worker.deviceId),
    item "capability" (itemOf call.job "capability"), item "status" (.str (py "PASS")),
    item "timestamp" (.str call.resultTime),
    item "source_commit" (.str call.worker.sourceCommit),
    item "output" (.dict output), item "previous_evidence_hash" (tailHash s.journal)]
  .ok (result ++ [item "signature" (.str (← signRecord L result call.worker.secret))])

/-- A result that is written down before it is returned. -/
def journaled (s : State) (time : PyStr) (event : String) (executed : Option PyVal)
    (result : Items) : Outcome × State :=
  match append L s.journal time [item "event" (.str (py event)), item "result" (.dict result)] with
  | .ok journal => (⟨executed, .ok result⟩, { s with journal })
  | .error e => (⟨executed, .error e⟩, s)

def executeJob (call : Call) (s : State) : Outcome × State :=
  match validateJob L call.worker s call.job call.now with
  | .error e => (⟨none, .error e⟩, s)
  | .ok (e :: es) =>
    journaled L s call.journalTime "job_rejected" none
      [item "task_id" (itemOf call.job "task_id"), item "status" (.str (py "REJECTED")),
        item "errors" (.list ((e :: es).map fun e => .str (py e)))]
  | .ok [] =>
    let s := remember s ((itemOf call.job "nonce").text?.getD [])
    let capability := itemOf call.job "capability"
    match call.output.bind (completed L s call) with
    | .error e => (⟨some capability, .error e⟩, s)
    | .ok result => journaled L s call.journalTime "job_completed" (some capability) result

end Centinal26.Device
