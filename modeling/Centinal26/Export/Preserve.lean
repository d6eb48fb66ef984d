/-
`preserve_export` and `verify_receipt`: what a call decides on the store it finds, and
the writes that follow from it.
-/
import Centinal26.Export.Store
import Centinal26.Py.ScanBack

namespace Centinal26.Export

open Py

/-- A call's arguments, and what it reads outside the store: the source, once for its
digest and once for its copy, and the clock. -/
structure Call where
  /-- the source's bytes when they are hashed, if it is a file -/
  source : Option Bytes
  /-- the source's bytes when they are copied -/
  copied : Bytes
  /-- `source.name` -/
  name : PyStr
  provider : PyStr
  messageId : Option PyStr
  exportId : Option PyStr
  messageDate : Option PyStr
  subject : Option PyStr
  retrievedAt : Option PyStr
  /-- `_utc_now()`, where no retrieval time is given -/
  retrievedNow : Text
  /-- `_utc_now()`, for the receipt -/
  ingestedNow : Text

inductive Status : Type
  | preserved
  | reusedObject
  | duplicateSource
  | verified
deriving DecidableEq

/-- `PreservationResult`, with paths under the root. -/
structure PreservationResult where
  status : Status
  receiptId : PyStr
  sha256 : PyStr
  size : Int
  objectPath : PyStr
  receiptPath : PyStr
deriving DecidableEq

abbrev Act (α : Type) := List Write × Except EvidenceError α

def Act.andThen {α β : Type} (m : Act α) (f : α → Act β) : Act β :=
  match m.2 with
  | .ok a => (m.1 ++ (f a).1, (f a).2)
  | .error e => (m.1, .error e)

def normalizeOptional : Option PyStr → Option PyStr
  | none => none
  | some s => if strStrip s = [] then none else some (strStrip s)

def receiptRelpath (id : PyStr) : PyStr := py "receipts/" ++ id ++ py ".json"

section Preserving

variable (D : Digests) (toFloat : PyStr → PyFloat)

/-- What `_receipt_id` hashes. -/
def identityDoc (provider : PyStr) (messageId exportId : Option PyStr) (sha256 : Hex)
    (originalFilename : PyStr) (messageDate : Option PyStr) : Json :=
  if messageId = none ∧ exportId = none then
    .obj [(py "export_id", .null), (py "message_date", optional messageDate),
      (py "message_id", .null), (py "original_filename", .str originalFilename),
      (py "provider", .str provider), (py "sha256", .str sha256.str)]
  else
    .obj [(py "export_id", optional exportId), (py "message_id", optional messageId),
      (py "provider", .str provider), (py "sha256", .str sha256.str)]

def hashDoc (d : Json) : Except EvidenceError Hex :=
  if h : Encodable (d.text .canonical) then .ok (D.ofText ⟨d.text .canonical, h⟩)
  else .error .unicodeEncodeError

def verifyExistingObject (object : Option Bytes) (sha256 : PyStr) (size : Int) :
    Except EvidenceError Unit :=
  match object with
  | none => .error .fileNotFound
  | some bytes =>
    if (D.ofBytes bytes).str = sha256 ∧ (bytes.length : Int) = size then .ok ()
    else .error (.objectIntegrity sha256)

def preserveObject (s : Store) (relpath : PyStr) (copied : Bytes) (sha256 : Hex)
    (size : Nat) : Act Bool :=
  match s.object? relpath with
  | some bytes =>
    ([], (verifyExistingObject D (some bytes) sha256.str size).map fun _ => false)
  | none =>
    if D.ofBytes copied = sha256 ∧ copied.length = size then
      ([.object relpath copied], .ok true)
    else
      ([.object relpath copied, .dropObject relpath],
        .error (.store "SOURCE_CHANGED_DURING_INGEST"))

/-- The receipt's text, and the files it is written to. -/
def writeReceipt (r : Receipt) : Act Unit :=
  if !(Json.obj r.members).isShort then ([], .error .valueError)
  else if Encodable r.line then ([.receipt r.id.str r.line, .index r.line], .ok ())
  else ([], .error .unicodeEncodeError)

def Call.receipt (c : Call) (id sha256 : Hex) (size : Nat) : Receipt where
  id := id
  provider := strStrip c.provider
  messageId := normalizeOptional c.messageId
  exportId := normalizeOptional c.exportId
  originalFilename := c.name
  messageDate := normalizeOptional c.messageDate
  subject := normalizeOptional c.subject
  retrievedAt := (normalizeOptional c.retrievedAt).getD c.retrievedNow.str
  ingestedAt := c.ingestedNow.str
  sha256 := sha256
  size := size

def resultOf (status : Status) (id sha256 : Hex) (size : Nat) : PreservationResult :=
  ⟨status, id.str, sha256.str, size, objectRelpath sha256, receiptRelpath id.str⟩

def duplicate (s : Store) (f : TextFile) (id sha256 : Hex) (size : Nat) :
    Except EvidenceError PreservationResult := do
  let existing ← mapping (← f.load toFloat .valueError)
  let content ← orEmpty (field existing "content")
  if !(field content "sha256").isStr sha256.str then .error (.store "RECEIPT_ID_COLLISION")
  else do
    verifyExistingObject D (s.object? (objectRelpath sha256)) sha256.str size
    .ok (resultOf .duplicateSource id sha256 size)

def preserveLocked (s : Store) (c : Call) (id sha256 : Hex) (size : Nat) : Act PreservationResult :=
  match checkReceipts toFloat (strStrip c.provider) (normalizeOptional c.messageId)
      (normalizeOptional c.exportId) sha256.str (sortByName s.receipts) with
  | .error e => ([], .error e)
  | .ok () =>
    match s.receipt? id.str with
    | some f => ([], duplicate D toFloat s f id sha256 size)
    | none =>
      (preserveObject D s (objectRelpath sha256) c.copied sha256 size).andThen fun created =>
        (writeReceipt (c.receipt id sha256 size)).andThen fun _ =>
          ([], .ok (resultOf (if created then .preserved else .reusedObject) id sha256 size))

/-- The document a call's receipt is named by. -/
def Call.identity (c : Call) (sha256 : Hex) : Json :=
  identityDoc (strStrip c.provider) (normalizeOptional c.messageId)
    (normalizeOptional c.exportId) sha256 c.name (normalizeOptional c.messageDate)

def preserveExport (s : Store) (c : Call) : Act PreservationResult :=
  if strStrip c.provider = [] then ([], .error .valueError)
  else match c.source with
    | none => ([], .error .fileNotFound)
    | some bytes =>
      match hashDoc D (c.identity (D.ofBytes bytes)) with
      | .error e => ([], .error e)
      | .ok id => preserveLocked D toFloat s c id (D.ofBytes bytes) bytes.length

def after (s : Store) (c : Call) : Store := s.applyAll (preserveExport D toFloat s c).1

end Preserving

-- == verification

def components : PyStr → List PyStr
  | [] => [[]]
  | c :: r =>
    if c = 47 then [] :: components r
    else match components r with
      | [] => [[c]]
      | first :: rest => (c :: first) :: rest

/-- A path under the root without `.` and `..`; `none` outside the root. -/
def resolve : List PyStr → List PyStr → Option (List PyStr)
  | parents, [] => some parents.reverse
  | parents, c :: rest =>
    if c = [] ∨ c = py "." then resolve parents rest
    else if c = py ".." then
      match parents with
      | [] => none
      | _ :: up => resolve up rest
    else resolve (c :: parents) rest

/-- `(store_root / relpath).resolve()`, where it lies under `objects`. -/
def objectPath? (relpath : PyStr) : Option PyStr :=
  if relpath.head? = some 47 then none
  else match resolve [] (components relpath) with
    | none => none
    | some path =>
      if path.head? = some (py "objects") then some (joinWith (py "/") path) else none

section Verifying

variable (D : Digests) (toFloat : PyStr → PyFloat)

def verifyReceipt (s : Store) (id : PyStr) : Except EvidenceError PreservationResult :=
  match s.receipt? id with
  | none => .error .fileNotFound
  | some f => do
    let receipt ← mapping (← f.load toFloat .valueError)
    if !(field receipt "schema").isStr schema || !(field receipt "receipt_id").isStr id then
      .error (.store "INVALID_RECEIPT")
    else do
      let content ← orEmpty (field receipt "content")
      match field content "sha256" with
      | .str sha256 =>
        if sha256.length ≠ 64 then .error (.store "INVALID_RECEIPT_SHA256")
        else
          let size? : Option Int := match field content "size" with
            | .int n => some n
            | .bool b => some (if b then 1 else 0)
            | _ => none
          match size?, field content "object_relpath" with
          | some size, .str relpath =>
            if size < 0 then .error (.store "INVALID_RECEIPT_CONTENT")
            else match objectPath? relpath with
              | none => .error (.store "INVALID_OBJECT_PATH")
              | some path => do
                verifyExistingObject D (s.object? path) sha256 size
                .ok ⟨.verified, id, sha256, size, path, receiptRelpath id⟩
          | _, _ => .error (.store "INVALID_RECEIPT_CONTENT")
      | _ => .error (.store "INVALID_RECEIPT_SHA256")

end Verifying

end Centinal26.Export
