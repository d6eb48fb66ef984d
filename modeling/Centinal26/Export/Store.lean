/-
The evidence store of provider exports: an object for the bytes of every export, a
receipt for every source it came from, and an index of the receipts.
-/
import Centinal26.Py.Dict
import Centinal26.Py.Scan

namespace Centinal26.Export

open Py

-- == files

abbrev Bytes := List UInt8

/-- A hexadecimal digest. -/
structure Hex where
  str : PyStr
  length : str.length = 64
  digits : ∀ c ∈ str, 48 ≤ c ∧ c ≤ 57 ∨ 97 ≤ c ∧ c ≤ 102
deriving DecidableEq

/-- SHA-256, of bytes and of encoded texts. -/
structure Digests where
  ofBytes : Bytes → Hex
  ofText : Text → Hex

structure TextFile where
  text : PyStr
  /-- the file ends inside a character -/
  broken : Bool
deriving DecidableEq

/-- The files of a store, by name. -/
structure Store where
  /-- `objects/sha256/ab/<sha256>`, by its path under the root -/
  objects : List (PyStr × Bytes)
  /-- `receipts/<id>.json`, by id -/
  receipts : List (PyStr × TextFile)
  /-- `index/receipts.jsonl`, by the lines appended -/
  index : List TextFile

def Store.empty : Store := ⟨[], [], []⟩

/-- What the store's functions raise. -/
inductive EvidenceError : Type
  | sourceIdentityConflict
  | objectIntegrity (sha256 : PyStr)
  | store (message : String)
  | fileNotFound
  | valueError
  | unicodeEncodeError
  | unicodeDecodeError
  | attributeError
deriving DecidableEq

-- == documents

def schema : PyStr := py "centinal26-export-evidence-receipt/v1"

def objectRelpath (sha256 : Hex) : PyStr :=
  py "objects/sha256/" ++ sha256.str.take 2 ++ py "/" ++ sha256.str

def optional : Option PyStr → Json
  | some s => .str s
  | none => .null

structure Receipt where
  id : Hex
  provider : PyStr
  messageId : Option PyStr
  exportId : Option PyStr
  originalFilename : PyStr
  messageDate : Option PyStr
  subject : Option PyStr
  retrievedAt : PyStr
  ingestedAt : PyStr
  sha256 : Hex
  size : Nat

/-- The members of a receipt, in the order `sort_keys` writes them. -/
def Receipt.members (r : Receipt) : Members :=
  [(py "content", .obj [(py "object_relpath", .str (objectRelpath r.sha256)),
      (py "raw_preserved_unextracted", .bool true),
      (py "sha256", .str r.sha256.str),
      (py "size", .int r.size)]),
   (py "provider", .str r.provider),
   (py "receipt_id", .str r.id.str),
   (py "schema", .str schema),
   (py "source_identity", .obj [(py "export_id", optional r.exportId),
      (py "message_id", optional r.messageId)]),
   (py "source_metadata", .obj [(py "ingested_at", .str r.ingestedAt),
      (py "message_date", optional r.messageDate),
      (py "original_filename", .str r.originalFilename),
      (py "retrieved_at", .str r.retrievedAt),
      (py "subject", optional r.subject)])]

/-- `_canonical_json(receipt) + "\n"`. -/
def Receipt.line (r : Receipt) : PyStr := (Json.obj r.members).text .canonical ++ [10]

-- == writes

inductive Write : Type
  | object (relpath : PyStr) (bytes : Bytes)
  | dropObject (relpath : PyStr)
  | receipt (id : PyStr) (text : PyStr)
  | index (text : PyStr)

namespace Store

def apply (s : Store) : Write → Store
  | .object relpath bytes => { s with objects := setItem s.objects relpath bytes }
  | .dropObject relpath =>
    { s with objects := s.objects.filter fun o => decide (o.1 ≠ relpath) }
  | .receipt id text => { s with receipts := setItem s.receipts id ⟨text, false⟩ }
  | .index text => { s with index := s.index ++ [⟨text, false⟩] }

def applyAll (s : Store) (ws : List Write) : Store := ws.foldl apply s

/-- A write of which `n` bytes or characters are carried out, and perhaps some bytes of the
character after these. -/
def applyPart (s : Store) (n : Nat) (broken : Bool) : Write → Store
  | .object relpath bytes => { s with objects := setItem s.objects relpath (bytes.take n) }
  | .dropObject _ => s
  | .receipt id text => { s with receipts := setItem s.receipts id ⟨text.take n, broken⟩ }
  | .index text => { s with index := s.index ++ [⟨text.take n, broken⟩] }

def object? (s : Store) (relpath : PyStr) : Option Bytes := getItem? s.objects relpath

def receipt? (s : Store) (id : PyStr) : Option TextFile := getItem? s.receipts id

end Store

-- == reading

section Reading

variable (toFloat : PyStr → PyFloat)

/-- `json.loads(path.read_text(encoding="utf-8"))`, with the handler of `_load_receipts`
or without. -/
def TextFile.load (f : TextFile) (invalid : EvidenceError) : Except EvidenceError Json :=
  if f.broken then .error .unicodeDecodeError
  else match loadsText toFloat f.text with
    | .ok v => .ok v
    | .error .decode => .error invalid
    | .error .tooManyDigits => .error .valueError

/-- A value whose `get` is called. -/
def mapping : Json → Except EvidenceError Members
  | .obj d => .ok d
  | _ => .error .attributeError

/-- `value or {}`, for the `get` that is called on it. -/
def orEmpty (v : Json) : Except EvidenceError Members :=
  if v.truthy then mapping v else .ok []

def loadReceipt (f : TextFile) : Except EvidenceError Members := do
  let payload ← mapping (← f.load toFloat (.store "INVALID_RECEIPT"))
  if (field payload "schema").isStr schema then .ok payload
  else .error (.store "UNSUPPORTED_RECEIPT_SCHEMA")

/-- `id is not None and identity.get(key) == id`. -/
def sameId (existing : Members) (id : Option PyStr) (key : String) : Except EvidenceError Bool :=
  match id with
  | none => .ok false
  | some s => do
    let identity ← orEmpty (field existing "source_identity")
    .ok ((field identity key).isStr s)

def strongIdentityConflict (existing : Members) (provider : PyStr)
    (messageId exportId : Option PyStr) (sha256 : PyStr) : Except EvidenceError Bool :=
  if !(field existing "provider").isStr provider then .ok false
  else do
    let sameMessage ← sameId existing messageId "message_id"
    let sameExport ← sameId existing exportId "export_id"
    if !(sameMessage || sameExport) then .ok false
    else do
      let content ← orEmpty (field existing "content")
      .ok (!(field content "sha256").isStr sha256)

/-- The loop over the receipts that are there. -/
def checkReceipts (provider : PyStr) (messageId exportId : Option PyStr) (sha256 : PyStr) :
    List (PyStr × TextFile) → Except EvidenceError Unit
  | [] => .ok ()
  | (_, f) :: rest => do
    let existing ← loadReceipt toFloat f
    if ← strongIdentityConflict existing provider messageId exportId sha256 then
      .error .sourceIdentityConflict
    else checkReceipts provider messageId exportId sha256 rest

end Reading

end Centinal26.Export
