/-
`CanonicalStore`: the tables, and what one call does to them.
-/
import Centinal26.Canonical.Bundle
import Centinal26.Py.Host

namespace Centinal26.Canonical

open Py

-- == rows

/-- What the store rests on. -/
structure Platform extends Shows where
  /-- the text of a number in a column of type `TEXT` -/
  realText : PyFloat → PyStr
  /-- `float(value)` -/
  toFloat : Json → Except PyErr PyFloat
  /-- the hex digest of an encoded text -/
  sha256 : Text → Text

structure ObjectRow where
  objectId : Option PyStr
  contentHash : PyStr
  objectType : PyStr
  status : PyStr
  epistemicStatus : PyStr
  verificationStatus : PyStr
  authorityClass : PyStr
  authoritative : Bool
  confidence : PyFloat
  ingestedAt : PyStr
  envelope : Json

structure EventRow where
  eventId : Option PyStr
  eventHash : PyStr
  event : Json

structure DecisionRow where
  decisionId : Option PyStr
  inputObjectId : PyStr
  decision : PyStr
  canonicalTargetId : Option PyStr
  decisionHash : PyStr
  document : Json

structure ProjectionRow where
  objectId : Option PyStr
  objectType : PyStr
  status : PyStr
  epistemicStatus : PyStr
  verificationStatus : PyStr
  searchText : PyStr
  authoritative : Nat

structure Tables where
  objects : List ObjectRow
  events : List EventRow
  /-- `object_provenance` -/
  links : List (PyStr × PyStr)
  decisions : List DecisionRow
  projection : List ProjectionRow

def Tables.empty : Tables := ⟨[], [], [], [], []⟩

inductive StoreErr : Type
  | canonicalStoreError (message : PyStr)
  | py (e : PyErr)

def raises {α : Type} : Except PyErr α → Except StoreErr α
  | .ok a => .ok a
  | .error e => .error (.py e)

-- == columns

def item (ms : Members) (name : String) : Except PyErr Json :=
  match getItem? ms (py name) with
  | some v => .ok v
  | none => .error (.keyError (py name))

/-- What a column of type `TEXT` holds of a value. -/
def textColumn (P : Platform) : Json → Except PyErr (Option PyStr)
  | .null | .float .nan => .ok none
  | .bool b => .ok (some (py (if b then "1" else "0")))
  | .int n => if -2 ^ 63 ≤ n ∧ n < 2 ^ 63 then .ok (some (intRepr n)) else .error .overflowError
  | .float x => .ok (some (P.realText x))
  | .str s => (encode s).map fun t => some t.str
  | .arr _ | .obj _ => .error (.runtimeError "type is not supported")

def notNull {α : Type} : Option α → Except PyErr α
  | some s => .ok s
  | none => .error .integrityError

/-- The document that is written of a value, when its text encodes. -/
def document (d : Json) : Except PyErr (Json × Text) := do
  let written ← dumps (loads d)
  .ok (written, ← encode (written.text .canonical))

/-- `_sha256_json`. -/
def digest (P : Platform) (text : Text) : PyStr := py "sha256:" ++ (P.sha256 text).str

-- == inserts

def selectBy {ρ : Type} (key : ρ → Option PyStr) (rows : List ρ) : Option PyStr → Option ρ
  | none => none
  | some s => rows.find? fun r => decide (key r = some s)

def insertRow {ρ : Type} (key : ρ → Option PyStr) (rows : List ρ) (id : Option PyStr)
    (same : ρ → Except StoreErr Unit) (row : Except StoreErr ρ) : Except StoreErr (Option ρ) :=
  match selectBy key rows id with
  | some existing => do
    same existing
    .ok none
  | none => do .ok (some (← row))

/-- `if differs: raise CanonicalStoreError(...)`. -/
def refuseIf (differs : Bool) (kind : String) (id : PyStr) (message : String) :
    Except StoreErr Unit :=
  if differs then
    .error (.canonicalStoreError (py "immutable " ++ py kind ++ py " " ++ id
      ++ py " already exists with different " ++ py message))
  else .ok ()

section Store

variable (P : Platform)

def sameObject (ms : Members) (envelope : Json) (existing : ObjectRow) : Except StoreErr Unit := do
  let oid ← raises (item ms "object_id")
  let hash ← raises (item ms "content_hash")
  refuseIf (decide (hash.str? ≠ some existing.contentHash)) "object_id" (P.str oid) "content_hash"
  refuseIf (decide (existing.envelope.text .canonical ≠ envelope.text .canonical)) "object_id"
    (P.str oid) "envelope"

def objectRow (ms : Members) (id : Option PyStr) (envelope : Json) : Except PyErr ObjectRow := do
  let hash ← item ms "content_hash"
  let type ← item ms "type"
  let status ← item ms "status"
  let epistemic ← item ms "epistemic_status"
  let verification ← item ms "verification_status"
  let authority ← item ms "authority_class"
  let authoritative ← item ms "authoritative"
  let confidence ← P.toFloat (← item ms "confidence")
  let ingested ← item ms "ingested_at"
  -- everything is bound before the row is checked
  let hash ← textColumn P hash
  let type ← textColumn P type
  let status ← textColumn P status
  let epistemic ← textColumn P epistemic
  let verification ← textColumn P verification
  let authority ← textColumn P authority
  let ingested ← textColumn P ingested
  .ok ⟨id, ← notNull hash, ← notNull type, ← notNull status, ← notNull epistemic,
    ← notNull verification, ← notNull authority, authoritative.truthy,
    ← notNull (if confidence = .nan then none else some confidence), ← notNull ingested, envelope⟩

def insertObject (t : Tables) : Json → Except StoreErr (Nat × Tables)
  | .obj ms => do
    let oid ← raises (item ms "object_id")
    let envelope ← raises (document (.obj ms))
    let id ← raises (textColumn P oid)
    let new ← insertRow ObjectRow.objectId t.objects id (sameObject P ms envelope.1)
      (raises (objectRow P ms id envelope.1))
    .ok (new.toList.length, { t with objects := t.objects ++ new.toList })
  | _ => .error (.py .typeError)

def sameEvent (pid : Json) (hash : PyStr) (event : Json) (existing : EventRow) :
    Except StoreErr Unit :=
  refuseIf (decide (existing.eventHash ≠ hash)
      || decide (existing.event.text .canonical ≠ event.text .canonical))
    "provenance_event_id" (P.str pid) "content"

def insertProvenance (t : Tables) : Json → Except StoreErr (Nat × Tables)
  | .obj ms => do
    let pid ← raises (item ms "provenance_event_id")
    let event ← raises (document (.obj ms))
    let hash := digest P event.2
    let id ← raises (textColumn P pid)
    let new ← insertRow EventRow.eventId t.events id (sameEvent P pid hash event.1)
      (.ok ⟨id, hash, event.1⟩)
    .ok (new.toList.length, { t with events := t.events ++ new.toList })
  | _ => .error (.py .typeError)

def Tables.hasObject (t : Tables) (id : PyStr) : Bool :=
  t.objects.any fun r => decide (r.objectId = some id)

def Tables.hasEvent (t : Tables) (id : PyStr) : Bool :=
  t.events.any fun r => decide (r.eventId = some id)

/-- `INSERT OR IGNORE INTO object_provenance`: a row that is there, or has no value for a column, is
ignored, one that refers to nothing is not. -/
def insertLink (oid : Json) (t : Tables) (pid : Json) : Except StoreErr (Nat × Tables) := do
  let object ← raises (textColumn P oid)
  let event ← raises (textColumn P pid)
  match object, event with
  | some o, some e =>
    if (o, e) ∈ t.links then .ok (0, t)
    else if t.hasObject o && t.hasEvent e then
      .ok (1, { t with links := t.links ++ [(o, e)] })
    else .error (.py .integrityError)
  | _, _ => .ok (0, t)

/-- One insert after the other, and how many rows that makes. -/
def insertAll (f : Tables → Json → Except StoreErr (Nat × Tables)) :
    List Json → Tables → Except StoreErr (Nat × Tables)
  | [], t => .ok (0, t)
  | x :: rest, t => do
    let first ← f t x
    let later ← insertAll f rest first.2
    .ok (first.1 + later.1, later.2)

def insertLinks (t : Tables) : Json → Except StoreErr (Nat × Tables)
  | .obj ms => do
    let ids ← raises (iterate (getD ms "provenance_ids" (.arr [])))
    if ids.isEmpty then .ok (0, t)
    else insertAll (insertLink P (← raises (item ms "object_id"))) ids t
  | _ => .error (.py .typeError)

def sameDecision (did : Json) (hash : PyStr) (decision : Json) (existing : DecisionRow) :
    Except StoreErr Unit :=
  refuseIf (decide (existing.decisionHash ≠ hash)
      || decide (existing.document.text .canonical ≠ decision.text .canonical))
    "filter_decision_id" (P.str did) "content"

def decisionRow (t : Tables) (ms : Members) (id : Option PyStr) (hash : PyStr)
    (decision : Json) : Except PyErr DecisionRow := do
  let input ← item ms "input_object_id"
  let action ← item ms "decision"
  let input ← textColumn P input
  let action ← textColumn P action
  let target ← textColumn P (get ms "canonical_target_id")
  let input ← notNull input
  let action ← notNull action
  if t.hasObject input then .ok ⟨id, input, action, target, hash, decision⟩
  else .error .integrityError

def insertFilterDecision (t : Tables) : Json → Except StoreErr (Nat × Tables)
  | .obj ms => do
    let did ← raises (item ms "filter_decision_id")
    let decision ← raises (document (.obj ms))
    let hash := digest P decision.2
    let id ← raises (textColumn P did)
    let new ← insertRow DecisionRow.decisionId t.decisions id
      (sameDecision P did hash decision.1) (raises (decisionRow P t ms id hash decision.1))
    .ok (new.toList.length, { t with decisions := t.decisions ++ new.toList })
  | _ => .error (.py .typeError)

-- == ingest

structure Counts where
  objects : Nat
  provenanceEvents : Nat
  filterDecisions : Nat
deriving DecidableEq

def ingestLists (l : Lists) (t : Tables) : Except StoreErr (Counts × Tables) := do
  let objects ← insertAll (insertObject P) l.objects t
  let events ← insertAll (insertProvenance P) l.events objects.2
  let links ← insertAll (insertLinks P) l.objects events.2
  let decisions ← insertAll (insertFilterDecision P) l.decisions links.2
  .ok (⟨objects.1, events.1, decisions.1⟩, decisions.2)

/-- `except sqlite3.IntegrityError`. -/
def rejected : StoreErr → StoreErr
  | .py .integrityError => .canonicalStoreError (py "transaction rejected")
  | e => e

/-- `ingest_bundle`: what it answers or raises, and the tables after it. -/
def ingestBundle (t : Tables) (bundle : Doc) : Except StoreErr Counts × Tables :=
  match validateBundle P.toShows bundle.json with
  | .error e => (.error (.py e), t)
  | .ok (e :: es) =>
    (.error (.canonicalStoreError (py "bundle invariant failure: "
      ++ joinWith (py "; ") (e :: es))), t)
  | .ok [] =>
    match bundle.json with
    | .obj ms =>
      match listsOf ms with
      | .error _ => (.error (.py .typeError), t)
      | .ok l =>
        match ingestLists P l t with
        | .ok r => (.ok r.1, r.2)
        | .error e => (.error (rejected e), t)
    | _ => (.error (.py .typeError), t)

def ingestAll (t : Tables) : List Doc → Tables
  | [] => t
  | bundle :: rest => ingestAll (ingestBundle P t bundle).2 rest

-- == projection

def projectionRow : Json → Except PyErr ProjectionRow
  | .obj ms => do
    let oid ← item ms "object_id"
    let type ← item ms "type"
    let status ← item ms "status"
    let epistemic ← item ms "epistemic_status"
    let verification ← item ms "verification_status"
    let search ← document (getD ms "payload" (.obj []))
    let id ← textColumn P oid
    let type ← textColumn P type
    let status ← textColumn P status
    let epistemic ← textColumn P epistemic
    let verification ← textColumn P verification
    .ok ⟨id, ← notNull type, ← notNull status, ← notNull epistemic, ← notNull verification,
      search.2.str, 0⟩
  | _ => .error .typeError

/-- The rows of the projection, after those there are. -/
def projectAll : List ObjectRow → List ProjectionRow → Except PyErr (List ProjectionRow)
  | [], rows => .ok rows
  | r :: rest, rows => do
    let new ← projectionRow P r.envelope
    if new.objectId.isSome && rows.any fun row => decide (row.objectId = new.objectId) then
      .error .integrityError
    else projectAll rest (rows ++ [new])

def rebuildProjection (t : Tables) : Except PyErr Nat × Tables :=
  match projectAll P t.objects [] with
  | .ok rows => (.ok t.objects.length, { t with projection := rows })
  | .error e => (.error e, t)

end Store

end Centinal26.Canonical
