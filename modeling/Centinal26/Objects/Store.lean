/-
`CanonicalObjectStore`: content-addressed objects with provenance, links, and
aliases with a history.
-/
import Centinal26.Lib.Table
import Centinal26.Lib.Program
import Centinal26.Py.Host
import Centinal26.Py.Normal

namespace Centinal26.Objects

open Py Steps

def strip (s : PyStr) : PyStr :=
  ((s.dropWhile isSpace).reverse.dropWhile isSpace).reverse

-- == tables

variable {τ : Type}

structure ObjectRow (τ : Type) where
  objectId : Text
  kind : Text
  body : Json
  createdAt : τ

structure ProvenanceRow (τ : Type) where
  objectId : Text
  sourceType : Text
  sourceRef : Text
  evidenceClass : Text
  capturedAt : τ

structure LinkRow (τ : Type) where
  parentId : Text
  relation : Text
  childId : Text
  createdAt : τ

/-- A row of `aliases`, or of `alias_history`. -/
structure AliasRow (τ : Type) where
  name : Text
  objectId : Text
  updatedAt : τ

structure Db (τ : Type) where
  objects : Table (ObjectRow.objectId (τ := τ))
  provenance : List (ProvenanceRow τ)
  links : List (LinkRow τ)
  aliases : Table (AliasRow.name (τ := τ))
  history : List (AliasRow τ)

namespace Db

def empty : Db τ := ⟨.empty, [], [], .empty, []⟩

/-- `SELECT 1 FROM objects WHERE object_id=?`. -/
def has (db : Db τ) (id : Text) : Bool := (db.objects.find? id).isSome

def current? (db : Db τ) (name : Text) : Option Text :=
  (db.aliases.find? name).map AliasRow.objectId

/-- The object of the last history row of an alias. -/
def last? (db : Db τ) (name : Text) : Option Text :=
  (db.history.filter fun row => decide (row.name = name)).getLast?.map AliasRow.objectId

end Db

/-- `AliasConflict`, or an exception of the language. -/
inductive StoreError : Type
  | py (e : PyErr)
  | aliasConflict (name : PyStr) (expected observed : Option PyStr)

abbrev Update (τ α : Type) := Tx StoreError (Db τ) α

def bound (s : PyStr) : Except StoreError Text := (encode s).mapError .py

/-- A value of a `NOT NULL` column. -/
def required (F : Floats τ) (t : τ) : Except StoreError τ :=
  match F.column t with
  | some t => .ok t
  | none => .error (.py .integrityError)

-- == put

structure PutArgs (τ : Type) where
  kind : PyStr
  payload : PyVal
  sourceType : PyStr
  sourceRef : PyStr
  evidenceClass : PyStr
  now : τ

/-- `{"schema": SCHEMA_VERSION, "kind": kind, "payload": payload}`. -/
def envelope (kind : PyStr) (payload : PyVal) : PyVal :=
  .dict [(.str (py "schema"), .int 1), (.str (py "kind"), .str kind),
    (.str (py "payload"), payload)]

/-- `INSERT OR IGNORE INTO provenance`. -/
def Db.attest (db : Db τ) (row : ProvenanceRow τ) : Db τ :=
  if db.provenance.any fun r => decide (r.objectId = row.objectId
      ∧ r.sourceType = row.sourceType ∧ r.sourceRef = row.sourceRef
      ∧ r.evidenceClass = row.evidenceClass) then db
  else { db with provenance := db.provenance ++ [row] }

section Put

variable (H : Host) (F : Floats τ)

def put (a : PutArgs τ) : Update τ Text := fun db =>
  if strip a.kind = [] then .error (.py (.valueError "kind may not be empty"))
  else do
    let body ← (dumps (envelope (strip a.kind) a.payload)).mapError .py
    let objectId := H.sha256 (← bound (body.text .canonical))
    let kind ← bound (strip a.kind)
    let sourceType ← bound a.sourceType
    let sourceRef ← bound a.sourceRef
    let evidenceClass ← bound a.evidenceClass
    match F.column a.now with
    | none => .ok (objectId, db)
    | some now =>
      .ok (objectId,
        { db with objects := db.objects.insertOrIgnore ⟨objectId, kind, body, now⟩ }.attest
          ⟨objectId, sourceType, sourceRef, evidenceClass, now⟩)

end Put

-- == aliases

section Aliases

variable (F : Floats τ)

/-- `INSERT INTO alias_history`. -/
def Db.record (db : Db τ) (row : AliasRow τ) : Db τ := { db with history := db.history ++ [row] }

def pointTo (name : PyStr) (objectId : Text) (now : τ) : Update τ Unit := fun db => do
  let name ← bound name
  let now ← required F now
  if db.has objectId then
    .ok ((), { db with aliases := db.aliases.upsert ⟨name, objectId, now⟩ }.record
      ⟨name, objectId, now⟩)
  else .error (.py .integrityError)

/-- The comparison and the write of `point_if_current`. -/
def swapRow (name : Text) (expected : Option PyStr) (new : Text) (now : τ) : Update τ Unit :=
  fun db =>
    if (db.current? name).map Text.str = expected then do
      let now ← required F now
      match db.current? name with
      | none =>
        match db.aliases.insert? ⟨name, new, now⟩ with
        | none => .error (.py .integrityError)
        | some aliases => .ok ((), { db with aliases := aliases }.record ⟨name, new, now⟩)
      | some _ =>
        .ok ((), { db with aliases := db.aliases.upsert ⟨name, new, now⟩ }.record ⟨name, new, now⟩)
    else .error (.aliasConflict name.str expected ((db.current? name).map Text.str))

/-- The transaction of `point_if_current`. -/
def swap (name : PyStr) (expected : Option PyStr) (new : PyStr) (now : τ) : Update τ Unit :=
  fun db => do
    let id ← bound new
    if db.has id then do
      let name ← bound name
      swapRow F name expected id now db
    else .error (.py (.keyError new))

end Aliases

-- == links

/-- `INSERT OR IGNORE INTO links`. -/
def Db.connect (db : Db τ) (row : LinkRow τ) : Db τ :=
  if db.links.any fun r => decide (r.parentId = row.parentId ∧ r.relation = row.relation
      ∧ r.childId = row.childId) then db
  else { db with links := db.links ++ [row] }

def link (F : Floats τ) (parentId relation childId : PyStr) (now : τ) : Update τ Unit :=
  fun db =>
    if strip relation = [] then .error (.py (.valueError "relation may not be empty"))
    else do
      let parent ← bound parentId
      if !db.has parent then .error (.py (.keyError parentId))
      else
        let child ← bound childId
        if !db.has child then .error (.py (.keyError childId))
        else
          let relation ← bound (strip relation)
          match F.column now with
          | none => .ok ((), db)
          | some now => .ok ((), db.connect ⟨parent, relation, child, now⟩)

-- == reads

structure StoredObject (τ : Type) where
  objectId : Text
  kind : Text
  payload : Doc
  createdAt : τ

/-- `json.loads(body_json)["payload"]`; a value that was read is read once more as it
is. -/
def ObjectRow.payload? (row : ObjectRow τ) : Option Doc :=
  (row.body.load.fields?.bind fun body => body.get? (py "payload")).map Json.load

namespace Db

def get (db : Db τ) (objectId : PyStr) : Except StoreError (StoredObject τ) := do
  let id ← bound objectId
  match db.objects.find? id with
  | none => .error (.py (.keyError objectId))
  | some row =>
    match row.payload? with
    | none => .error (.py (.keyError (py "payload")))
    | some payload => .ok ⟨row.objectId, row.kind, payload, row.createdAt⟩

def resolve (db : Db τ) (name : PyStr) : Except StoreError (StoredObject τ) := do
  match db.current? (← bound name) with
  | none => .error (.py (.keyError name))
  | some id => db.get id.str

def provenanceOf (db : Db τ) (objectId : PyStr) : Except StoreError (List (ProvenanceRow τ)) := do
  let id ← bound objectId
  .ok (db.provenance.filter fun row => decide (row.objectId = id))

end Db

end Centinal26.Objects
