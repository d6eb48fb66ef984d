/-
A continuity migration: an export of entities, relationships and artifacts is normalised and
compiled into one proposal, whose digest is its identity.

The order of an export reaches the digest in one way only: of two relationships with one key the
first decides the types of the endpoints.
-/
import Centinal26.Lib.Sorted
import Centinal26.Py.Utf8
import Mathlib.Data.Prod.Lex

namespace Centinal26.Migration

open Py

inductive MigrationError : Type
  | typeError (message : PyStr)
  | valueError (message : PyStr)
  | unicodeEncode
deriving DecidableEq

/-- What the adapter calls. -/
structure Readers where
  str : Json → PyStr
  /-- `repr(s)` -/
  repr : PyStr → PyStr
  /-- `s.lower()` -/
  lower : PyStr → PyStr
  /-- `hashlib.sha256(data).hexdigest()` -/
  sha256 : ByteArray → PyStr

def Readers.CollisionFree (R : Readers) : Prop := Function.Injective R.sha256

/-- The mapping `compile` is given, as far as it reads it; a missing member is null. -/
structure Export where
  sourceSystem : Json
  exportVersion : Json
  entities : Json
  relationships : Json
  artifacts : Json

-- == readers

/-- The values of a member that must be a sequence, `raw.get(name) or []`. -/
def sequence (name : String) : Json → Except MigrationError (List Json)
  | .arr xs => .ok xs
  | .str [] => .ok []
  | .str _ => .error (.typeError (py (name ++ " must be a sequence of mappings")))
  | .obj ms => .ok (ms.map fun m => .str m.1)
  | value =>
    if value.truthy then .error (.typeError (py "object is not iterable")) else .ok []

section Normalise

variable (R : Readers)

def stripped : Json → PyStr
  | .str s => strStrip s
  | value => strStrip (R.str value)

/-- `str(raw.get(field) or "").strip()`. -/
def textOf (raw : Members) (f : String) : PyStr :=
  if (field raw f).truthy then stripped R (field raw f) else []

def orNone (s : PyStr) : Option PyStr := if s = [] then none else some s

def optionJson : Option PyStr → Json
  | some s => .str s
  | none => .null

/-- `_digest`, of an object with its keys in order. -/
def digest (d : Json) : Except MigrationError PyStr :=
  match encode (d.text .canonical) with
  | .ok text => .ok (R.sha256 text.utf8)
  | .error _ => .error .unicodeEncode

/-- The loop over records with an identifier that may not come twice: `head` reads it, `body`
makes the record. -/
def collect {κ α : Type} (head : Json → Except MigrationError (PyStr × κ))
    (taken : PyStr → MigrationError) (body : PyStr → κ → Json → Except MigrationError α) :
    List PyStr → List Json → Except MigrationError (List α)
  | _, [] => .ok []
  | seen, raw :: rest =>
    match head raw with
    | .error e => .error e
    | .ok (id, x) =>
      if id ∈ seen then .error (taken id)
      else
        match body id x raw with
        | .error e => .error e
        | .ok item => (collect head taken body (id :: seen) rest).map (item :: ·)

-- == entities

structure Entity where
  stableId : PyStr
  sourceId : PyStr
  entityType : PyStr
  epistemicStatus : Option PyStr
  revisionParent : Option PyStr
  payload : Json

def Entity.json (e : Entity) : Json := .obj [
  (py "entity_type", .str e.entityType), (py "epistemic_status", optionJson e.epistemicStatus),
  (py "payload", e.payload.normalise), (py "revision_parent", optionJson e.revisionParent),
  (py "source_id", .str e.sourceId), (py "stable_id", .str e.stableId)]

def stableSourceIdentity (sourceSystem entityType sourceId : PyStr) : Except MigrationError PyStr :=
  digest R (.obj [(py "entity_type", .str entityType), (py "source_id", .str sourceId),
    (py "source_system", .str sourceSystem)])

/-- The identifier of an entity, and its type. -/
def entityHead : Json → Except MigrationError (PyStr × PyStr)
  | .obj raw =>
    let sourceId := textOf R raw "source_id"
    let entityType := textOf R raw "entity_type"
    if sourceId = [] ∨ entityType = [] then
      .error (.valueError (py "entity source_id and entity_type are required"))
    else .ok (sourceId, entityType)
  | _ => .error (.typeError (py "each entity must be a mapping"))

/-- `epistemic_status`, which may be missing but not empty. -/
def epistemicStatus (raw : Members) (sourceId : PyStr) : Except MigrationError (Option PyStr) :=
  match field raw "epistemic_status" with
  | .null => .ok none
  | value =>
    if stripped R value = [] then
      .error (.valueError (py "empty epistemic_status for " ++ sourceId))
    else .ok (some (stripped R value))

def entityBody (sourceSystem sourceId entityType : PyStr) : Json → Except MigrationError Entity
  | .obj raw =>
    match epistemicStatus R raw sourceId with
    | .error e => .error e
    | .ok status =>
      match stableSourceIdentity R sourceSystem entityType sourceId with
      | .error e => .error e
      | .ok stableId => .ok {
          stableId := stableId
          sourceId := sourceId
          entityType := entityType
          epistemicStatus := status
          revisionParent :=
            match field raw "revision_parent" with
            | .null => none
            | value => orNone (stripped R value)
          payload :=
            if (field raw "payload").truthy then field raw "payload" else .obj [] }
  | _ => .error (.typeError (py "each entity must be a mapping"))

/-- The revision parent is missing from the entities. -/
def isOrphan (sourceIds : List PyStr) (e : Entity) : Bool :=
  e.revisionParent.any fun p => decide (p ∉ sourceIds)

def normalizeEntities (sourceSystem : PyStr) (values : Json) :
    Except MigrationError (List Entity) :=
  match sequence "entities" values with
  | .error e => .error e
  | .ok raws =>
    match collect (entityHead R) (fun id => .valueError (py "duplicate entity source_id: " ++ id))
      (entityBody R sourceSystem) [] raws with
    | .error e => .error e
    | .ok items =>
      let result := Lib.sortedBy Entity.stableId items
      match result.find? (isOrphan (result.map Entity.sourceId)) with
      | some e => .error (.valueError (py "revision_parent "
          ++ R.repr (e.revisionParent.getD []) ++ py " for " ++ R.repr e.sourceId
          ++ py " is not present"))
      | none => .ok result

-- == relationships

structure Relationship where
  sourceId : PyStr
  relation : PyStr
  targetId : PyStr
  sourceEndpointType : Option PyStr
  targetEndpointType : Option PyStr
deriving DecidableEq

/-- What relationships are told apart and sorted by. -/
def Relationship.key (r : Relationship) : PyStr ×ₗ (PyStr ×ₗ PyStr) :=
  toLex (r.sourceId, toLex (r.relation, r.targetId))

/-- A member that is there if it says something. -/
def optionMember (name : String) : Option PyStr → Members
  | some s => [(py name, .str s)]
  | none => []

def Relationship.json (r : Relationship) : Json := .obj ((py "relation", .str r.relation)
    :: optionMember "source_endpoint_type" r.sourceEndpointType
    ++ (py "source_id", .str r.sourceId)
    :: optionMember "target_endpoint_type" r.targetEndpointType
    ++ [(py "target_id", .str r.targetId)])

def readRelationship : Json → Except MigrationError Relationship
  | .obj raw =>
    let sourceId := textOf R raw "source_id"
    let relation := textOf R raw "relation"
    let targetId := textOf R raw "target_id"
    if sourceId = [] ∨ relation = [] ∨ targetId = [] then .error (.valueError
      (py "relationship source_id, relation, and target_id are required"))
    else .ok ⟨sourceId, relation, targetId, orNone (textOf R raw "source_endpoint_type"),
      orNone (textOf R raw "target_endpoint_type")⟩
  | _ => .error (.typeError (py "each relationship must be a mapping"))

/-- A relationship between entities that are there. -/
def knownRelationship (knownIds : List PyStr) (raw : Json) : Except MigrationError Relationship :=
  match readRelationship R raw with
  | .error e => .error e
  | .ok r =>
    if r.sourceId ∉ knownIds ∨ r.targetId ∉ knownIds then .error (.valueError
      (py "relationship endpoints must exist in export: " ++ R.repr r.sourceId ++ py " -> "
        ++ R.repr r.targetId))
    else .ok r

/-- The loop over the relationships, which keeps the first of each key. -/
def keepFirst (knownIds : List PyStr) : List (PyStr ×ₗ (PyStr ×ₗ PyStr)) → List Json →
    Except MigrationError (List Relationship)
  | _, [] => .ok []
  | seen, raw :: rest =>
    match knownRelationship R knownIds raw with
    | .error e => .error e
    | .ok r =>
      if r.key ∈ seen then keepFirst knownIds seen rest
      else (keepFirst knownIds (r.key :: seen) rest).map (r :: ·)

def normalizeRelationships (knownIds : List PyStr) (values : Json) :
    Except MigrationError (List Relationship) :=
  match sequence "relationships" values with
  | .error e => .error e
  | .ok raws => (keepFirst R knownIds [] raws).map (Lib.sortedBy Relationship.key)

-- == artifacts

structure Artifact where
  artifactId : PyStr
  sha256 : PyStr
  verification : String
  mediaType : Option PyStr
  logicalRef : Option PyStr

def Artifact.json (a : Artifact) : Json := .obj [
  (py "artifact_id", .str a.artifactId), (py "logical_ref", optionJson a.logicalRef),
  (py "media_type", optionJson a.mediaType), (py "sha256", .str a.sha256),
  (py "verification", .str (py a.verification))]

/-- `^[0-9a-f]{64}$`, in full. -/
def isSha256 (s : PyStr) : Bool :=
  decide (s.length = 64) && s.all fun c =>
    decide (48 ≤ c ∧ c ≤ 57 ∨ 97 ≤ c ∧ c ≤ 102)

/-- The identifier of an artifact, and its digest. -/
def artifactHead : Json → Except MigrationError (PyStr × PyStr)
  | .obj raw =>
    let artifactId := textOf R raw "artifact_id"
    if artifactId = [] then .error (.valueError (py "artifact_id is required"))
    else .ok (artifactId, R.lower (textOf R raw "sha256"))
  | _ => .error (.typeError (py "each artifact must be a mapping"))

/-- What is said of the bytes of an artifact; `some none` is a payload that is no bytes. -/
def verificationOf (payloads : PyStr → Option (Option ByteArray)) (artifactId sha256 : PyStr) :
    Except MigrationError String :=
  match payloads artifactId with
  | none => .ok "HASH_PRESERVED_BYTES_NOT_PROVIDED"
  | some none => .error (.typeError
      (py "artifact payload for " ++ R.repr artifactId ++ py " must be bytes"))
  | some (some payload) =>
    if R.sha256 payload ≠ sha256 then .error (.valueError
      (py "artifact SHA-256 mismatch for " ++ R.repr artifactId ++ py ": expected " ++ sha256
        ++ py ", got " ++ R.sha256 payload))
    else .ok "SHA256_VERIFIED_FROM_SUPPLIED_BYTES"

def artifactBody (payloads : PyStr → Option (Option ByteArray)) (artifactId sha256 : PyStr) :
    Json → Except MigrationError Artifact
  | .obj raw =>
    if isSha256 sha256 = false then .error (.valueError
      (py "artifact " ++ R.repr artifactId ++ py " requires lowercase SHA-256"))
    else
      match verificationOf R payloads artifactId sha256 with
      | .error e => .error e
      | .ok verification => .ok ⟨artifactId, sha256, verification,
          orNone (textOf R raw "media_type"), orNone (textOf R raw "logical_ref")⟩
  | _ => .error (.typeError (py "each artifact must be a mapping"))

def normalizeArtifacts (payloads : PyStr → Option (Option ByteArray)) (values : Json) :
    Except MigrationError (List Artifact) :=
  match sequence "artifacts" values with
  | .error e => .error e
  | .ok raws =>
    (collect (artifactHead R) (fun id => .valueError (py "duplicate artifact_id: " ++ id))
      (artifactBody R payloads) [] raws).map (Lib.sortedBy Artifact.artifactId)

-- == compile

structure Normalized where
  sourceSystem : PyStr
  exportVersion : PyStr
  entities : List Entity
  relationships : List Relationship
  artifacts : List Artifact

/-- What the digest is of, its keys in order. -/
def Normalized.json (n : Normalized) : Json := .obj [
  (py "artifacts", .arr (n.artifacts.map Artifact.json)),
  (py "entities", .arr (n.entities.map Entity.json)),
  (py "export_version", .str n.exportVersion),
  (py "relationships", .arr (n.relationships.map Relationship.json)),
  (py "source_system", .str n.sourceSystem)]

/-- The proposal; its other members are constants. -/
structure Proposal extends Normalized where
  sourceDigest : PyStr

/-- `str(raw.get(field) or "").strip()` of a member that is there. -/
def headerText (value : Json) : PyStr := if value.truthy then stripped R value else []

/-- The first part of `compile`. -/
def normalize (payloads : PyStr → Option (Option ByteArray)) (e : Export) :
    Except MigrationError Normalized :=
  let sourceSystem := headerText R e.sourceSystem
  let exportVersion := headerText R e.exportVersion
  if sourceSystem = [] then .error (.valueError (py "source_system is required"))
  else if exportVersion = [] then .error (.valueError (py "export_version is required"))
  else
    match normalizeEntities R sourceSystem e.entities with
    | .error e => .error e
    | .ok entities =>
      match normalizeRelationships R (entities.map Entity.sourceId) e.relationships with
      | .error e => .error e
      | .ok relationships =>
        match normalizeArtifacts R payloads e.artifacts with
        | .error e => .error e
        | .ok artifacts => .ok ⟨sourceSystem, exportVersion, entities, relationships, artifacts⟩

def compile (payloads : PyStr → Option (Option ByteArray)) (e : Export) :
    Except MigrationError Proposal :=
  match normalize R payloads e with
  | .error e => .error e
  | .ok n =>
    match digest R n.json with
    | .error e => .error e
    | .ok sourceDigest => .ok ⟨n, sourceDigest⟩

end Normalise

-- == loops

section Loops

variable {α β γ : Type}

/-- A function returns on every member of the list. -/
def AllOk (f : α → Except MigrationError β) (xs : List α) : Prop := ∀ x ∈ xs, ∃ y, f x = .ok y

def oks (f : α → Except MigrationError β) (xs : List α) : List β :=
  xs.filterMap fun x => (f x).toOption

variable {f : α → Except MigrationError β} {xs : List α}

variable {y : β} {x : α} {xs' : List α} {head : Json → Except MigrationError (PyStr × γ)}
  {taken : PyStr → MigrationError} {body : PyStr → γ → Json → Except MigrationError β}
  {raws : List Json} {items : List β}

theorem mem_oks : y ∈ oks f xs ↔ ∃ x ∈ xs, f x = .ok y := by
  rw [oks, List.mem_filterMap]
  refine exists_congr fun x => and_congr_right fun _ => ?_
  cases f x with
  | ok z => simp [Except.toOption]
  | error e => simp [Except.toOption]

theorem oks_cons (h : f x = .ok y) (xs : List α) : oks f (x :: xs) = y :: oks f xs := by
  rw [oks, List.filterMap_cons_some (by rw [h]; rfl)]
  rfl

theorem oks_perm (h : xs.Perm xs') : (oks f xs).Perm (oks f xs') := h.filterMap _

theorem AllOk.perm (h : AllOk f xs)
    (hperm : xs.Perm xs') : AllOk f xs' := fun x hx => h x (hperm.mem_iff.mpr hx)

theorem allOk_cons : AllOk f (x :: xs) ↔ (∃ y, f x = .ok y) ∧ AllOk f xs := List.forall_mem_cons

/-- What `collect` makes of one record. -/
def one (head : Json → Except MigrationError (PyStr × γ))
    (body : PyStr → γ → Json → Except MigrationError β) (raw : Json) :
    Except MigrationError (PyStr × β) :=
  match head raw with
  | .error e => .error e
  | .ok (id, x) => (body id x raw).map fun item => (id, item)

/-- `collect` returns what is made of the records, if each is made and no identifier comes
twice. -/
theorem collect_iff
   
    {seen : List PyStr} :
    collect head taken body seen raws = .ok items
      ↔ AllOk (one head body) raws ∧ ((oks (one head body) raws).map Prod.fst).Nodup
        ∧ (∀ p ∈ oks (one head body) raws, p.1 ∉ seen)
        ∧ items = (oks (one head body) raws).map Prod.snd := by
  induction raws generalizing seen items with
  | nil =>
    rw [collect, Except.ok.injEq]
    constructor
    · rintro rfl
      exact ⟨nofun, List.nodup_nil, nofun, rfl⟩
    · rintro ⟨-, -, -, rfl⟩
      rfl
  | cons raw rest ih =>
    unfold collect
    rw [allOk_cons]
    cases hhead : head raw with
    | error e =>
      have hnone : ∀ y, one head body raw ≠ .ok y := by
        intro y hy
        rw [one, hhead] at hy
        cases hy
      exact iff_of_false (nofun) fun h => h.1.1.elim hnone
    | ok p =>
      obtain ⟨id, x⟩ := p
      dsimp only
      cases hbody : body id x raw with
      | error e =>
        have hnone : ∀ y, one head body raw ≠ .ok y := by
          intro y hy
          rw [one, hhead] at hy
          dsimp only at hy
          rw [hbody] at hy
          cases hy
        refine iff_of_false (fun h => ?_) fun h => h.1.1.elim hnone
        split at h <;> cases h
      | ok item =>
        have hone : one head body raw = .ok (id, item) := by
          rw [one, hhead]
          dsimp only
          rw [hbody]
          rfl
        rw [oks_cons hone]
        by_cases hseen : id ∈ seen
        · rw [if_pos hseen]
          exact iff_of_false (nofun) fun h =>
            h.2.2.1 (id, item) (List.mem_cons_self ..) hseen
        · rw [if_neg hseen]
          dsimp only
          constructor
          · intro h
            cases hrest : collect head taken body (id :: seen) rest with
            | error e =>
              rw [hrest] at h
              cases h
            | ok items' =>
              rw [hrest] at h
              cases h
              obtain ⟨hall, hnodup, hnew, rfl⟩ := ih.mp hrest
              refine ⟨⟨⟨_, hone⟩, hall⟩, ?_, ?_, rfl⟩
              · refine List.nodup_cons.mpr ⟨fun hmem => ?_, hnodup⟩
                obtain ⟨p, hp, hid⟩ := List.mem_map.mp hmem
                exact hnew p hp (hid ▸ List.mem_cons_self ..)
              · refine List.forall_mem_cons.mpr ⟨hseen, fun p hp hmem => ?_⟩
                exact hnew p hp (List.mem_cons_of_mem _ hmem)
          · rintro ⟨⟨-, hall⟩, hnodup, hnew, rfl⟩
            obtain ⟨hid, hnodup⟩ := List.nodup_cons.mp hnodup
            have hrest : ∀ p ∈ oks (one head body) rest, p.1 ∉ id :: seen := by
              intro p hp hmem
              rcases List.mem_cons.mp hmem with heq | hmem
              · exact hid (List.mem_map.mpr ⟨p, hp, heq⟩)
              · exact hnew p (List.mem_cons_of_mem _ hp) hmem
            rw [ih.mpr ⟨hall, hnodup, hrest, rfl⟩]
            rfl

theorem collect_perm
   
    {raws' : List Json} (h : collect head taken body [] raws = .ok items)
    (hperm : raws.Perm raws') :
    ∃ items', collect head taken body [] raws' = .ok items' ∧ items.Perm items' := by
  obtain ⟨hall, hnodup, -, rfl⟩ := collect_iff.mp h
  have hoks : (oks (one head body) raws).Perm (oks (one head body) raws') := oks_perm hperm
  exact ⟨_, collect_iff.mpr ⟨hall.perm hperm, (hoks.map _).nodup_iff.mp hnodup,
    fun p _ => List.not_mem_nil, rfl⟩, hoks.map _⟩

end Loops

def firsts : List (PyStr ×ₗ (PyStr ×ₗ PyStr)) → List Relationship → List Relationship
  | _, [] => []
  | seen, r :: rest =>
    if r.key ∈ seen then firsts seen rest else r :: firsts (r.key :: seen) rest

variable {seen : List (PyStr ×ₗ (PyStr ×ₗ PyStr))} {rs : List Relationship} {r : Relationship}

theorem keepFirst_iff {R : Readers} {knownIds : List PyStr} {raws : List Json} :
    keepFirst R knownIds seen raws = .ok rs ↔ AllOk (knownRelationship R knownIds) raws
      ∧ rs = firsts seen (oks (knownRelationship R knownIds) raws) := by
  induction raws generalizing seen rs with
  | nil =>
    rw [keepFirst, Except.ok.injEq]
    constructor
    · rintro rfl
      exact ⟨nofun, rfl⟩
    · rintro ⟨-, rfl⟩
      rfl
  | cons raw rest ih =>
    unfold keepFirst
    rw [allOk_cons]
    cases hr : knownRelationship R knownIds raw with
    | error e =>
      exact iff_of_false (nofun) fun h => h.1.1.elim fun y hy => by cases hy
    | ok r =>
      rw [oks_cons hr, firsts]
      dsimp only
      split
      · rw [ih]
        exact ⟨fun h => ⟨⟨⟨r, rfl⟩, h.1⟩, h.2⟩, fun h => ⟨h.1.2, h.2⟩⟩
      · cases hrest : keepFirst R knownIds (r.key :: seen) rest with
        | error e =>
          refine iff_of_false (nofun) fun h => ?_
          rw [ih.mpr ⟨h.1.2, rfl⟩] at hrest
          cases hrest
        | ok rs' =>
          obtain ⟨hall, rfl⟩ := ih.mp hrest
          constructor
          · intro h
            cases h
            exact ⟨⟨⟨r, rfl⟩, hall⟩, rfl⟩
          · rintro ⟨-, rfl⟩
            rfl

theorem mem_firsts (h : r ∈ firsts seen rs) : r ∈ rs ∧ r.key ∉ seen := by
  induction rs generalizing seen with
  | nil => cases h
  | cons r' rest ih =>
    rw [firsts] at h
    split at h
    · exact ⟨List.mem_cons_of_mem _ (ih h).1, (ih h).2⟩
    · next hnew =>
      rcases List.mem_cons.mp h with rfl | h
      · exact ⟨List.mem_cons_self .., hnew⟩
      · exact ⟨List.mem_cons_of_mem _ (ih h).1, fun hmem => (ih h).2 (List.mem_cons_of_mem _ hmem)⟩

variable {r' : Relationship} {v v' : Json}

theorem firsts_unique (hr : r ∈ firsts seen rs) (hr' : r' ∈ firsts seen rs)
    (hkey : r.key = r'.key) : r = r' := by
  induction rs generalizing seen with
  | nil => cases hr
  | cons first rest ih =>
    rw [firsts] at hr hr'
    split at hr
    · next hseen =>
      rw [if_pos hseen] at hr'
      exact ih hr hr'
    · next hnew =>
      rw [if_neg hnew] at hr'
      rcases List.mem_cons.mp hr with rfl | hr <;> rcases List.mem_cons.mp hr' with rfl | hr'
      · rfl
      · exact absurd (hkey ▸ List.mem_cons_self ..) (mem_firsts hr').2
      · exact absurd (hkey ▸ List.mem_cons_self ..) (mem_firsts hr).2
      · exact ih hr hr'

theorem nodup_firsts (seen : List (PyStr ×ₗ (PyStr ×ₗ PyStr))) (rs : List Relationship) :
    (firsts seen rs).Nodup := by
  induction rs generalizing seen with
  | nil => exact List.nodup_nil
  | cons r rest ih =>
    rw [firsts]
    split
    · exact ih seen
    · exact List.nodup_cons.mpr ⟨fun hmem => (mem_firsts hmem).2 (List.mem_cons_self ..), ih _⟩

theorem exists_first (hr : r ∈ rs) (hnew : r.key ∉ seen) :
    ∃ r' ∈ firsts seen rs, r'.key = r.key := by
  induction rs generalizing seen with
  | nil => cases hr
  | cons first rest ih =>
    rw [firsts]
    by_cases hfirst : first.key ∈ seen
    · rw [if_pos hfirst]
      rcases List.mem_cons.mp hr with rfl | hr
      · exact absurd hfirst hnew
      · exact ih hr hnew
    · rw [if_neg hfirst]
      by_cases hkey : first.key = r.key
      · exact ⟨first, List.mem_cons_self .., hkey⟩
      · rcases List.mem_cons.mp hr with rfl | hr
        · exact absurd rfl hkey
        · have hnew' : r.key ∉ first.key :: seen := by
            intro hmem
            rcases List.mem_cons.mp hmem with heq | hmem
            · exact hkey heq.symm
            · exact hnew hmem
          obtain ⟨r', hr', heq⟩ := ih hr hnew'
          exact ⟨r', List.mem_cons_of_mem _ hr', heq⟩

theorem firsts_front {front back : List Relationship}
    (hr : r ∈ firsts seen (front ++ back)) (hr' : r' ∈ front)
    (hkey : r'.key = r.key) : r ∈ front := by
  induction front generalizing seen with
  | nil => cases hr'
  | cons first rest ih =>
    rw [List.cons_append, firsts] at hr
    split at hr
    · next hseen =>
      rcases List.mem_cons.mp hr' with rfl | hr'
      · exact absurd (hkey ▸ hseen) (mem_firsts hr).2
      · exact List.mem_cons_of_mem _ (ih hr hr')
    · rcases List.mem_cons.mp hr with rfl | hr
      · exact List.mem_cons_self ..
      · rcases List.mem_cons.mp hr' with rfl | hr'
        · exact absurd (hkey ▸ List.mem_cons_self ..) (mem_firsts hr).2
        · exact List.mem_cons_of_mem _ (ih hr hr')

theorem firsts_perm {rs' : List Relationship} (h : rs.Perm rs')
    (hsame : ∀ a ∈ rs, ∀ b ∈ rs, a.key = b.key → a = b) : (firsts [] rs).Perm (firsts [] rs') := by
  have hmem : ∀ l : List Relationship, (∀ a ∈ l, ∀ b ∈ l, a.key = b.key → a = b) →
      ∀ r, r ∈ firsts [] l ↔ r ∈ l := by
    intro l hl r
    constructor
    · exact fun hr => (mem_firsts hr).1
    · intro hr
      obtain ⟨r', hr', hkey⟩ := exists_first hr List.not_mem_nil
      exact hl r' (mem_firsts hr').1 r hr hkey ▸ hr'
  have hsame' : ∀ a ∈ rs', ∀ b ∈ rs', a.key = b.key → a = b := fun a ha b hb =>
    hsame a (h.mem_iff.mpr ha) b (h.mem_iff.mpr hb)
  rw [List.perm_ext_iff_of_nodup (nodup_firsts _ _) (nodup_firsts _ _)]
  intro r
  rw [hmem rs hsame, hmem rs' hsame', h.mem_iff]

-- == normalising

def Permuted (v v' : Json) : Prop := v = v' ∨ ∃ xs ys, v = .arr xs ∧ v' = .arr ys ∧ xs.Perm ys

theorem Permuted.symm (h : Permuted v v') : Permuted v' v := by
  rcases h with rfl | ⟨xs, ys, rfl, rfl, hperm⟩
  · exact Or.inl rfl
  · exact Or.inr ⟨ys, xs, rfl, rfl, hperm.symm⟩

theorem sequence_permuted {name : String} {xs : List Json} (h : Permuted v v')
    (hxs : sequence name v = .ok xs) : ∃ xs', sequence name v' = .ok xs' ∧ xs.Perm xs' := by
  rcases h with rfl | ⟨ys, ys', rfl, rfl, hperm⟩
  · exact ⟨xs, hxs, .refl _⟩
  · cases hxs
    exact ⟨ys', rfl, hperm⟩

section Normalising

variable {R : Readers}

variable {d raw v v' : Json} {id : PyStr} {payloads : PyStr → Option (Option ByteArray)}
  {knownIds : List PyStr}

theorem digest_inj (hR : R.CollisionFree) {d' : Json} {s : PyStr} (h : digest R d = .ok s)
    (h' : digest R d' = .ok s) : d = d' := by
  unfold digest at h h'
  split at h
  · next text htext =>
    split at h'
    · next text' htext' =>
      have hsame : text = text' :=
        utf8_injective (hR ((Except.ok.inj h).trans (Except.ok.inj h').symm))
      rw [encode_eq_ok] at htext htext'
      exact text_injective (htext.symm.trans (hsame ▸ htext'))
    · cases h'
  · cases h

theorem digest_ok_iff : (∃ s, digest R d = .ok s) ↔ d.isEncodable = true := by
  rw [← encodable_text]
  unfold digest encode
  split
  · next text htext =>
    split at htext
    · next hencodable => exact iff_of_true ⟨_, rfl⟩ hencodable
    · cases htext
  · next e htext =>
    split at htext
    · cases htext
    · next hnot =>
      refine iff_of_false ?_ hnot
      rintro ⟨s, hs⟩
      cases hs

theorem one_ok {β γ : Type} {head : Json → Except MigrationError (PyStr × γ)}
    {body : PyStr → γ → Json → Except MigrationError β} {p : PyStr × β}
    (h : one head body raw = .ok p) : ∃ x, body p.1 x raw = .ok p.2 := by
  unfold one at h
  split at h
  · cases h
  · next id x _ =>
    cases hitem : body id x raw with
    | error e =>
      rw [hitem] at h
      cases h
    | ok item =>
      rw [hitem] at h
      cases h
      exact ⟨x, hitem⟩

theorem entityBody_ok {sourceSystem entityType : PyStr} {e : Entity}
    (h : entityBody R sourceSystem id entityType raw = .ok e) :
    stableSourceIdentity R sourceSystem entityType id = .ok e.stableId := by
  unfold entityBody at h
  split at h
  · split at h
    · cases h
    · split at h
      · cases h
      · next stableId hstable =>
        cases h
        exact hstable
  · cases h

theorem stableId_apart (hR : R.CollisionFree) {sourceSystem : PyStr} {raws : List Json}
    {items : List Entity} {taken : PyStr → MigrationError}
    (h : collect (entityHead R) taken (entityBody R sourceSystem) [] raws = .ok items) :
    ∀ a ∈ items, ∀ b ∈ items, a.stableId = b.stableId → a = b := by
  obtain ⟨-, hnodup, -, rfl⟩ := collect_iff.mp h
  intro a ha b hb heq
  obtain ⟨p, hp, rfl⟩ := List.mem_map.mp ha
  obtain ⟨q, hq, rfl⟩ := List.mem_map.mp hb
  obtain ⟨x, -, hx⟩ := mem_oks.mp hp
  obtain ⟨y, -, hy⟩ := mem_oks.mp hq
  obtain ⟨t, ht⟩ := one_ok hx
  obtain ⟨u, hu⟩ := one_ok hy
  have ht := entityBody_ok ht
  have hu := entityBody_ok hu
  rw [← heq] at hu
  have hsame := digest_inj hR ht hu
  simp only [Json.obj.injEq, List.cons.injEq, Prod.mk.injEq, Json.str.injEq, true_and] at hsame
  rw [List.inj_on_of_nodup_map hnodup hp hq hsame.2.1]

theorem normalizeEntities_permuted (hR : R.CollisionFree) {sourceSystem : PyStr}
    {es : List Entity} (h : normalizeEntities R sourceSystem v = .ok es)
    (hperm : Permuted v v') : normalizeEntities R sourceSystem v' = .ok es := by
  unfold normalizeEntities at h ⊢
  split at h
  · cases h
  · next raws hraws =>
    obtain ⟨raws', hraws', hraws⟩ := sequence_permuted hperm hraws
    rw [hraws']
    dsimp only
    split at h
    · cases h
    · next items hitems =>
      obtain ⟨items', hitems', hsame⟩ := collect_perm hitems hraws
      rw [hitems']
      dsimp only
      rw [← Lib.sortedBy_eq_of_perm Entity.stableId hsame (stableId_apart hR hitems)]
      exact h

theorem artifactBody_ok {sha : PyStr}
    {a : Artifact} (h : artifactBody R payloads id sha raw = .ok a) :
    a.artifactId = id := by
  unfold artifactBody at h
  split at h
  · split at h
    · cases h
    · split at h
      · cases h
      · cases h
        rfl
  · cases h

theorem normalizeArtifacts_permuted
    {as : List Artifact} (h : normalizeArtifacts R payloads v = .ok as) (hperm : Permuted v v') :
    normalizeArtifacts R payloads v' = .ok as := by
  unfold normalizeArtifacts at h ⊢
  split at h
  · cases h
  · next raws hraws =>
    obtain ⟨raws', hraws', hraws⟩ := sequence_permuted hperm hraws
    rw [hraws']
    dsimp only
    cases hitems : collect (artifactHead R)
        (fun id => .valueError (py "duplicate artifact_id: " ++ id)) (artifactBody R payloads) []
        raws with
    | error e =>
      rw [hitems] at h
      cases h
    | ok items =>
      rw [hitems] at h
      cases h
      obtain ⟨items', hitems', hsame⟩ := collect_perm hitems hraws
      rw [hitems', Except.map, Except.ok.injEq]
      refine (Lib.sortedBy_eq_of_perm Artifact.artifactId hsame ?_).symm
      obtain ⟨-, hnodup, -, rfl⟩ := collect_iff.mp hitems
      intro a ha b hb heq
      obtain ⟨p, hp, rfl⟩ := List.mem_map.mp ha
      obtain ⟨q, hq, rfl⟩ := List.mem_map.mp hb
      obtain ⟨x, -, hx⟩ := mem_oks.mp hp
      obtain ⟨y, -, hy⟩ := mem_oks.mp hq
      obtain ⟨t, ht⟩ := one_ok hx
      obtain ⟨u, hu⟩ := one_ok hy
      rw [artifactBody_ok ht, artifactBody_ok hu] at heq
      rw [List.inj_on_of_nodup_map hnodup hp hq heq]

theorem knownRelationship_ok {r : Relationship}
    (h : knownRelationship R knownIds raw = .ok r) : readRelationship R raw = .ok r := by
  unfold knownRelationship at h
  split at h
  · cases h
  · next r' hr =>
    split at h
    · cases h
    · cases h
      exact hr

theorem normalizeRelationships_iff {rs : List Relationship} :
    normalizeRelationships R knownIds v = .ok rs ↔ ∃ raws, sequence "relationships" v = .ok raws
        ∧ AllOk (knownRelationship R knownIds) raws
        ∧ rs = Lib.sortedBy Relationship.key
          (firsts [] (oks (knownRelationship R knownIds) raws)) := by
  unfold normalizeRelationships
  cases hraws : sequence "relationships" v with
  | error e => exact iff_of_false (nofun) fun ⟨raws, h, _⟩ => (by cases h)
  | ok raws =>
    dsimp only
    constructor
    · intro h
      cases hkept : keepFirst R knownIds [] raws with
      | error e =>
        rw [hkept] at h
        cases h
      | ok kept =>
        rw [hkept] at h
        cases h
        obtain ⟨hall, rfl⟩ := keepFirst_iff.mp hkept
        exact ⟨raws, rfl, hall, rfl⟩
    · rintro ⟨raws', hsame, hall, rfl⟩
      cases hsame
      rw [keepFirst_iff.mpr ⟨hall, rfl⟩]
      rfl

end Normalising

-- == result

section Result

variable (R : Readers) (payloads : PyStr → Option (Option ByteArray))

/-- An export in another order. -/
structure Reordered (e e' : Export) : Prop where
  sourceSystem : e.sourceSystem = e'.sourceSystem
  exportVersion : e.exportVersion = e'.exportVersion
  entities : Permuted e.entities e'.entities
  relationships : Permuted e.relationships e'.relationships
  artifacts : Permuted e.artifacts e'.artifacts

/-- In every order the export is refused, or the proposal is the same one. -/
def OrderFree (e : Export) : Prop :=
  ∀ e', Reordered e e' → (∃ p, compile R payloads e = .ok p ∧ compile R payloads e' = .ok p)
    ∨ (∃ err, compile R payloads e = .error err) ∧ ∃ err, compile R payloads e' = .error err

def Says (e : Export) (r : Relationship) : Prop :=
  ∃ raws, sequence "relationships" e.relationships = .ok raws
    ∧ ∃ raw ∈ raws, readRelationship R raw = .ok r

/-- Relationships of one key have the same endpoint types. -/
def Consistent (e : Export) : Prop :=
  ∀ r r', Says R e r → Says R e r' → r.key = r'.key → r = r'

/-- What is normalised of an export but its relationships. -/
def Normalized.fixed (n : Normalized) : Json := .arr [
  .arr (n.artifacts.map Artifact.json), .arr (n.entities.map Entity.json), .str n.exportVersion,
  .str n.sourceSystem]

/-- The export is not normalised, or has a text without an encoding: outside its relationships,
or in all relationships of one key. -/
def Refused (e : Export) : Prop :=
  (∃ err, normalize R payloads e = .error err) ∨ ∃ n, normalize R payloads e = .ok n
    ∧ (n.fixed.isEncodable = false ∨ ∃ r, Says R e r
      ∧ ∀ r', Says R e r' → r'.key = r.key → r'.json.isEncodable = false)

end Result

section Compiled

variable {R : Readers} {payloads : PyStr → Option (Option ByteArray)} {e e' : Export}

theorem Reordered.symm (h : Reordered e e') : Reordered e' e :=
  ⟨h.sourceSystem.symm, h.exportVersion.symm, h.entities.symm, h.relationships.symm,
    h.artifacts.symm⟩

theorem Reordered.refl (e : Export) : Reordered e e :=
  ⟨rfl, rfl, Or.inl rfl, Or.inl rfl, Or.inl rfl⟩

variable {r : Relationship} {n : Normalized} {raws : List Json} {p : Proposal}

theorem Says.reordered (h : Says R e r) (hperm : Reordered e e') : Says R e' r := by
  obtain ⟨raws, hraws, raw, hraw, hr⟩ := h
  obtain ⟨raws', hraws', hperm⟩ := sequence_permuted hperm.relationships hraws
  exact ⟨raws', hraws', raw, hperm.mem_iff.mp hraw, hr⟩

structure IsNormal (R : Readers) (payloads : PyStr → Option (Option ByteArray)) (e : Export)
    (n : Normalized) : Prop where
  sourceSystem : n.sourceSystem = headerText R e.sourceSystem
  exportVersion : n.exportVersion = headerText R e.exportVersion
  named : headerText R e.sourceSystem ≠ [] ∧ headerText R e.exportVersion ≠ []
  entities : normalizeEntities R (headerText R e.sourceSystem) e.entities = .ok n.entities
  relationships : normalizeRelationships R (n.entities.map Entity.sourceId) e.relationships
    = .ok n.relationships
  artifacts : normalizeArtifacts R payloads e.artifacts = .ok n.artifacts

theorem normalize_iff : normalize R payloads e = .ok n ↔ IsNormal R payloads e n := by
  constructor
  · intro h
    unfold normalize at h
    dsimp only at h
    split at h
    · cases h
    · next hsystem =>
      split at h
      · cases h
      · next hversion =>
        split at h
        · cases h
        · next entities hentities =>
          split at h
          · cases h
          · next relationships hrelationships =>
            split at h
            · cases h
            · next artifacts hartifacts =>
              cases h
              exact ⟨rfl, rfl, ⟨hsystem, hversion⟩, hentities, hrelationships, hartifacts⟩
  · rintro ⟨hsystem, hversion, ⟨hnamed, hversioned⟩, hentities, hrelationships, hartifacts⟩
    unfold normalize
    dsimp only
    rw [if_neg hnamed, if_neg hversioned, hentities]
    dsimp only
    rw [hrelationships]
    dsimp only
    rw [hartifacts, ← hsystem, ← hversion]

/-- The relationships of these records, with the entities of `n`. -/
def relationsOf (R : Readers) (n : Normalized) (raws : List Json) : List Relationship :=
  Lib.sortedBy Relationship.key
    (firsts [] (oks (knownRelationship R (n.entities.map Entity.sourceId)) raws))

theorem normalize_reordered (hR : R.CollisionFree)
    (h : normalize R payloads e = .ok n) (hperm : Reordered e e') :
    ∃ raws raws', sequence "relationships" e.relationships = .ok raws
      ∧ sequence "relationships" e'.relationships = .ok raws' ∧ raws.Perm raws'
      ∧ AllOk (knownRelationship R (n.entities.map Entity.sourceId)) raws
      ∧ n.relationships = relationsOf R n raws
      ∧ normalize R payloads e' = .ok { n with relationships := relationsOf R n raws' } := by
  obtain ⟨hsystem, hversion, hnamed, hentities, hrelationships, hartifacts⟩ := normalize_iff.mp h
  obtain ⟨raws, hraws, hall, hrs⟩ := normalizeRelationships_iff.mp hrelationships
  obtain ⟨raws', hraws', hsame⟩ := sequence_permuted hperm.relationships hraws
  refine ⟨raws, raws', hraws, hraws', hsame, hall, hrs, normalize_iff.mpr ⟨?_, ?_, ?_, ?_, ?_, ?_⟩⟩
  · rw [← hperm.sourceSystem]
    exact hsystem
  · rw [← hperm.exportVersion]
    exact hversion
  · rw [← hperm.sourceSystem, ← hperm.exportVersion]
    exact hnamed
  · rw [← hperm.sourceSystem]
    exact normalizeEntities_permuted hR hentities hperm.entities
  · exact normalizeRelationships_iff.mpr ⟨raws', hraws', hall.perm hsame, rfl⟩
  · exact normalizeArtifacts_permuted hartifacts hperm.artifacts

theorem says_iff {knownIds : List PyStr}
    (hraws : sequence "relationships" e.relationships = .ok raws)
    (hall : AllOk (knownRelationship R knownIds) raws) :
    Says R e r ↔ r ∈ oks (knownRelationship R knownIds) raws := by
  rw [mem_oks]
  constructor
  · rintro ⟨raws', hraws', raw, hraw, hr⟩
    rw [hraws] at hraws'
    cases hraws'
    obtain ⟨r', hr'⟩ := hall raw hraw
    have hsame := knownRelationship_ok hr'
    rw [hr] at hsame
    cases hsame
    exact ⟨raw, hraw, hr'⟩
  · rintro ⟨raw, hraw, hr⟩
    exact ⟨raws, hraws, raw, hraw, knownRelationship_ok hr⟩

theorem allEncodable_iff (xs : List Json) :
    allEncodable xs = true ↔ ∀ x ∈ xs, x.isEncodable = true := by
  induction xs with
  | nil => exact iff_of_true rfl nofun
  | cons x rest ih => rw [allEncodable, Bool.and_eq_true, ih, List.forall_mem_cons]

theorem Normalized.encodable_iff (n : Normalized) : n.json.isEncodable = true
    ↔ n.fixed.isEncodable = true ∧ ∀ r ∈ n.relationships, r.json.isEncodable = true := by
  have hrelationships : allEncodable (n.relationships.map Relationship.json) = true
      ↔ ∀ r ∈ n.relationships, r.json.isEncodable = true := by
    rw [allEncodable_iff, List.forall_mem_map]
  rw [← hrelationships]
  simp only [Normalized.json, Normalized.fixed, Json.isEncodable, allEncodableMembers,
    allEncodable, encodable_py, decide_true, Bool.true_and, Bool.and_true, Bool.and_eq_true]
  tauto

theorem compile_iff : compile R payloads e = .ok p ↔ normalize R payloads e = .ok p.toNormalized
      ∧ digest R p.toNormalized.json = .ok p.sourceDigest := by
  unfold compile
  cases hn : normalize R payloads e with
  | error err => exact iff_of_false (nofun) fun h => (by cases h.1)
  | ok n =>
    dsimp only
    cases hs : digest R n.json with
    | error err =>
      refine iff_of_false (nofun) fun h => ?_
      cases h.1
      rw [hs] at h
      cases h.2
    | ok s =>
      constructor
      · intro h
        cases h
        exact ⟨rfl, hs⟩
      · rintro ⟨h, hdigest⟩
        obtain ⟨n', s'⟩ := p
        cases h
        rw [hs] at hdigest
        cases hdigest
        rfl

theorem compile_of_encodable (h : normalize R payloads e = .ok n)
    (henc : n.json.isEncodable = true) :
    ∃ p, compile R payloads e = .ok p ∧ p.toNormalized = n := by
  obtain ⟨s, hs⟩ := digest_ok_iff.mpr henc
  exact ⟨⟨n, s⟩, compile_iff.mpr ⟨h, hs⟩, rfl⟩

theorem not_ok {α : Type} {r : Except MigrationError α} (h : ∀ a, r ≠ .ok a) :
    ∃ err, r = .error err := by
  cases r with
  | ok a => exact absurd rfl (h a)
  | error err => exact ⟨err, rfl⟩

theorem compile_reordered (hR : R.CollisionFree) (hsame : Consistent R e)
    (h : compile R payloads e = .ok p) (hperm : Reordered e e') :
    compile R payloads e' = .ok p := by
  obtain ⟨hn, hs⟩ := compile_iff.mp h
  obtain ⟨raws, raws', hraws, hraws', hraw, hall, hrs, hn'⟩ := normalize_reordered hR hn hperm
  have hkeys : ∀ a ∈ oks (knownRelationship R (p.entities.map Entity.sourceId)) raws,
      ∀ b ∈ oks (knownRelationship R (p.entities.map Entity.sourceId)) raws,
        a.key = b.key → a = b := fun a ha b hb =>
    hsame a b ((says_iff hraws hall).mpr ha) ((says_iff hraws hall).mpr hb)
  have hrelations : relationsOf R p.toNormalized raws = relationsOf R p.toNormalized raws' :=
    Lib.sortedBy_eq_of_perm Relationship.key (firsts_perm (oks_perm hraw) hkeys)
      fun a ha b hb => firsts_unique ha hb
  rw [← hrelations, ← hrs] at hn'
  exact compile_iff.mpr ⟨hn', hs⟩

theorem Refused.compile (hR : R.CollisionFree) (h : Refused R payloads e)
    (hperm : Reordered e e') : ∃ err, compile R payloads e' = .error err := by
  refine not_ok fun p hp => ?_
  obtain ⟨hn', hs⟩ := compile_iff.mp hp
  obtain ⟨raws', raws, hraws', hraws, hraw, hall, hrs, hn⟩ :=
    normalize_reordered hR hn' hperm.symm
  obtain ⟨hfixed, hwritten⟩ := (Normalized.encodable_iff _).mp (digest_ok_iff.mp ⟨_, hs⟩)
  rcases h with ⟨err, herr⟩ | ⟨n, hnormal, hnot⟩
  · rw [hn] at herr
    cases herr
  · rw [hn] at hnormal
    cases hnormal
    rcases hnot with hnot | ⟨r, hr, hnone⟩
    · have hsame : p.toNormalized.fixed.isEncodable = false := hnot
      rw [hfixed] at hsame
      cases hsame
    · have hmem := (says_iff hraws' hall).mp (hr.reordered hperm)
      obtain ⟨r', hr', hkey⟩ := exists_first hmem List.not_mem_nil
      have hlisted : r' ∈ p.relationships := by
        rw [hrs]
        exact (Lib.mem_sortedBy _).mpr hr'
      have htold : Says R e r' :=
        ((says_iff hraws' hall).mpr (mem_firsts hr').1).reordered hperm.symm
      have hnot := hnone r' htold hkey
      rw [hwritten r' hlisted] at hnot
      cases hnot

theorem sequence_arr {name : String} {v : Json} {knownIds : List PyStr}
    (h : sequence name v = .ok raws) (hall : AllOk (knownRelationship R knownIds) raws) :
    raws = [] ∨ v = .arr raws := by
  unfold sequence at h
  split at h
  · cases h
    exact Or.inr rfl
  · cases h
    exact Or.inl rfl
  · cases h
  · next ms =>
    cases h
    cases ms with
    | nil => exact Or.inl rfl
    | cons m rest =>
      -- a key of an object is no record
      obtain ⟨r, hr⟩ := hall _ (List.mem_cons_self ..)
      cases knownRelationship_ok hr
  · split at h
    · cases h
    · cases h
      exact Or.inl rfl

theorem reordered_of_perm (h : normalize R payloads e = .ok n)
    (hraws : sequence "relationships" e.relationships = .ok raws) {raws' : List Json}
    (hperm : raws.Perm raws') :
    ∃ e', Reordered e e' ∧ sequence "relationships" e'.relationships = .ok raws' := by
  obtain ⟨raws₁, hraws₁, hall, -⟩ :=
    normalizeRelationships_iff.mp (normalize_iff.mp h).relationships
  rw [hraws] at hraws₁
  cases hraws₁
  rcases sequence_arr hraws hall with rfl | harr
  · rw [List.nil_perm.mp hperm]
    exact ⟨e, .refl e, hraws⟩
  · exact ⟨{ e with relationships := .arr raws' },
      ⟨rfl, rfl, Or.inl rfl, Or.inr ⟨raws, raws', harr, rfl, hperm⟩, Or.inl rfl⟩, rfl⟩

theorem OrderFree.mem (hR : R.CollisionFree) (h : OrderFree R payloads e)
    (hp : compile R payloads e = .ok p) (hr : Says R e r) :
    r ∈ p.relationships := by
  obtain ⟨hn, -⟩ := compile_iff.mp hp
  obtain ⟨raws, hraws, raw, hraw, hread⟩ := hr
  obtain ⟨before, after, rfl⟩ := List.append_of_mem hraw
  obtain ⟨e', hperm, hraws'⟩ := reordered_of_perm hn hraws List.perm_middle
  rcases h e' hperm with ⟨p', hp', hsame⟩ | ⟨⟨err, herr⟩, -⟩
  · rw [hp] at hp'
    cases hp'
    obtain ⟨hn', -⟩ := compile_iff.mp hsame
    obtain ⟨raws₁, raws₂, hraws₁, hraws₂, -, hall, -, hnormal⟩ := normalize_reordered hR hn hperm
    rw [hraws'] at hraws₂
    cases hraws₂
    rw [hraws] at hraws₁
    cases hraws₁
    rw [hn'] at hnormal
    have hrelations := congrArg Normalized.relationships (Except.ok.inj hnormal)
    rw [hrelations, relationsOf, Lib.mem_sortedBy]
    obtain ⟨r', hr'⟩ := hall raw hraw
    have hsame := knownRelationship_ok hr'
    rw [hread] at hsame
    cases hsame
    rw [oks_cons hr', firsts, if_neg List.not_mem_nil]
    exact List.mem_cons_self ..
  · rw [hp] at herr
    cases herr

theorem exists_compiled (hR : R.CollisionFree) (h : ¬ Refused R payloads e) :
    ∃ e', Reordered e e' ∧ ∃ p, compile R payloads e' = .ok p := by
  obtain ⟨n, hn⟩ : ∃ n, normalize R payloads e = .ok n := by
    cases hn : normalize R payloads e with
    | ok n => exact ⟨n, rfl⟩
    | error err => exact absurd (Or.inl ⟨err, hn⟩) h
  have hfixed : n.fixed.isEncodable = true := by
    rw [← Bool.not_eq_false]
    exact fun hf => h (Or.inr ⟨n, hn, Or.inl hf⟩)
  have hwritten : ∀ r, Says R e r → ∃ r', Says R e r' ∧ r'.key = r.key
      ∧ r'.json.isEncodable = true := by
    intro r hr
    by_contra hnone
    refine h (Or.inr ⟨n, hn, Or.inr ⟨r, hr, fun r' hr' hkey => ?_⟩⟩)
    rw [← Bool.not_eq_true]
    exact fun henc => hnone ⟨r', hr', hkey, henc⟩
  obtain ⟨raws, -, hraws, -, -, hall, -, -⟩ := normalize_reordered hR hn (.refl e)
  -- the records whose text can be encoded come first
  let readable : Json → Bool := fun raw =>
    ((readRelationship R raw).toOption.map fun r => r.json.isEncodable).getD false
  have hsplit : raws.Perm (raws.filter readable ++ raws.filter fun raw => !readable raw) :=
    (List.filter_append_perm readable raws).symm
  obtain ⟨e', hperm, hraws'⟩ := reordered_of_perm hn hraws hsplit
  obtain ⟨raws₁, raws₂, hraws₁, hraws₂, -, -, -, hn'⟩ := normalize_reordered hR hn hperm
  rw [hraws'] at hraws₂
  cases hraws₂
  have hencodable : ∀ r ∈ relationsOf R n (raws.filter readable
      ++ raws.filter fun raw => !readable raw), r.json.isEncodable = true := by
    intro r hr
    have hfirst := (Lib.mem_sortedBy _).mp hr
    have htold : Says R e r := by
      refine (says_iff hraws hall).mpr ?_
      rw [(oks_perm hsplit).mem_iff]
      exact (mem_firsts hfirst).1
    rw [oks, List.filterMap_append] at hfirst
    obtain ⟨r', hr', hkey, henc⟩ := hwritten r htold
    obtain ⟨raw', hraw', hr'⟩ := mem_oks.mp ((says_iff hraws hall).mp hr')
    have hreadable' : readable raw' = true := by
      simp only [readable, knownRelationship_ok hr', Except.toOption, Option.map_some,
        Option.getD_some, henc]
    have hfront := firsts_front hfirst
      (mem_oks.mpr ⟨raw', List.mem_filter.mpr ⟨hraw', hreadable'⟩, hr'⟩) hkey
    obtain ⟨raw, hraw, hread⟩ := mem_oks.mp hfront
    have hreadable := (List.mem_filter.mp hraw).2
    simp only [readable, knownRelationship_ok hread, Except.toOption, Option.map_some,
      Option.getD_some] at hreadable
    exact hreadable
  obtain ⟨p, hp, -⟩ := compile_of_encodable hn'
    ((Normalized.encodable_iff _).mpr ⟨hfixed, hencodable⟩)
  exact ⟨e', hperm, p, hp⟩

theorem relationships_unique (hR : R.CollisionFree)
    (hp : compile R payloads e = .ok p) {r' : Relationship} (hr : r ∈ p.relationships)
    (hr' : r' ∈ p.relationships) (hkey : r.key = r'.key) : r = r' := by
  obtain ⟨hn, -⟩ := compile_iff.mp hp
  obtain ⟨raws, -, -, -, -, -, hrs, -⟩ := normalize_reordered hR hn (.refl e)
  rw [hrs, relationsOf, Lib.mem_sortedBy] at hr hr'
  exact firsts_unique hr hr' hkey

theorem OrderFree.consistent (hR : R.CollisionFree) (h : OrderFree R payloads e)
    (hcompiled : ¬ Refused R payloads e) : Consistent R e := by
  obtain ⟨e', hperm, p', hp'⟩ := exists_compiled hR hcompiled
  obtain ⟨p, hp⟩ : ∃ p, compile R payloads e = .ok p := by
    rcases h e' hperm with ⟨p, hp, -⟩ | ⟨-, err, herr⟩
    · exact ⟨p, hp⟩
    · rw [hp'] at herr
      cases herr
  intro r r' hr hr' hkey
  exact relationships_unique hR hp (h.mem hR hp hr) (h.mem hR hp hr') hkey

theorem OrderFree.of_consistent (hR : R.CollisionFree) (h : Consistent R e) :
    OrderFree R payloads e := by
  intro e' hperm
  cases hp : compile R payloads e with
  | ok p => exact Or.inl ⟨p, rfl, compile_reordered hR h hp hperm⟩
  | error err =>
    refine Or.inr ⟨⟨err, rfl⟩, not_ok fun p hp' => ?_⟩
    have hsame : Consistent R e' := fun r r' hr hr' =>
      h r r' (hr.reordered hperm.symm) (hr'.reordered hperm.symm)
    rw [compile_reordered hR hsame hp' hperm.symm] at hp
    cases hp

end Compiled

/-- The proposal of an export does not depend on the order of its records just if relationships
of one key have the same endpoint types, or the export is refused in any case. -/
theorem orderFree_iff {R : Readers} (hR : R.CollisionFree)
    (payloads : PyStr → Option (Option ByteArray)) (e : Export) :
    OrderFree R payloads e ↔ Consistent R e ∨ Refused R payloads e := by
  constructor
  · intro h
    by_cases hrefused : Refused R payloads e
    · exact Or.inr hrefused
    · exact Or.inl (h.consistent hR hrefused)
  · rintro (h | h)
    · exact .of_consistent hR h
    · exact fun e' hperm => Or.inr ⟨h.compile hR (.refl e), h.compile hR hperm⟩

-- == relationships of one key

namespace Sample

def readers : Readers where
  str _ := []
  repr s := s
  lower s := s
  sha256 b := b.data.toList.map UInt8.toNat

theorem collisionFree : readers.CollisionFree := by
  intro a b h
  have hlist : a.data.toList = b.data.toList :=
    List.map_injective_iff.mpr (fun x y hxy => UInt8.toNat_inj.mp hxy) h
  cases a
  cases b
  exact congrArg ByteArray.mk (Array.toList_inj.mp hlist)

/-- A relationship of the one entity with itself, that starts at this type. -/
def record (endpointType : PyStr) : Json := .obj [
  (py "source_id", .str [97]), (py "relation", .str [98]), (py "target_id", .str [97]),
  (py "source_endpoint_type", .str endpointType)]

def relationship (endpointType : PyStr) : Relationship :=
  ⟨[97], [98], [97], some endpointType, none⟩

def exported (relationships : List Json) : Export where
  sourceSystem := .str [97]
  exportVersion := .str [49]
  entities := .arr [.obj [(py "source_id", .str [97]), (py "entity_type", .str [99])]]
  relationships := .arr relationships
  artifacts := .null

theorem read_record : readRelationship readers (record [100]) = .ok (relationship [100])
    ∧ readRelationship readers (record [101]) = .ok (relationship [101]) := by
  decide +kernel

theorem compiled : (compile readers (fun _ => none)
    (exported [record [100], record [101]])).isOk = true := by
  decide +kernel

end Sample

theorem orderFree_record : OrderFree Sample.readers (fun _ => none)
    (Sample.exported [Sample.record [100]]) := by
  refine (orderFree_iff Sample.collisionFree _ _).mpr (Or.inl ?_)
  have htold : ∀ r, Says Sample.readers (Sample.exported [Sample.record [100]]) r →
      r = Sample.relationship [100] := by
    rintro r ⟨raws, hraws, raw, hraw, hr⟩
    cases hraws
    rw [List.mem_singleton.mp hraw, Sample.read_record.1] at hr
    exact (Except.ok.inj hr).symm
  intro r r' hr hr' _
  rw [htold r hr, htold r' hr']

/-- Of two records with one key and two endpoint types the first is kept. -/
theorem not_orderFree : ¬ ∀ (R : Readers), R.CollisionFree →
    ∀ (payloads : PyStr → Option (Option ByteArray)) (e : Export), OrderFree R payloads e := by
  intro hall
  have horder := hall _ Sample.collisionFree (fun _ => none)
    (Sample.exported [Sample.record [100], Sample.record [101]])
  obtain ⟨p, hp⟩ := exists_ok Sample.compiled
  have htold : ∀ t, Sample.record t ∈ [Sample.record [100], Sample.record [101]] →
      readRelationship Sample.readers (Sample.record t) = .ok (Sample.relationship t) →
      Sample.relationship t ∈ p.relationships := fun t ht hread =>
    horder.mem Sample.collisionFree hp ⟨_, rfl, _, ht, hread⟩
  have hsame := relationships_unique Sample.collisionFree hp
    (htold [100] (List.mem_cons_self ..) Sample.read_record.1)
    (htold [101] (List.mem_cons_of_mem _ (List.mem_cons_self ..)) Sample.read_record.2) rfl
  exact absurd hsame (by decide)

end Centinal26.Migration
