/-
When the validator gives a verdict, and that it names each timestamp it cannot place.
-/
import Centinal26.Validation.Bundle
import Centinal26.Validation.Passed
import Mathlib.Data.List.Dedup

namespace Centinal26.Validation

open Py

-- == sequences

namespace Check

variable {α β : Type} {x : Check α} {f : α → Check β}

def Returns (x : Check α) : Prop := ∃ a vs, x = .ok (a, vs)

theorem returns_pure (a : α) : (pure a : Check α).Returns := ⟨a, [], rfl⟩

variable {a : α} {b : β} {us vs : List Violation} {xs : List α}

theorem bind_of_ok (hx : x = .ok (a, us))
    (hf : f a = .ok (b, vs)) : x >>= f = .ok (b, us ++ vs) := by
  subst hx
  change Check.bind _ f = _
  unfold Check.bind
  dsimp only
  rw [hf]

theorem returns_of_ok (h : x = .ok (a, vs)) (hf : (f a).Returns) : (x >>= f).Returns := by
  obtain ⟨b, ws, hb⟩ := hf
  exact ⟨b, vs ++ ws, bind_of_ok h hb⟩

theorem returns_bind (hx : x.Returns) (hf : ∀ a, (f a).Returns) : (x >>= f).Returns := by
  obtain ⟨a, vs, h⟩ := hx
  exact returns_of_ok h (hf a)

theorem returns_add (code : String) (path message : PyStr) : (add code path message).Returns :=
  ⟨(), _, rfl⟩

theorem returns_refuse (code : String) (path message : PyStr) :
    (refuse code path message : Check (Option α)).Returns :=
  returns_bind (returns_add ..) fun _ => returns_pure _

theorem returns_check (condition : Bool) (code : String) (path message : PyStr) :
    (check condition code path message).Returns := by
  cases condition with
  | true => exact returns_pure ()
  | false => exact returns_add ..

theorem returns_each {f : Nat → α → Check Unit}
    (h : ∀ index, ∀ a ∈ xs, (f index a).Returns) (start : Nat) : (each f start xs).Returns := by
  induction xs generalizing start with
  | nil => exact returns_pure ()
  | cons a xs ih =>
    unfold each
    exact returns_bind (h start a (List.mem_cons_self ..)) fun _ =>
      ih (fun index b hb => h index b (List.mem_cons_of_mem _ hb)) (start + 1)

/-- A property of the violations that more of them leave true. -/
def Lasting (P : List Violation → Prop) : Prop := ∀ us vs, P us → P (us ++ vs) ∧ P (vs ++ us)

theorem lasting_mem (v : Violation) : Lasting (v ∈ ·) := fun _ _ h =>
  ⟨List.mem_append_left _ h, List.mem_append_right _ h⟩

theorem lasting_false : Lasting fun _ => False := fun _ _ h => h.elim

/-- What it adds has the property, if it returns. -/
def Meets (P : List Violation → Prop) (x : Check α) : Prop := ∀ a vs, x = .ok (a, vs) → P vs

variable {P : List Violation → Prop}

theorem bind_ok {ws : List Violation} (h : x >>= f = .ok (b, ws)) :
    ∃ a us vs, x = .ok (a, us) ∧ f a = .ok (b, vs) ∧ ws = us ++ vs := by
  change Check.bind x f = _ at h
  unfold Check.bind at h
  split at h
  · cases h
  · next a us =>
    split at h
    · cases h
    · next b' vs hf =>
      cases h
      exact ⟨a, us, vs, rfl, hf, rfl⟩

theorem meets_left (hP : Lasting P) (h : x.Meets P) : (x >>= f).Meets P := by
  intro b ws hrun
  obtain ⟨a, us, vs, hx, -, rfl⟩ := bind_ok hrun
  exact (hP us vs (h a us hx)).1

theorem meets_right (hP : Lasting P) (h : ∀ a, (f a).Meets P) : (x >>= f).Meets P := by
  intro b ws hrun
  obtain ⟨a, us, vs, -, hf, rfl⟩ := bind_ok hrun
  exact (hP vs us (h a b vs hf)).2

theorem meets_of_ok (hP : Lasting P) (hx : x = .ok (a, us))
    (h : (f a).Meets P) : (x >>= f).Meets P := by
  intro b ws hrun
  obtain ⟨a', us', vs, hx', hf, rfl⟩ := bind_ok hrun
  rw [hx] at hx'
  cases hx'
  exact (hP vs us (h b vs hf)).2

theorem meets_each (hP : Lasting P) {f : Nat → α → Check Unit} {i : Nat}
    (hi : xs[i]? = some a) {start : Nat} (h : (f (start + i) a).Meets P) :
    (each f start xs).Meets P := by
  induction xs generalizing i start with
  | nil => cases hi
  | cons b xs ih =>
    unfold each
    cases i with
    | zero =>
      cases hi
      exact meets_left hP h
    | succ i =>
      refine meets_right hP fun _ => ih hi ?_
      rw [Nat.add_right_comm]
      exact h

end Check

open Check

-- == members

section Members

variable (item : Items) (key : String) (path : PyStr) (code : String)

theorem returns_text : (text item key path code).Returns := by
  unfold text
  split
  · exact returns_pure _
  · exact returns_refuse ..

theorem returns_mapping : (mapping item key path code).Returns := by
  unfold mapping
  split
  · exact returns_pure _
  · exact returns_refuse ..

theorem returns_enum (allowed : List String) : (enum item key allowed path code).Returns := by
  unfold enum
  split
  · split
    · exact returns_pure _
    · exact returns_refuse ..
  · exact returns_refuse ..

theorem returns_strings (minItems : Nat) : (strings item key path code minItems).Returns := by
  unfold strings
  split
  · exact returns_refuse ..
  · refine returns_bind (returns_check ..) fun _ => returns_bind (returns_each ?_ 0) fun _ =>
      returns_bind (returns_check ..) fun _ => returns_pure _
    intro index v _
    unfold entry
    split
    · exact returns_pure _
    · exact returns_add ..

theorem returns_refsExist (refs : Option (List PyStr)) (index : Index) :
    (refsExist refs index path code).Returns := by
  unfold refsExist
  split
  · exact returns_pure _
  · exact returns_bind (returns_each (fun _ _ _ => returns_check ..) 0) fun _ => returns_pure _

end Members

theorem record_dict {value : PyVal} {item : Items} (h : value.dict? = some item) (path : PyStr)
    (kind noun schema : String) (fields : List String) :
    ∃ vs, record value path kind noun schema fields = .ok (some item, vs) := by
  unfold record
  rw [h]
  have hadds (g : PyStr → Check Unit) (hg : ∀ s, (g s).Returns) (names : List PyStr) :
      (each (fun _ s => g s) 0 names).Returns := returns_each (fun _ s _ => hg s) 0
  obtain ⟨_, us, hmissing⟩ := hadds (fun f => add "FIELD_REQUIRED" (below path "." ++ f)
    (f ++ py " is required")) (fun _ => returns_add ..) (sortedNames ((missing fields item).map py))
  obtain ⟨_, vs, hextra⟩ := hadds (fun f => add "ADDITIONAL_PROPERTY_FORBIDDEN"
    (below path "." ++ f) (f ++ py " is not allowed by the object schema"))
    (fun _ => returns_add ..) (sortedNames (extra fields item))
  obtain ⟨_, ws, hschema⟩ := returns_check (!(item.any fun m => decide (m.1 = .str (py "schema")))
    || (itemOf item "schema").eq (.str (py schema))) "SCHEMA_VERSION_INVALID"
    (below path ".schema") (py ("schema must be " ++ schema))
  exact ⟨_, bind_of_ok hmissing (bind_of_ok hextra (bind_of_ok hschema rfl))⟩

theorem record_none {value : PyVal} (h : value.dict? = none) (path : PyStr)
    (kind noun schema : String) (fields : List String) :
    ∃ vs, record value path kind noun schema fields = .ok (none, vs) := by
  unfold record
  rw [h]
  exact ⟨_, rfl⟩

theorem returns_record (value : PyVal) (path : PyStr) (kind noun schema : String)
    (fields : List String) : (record value path kind noun schema fields).Returns := by
  cases h : value.dict? with
  | some item =>
    obtain ⟨vs, hrecord⟩ := record_dict h path kind noun schema fields
    exact ⟨_, _, hrecord⟩
  | none =>
    obtain ⟨vs, hrecord⟩ := record_none h path kind noun schema fields
    exact ⟨_, _, hrecord⟩

theorem returns_indexUnique (idField collection singular : String) (position : Nat)
    (index : Index) (values : List PyVal) :
    (indexUnique idField collection singular position index values).Returns := by
  induction values generalizing position index with
  | nil => exact returns_pure _
  | cons value values ih =>
    unfold indexUnique
    refine returns_bind ?_ fun index => ih (position + 1) index
    unfold indexOne
    split
    · split
      · exact returns_bind (returns_add ..) fun _ => returns_pure _
      · exact returns_pure _
    · exact returns_pure _

-- == timestamps

variable {F : PyStr → Option DateTime}

/-- A value is the text of a time that is none in UTC. -/
def OffTheLine (F : PyStr → Option DateTime) (value : PyVal) : Prop :=
  ∃ s t, value = .str s ∧ F s = some (.aware t) ∧ ¬ (0 ≤ t ∧ t ≤ maxInstant)

theorem returns_timestamp {item : Items} {key : String} (h : ¬ OffTheLine F (itemOf item key))
    (path : PyStr) (code : String) : (timestamp F item key path code).Returns := by
  unfold timestamp
  split
  · next t hv =>
    obtain ⟨s, hs, ht⟩ := Option.bind_eq_some_iff.mp hv
    have hrange : 0 ≤ t ∧ t ≤ maxInstant := by
      by_contra hrange
      exact h ⟨s, t, PyVal.text?_eq.mp hs, ht, hrange⟩
    refine returns_bind ⟨t, [], ?_⟩ fun _ => returns_pure _
    unfold lift astimezone
    rw [if_pos hrange]
    rfl
  · exact returns_refuse ..

theorem meets_astimezone {t : Instant} (h : ¬ (0 ≤ t ∧ t ≤ maxInstant))
    (P : List Violation → Prop) : (lift (astimezone t)).Meets P := by
  intro a vs hrun
  unfold lift astimezone at hrun
  rw [if_neg h] at hrun
  cases hrun

theorem raises_timestamp {item : Items} {key : String} (h : OffTheLine F (itemOf item key))
    (path : PyStr) (code : String) : (timestamp F item key path code).Meets fun _ => False := by
  obtain ⟨s, t, hs, ht, hrange⟩ := h
  unfold timestamp
  rw [hs]
  simp only [PyVal.text?, Option.bind_some, ht]
  exact meets_left lasting_false (meets_astimezone hrange _)

/-- The violation of a timestamp that cannot be placed. -/
def unplaced (path : PyStr) (key code : String) : Violation :=
  ⟨py code, below path ("." ++ key), py (key ++ " must be an offset-aware ISO-8601 timestamp")⟩

theorem reports_timestamp {item : Items} {key : String}
    (h : ∀ t, ¬ TimeOf F (itemOf item key) t) (path : PyStr) (code : String) :
    (timestamp F item key path code).Meets (unplaced path key code ∈ ·) := by
  unfold timestamp
  split
  · next t hv =>
    obtain ⟨s, hs, ht⟩ := Option.bind_eq_some_iff.mp hv
    have hrange : ¬ (0 ≤ t ∧ t ≤ maxInstant) := fun hrange =>
      h t ⟨s, PyVal.text?_eq.mp hs, ht, hrange⟩
    exact meets_left (lasting_mem _) (meets_astimezone hrange _)
  · refine meets_left (lasting_mem _) fun a vs hrun => ?_
    cases hrun
    exact List.mem_singleton_self _

-- == records

variable {now : Instant} {index : Nat} {value : PyVal} {item : Items}

theorem returns_checkAuthorization (h : ∀ item, value.dict? = some item →
      ¬ OffTheLine F (itemOf item "issued_at") ∧ ¬ OffTheLine F (itemOf item "expires_at")) :
    (checkAuthorization F now index value).Returns := by
  unfold checkAuthorization
  cases hdict : value.dict? with
  | none =>
    obtain ⟨vs, hrecord⟩ := record_none hdict (pathOf "authorizations" index) "AUTH"
      "authorization" "centinal26-authorization-v1" authFields
    exact returns_of_ok hrecord (returns_pure _)
  | some item =>
    obtain ⟨hissued, hexpires⟩ := h item hdict
    obtain ⟨vs, hrecord⟩ := record_dict hdict (pathOf "authorizations" index) "AUTH"
      "authorization" "centinal26-authorization-v1" authFields
    refine returns_of_ok hrecord ?_
    iterate 3 refine returns_bind (returns_text ..) fun _ => ?_
    refine returns_bind (returns_check ..) fun _ => ?_
    refine returns_bind (returns_text ..) fun _ => ?_
    refine returns_bind (returns_mapping ..) fun _ => ?_
    refine returns_bind (returns_enum ..) fun _ => ?_
    refine returns_bind (returns_timestamp hissued ..) fun _ => ?_
    refine returns_bind (returns_timestamp hexpires ..) fun _ => ?_
    iterate 3 refine returns_bind (returns_check ..) fun _ => ?_
    exact returns_bind (returns_text ..) fun _ => returns_pure _

theorem returns_checkEvidence (h : ∀ item, value.dict? = some item →
    ¬ OffTheLine F (itemOf item "created_at")) : (checkEvidence F now index value).Returns := by
  unfold checkEvidence
  cases hdict : value.dict? with
  | none =>
    obtain ⟨vs, hrecord⟩ := record_none hdict (pathOf "evidence" index) "EVIDENCE" "evidence"
      "centinal26-governance-evidence-v1" evidenceFields
    exact returns_of_ok hrecord (returns_pure _)
  | some item =>
    obtain ⟨vs, hrecord⟩ := record_dict hdict (pathOf "evidence" index) "EVIDENCE" "evidence"
      "centinal26-governance-evidence-v1" evidenceFields
    refine returns_of_ok hrecord ?_
    refine returns_bind (returns_text ..) fun _ => ?_
    refine returns_bind (returns_check ..) fun _ => ?_
    refine returns_bind (returns_check ..) fun _ => ?_
    refine returns_bind (returns_enum ..) fun _ => ?_
    exact returns_bind (returns_timestamp (h item hdict) ..) fun _ => returns_check ..

variable {P : List Violation → Prop}

theorem meets_checkAuthorization (hP : Lasting P) (hdict : value.dict? = some item)
    (h : (timestamp F item "issued_at" (pathOf "authorizations" index)
        "AUTH_ISSUED_AT_INVALID").Meets P
      ∨ (timestamp F item "expires_at" (pathOf "authorizations" index)
        "AUTH_EXPIRY_INVALID").Meets P) :
    (checkAuthorization F now index value).Meets P := by
  obtain ⟨vs, hrecord⟩ := record_dict hdict (pathOf "authorizations" index) "AUTH"
    "authorization" "centinal26-authorization-v1" authFields
  unfold checkAuthorization
  refine meets_of_ok hP hrecord ?_
  -- the record, its texts and its scope come before the times
  refine meets_right hP fun _ => meets_right hP fun _ => meets_right hP fun _ => ?_
  refine meets_right hP fun _ => meets_right hP fun _ => meets_right hP fun _ => ?_
  refine meets_right hP fun _ => ?_
  rcases h with hissued | hexpires
  · exact meets_left hP hissued
  · exact meets_right hP fun _ => meets_left hP hexpires

theorem meets_checkEvidence (hP : Lasting P) (hdict : value.dict? = some item)
    (h : (timestamp F item "created_at" (pathOf "evidence" index)
      "EVIDENCE_CREATED_AT_INVALID").Meets P) : (checkEvidence F now index value).Meets P := by
  obtain ⟨vs, hrecord⟩ := record_dict hdict (pathOf "evidence" index) "EVIDENCE" "evidence"
    "centinal26-governance-evidence-v1" evidenceFields
  unfold checkEvidence
  refine meets_of_ok hP hrecord ?_
  refine meets_right hP fun _ => meets_right hP fun _ => meets_right hP fun _ => ?_
  exact meets_right hP fun _ => meets_left hP h

theorem returns_checkOperation (authorizations evidence : Index) :
    (checkOperation authorizations evidence index value).Returns := by
  unfold checkOperation
  refine returns_bind (returns_record ..) fun item => ?_
  cases item with
  | none => exact returns_pure _
  | some item =>
    refine returns_bind (returns_text ..) fun _ => ?_
    refine returns_bind (returns_text ..) fun actor => ?_
    refine returns_bind (returns_text ..) fun authId => ?_
    refine returns_bind (returns_text ..) fun capability => ?_
    refine returns_bind (returns_mapping ..) fun scope => ?_
    refine returns_bind (returns_enum ..) fun risk => ?_
    refine returns_bind (returns_strings ..) fun _ => ?_
    refine returns_bind (returns_strings ..) fun _ => ?_
    refine returns_bind (returns_check ..) fun _ => ?_
    refine returns_bind (returns_strings ..) fun refs => ?_
    refine returns_bind (returns_refsExist ..) fun valid => ?_
    refine returns_bind (returns_check ..) fun _ => ?_
    refine returns_bind ?_ fun _ => returns_check ..
    cases authId.bind (getItem? authorizations) with
    | none => exact returns_pure _
    | some authorization =>
      iterate 3 refine returns_bind (returns_check ..) fun _ => ?_
      exact returns_bind (returns_check ..) fun _ => returns_check ..

theorem returns_checkClaim (evidence : Index) : (checkClaim evidence index value).Returns := by
  unfold checkClaim
  refine returns_bind (returns_record ..) fun item => ?_
  cases item with
  | none => exact returns_pure _
  | some item =>
    refine returns_bind (returns_text ..) fun _ => ?_
    refine returns_bind (returns_enum ..) fun _ => ?_
    refine returns_bind (returns_text ..) fun _ => ?_
    refine returns_bind (returns_check ..) fun _ => ?_
    refine returns_bind (returns_strings ..) fun _ => ?_
    refine returns_bind (returns_refsExist ..) fun _ => ?_
    exact returns_bind (returns_check ..) fun _ => returns_check ..

theorem returns_checkPromotion (evidence operations : Index) :
    (checkPromotion evidence operations index value).Returns := by
  unfold checkPromotion
  refine returns_bind (returns_record ..) fun item => ?_
  cases item with
  | none => exact returns_pure _
  | some item =>
    iterate 4 refine returns_bind (returns_text ..) fun _ => ?_
    iterate 3 refine returns_bind (returns_check ..) fun _ => ?_
    refine returns_bind (returns_each (fun _ _ _ => returns_check ..) 0) fun _ => ?_
    refine returns_bind (returns_strings ..) fun _ => ?_
    exact returns_bind (returns_refsExist ..) fun _ => returns_check ..

theorem returns_checkTerminal (evidence operations : Index) :
    (checkTerminal evidence operations index value).Returns := by
  unfold checkTerminal
  refine returns_bind (returns_record ..) fun item => ?_
  cases item with
  | none => exact returns_pure _
  | some item =>
    refine returns_bind (returns_text ..) fun _ => ?_
    refine returns_bind (returns_text ..) fun _ => ?_
    refine returns_bind (returns_check ..) fun _ => ?_
    refine returns_bind (returns_enum ..) fun _ => ?_
    refine returns_bind (returns_strings ..) fun _ => ?_
    exact returns_bind (returns_refsExist ..) fun _ => returns_pure _

-- == bundle

theorem collection_ok (root : Items) (name : String) :
    ∃ vs, collection root name = .ok (((itemOf root name).list?).getD [], vs) := by
  unfold collection
  cases (itemOf root name).list? with
  | some values => exact ⟨[], rfl⟩
  | none =>
    obtain ⟨_, vs, hcheck⟩ := returns_check (!(root.any fun m => decide (m.1 = .str (py name))))
      "BUNDLE_COLLECTION_ARRAY_REQUIRED" (below (py "$.") name) (py (name ++ " must be an array"))
    exact ⟨_, bind_of_ok hcheck rfl⟩

theorem returns_checkRoot (root : Items) : (checkRoot root).Returns := by
  unfold checkRoot
  refine returns_bind (returns_each (fun _ _ _ => returns_add ..) 0) fun _ => ?_
  refine returns_bind (returns_each (fun _ _ _ => returns_add ..) 0) fun _ => ?_
  exact returns_check ..

theorem returns_checkBundle {root : Items}
    (hauthorizations : ∀ index, ∀ value ∈ ((itemOf root "authorizations").list?).getD [],
      (checkAuthorization F now index value).Returns)
    (hevidence : ∀ index, ∀ value ∈ ((itemOf root "evidence").list?).getD [],
      (checkEvidence F now index value).Returns) : (checkBundle F now root).Returns := by
  have hcollection (name : String) : (collection root name).Returns := by
    obtain ⟨vs, h⟩ := collection_ok root name
    exact ⟨_, _, h⟩
  obtain ⟨us, hread⟩ := collection_ok root "authorizations"
  obtain ⟨vs, hread'⟩ := collection_ok root "evidence"
  unfold checkBundle
  refine returns_bind (returns_checkRoot root) fun _ => ?_
  refine returns_of_ok hread ?_
  refine returns_of_ok hread' ?_
  refine returns_bind (hcollection "operations") fun operations => ?_
  refine returns_bind (hcollection "claims") fun claims => ?_
  refine returns_bind (hcollection "promotions") fun promotions => ?_
  refine returns_bind (hcollection "terminal_events") fun terminalEvents => ?_
  refine returns_bind (returns_each hauthorizations 0) fun _ => ?_
  refine returns_bind (returns_each hevidence 0) fun _ => ?_
  refine returns_bind (returns_indexUnique ..) fun authorizationIndex => ?_
  refine returns_bind (returns_indexUnique ..) fun evidenceIndex => ?_
  refine returns_bind (returns_each (fun _ _ _ => returns_checkOperation ..) 0) fun _ => ?_
  refine returns_bind (returns_indexUnique ..) fun operationIndex => ?_
  refine returns_bind (returns_each (fun _ _ _ => returns_checkClaim ..) 0) fun _ => ?_
  refine returns_bind (returns_indexUnique ..) fun _ => ?_
  refine returns_bind (returns_each (fun _ _ _ => returns_checkPromotion ..) 0) fun _ => ?_
  refine returns_bind (returns_indexUnique ..) fun _ => ?_
  refine returns_bind (returns_each (fun _ _ _ => returns_checkTerminal ..) 0) fun _ => ?_
  exact returns_bind (returns_indexUnique ..) fun _ => returns_pure _

/-- A member that is a timestamp, with the code of its violation. -/
structure TimeField where
  collection : String
  key : String
  code : String

def timeFields : List TimeField :=
  [⟨"authorizations", "issued_at", "AUTH_ISSUED_AT_INVALID"⟩,
    ⟨"authorizations", "expires_at", "AUTH_EXPIRY_INVALID"⟩,
    ⟨"evidence", "created_at", "EVIDENCE_CREATED_AT_INVALID"⟩]

/-- The value is that of the field, in the record at a position of its collection. -/
def TimeField.At (f : TimeField) (bundle : PyVal) (index : Nat) (value : PyVal) : Prop :=
  ∃ root values item, bundle = .dict root ∧ itemOf root f.collection = .list values
    ∧ values[index]? = some (.dict item) ∧ itemOf item f.key = value

theorem record_at {root : Items} {name : String}
    (hvalue : value ∈ ((itemOf root name).list?).getD []) (hitem : value.dict? = some item) :
    ∃ (values : List PyVal) (index : Nat), itemOf root name = .list values
      ∧ values[index]? = some (.dict item) := by
  cases hlist : (itemOf root name).list? with
  | none =>
    rw [hlist] at hvalue
    cases hvalue
  | some values =>
    rw [hlist] at hvalue
    obtain ⟨index, hindex⟩ := List.mem_iff_getElem?.mp hvalue
    rw [PyVal.dict?_eq.mp hitem] at hindex
    exact ⟨values, index, PyVal.list?_eq.mp hlist, hindex⟩

theorem meets_checkBundle (hP : Lasting P) {f : TimeField} (hf : f ∈ timeFields) {root : Items}
    (hat : f.At (.dict root) index value) (h : ∀ item, itemOf item f.key = value →
      (timestamp F item f.key (pathOf f.collection index) f.code).Meets P) :
    (checkBundle F now root).Meets P := by
  obtain ⟨root', values, item, ⟨⟩, hvalues, hitem, hvalue⟩ := hat
  have hlist : ((itemOf root f.collection).list?).getD [] = values := by
    rw [hvalues]
    rfl
  obtain ⟨us, hread⟩ := collection_ok root f.collection
  rw [hlist] at hread
  have htime := h item hvalue
  rw [← Nat.zero_add index] at htime
  unfold checkBundle
  refine meets_right hP fun _ => ?_
  simp only [timeFields, List.mem_cons, List.not_mem_nil, or_false] at hf
  rcases hf with rfl | rfl | rfl
  · refine meets_of_ok hP hread ?_
    refine meets_right hP fun _ => meets_right hP fun _ => meets_right hP fun _ => ?_
    refine meets_right hP fun _ => meets_right hP fun _ => ?_
    exact meets_left hP (meets_each hP hitem (meets_checkAuthorization hP rfl (Or.inl htime)))
  · refine meets_of_ok hP hread ?_
    refine meets_right hP fun _ => meets_right hP fun _ => meets_right hP fun _ => ?_
    refine meets_right hP fun _ => meets_right hP fun _ => ?_
    exact meets_left hP (meets_each hP hitem (meets_checkAuthorization hP rfl (Or.inr htime)))
  · refine meets_right hP fun _ => meets_of_ok hP hread ?_
    refine meets_right hP fun _ => meets_right hP fun _ => meets_right hP fun _ => ?_
    refine meets_right hP fun _ => meets_right hP fun _ => ?_
    exact meets_left hP (meets_each hP hitem (meets_checkEvidence hP rfl htime))

-- == verdicts

/-- The validator gives a verdict, and it names each timestamp that cannot be placed. -/
def Verdict (F : PyStr → Option DateTime) (bundle : PyVal) (now : Instant) : Prop :=
  ∃ violations, validateBundle F bundle (.aware now) = .ok violations
    ∧ ∀ f ∈ timeFields, ∀ index value, f.At bundle index value → (∀ t, ¬ TimeOf F value t) →
      unplaced (pathOf f.collection index) f.key f.code ∈ violations

/-- The time of the validation is a time in UTC, and so is every timestamp with an offset. -/
def OnTheLine (F : PyStr → Option DateTime) (bundle : PyVal) (now : Instant) : Prop :=
  ∀ root, bundle = .dict root → (0 ≤ now ∧ now ≤ maxInstant)
    ∧ ∀ f ∈ timeFields, ∀ index value, f.At bundle index value → ¬ OffTheLine F value

theorem Verdict.onTheLine {bundle : PyVal} (h : Verdict F bundle now) : OnTheLine F bundle now := by
  rintro root rfl
  obtain ⟨violations, hrun, -⟩ := h
  obtain ⟨now', htime, hrest⟩ := of_bind_ok hrun
  obtain ⟨hrange, rfl⟩ := astimezone_ok.mp htime
  obtain ⟨⟨u, found⟩, hcheck, -⟩ := of_bind_ok hrest
  refine ⟨hrange, fun f hf index value hat hoff => ?_⟩
  refine meets_checkBundle lasting_false hf hat (fun item hvalue => ?_) u found hcheck
  exact raises_timestamp (hvalue ▸ hoff) _ _

/-- The validator gives its verdict exactly if every timestamp that is one is a time in UTC. -/
theorem verdict_iff (F : PyStr → Option DateTime) (bundle : PyVal) (now : Instant) :
    Verdict F bundle now ↔ OnTheLine F bundle now := by
  constructor
  · exact Verdict.onTheLine
  · intro h
    cases hdict : bundle.dict? with
    | none =>
      refine ⟨[⟨py "BUNDLE_OBJECT_REQUIRED", py "$", py "bundle root must be an object"⟩], ?_, ?_⟩
      · unfold validateBundle
        rw [hdict]
      · rintro f - index value ⟨root, values, item, rfl, -⟩
        cases hdict
    | some root =>
      have hroot := PyVal.dict?_eq.mp hdict
      subst hroot
      obtain ⟨hrange, hplaced⟩ := h root rfl
      have hreturns : (checkBundle F now root).Returns := by
        refine returns_checkBundle (fun _ value hvalue => ?_) (fun _ value hvalue => ?_)
        · refine returns_checkAuthorization fun item hitem => ?_
          obtain ⟨values, index, hvalues, hindex⟩ := record_at hvalue hitem
          exact ⟨hplaced ⟨"authorizations", "issued_at", "AUTH_ISSUED_AT_INVALID"⟩
              (by simp [timeFields]) index _ ⟨root, values, item, rfl, hvalues, hindex, rfl⟩,
            hplaced ⟨"authorizations", "expires_at", "AUTH_EXPIRY_INVALID"⟩
              (by simp [timeFields]) index _ ⟨root, values, item, rfl, hvalues, hindex, rfl⟩⟩
        · refine returns_checkEvidence fun item hitem => ?_
          obtain ⟨values, index, hvalues, hindex⟩ := record_at hvalue hitem
          exact hplaced ⟨"evidence", "created_at", "EVIDENCE_CREATED_AT_INVALID"⟩
            (by simp [timeFields]) index _ ⟨root, values, item, rfl, hvalues, hindex, rfl⟩
      obtain ⟨u, found, hcheck⟩ := hreturns
      refine ⟨found.dedup.mergeSort fun v w => decide (v.Le w), ?_, ?_⟩
      · show (do
          let now ← astimezone now
          let violations := (← checkBundle F now root).2
          .ok (violations.dedup.mergeSort fun v w => decide (v.Le w)))
            = Except.ok (found.dedup.mergeSort fun v w => decide (v.Le w))
        rw [astimezone_ok.mpr ⟨hrange, rfl⟩, bind_ok_eq, hcheck]
        rfl
      · intro f hf index value hat hmisplaced
        rw [List.mem_mergeSort, List.mem_dedup]
        refine meets_checkBundle (lasting_mem _) hf hat (fun item hvalue => ?_) u found hcheck
        exact reports_timestamp (hvalue ▸ hmisplaced) _ _

-- == sample

namespace Early

/-- A time of the first day, with an offset that takes it out of the calendar. -/
def stamp : PyStr := py "0001-01-01T00:00:00+14:00"

def fromisoformat (s : PyStr) : Option DateTime :=
  if s = stamp then some (.aware (-50400000000)) else none

def issued : Items := [(.str (py "issued_at"), .str stamp)]

def root : Items := [(.str (py "authorizations"), .list [.dict issued])]

/-- The validator raises. -/
theorem no_verdict : ¬ Verdict fromisoformat (.dict root) 63922824000000000 := by
  intro h
  refine (h.onTheLine root rfl).2 ⟨"authorizations", "issued_at", "AUTH_ISSUED_AT_INVALID"⟩
    (List.mem_cons_self ..) 0 (.str stamp) ⟨root, [.dict issued], issued, rfl, rfl, rfl, rfl⟩
    ⟨stamp, -50400000000, rfl, if_pos rfl, by decide⟩

end Early

end Centinal26.Validation
