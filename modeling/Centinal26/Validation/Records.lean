/-
What a valid record of each collection is, and that the checks of a record add no violation just if
it is one.
-/
import Centinal26.Validation.Bundle
import Centinal26.Validation.Passed

namespace Centinal26.Validation

open Py Check

variable {F : PyStr → Option DateTime} {now : Instant}

-- == members

def HasText (item : Items) (key : String) : Prop := ∃ s, itemOf item key = .str s ∧ s ≠ []

def HasEnum (item : Items) (key : String) (allowed : List String) : Prop :=
  ∃ a ∈ allowed, itemOf item key = .str (py a)

/-- A member is an array of different non-empty strings. -/
def HasStrings (minItems : Nat) (item : Items) (key : String) : Prop :=
  ∃ ss, StringsOf minItems (itemOf item key) ss

-- == authorizations

structure AuthorizationOf (F : PyStr → Option DateTime) (now : Instant) (value : PyVal)
    (item : Items) : Prop where
  record : RecordOf "centinal26-authorization-v1" authFields value item
  id : HasText item "authorization_id"
  issuer : HasText item "issuer"
  subject : HasText item "subject"
  distinct : itemOf item "issuer" ≠ itemOf item "subject"
  capability : HasText item "capability"
  scope : ∃ d, itemOf item "scope" = .dict d
  risk : HasEnum item "risk_class" riskClasses
  times : ∃ issued expires, TimeOf F (itemOf item "issued_at") issued
    ∧ TimeOf F (itemOf item "expires_at") expires ∧ issued ≤ now ∧ now < expires
  signature : HasText item "signature"

variable {index : Nat} {value v : PyVal} {path : PyStr} {evidence : Index}

-- == fields

variable {key code : String} {item : Items} {α β : Type} {b : β}

/-- A field that reads as a value is read, and the rest goes on with the value. -/
theorem clean_then {x : Check (Option α)} {P : α → Prop} {f : Option α → Check β}
    (hx : ∀ r, x.Clean r ↔ ∃ a, r = some a ∧ P a) :
    (x >>= f).Clean b ↔ ∃ a, P a ∧ (f (some a)).Clean b := by
  rw [clean_bind]
  constructor
  · rintro ⟨_, hr, h⟩
    obtain ⟨a, rfl, ha⟩ := (hx _).mp hr
    exact ⟨a, ha, h⟩
  · rintro ⟨a, ha, h⟩
    exact ⟨some a, (hx _).mpr ⟨a, rfl, ha⟩, h⟩

theorem text_then {f : Option PyStr → Check β} : (text item key path code >>= f).Clean b
    ↔ ∃ s, (itemOf item key = .str s ∧ s ≠ []) ∧ (f (some s)).Clean b :=
  clean_then fun _ => clean_text

theorem mapping_then {f : Option Items → Check β} : (mapping item key path code >>= f).Clean b
    ↔ ∃ d, itemOf item key = .dict d ∧ (f (some d)).Clean b :=
  clean_then fun _ => clean_mapping

theorem strings_then {minItems : Nat} {f : Option (List PyStr) → Check β} :
    (strings item key path code minItems >>= f).Clean b
      ↔ ∃ ss, StringsOf minItems (itemOf item key) ss ∧ (f (some ss)).Clean b :=
  clean_then fun _ => clean_strings

theorem check_then {condition : Bool} {message : PyStr} {f : Unit → Check β} :
    (check condition code path message >>= f).Clean b ↔ condition = true ∧ (f ()).Clean b := by
  rw [clean_bind]
  exact ⟨fun ⟨_, hc, h⟩ => ⟨clean_check.mp hc, h⟩, fun ⟨hc, h⟩ => ⟨(), clean_check.mpr hc, h⟩⟩

theorem record_then {kind noun schema : String} {fields : List String}
    (hschema : "schema" ∈ fields) {f : Option Items → Check β} :
    (record value path kind noun schema fields >>= f).Clean b
      ↔ ∃ item, RecordOf schema fields value item ∧ (f (some item)).Clean b :=
  clean_then fun _ => clean_record hschema

theorem clean_checkAuthorization :
    (checkAuthorization F now index value).Clean () ↔ ∃ item, AuthorizationOf F now value item := by
  unfold checkAuthorization
  dsimp only
  refine (record_then (by decide)).trans ?_
  constructor
  · rintro ⟨item, hitem, h⟩
    dsimp only at h
    simp only [clean_bind, clean_text, clean_mapping, clean_enum, clean_timestamp, clean_check,
      clean_pure] at h
    obtain ⟨_, ⟨id, rfl, hid⟩, _, ⟨issuer, rfl, hissuer⟩, _, ⟨subject, rfl, hsubject⟩, _,
      hdistinct, _, ⟨capability, rfl, hcapability⟩, _, ⟨scope, rfl, hscope⟩, _,
      ⟨risk, hrisk, rfl, hclass⟩, _, ⟨issued, rfl, hissued⟩, _, ⟨expires, rfl, hexpires⟩, _, hnow,
      _, hlater, _, hrange, _, ⟨signature, rfl, hsignature⟩, -⟩ := h
    refine ⟨item, hitem, ⟨id, hid⟩, ⟨issuer, hissuer⟩, ⟨subject, hsubject⟩, ?_,
      ⟨capability, hcapability⟩, ⟨scope, hscope⟩, ⟨risk, hrisk, hclass⟩,
      ⟨issued, expires, hissued, hexpires, of_decide_eq_true hnow, of_decide_eq_true hlater⟩,
      ⟨signature, hsignature⟩⟩
    rw [hissuer.1, hsubject.1]
    exact fun heq => of_decide_eq_true hdistinct (PyVal.str.inj heq)
  · rintro ⟨item, hrecord, ⟨id, hid⟩, ⟨issuer, hissuer⟩, ⟨subject, hsubject⟩, hdistinct,
      ⟨capability, hcapability⟩, ⟨scope, hscope⟩, ⟨risk, hrisk, hclass⟩,
      ⟨issued, expires, hissued, hexpires, hnow, hlater⟩, ⟨signature, hsignature⟩⟩
    refine ⟨item, hrecord, ?_⟩
    dsimp only
    simp only [clean_bind, clean_text, clean_mapping, clean_enum, clean_timestamp, clean_check,
      clean_pure]
    have hne : issuer ≠ subject := fun heq =>
      hdistinct (by rw [hissuer.1, hsubject.1, heq])
    exact ⟨_, ⟨id, rfl, hid⟩, _, ⟨issuer, rfl, hissuer⟩, _, ⟨subject, rfl, hsubject⟩, (),
      decide_eq_true hne, _, ⟨capability, rfl, hcapability⟩, _, ⟨scope, rfl, hscope⟩, _,
      ⟨risk, hrisk, rfl, hclass⟩, _, ⟨issued, rfl, hissued⟩, _, ⟨expires, rfl, hexpires⟩, (),
      decide_eq_true hnow, (), decide_eq_true hlater, (),
      decide_eq_true (Int.lt_of_le_of_lt hnow hlater), _, ⟨signature, rfl, hsignature⟩, trivial⟩

-- == evidence

/-- A valid piece of evidence. -/
structure EvidenceOf (F : PyStr → Option DateTime) (now : Instant) (value : PyVal)
    (item : Items) : Prop where
  record : RecordOf "centinal26-governance-evidence-v1" evidenceFields value item
  id : HasText item "evidence_id"
  digest : ∃ s, itemOf item "sha256" = .str s ∧ isSha256 s = true
  immutable : itemOf item "immutable" = .bool true
  source : HasEnum item "source_type" ["SOURCE", "DERIVED", "SUMMARY"]
  created : ∃ created, TimeOf F (itemOf item "created_at") created ∧ created ≤ now

theorem any_text {p : PyStr → Bool} : v.text?.any p = true ↔ ∃ s, v = .str s ∧ p s = true := by
  cases v <;> simp [PyVal.text?]

theorem clean_checkEvidence :
    (checkEvidence F now index value).Clean () ↔ ∃ item, EvidenceOf F now value item := by
  unfold checkEvidence
  dsimp only
  refine (record_then (by decide)).trans ?_
  constructor
  · rintro ⟨item, hitem, h⟩
    dsimp only at h
    simp only [clean_bind, clean_text, clean_enum, clean_timestamp, clean_check, any_text,
      PyVal.isTrue_eq] at h
    obtain ⟨_, ⟨id, rfl, hid⟩, _, hdigest, _, himmutable, _, ⟨source, hsource, rfl, hclass⟩, _,
      ⟨created, rfl, hcreated⟩, hnow⟩ := h
    exact ⟨item, hitem, ⟨id, hid⟩, hdigest, himmutable, ⟨source, hsource, hclass⟩,
      ⟨created, hcreated, of_decide_eq_true hnow⟩⟩
  · rintro ⟨item, hitem, ⟨id, hid⟩, hdigest, himmutable, ⟨source, hsource, hclass⟩,
      ⟨created, hcreated, hnow⟩⟩
    refine ⟨item, hitem, ?_⟩
    dsimp only
    simp only [clean_bind, clean_text, clean_enum, clean_timestamp, clean_check, any_text,
      PyVal.isTrue_eq]
    exact ⟨_, ⟨id, rfl, hid⟩, (), hdigest, (), himmutable, _, ⟨source, hsource, rfl, hclass⟩, _,
      ⟨created, rfl, hcreated⟩, decide_eq_true hnow⟩

-- == references

/-- The references are to records of an index. -/
def Exist (index : Index) (refs : List PyStr) : Prop :=
  ∀ ref ∈ refs, (getItem? index ref).isSome = true

theorem clean_references {refs : List PyStr} {index : Index} {code : String}
    {f : Bool → Check Unit} : (refsExist (some refs) index path code >>= f).Clean ()
      ↔ Exist index refs ∧ (f true).Clean () := by
  rw [clean_bind]
  constructor
  · rintro ⟨b, hexist, hf⟩
    obtain ⟨rfl, hall⟩ := clean_refsExist.mp hexist
    exact ⟨hall, hf⟩
  · rintro ⟨hall, hf⟩
    exact ⟨true, clean_refsExist.mpr ⟨rfl, hall⟩, hf⟩

-- == operations

structure OperationOf (authorizations evidence : Index) (value : PyVal) (item : Items) : Prop where
  record : RecordOf "centinal26-operation-v1" operationFields value item
  id : HasText item "operation_id"
  actor : HasText item "actor"
  capability : HasText item "capability_id"
  scope : ∃ d, itemOf item "scope" = .dict d
  risk : HasEnum item "risk_class" riskClasses
  preconditions : HasStrings 0 item "preconditions"
  postconditions : HasStrings 1 item "postconditions"
  destructive : ∃ b, itemOf item "destructive" = .bool b
  refs : ∃ refs, StringsOf 0 (itemOf item "preservation_evidence_refs") refs
    ∧ Exist evidence refs ∧ (itemOf item "destructive" = .bool true → refs ≠ [])
  authorization : ∃ id auth, itemOf item "authorization_id" = .str id ∧ id ≠ []
    ∧ getItem? authorizations id = some auth
    ∧ itemOf auth "subject" = itemOf item "actor" ∧ itemOf auth "issuer" ≠ itemOf item "actor"
    ∧ itemOf auth "capability" = itemOf item "capability_id"
    ∧ same (itemOf auth "scope") (itemOf item "scope") = true
    ∧ ∃ a r, itemOf auth "risk_class" = .str a ∧ itemOf item "risk_class" = .str r
      ∧ ∃ m n, riskRank a = some m ∧ riskRank r = some n ∧ n ≤ m

theorem riskRank_isSome {a : String} (h : a ∈ riskClasses) : ∃ n, riskRank (py a) = some n := by
  refine Option.isSome_iff_exists.mp ?_
  rw [riskRank, List.findIdx?_isSome, List.any_eq_true]
  exact ⟨a, h, decide_eq_true rfl⟩

theorem clean_checkAuthorized {auth : Items} {actor capability : PyStr} {scope : Items}
    {a r : String} (ha : a ∈ riskClasses) (hr : r ∈ riskClasses) (hscope : ∃ d,
      itemOf auth "scope" = .dict d) (hrisk : itemOf auth "risk_class" = .str (py a)) :
    (checkAuthorized auth path (some actor) (some capability) (some scope) (some (py r))).Clean ()
      ↔ itemOf auth "subject" = .str actor ∧ itemOf auth "issuer" ≠ .str actor
        ∧ itemOf auth "capability" = .str capability
        ∧ same (itemOf auth "scope") (.dict scope) = true
        ∧ ∃ m n, riskRank (py a) = some m ∧ riskRank (py r) = some n ∧ n ≤ m := by
  obtain ⟨d, hd⟩ := hscope
  obtain ⟨m, hm⟩ := riskRank_isSome ha
  obtain ⟨n, hn⟩ := riskRank_isSome hr
  unfold checkAuthorized
  simp only [clean_bind, clean_check, Option.all_some, PyVal.eq_str, hd, hrisk, PyVal.dict?,
    PyVal.text?, Option.bind_some, hm, hn, both, Bool.not_eq_true', ← Bool.not_eq_true,
    decide_eq_true_eq]
  constructor
  · rintro ⟨-, hsubject, -, hissuer, -, hcapability, -, heq, hle⟩
    exact ⟨hsubject, hissuer, hcapability, heq, m, n, rfl, rfl, hle⟩
  · rintro ⟨hsubject, hissuer, hcapability, heq, m', n', hm', hn', hle⟩
    cases hm'
    cases hn'
    exact ⟨(), hsubject, (), hissuer, (), hcapability, (), heq, hle⟩

def AllAuthorized (F : PyStr → Option DateTime) (now : Instant) (authorizations : Index) : Prop :=
  ∀ id auth, getItem? authorizations id = some auth → ∃ value, AuthorizationOf F now value auth

theorem matches_bool : (v matches .bool _) = true ↔ ∃ b, v = .bool b := by
  cases v <;> simp

theorem cites_iff {refs : List PyStr} :
    ((some refs).any (fun r => !r.isEmpty) && true) = true ↔ refs ≠ [] := by
  cases refs <;> simp

theorem preserved_iff {refs : List PyStr} :
    (!v.isTrue || (some refs).any (fun r => !r.isEmpty) && true) = true
      ↔ (v = .bool true → refs ≠ []) := by
  rw [Bool.or_eq_true, cites_iff, Bool.not_eq_true', ← Bool.not_eq_true, PyVal.isTrue_eq,
    imp_iff_not_or]

theorem clean_checkOperation {authorizations : Index} (hauth : AllAuthorized F now authorizations) :
    (checkOperation authorizations evidence index value).Clean ()
      ↔ ∃ item, OperationOf authorizations evidence value item := by
  unfold checkOperation
  dsimp only
  refine (record_then (by decide)).trans ?_
  constructor
  · rintro ⟨item, hitem, h⟩
    dsimp only at h
    obtain ⟨id, hid, h⟩ := text_then.mp h
    obtain ⟨actor, hactor, h⟩ := text_then.mp h
    obtain ⟨authId, hauthId, h⟩ := text_then.mp h
    obtain ⟨capability, hcapability, h⟩ := text_then.mp h
    obtain ⟨scope, hscope, h⟩ := mapping_then.mp h
    obtain ⟨_, henum, h⟩ := clean_bind.mp h
    obtain ⟨risk, hrisk, rfl, hclass⟩ := clean_enum.mp henum
    obtain ⟨pre, hpre, h⟩ := strings_then.mp h
    obtain ⟨post, hpost, h⟩ := strings_then.mp h
    obtain ⟨_, hflag, h⟩ := clean_bind.mp h
    obtain ⟨refs, hrefs, h⟩ := strings_then.mp h
    obtain ⟨hexist, h⟩ := clean_references.mp h
    obtain ⟨hknown, h⟩ := check_then.mp h
    obtain ⟨auth, hget⟩ : ∃ auth, getItem? authorizations authId = some auth :=
      Option.isSome_iff_exists.mp hknown
    rw [Option.bind_some, hget] at h
    obtain ⟨_, hcheck, h⟩ := clean_bind.mp h
    obtain ⟨_, A⟩ := hauth authId auth hget
    obtain ⟨a, ha, haclass⟩ := A.risk
    obtain ⟨hsubject, hissuer, hcapable, hscoped, m, n, hm, hn, hle⟩ :=
      (clean_checkAuthorized ha hrisk A.scope haclass).mp hcheck
    refine ⟨item, hitem, ⟨id, hid⟩, ⟨actor, hactor⟩, ⟨capability, hcapability⟩, ⟨scope, hscope⟩,
      ⟨risk, hrisk, hclass⟩, ⟨pre, hpre⟩, ⟨post, hpost⟩, matches_bool.mp (clean_check.mp hflag),
      ⟨refs, hrefs, hexist, preserved_iff.mp (clean_check.mp h)⟩, authId, auth, hauthId.1,
      hauthId.2, hget, ?_, ?_, ?_, ?_, py a, py risk, haclass, hclass, m, n, hm, hn, hle⟩
    · rw [hsubject, hactor.1]
    · rwa [hactor.1]
    · rw [hcapable, hcapability.1]
    · rwa [hscope]
  · rintro ⟨item, hitem, ⟨id, hid⟩, ⟨actor, hactor⟩, ⟨capability, hcapability⟩, ⟨scope, hscope⟩,
      ⟨risk, hrisk, hclass⟩, ⟨pre, hpre⟩, ⟨post, hpost⟩, hflag, ⟨refs, hrefs, hexist, hpreserved⟩,
      authId, auth, hauthId, hauthId', hget, hsubject, hissuer, hcapable, hscoped, a, r, haclass,
      hrclass, m, n, hm, hn, hle⟩
    rw [hactor.1] at hsubject hissuer
    rw [hcapability.1] at hcapable
    rw [hscope] at hscoped
    rw [hclass] at hrclass
    cases hrclass
    obtain ⟨_, A⟩ := hauth authId auth hget
    obtain ⟨a', ha', haclass'⟩ := A.risk
    rw [haclass'] at haclass
    cases haclass
    refine ⟨item, hitem, ?_⟩
    dsimp only
    refine text_then.mpr ⟨id, hid, ?_⟩
    refine text_then.mpr ⟨actor, hactor, ?_⟩
    refine text_then.mpr ⟨authId, ⟨hauthId, hauthId'⟩, ?_⟩
    refine text_then.mpr ⟨capability, hcapability, ?_⟩
    refine mapping_then.mpr ⟨scope, hscope, ?_⟩
    refine clean_bind.mpr ⟨_, clean_enum.mpr ⟨risk, hrisk, rfl, hclass⟩, ?_⟩
    refine strings_then.mpr ⟨pre, hpre, ?_⟩
    refine strings_then.mpr ⟨post, hpost, ?_⟩
    refine check_then.mpr ⟨matches_bool.mpr hflag, ?_⟩
    refine strings_then.mpr ⟨refs, hrefs, ?_⟩
    refine clean_references.mpr ⟨hexist, ?_⟩
    rw [Option.bind_some, hget]
    refine check_then.mpr ⟨rfl, ?_⟩
    refine clean_bind.mpr ⟨(), ?_, clean_check.mpr (preserved_iff.mpr hpreserved)⟩
    exact (clean_checkAuthorized ha' hrisk A.scope haclass').mpr
      ⟨hsubject, hissuer, hcapable, hscoped, m, n, hm, hn, hle⟩

-- == claims

structure ClaimOf (evidence : Index) (value : PyVal) (item : Items) : Prop where
  record : RecordOf "centinal26-claim-v1" claimFields value item
  id : HasText item "claim_id"
  status : HasEnum item "status" claimStatuses
  proposition : HasText item "proposition"
  uncertainty : isUncertainty (itemOf item "uncertainty") = true
  refs : ∃ refs, StringsOf 0 (itemOf item "evidence_refs") refs ∧ Exist evidence refs
    ∧ (itemOf item "status" = .str (py "DERIVED") ∨ itemOf item "status" = .str (py "VERIFIED") →
      refs ≠ [] ∧ ∃ ref ∈ refs, ∃ e, getItem? evidence ref = some e
        ∧ itemOf e "source_type" ≠ .str (py "SUMMARY"))

theorem summaries_iff {refs : List PyStr} (hexist : Exist evidence refs) :
    ((some refs).getD []).all (fun r => (getItem? evidence r).any fun e =>
        (itemOf e "source_type").eq (.str (py "SUMMARY"))) = false
      ↔ ∃ ref ∈ refs, ∃ e, getItem? evidence ref = some e
        ∧ itemOf e "source_type" ≠ .str (py "SUMMARY") := by
  rw [← Bool.not_eq_true, Option.getD_some, List.all_eq_true]
  push Not
  refine exists_congr fun ref => and_congr_right fun href => ?_
  obtain ⟨e, he⟩ := Option.isSome_iff_exists.mp (hexist ref href)
  rw [he, Option.any_some, PyVal.eq_str.ne]
  exact ⟨fun h => ⟨e, rfl, h⟩, fun ⟨_, heq, h⟩ => Option.some_inj.mp heq ▸ h⟩

theorem clean_checkClaim :
    (checkClaim evidence index value).Clean () ↔ ∃ item, ClaimOf evidence value item := by
  have hderived : ∀ s : PyStr, (some s).any (fun s => decide (s = py "DERIVED" ∨ s = py "VERIFIED"))
      = true ↔ PyVal.str s = .str (py "DERIVED") ∨ PyVal.str s = .str (py "VERIFIED") := by
    intro s
    rw [Option.any_some, decide_eq_true_iff, PyVal.str.injEq, PyVal.str.injEq]
  unfold checkClaim
  dsimp only
  refine (record_then (by decide)).trans ?_
  constructor
  · rintro ⟨item, hitem, h⟩
    dsimp only at h
    obtain ⟨id, hid, h⟩ := text_then.mp h
    obtain ⟨_, henum, h⟩ := clean_bind.mp h
    obtain ⟨status, hstatus, rfl, hclass⟩ := clean_enum.mp henum
    obtain ⟨proposition, hproposition, h⟩ := text_then.mp h
    obtain ⟨_, huncertainty, h⟩ := clean_bind.mp h
    have huncertainty := (Bool.and_eq_true _ _ ▸ clean_check.mp huncertainty).2
    obtain ⟨refs, hrefs, h⟩ := strings_then.mp h
    obtain ⟨hexist, h⟩ := clean_references.mp h
    obtain ⟨hcites, h⟩ := check_then.mp h
    have hsummary := clean_check.mp h
    refine ⟨item, hitem, ⟨id, hid⟩, ⟨status, hstatus, hclass⟩, ⟨proposition, hproposition⟩,
      huncertainty, refs, hrefs, hexist, fun hneeded => ?_⟩
    rw [hclass, ← hderived] at hneeded
    rw [hneeded, Bool.not_true, Bool.false_or] at hcites hsummary
    rw [hcites, Bool.not_true, Bool.false_or, Bool.not_eq_true'] at hsummary
    exact ⟨cites_iff.mp hcites, (summaries_iff hexist).mp hsummary⟩
  · rintro ⟨item, hitem, ⟨id, hid⟩, ⟨status, hstatus, hclass⟩, ⟨proposition, hproposition⟩,
      huncertainty, refs, hrefs, hexist, hneeds⟩
    obtain ⟨m, hm, hkey⟩ := hitem.complete "uncertainty" (by decide)
    refine ⟨item, hitem, ?_⟩
    dsimp only
    refine text_then.mpr ⟨id, hid, ?_⟩
    refine clean_bind.mpr ⟨_, clean_enum.mpr ⟨status, hstatus, rfl, hclass⟩, ?_⟩
    refine text_then.mpr ⟨proposition, hproposition, ?_⟩
    refine check_then.mpr ⟨?_, ?_⟩
    · rw [huncertainty, Bool.and_true]
      exact List.any_eq_true.mpr ⟨m, hm, decide_eq_true hkey⟩
    refine strings_then.mpr ⟨refs, hrefs, ?_⟩
    refine clean_references.mpr ⟨hexist, ?_⟩
    rw [hclass, ← hderived] at hneeds
    by_cases hneeded : (some (py status)).any
      (fun s => decide (s = py "DERIVED" ∨ s = py "VERIFIED")) = true
    · obtain ⟨hne, hsource⟩ := hneeds hneeded
      rw [hneeded, cites_iff.mpr hne, (summaries_iff hexist).mpr hsource]
      exact check_then.mpr ⟨rfl, clean_check.mpr rfl⟩
    · rw [Bool.not_eq_true] at hneeded
      rw [hneeded]
      exact check_then.mpr ⟨rfl, clean_check.mpr rfl⟩

-- == promotions

structure PromotionOf (evidence operations : Index) (value : PyVal) (item : Items) : Prop where
  record : RecordOf "centinal26-promotion-v1" promotionFields value item
  id : HasText item "promotion_id"
  verifier : HasText item "verifier"
  independent : itemOf item "executor" ≠ itemOf item "verifier"
  operation : ∃ id executor operation, itemOf item "operation_id" = .str id ∧ id ≠ []
    ∧ itemOf item "executor" = .str executor ∧ executor ≠ []
    ∧ getItem? operations id = some operation ∧ itemOf operation "actor" = .str executor
  gates : ∀ gate ∈ gates, itemOf item gate.1 = .bool true
  refs : ∃ refs, StringsOf 1 (itemOf item "evidence_refs") refs ∧ Exist evidence refs

theorem clean_gates {item : Items} : (each (fun _ gate => check (itemOf item gate.1).isTrue
        ("PROMOTION_" ++ gate.2 ++ "_REQUIRED") (below path ("." ++ gate.1))
        (py ("promotion requires " ++ gate.1 ++ "=true"))) 0 gates).Clean ()
      ↔ ∀ gate ∈ gates, itemOf item gate.1 = .bool true :=
  clean_each (P := fun gate : String × String => itemOf item gate.1 = .bool true) fun _ _ => by
    rw [clean_check, PyVal.isTrue_eq]

theorem clean_checkPromotion {operations : Index} :
    (checkPromotion evidence operations index value).Clean ()
      ↔ ∃ item, PromotionOf evidence operations value item := by
  unfold checkPromotion
  dsimp only
  refine (record_then (by decide)).trans ?_
  constructor
  · rintro ⟨item, hitem, h⟩
    dsimp only at h
    obtain ⟨id, hid, h⟩ := text_then.mp h
    obtain ⟨operationId, hoperation, h⟩ := text_then.mp h
    obtain ⟨executor, hexecutor, h⟩ := text_then.mp h
    obtain ⟨verifier, hverifier, h⟩ := text_then.mp h
    obtain ⟨_, hindependent, h⟩ := clean_bind.mp h
    obtain ⟨_, hknown, h⟩ := clean_bind.mp h
    obtain ⟨operation, hget⟩ : ∃ operation, getItem? operations operationId = some operation :=
      Option.isSome_iff_exists.mp (clean_check.mp hknown)
    rw [Option.bind_some, hget] at h
    obtain ⟨_, hactor, h⟩ := clean_bind.mp h
    obtain ⟨_, hgates, h⟩ := clean_bind.mp h
    obtain ⟨refs, hrefs, h⟩ := strings_then.mp h
    obtain ⟨hexist, -⟩ := clean_references.mp h
    refine ⟨item, hitem, ⟨id, hid⟩, ⟨verifier, hverifier⟩, ?_, ⟨operationId, executor, operation,
      hoperation.1, hoperation.2, hexecutor.1, hexecutor.2, hget,
      PyVal.eq_str.mp (clean_check.mp hactor)⟩, clean_gates.mp hgates, refs, hrefs, hexist⟩
    rw [hexecutor.1, hverifier.1]
    exact fun heq => of_decide_eq_true (clean_check.mp hindependent) (PyVal.str.inj heq)
  · rintro ⟨item, hitem, ⟨id, hid⟩, ⟨verifier, hverifier⟩, hindependent, ⟨operationId, executor,
      operation, hoperation, hoperation', hexecutor, hexecutor', hget, hactor⟩, hgates, refs,
      hrefs, hexist⟩
    have hne : executor ≠ verifier := fun heq =>
      hindependent (by rw [hexecutor, hverifier.1, heq])
    have hcited : refs ≠ [] := List.ne_nil_of_length_pos hrefs.enough
    refine ⟨item, hitem, ?_⟩
    dsimp only
    refine text_then.mpr ⟨id, hid, ?_⟩
    refine text_then.mpr ⟨operationId, ⟨hoperation, hoperation'⟩, ?_⟩
    refine text_then.mpr ⟨executor, ⟨hexecutor, hexecutor'⟩, ?_⟩
    refine text_then.mpr ⟨verifier, hverifier, ?_⟩
    refine check_then.mpr ⟨decide_eq_true hne, ?_⟩
    rw [Option.bind_some, hget]
    refine check_then.mpr ⟨rfl, ?_⟩
    refine check_then.mpr ⟨PyVal.eq_str.mpr hactor, ?_⟩
    refine clean_bind.mpr ⟨(), clean_gates.mpr hgates, ?_⟩
    refine strings_then.mpr ⟨refs, hrefs, ?_⟩
    exact clean_references.mpr ⟨hexist, clean_check.mpr (cites_iff.mpr hcited)⟩

-- == terminal events

/-- A valid terminal event. -/
structure TerminalOf (evidence operations : Index) (value : PyVal) (item : Items) : Prop where
  record : RecordOf "centinal26-terminal-event-v1" terminalFields value item
  id : HasText item "terminal_event_id"
  operation : ∃ id, itemOf item "operation_id" = .str id ∧ id ≠ []
    ∧ (getItem? operations id).isSome = true
  status : HasEnum item "status" terminalStates
  refs : ∃ refs, StringsOf 1 (itemOf item "evidence_refs") refs ∧ Exist evidence refs

theorem clean_checkTerminal {operations : Index} :
    (checkTerminal evidence operations index value).Clean ()
      ↔ ∃ item, TerminalOf evidence operations value item := by
  unfold checkTerminal
  dsimp only
  refine (record_then (by decide)).trans ?_
  constructor
  · rintro ⟨item, hitem, h⟩
    dsimp only at h
    obtain ⟨id, hid, h⟩ := text_then.mp h
    obtain ⟨operationId, hoperation, h⟩ := text_then.mp h
    obtain ⟨_, hknown, h⟩ := clean_bind.mp h
    obtain ⟨_, henum, h⟩ := clean_bind.mp h
    obtain ⟨status, hstatus, rfl, hclass⟩ := clean_enum.mp henum
    obtain ⟨refs, hrefs, h⟩ := strings_then.mp h
    obtain ⟨hexist, -⟩ := clean_references.mp h
    refine ⟨item, hitem, ⟨id, hid⟩, ⟨operationId, hoperation.1, hoperation.2,
      clean_check.mp hknown⟩, ⟨status, hstatus, hclass⟩, refs, hrefs, hexist⟩
  · rintro ⟨item, hitem, ⟨id, hid⟩, ⟨operationId, hoperation, hoperation', hknown⟩,
      ⟨status, hstatus, hclass⟩, refs, hrefs, hexist⟩
    refine ⟨item, hitem, ?_⟩
    dsimp only
    refine text_then.mpr ⟨id, hid, ?_⟩
    refine text_then.mpr ⟨operationId, ⟨hoperation, hoperation'⟩, ?_⟩
    refine check_then.mpr ⟨hknown, ?_⟩
    refine clean_bind.mpr ⟨_, clean_enum.mpr ⟨status, hstatus, rfl, hclass⟩, ?_⟩
    refine strings_then.mpr ⟨refs, hrefs, ?_⟩
    exact clean_references.mpr ⟨hexist, clean_pure.mpr rfl⟩

end Centinal26.Validation
