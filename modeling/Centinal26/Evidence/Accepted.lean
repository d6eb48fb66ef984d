/-
Mirror evidence is accepted exactly when it is the authorised row, and what is accepted is
blind to the fields Base44 writes for itself.
-/
import Centinal26.Evidence.Authority

namespace Centinal26.Evidence

open Py Events

-- == system fields

/-- Whether Base44 writes a field for itself. -/
def isSystem (name : PyStr) : Bool := systemFields.any fun f => decide (py f = name)

/-- A record without the fields Base44 writes. -/
def authorityPart (r : Fields) : Members := r.members.filter fun m => !isSystem m.1

section Same

variable {r r' : Fields} (h : authorityPart r = authorityPart r')

variable {f : String} {k : MirrorKind}

include h in
theorem get?_of_same (hf : isSystem (py f) = false) : r.get? (py f) = r'.get? (py f) := by
  have hpart : ∀ r : Fields, r.get? (py f)
      = ((authorityPart r).find? fun m => decide (m.1 = py f)).map Prod.snd := by
    intro r
    rw [authorityPart, List.find?_filter, Fields.get?]
    congr 2
    funext m
    by_cases hm : m.1 = py f
    · simp [hm, hf]
    · simp [hm]
  rw [hpart r, hpart r', h]

theorem not_system (hf : f ∈ k.authority) : isSystem (py f) = false := by
  revert f
  cases k with
  | roleResult => decide
  | verificationVerdict => decide

include h in
theorem valueOf_of_same (hf : f ∈ k.authority) : valueOf r f = valueOf r' f := by
  rw [valueOf, valueOf, get?_of_same h (not_system hf)]

include h in
theorem unknown_of_same (k : MirrorKind) :
    r.members.find? (fun m => !k.isKnown m.1) = r'.members.find? (fun m => !k.isKnown m.1) := by
  have hpart : ∀ r : Fields, r.members.find? (fun m => !k.isKnown m.1)
      = (authorityPart r).find? fun m => !k.isKnown m.1 := by
    intro r
    rw [authorityPart, List.find?_filter]
    congr 1
    funext m
    -- a system field is known
    have hknown : isSystem m.1 = true → k.isKnown m.1 = true := by
      intro hs
      rw [MirrorKind.isKnown, List.any_append, Bool.or_eq_true]
      exact Or.inr hs
    cases hs : isSystem m.1 with
    | true => simp [hknown hs]
    | false => simp
  rw [hpart r, hpart r', h]

include h in
theorem requiredMembers_of_same {fs : List String}
    (hfs : ∀ f ∈ fs, f ∈ k.authority) : requiredMembers r fs = requiredMembers r' fs := by
  induction fs with
  | nil => rfl
  | cons f fs ih =>
    rw [requiredMembers, requiredMembers, ih fun g hg => hfs g (List.mem_cons_of_mem _ hg),
      requireNonemptyString, requireNonemptyString,
      get?_of_same h (not_system (hfs f (List.mem_cons_self ..)))]

include h in
theorem optionalMembers_of_same {fs : List String}
    (hfs : ∀ f ∈ fs, f ∈ k.authority) : optionalMembers r fs = optionalMembers r' fs := by
  induction fs with
  | nil => rfl
  | cons f fs ih =>
    rw [optionalMembers, optionalMembers, ih fun g hg => hfs g (List.mem_cons_of_mem _ hg),
      valueOf_of_same h (hfs f (List.mem_cons_self ..))]

theorem kindChecks_congr {readsJson : PyStr → Except PyErr Bool} {get get' : String → Json}
    (h : ∀ f ∈ k.authority, get f = get' f) :
    kindChecks readsJson get k = kindChecks readsJson get' k := by
  cases k with
  | roleResult =>
    rw [kindChecks, kindChecks, h "role" (by decide), h "payload_json" (by decide),
      h "result_hash" (by decide)]
  | verificationVerdict =>
    rw [kindChecks, kindChecks, h "verdict" (by decide), h "verifier" (by decide),
      h "details_json" (by decide), h "verdict_hash" (by decide)]

include h in
theorem projection_of_same (readsJson : PyStr → Except PyErr Bool) (mirrorKind mirrorId : PyStr) :
    canonicalMirrorProjection readsJson mirrorKind mirrorId r.doc
      = canonicalMirrorProjection readsJson mirrorKind mirrorId r'.doc := by
  unfold canonicalMirrorProjection
  cases MirrorKind.ofName? mirrorKind with
  | none => rfl
  | some k =>
    have hrequired : ∀ f ∈ k.required, f ∈ k.authority := fun f hf =>
      List.mem_append_left _ hf
    have hoptional : ∀ f ∈ k.optional, f ∈ k.authority := fun f hf =>
      List.mem_append_right _ hf
    have hlogical : k.logicalIdField ∈ k.authority := by cases k <;> decide
    have hevidence : "evidence_hash" ∈ k.authority := by cases k <;> decide
    have hproject : project readsJson k mirrorId r = project readsJson k mirrorId r' := by
      rw [project, project, requiredMembers_of_same h hrequired,
        optionalMembers_of_same h hoptional, valueOf_of_same h hlogical,
        kindChecks_congr fun f hf => valueOf_of_same h hf, valueOf_of_same h hevidence]
    have hmissing : k.required.find? (fun f => (r.get? (py f)).isNone)
        = k.required.find? (fun f => (r'.get? (py f)).isNone) := by
      have hall : ∀ fs : List String, (∀ f ∈ fs, f ∈ k.authority) →
          fs.find? (fun f => (r.get? (py f)).isNone)
            = fs.find? (fun f => (r'.get? (py f)).isNone) := by
        intro fs hfs
        induction fs with
        | nil => rfl
        | cons f fs ih =>
          rw [List.find?_cons, List.find?_cons,
            get?_of_same h (not_system (hfs f (List.mem_cons_self ..))),
            ih fun g hg => hfs g (List.mem_cons_of_mem _ hg)]
      exact hall _ hrequired
    simp only [Fields.fields?_doc, unknown_of_same h k, hmissing, hproject]

end Same

-- == result

/-- An event that authorises a row accepts a projected row just if kind, id, scope and
projection are those of the authorised one; no verification depends on system fields; and no
row with another value in an authority field is accepted for it. -/
theorem mirror_iff (H : Host) (readsJson : PyStr → Except PyErr Bool) (hhex : Hexadecimal H)
    {rows : List EventRow} {eventId : PyStr} {event : Event}
    (hrecords : Records H rows eventId event) (heventId : eventId ≠ [])
    {mirrorKind mirrorId scope : PyStr} {record : Fields} {grant binding : Strings}
    {p : Members} (hgrant : canonicalAuthorityGrant mirrorKind mirrorId scope = .ok grant)
    (hbinding : canonicalMirrorBinding H readsJson mirrorKind mirrorId record.doc scope
      = .ok binding)
    (hp : canonicalMirrorProjection readsJson mirrorKind mirrorId record.doc = .ok p)
    (hevent : Authorizes event grant binding)
    (hascii : Ascii mirrorId ∧ Ascii scope ∧ AsciiIds p) :
    (∀ mirrorKind' mirrorId' scope' record' p',
      canonicalMirrorProjection readsJson mirrorKind' mirrorId' record' = .ok p' →
      Ascii mirrorId' → Ascii scope' → AsciiIds p' → NoCollision H p p' →
        (Accepts (verifyMirrorEvidence H readsJson rows mirrorKind' mirrorId' record' eventId
            event.eventHash.str scope')
          ↔ mirrorKind' = mirrorKind ∧ mirrorId' = mirrorId ∧ scope' = scope ∧ p' = p))
    ∧ (∀ mirrorKind' mirrorId' scope' eventId' eventHash' (r r' : Fields),
        authorityPart r = authorityPart r' →
        verifyMirrorEvidence H readsJson rows mirrorKind' mirrorId' r.doc eventId' eventHash' scope'
          = verifyMirrorEvidence H readsJson rows mirrorKind' mirrorId' r'.doc eventId'
            eventHash' scope')
    ∧ ∀ k (record' : Fields) f, MirrorKind.ofName? mirrorKind = some k → f ∈ k.authority →
        valueOf record' f ≠ valueOf record f →
        (∀ p', canonicalMirrorProjection readsJson mirrorKind mirrorId record'.doc = .ok p' →
          AsciiIds p' ∧ NoCollision H p p') →
        ¬ Accepts (verifyMirrorEvidence H readsJson rows mirrorKind mirrorId record'.doc
          eventId event.eventHash.str scope) := by
  obtain ⟨hid, hscope, hids⟩ := hascii
  have hiff : ∀ mirrorKind' mirrorId' scope' record' p',
      canonicalMirrorProjection readsJson mirrorKind' mirrorId' record' = .ok p' →
      Ascii mirrorId' → Ascii scope' → AsciiIds p' → NoCollision H p p' →
        (Accepts (verifyMirrorEvidence H readsJson rows mirrorKind' mirrorId' record' eventId
            event.eventHash.str scope')
          ↔ mirrorKind' = mirrorKind ∧ mirrorId' = mirrorId ∧ scope' = scope ∧ p' = p) := by
    intro mirrorKind' mirrorId' scope' record' p' hp' hid' hscope' hids' hcollision
    exact accepts_iff hhex hrecords heventId hgrant hbinding hp hevent hp'
      ⟨hid, hid', hscope, hscope'⟩ hids hids' hcollision
  refine ⟨hiff, ?_, ?_⟩
  · intro mirrorKind' mirrorId' scope' eventId' eventHash' r r' hsame
    unfold verifyMirrorEvidence
    rw [projection_of_same hsame]
  · intro k record' f hkind hf hchanged hpresented haccepts
    cases hp' : canonicalMirrorProjection readsJson mirrorKind mirrorId record'.doc with
    | error e =>
      unfold verifyMirrorEvidence at haccepts
      rw [hp'] at haccepts
      split at haccepts
      · exact not_accepts_refuse haccepts
      · split at haccepts
        · exact not_accepts_refuse haccepts
        · cases e with
          | schema reason => exact absurd (accepts_ok.mp haccepts) (by simp)
          | py e => exact not_accepts_error haccepts
    | ok p' =>
      obtain ⟨hids', hcollision⟩ := hpresented p' hp'
      obtain ⟨-, -, -, heq⟩ :=
        (hiff _ _ _ _ _ hp' hid hscope hids' hcollision).mp haccepts
      obtain ⟨k₁, r, hkind₁, hfields, rfl, -⟩ := projection_ok hp
      obtain ⟨k₂, r', -, hfields', rfl, -⟩ := projection_ok hp'
      rw [Fields.fields?_doc] at hfields hfields'
      cases hfields
      cases hfields'
      rw [hkind] at hkind₁
      cases hkind₁
      exact hchanged ((projected_inj heq).2 f hf)

-- == a row of one's own

namespace Sample

def host : Host := Host.sample fun n => n

theorem hexadecimal : Hexadecimal host := fun _ => ⟨ascii_intRepr _, intRepr_ne_nil _⟩

def record : Fields := ⟨[
  (py "contract_id", .str (py "contract-1")), (py "created_at_client", .str (py "now")),
  (py "id", .str (py "row-1")), (py "payload_json", .str (py "[]")),
  (py "result_hash", .str (List.replicate 64 97)), (py "result_id", .str (py "result-1")),
  (py "role", .str (py "BUILDER")), (py "status", .str (py "EXECUTED"))], by decide +kernel⟩

def kind : PyStr := MirrorKind.roleResult.value

def resultId : PyStr := py "result-1"

def scope : PyStr := py "merge"

def binding : Strings :=
  match canonicalMirrorBinding host (fun _ => .ok true) kind resultId record.doc scope with
  | .ok b => b
  | .error _ => []

theorem binding_eq : canonicalMirrorBinding host (fun _ => .ok true) kind resultId record.doc scope
      = .ok binding := by
  decide +kernel

def payload : Fields := ⟨[
  (py "authority_grant", .obj (grantOf .roleResult resultId scope).document),
  (py "mirror_binding", .obj binding.document)], by decide +kernel⟩

def body : Json :=
  eventBody (py "e-1") (py "now") (py "DECISION_RECORDED") none payload genesis.str

def bodyText : Text := ⟨body.text .canonical, by decide +kernel⟩

def text (s : String) (h : Encodable (py s)) : Text := ⟨py s, h⟩

def row : EventRow where
  seq := 1
  eventId := text "e-1" (by decide)
  ts := text "now" (by decide)
  type := text "DECISION_RECORDED" (by decide)
  entityId := none
  payloadJson := some payload.doc
  prevHash := genesis
  eventHash := host.sha256 bodyText
  schemaVersion := 1

def event : Event := ⟨1, row.eventId, row.ts, row.type, none, payload, genesis, row.eventHash⟩

theorem records : Records host [row] (py "e-1") event := by
  refine ⟨verifyChain_eq_true.mpr ⟨[event], rfl, ?_, ?_⟩, [event], rfl, rfl⟩
  · exact ⟨rfl, trivial⟩
  · intro e he
    rw [List.mem_singleton.mp he]
    refine ⟨by decide, bodyText, ?_, rfl⟩
    have hbody : event.body = body := rfl
    have hfinite : body.isFinite = true := by decide +kernel
    rw [hbody, canonicalJson, if_pos hfinite]
    exact encode_eq_ok.mpr rfl

end Sample

theorem sample_accepted : Accepts (verifyMirrorEvidence Sample.host (fun _ => .ok true) [Sample.row]
    Sample.kind Sample.resultId Sample.record.doc (py "e-1") Sample.event.eventHash.str
    Sample.scope) := by
  obtain ⟨p, hp⟩ : ∃ p, canonicalMirrorProjection (fun _ => .ok true) Sample.kind Sample.resultId
      Sample.record.doc = .ok p := exists_ok (by decide +kernel)
  obtain ⟨k, r, hk, hr, heq, -⟩ := projection_ok hp
  cases hk
  cases hr
  have hids : AsciiIds p := by
    rw [heq]
    exact ⟨by unfold Ascii; decide +kernel, by unfold Ascii; decide +kernel⟩
  have hevent : Authorizes Sample.event (grantOf .roleResult Sample.resultId Sample.scope)
      Sample.binding := ⟨rfl, by decide +kernel, rfl, rfl⟩
  have hcollision : NoCollision Sample.host p p := by
    intro t t' ht ht' _
    rw [ht] at ht'
    exact (Except.ok.inj ht').symm
  exact ((mirror_iff Sample.host (fun _ => .ok true) Sample.hexadecimal Sample.records (by decide)
    (canonicalAuthorityGrant_eq (by decide) (by decide)) Sample.binding_eq hp hevent
    ⟨by unfold Ascii; decide, by unfold Ascii; decide, hids⟩).1 _ _ _ _ p hp
    (by unfold Ascii; decide) (by unfold Ascii; decide) hids hcollision).mpr ⟨rfl, rfl, rfl, rfl⟩

end Centinal26.Evidence
