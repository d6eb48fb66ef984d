/-
When the verifier raises instead of refusing.
-/
import Centinal26.Events.Writer
import Centinal26.Evidence.Accepted

namespace Centinal26.Evidence

open Py Events

-- == comparisons

/-- What `compare_digest` takes. -/
def Comparable (a b : PyStr) : Prop := Ascii a ∧ Ascii b

theorem compareDigest_error {a b : PyStr} (h : ¬ Comparable a b) :
    compareDigest a b = .error .typeError := by
  unfold compareDigest
  rw [if_neg]
  intro hall
  rw [Bool.and_eq_true, List.all_eq_true, List.all_eq_true] at hall
  exact h ⟨fun c hc => of_decide_eq_true (hall.1 c hc), fun c hc => of_decide_eq_true (hall.2 c hc)⟩

/-- The strings of a dictionary that are reached are comparable. -/
def Comparisons (actual : Members) : Strings → Prop
  | [] => True
  | (f, value) :: rest => ∀ s, field actual f = .str s →
      Comparable s value ∧ (s = value → Comparisons actual rest)

/-- The dictionary says what is expected. -/
def Agrees (actual : Members) (expected : Strings) : Prop :=
  ∀ p ∈ expected, field actual p.1 = .str p.2

/-- The comparison of two dictionaries comes to an end, and to nothing if they agree, or it
raises. -/
theorem mismatch_spec (actual : Members) (expected : Strings) : (Comparisons actual expected
      ∧ ∃ o, mismatch actual expected = .ok o ∧ (o = none ↔ Agrees actual expected))
    ∨ (¬ Comparisons actual expected ∧ ∃ e, mismatch actual expected = .error e) := by
  induction expected with
  | nil => exact Or.inl ⟨trivial, none, rfl, iff_of_true rfl fun p hp => (by cases hp)⟩
  | cons p rest ih =>
  obtain ⟨f, value⟩ := p
  rw [mismatch]
  by_cases hstr : ∃ s, field actual f = .str s
  · obtain ⟨s, hfield⟩ := hstr
    rw [hfield]
    by_cases hc : Comparable s value
    · simp only [compareDigest_ascii hc.1 hc.2, bind_ok_eq]
      by_cases heq : s = value
      · rw [decide_eq_true heq, if_pos rfl]
        have hagrees : Agrees actual ((f, value) :: rest) ↔ Agrees actual rest := by
          unfold Agrees
          rw [List.forall_mem_cons]
          exact and_iff_right (by rw [hfield, heq])
        rcases ih with ⟨hrest, o, ho, hiff⟩ | ⟨hrest, e, he⟩
        · refine Or.inl ⟨fun s' hs' => ?_, o, ho, hiff.trans hagrees.symm⟩
          rw [hfield] at hs'
          cases hs'
          exact ⟨hc, fun _ => hrest⟩
        · exact Or.inr ⟨fun h => hrest ((h s hfield).2 heq), e, he⟩
      · refine Or.inl ⟨fun s' hs' => ?_, some f, by rw [decide_eq_false heq]; rfl,
          iff_of_false (fun h => by cases h) fun h => ?_⟩
        · rw [hfield] at hs'
          cases hs'
          exact ⟨hc, fun h => absurd h heq⟩
        · have hvalue := h (f, value) (List.mem_cons_self ..)
          rw [hfield] at hvalue
          exact heq (Json.str.inj hvalue)
    · refine Or.inr ⟨fun h => hc (h s hfield).1, .typeError, ?_⟩
      simp only [compareDigest_error hc]
      rfl
  · refine Or.inl ⟨fun s hs => absurd ⟨s, hs⟩ hstr, some f, ?_,
      iff_of_false (fun h => by cases h) fun h => hstr ⟨_, h (f, value) (List.mem_cons_self ..)⟩⟩
    split
    · next s hs => exact absurd ⟨s, hs⟩ hstr
    · rfl

/-- The verifier comes back with a verification. -/
def Returns (out : Except MirrorError Verification) : Prop := ∃ v, out = .ok v

theorem returns_refuse {reason : String} : Returns (refuse reason) := ⟨_, rfl⟩

theorem not_returns_error {e : MirrorError} : ¬ Returns (.error e) := by
  rintro ⟨v, hv⟩
  cases hv

section Compare

variable {actual : Members} {expected : Strings} {schemaReason reason : String}
  {next : Except MirrorError Verification}

theorem returns_compareTo : Returns (compareTo actual expected schemaReason reason next)
      ↔ (sameNames actual expected = true →
          Comparisons actual expected ∧ (Agrees actual expected → Returns next)) := by
  unfold compareTo
  by_cases hnames : sameNames actual expected = true
  · rw [if_pos hnames]
    rcases mismatch_spec actual expected with ⟨hc, o, ho, hiff⟩ | ⟨hn, e, he⟩
    · rw [ho]
      cases o with
      | none =>
        show Returns next ↔ _
        exact ⟨fun h _ => ⟨hc, fun _ => h⟩, fun h => (h hnames).2 (hiff.mp rfl)⟩
      | some f =>
        refine iff_of_true returns_refuse fun _ => ⟨hc, fun h => ?_⟩
        cases hiff.mpr h
    · rw [he]
      exact iff_of_false not_returns_error fun h => hn (h hnames).1
  · rw [if_neg hnames]
    exact iff_of_true returns_refuse fun h => absurd h hnames

theorem compareTo_self {d : Strings} (hnodup : ((d.map Prod.fst).map py).Nodup)
    (h : Returns (compareTo d.document d schemaReason reason next)) :
    compareTo d.document d schemaReason reason next = next := by
  have hnames : sameNames d.document d = true := sameNames_document rfl
  have hc := (returns_compareTo.mp h hnames).1
  rcases mismatch_spec d.document d with ⟨-, o, ho, hiff⟩ | ⟨hn, -⟩
  · rw [hiff.mpr (field_document hnodup)] at ho
    unfold compareTo
    rw [if_pos hnames, ho]
    rfl
  · exact absurd hc hn

end Compare

-- == authority

/-- The strings of the authority fields have a UTF-8. -/
def Utf8 (k : MirrorKind) (r : Fields) : Prop :=
  ∀ f ∈ k.authority, ∀ s, valueOf r f = .str s → Encodable s

section Authority

variable {H : Host} {k : MirrorKind} {r : Fields} {mirrorId scope : PyStr}

theorem mem_projected {m : PyStr × Json} :
    m ∈ projected k r ↔ m = (py "schema", .str k.schema) ∨ m = (py "mirror_kind", .str k.value)
      ∨ ∃ f ∈ k.authority, (py f, valueOf r f) = m := by
  rw [projected, mem_sortByName, projectedMembers, List.mem_cons, List.mem_cons, List.mem_map]

theorem projection_finite (hproj : Projects k mirrorId r) :
    (Json.obj (projected k r)).isFinite = true := by
  rw [Json.isFinite, allFiniteMembers_eq, List.all_eq_true]
  intro m hm
  rcases mem_projected.mp hm with rfl | rfl | ⟨f, hf, rfl⟩
  · rfl
  · rfl
  · rcases hproj.texts f hf with h | ⟨s, h⟩
    · simp only [h, Json.isFinite]
    · simp only [h, Json.isFinite]

theorem projection_encodable (hproj : Projects k mirrorId r) :
    (Json.obj (projected k r)).isEncodable = true ↔ Utf8 k r := by
  rw [Json.isEncodable, allEncodableMembers_eq, List.all_eq_true]
  constructor
  · intro h f hf s hs
    have hm := h _ (mem_projected.mpr (Or.inr (Or.inr ⟨f, hf, rfl⟩)))
    rw [Bool.and_eq_true, hs] at hm
    exact of_decide_eq_true hm.2
  · intro h m hm
    rw [Bool.and_eq_true]
    rcases mem_projected.mp hm with rfl | rfl | ⟨f, hf, rfl⟩
    · exact ⟨decide_eq_true (encodable_py _), decide_eq_true (ascii_schema k).encodable⟩
    · exact ⟨decide_eq_true (encodable_py _), decide_eq_true (ascii_value k).encodable⟩
    · refine ⟨decide_eq_true (encodable_py _), ?_⟩
      rcases hproj.texts f hf with hnull | ⟨s, hs⟩
      · simp only [hnull, Json.isEncodable]
      · simp only [hs, Json.isEncodable]
        exact decide_eq_true (h f hf s hs)

theorem bindingOf_returns (hproj : Projects k mirrorId r) :
    (∃ b, bindingOf H k.value mirrorId scope (projected k r) = .ok b) ↔ Utf8 k r := by
  have hiff := canonicalJson_isOk (d := .obj (projected k r))
  rw [projection_encodable hproj] at hiff
  unfold bindingOf projectionHash
  cases hjson : canonicalJson (.obj (projected k r)) with
  | ok t =>
    rw [hjson] at hiff
    exact iff_of_true ⟨_, rfl⟩ (hiff.mp rfl).2
  | error e =>
    rw [hjson] at hiff
    refine iff_of_false (fun h => ?_) fun h => ?_
    · obtain ⟨b, hb⟩ := h
      cases hb
    · cases hiff.mpr ⟨projection_finite hproj, h⟩

def AuthorityCompares (H : Host) (event : Event) (k : MirrorKind) (r : Fields)
    (mirrorId scope : PyStr) : Prop :=
  allows (event.payload.get? (py "decision")) = true →
    ∀ grant, event.payload.get? (py "authority_grant") = some (.obj grant) →
      sameNames grant (grantOf k mirrorId scope) = true →
        Comparisons grant (grantOf k mirrorId scope)
        ∧ (Agrees grant (grantOf k mirrorId scope) →
          ∀ binding, event.payload.get? (py "mirror_binding") = some (.obj binding) →
            Utf8 k r ∧ ∀ expected,
              bindingOf H k.value mirrorId scope (projected k r) = .ok expected →
                sameNames binding expected = true → Comparisons binding expected)

theorem returns_bound (hproj : Projects k mirrorId r) {binding : Members}
    {schemaReason reason : String} {v : Verification} :
    Returns (do
        let expected ← bindingOf H k.value mirrorId scope (projected k r)
        compareTo binding expected schemaReason reason (.ok v))
      ↔ Utf8 k r ∧ ∀ expected, bindingOf H k.value mirrorId scope (projected k r) = .ok expected →
            sameNames binding expected = true → Comparisons binding expected := by
  have hmade : (∃ b, bindingOf H k.value mirrorId scope (projected k r) = .ok b) ↔ Utf8 k r :=
    bindingOf_returns hproj
  rw [← hmade]
  cases hb : bindingOf H k.value mirrorId scope (projected k r) with
  | error e =>
    refine iff_of_false not_returns_error fun h => ?_
    obtain ⟨⟨b, hb'⟩, -⟩ := h
    cases hb'
  | ok b =>
    rw [bind_ok_eq, returns_compareTo]
    constructor
    · intro h
      refine ⟨⟨b, rfl⟩, fun expected hexpected hnames => ?_⟩
      cases hexpected
      exact (h hnames).1
    · intro h hnames
      exact ⟨h.2 b rfl hnames, fun _ => ⟨v, rfl⟩⟩

theorem returns_verifyAuthority {event : Event} (hproj : Projects k mirrorId r)
    (hscoped : scope ≠ []) :
    Returns (verifyAuthority H event k.value mirrorId scope (projected k r))
      ↔ AuthorityCompares H event k r mirrorId scope := by
  unfold verifyAuthority
  by_cases hallows : allows (event.payload.get? (py "decision")) = true
  · rw [if_pos hallows]
    split
    · next grant hgrant =>
      simp only [canonicalAuthorityGrant_eq hproj.named hscoped, bind_ok_eq]
      rw [returns_compareTo]
      constructor
      · intro h _ grant' hgrant' hnames
        rw [hgrant] at hgrant'
        cases hgrant'
        obtain ⟨hc, hnext⟩ := h hnames
        refine ⟨hc, fun hagrees binding hbinding => ?_⟩
        have hreturns := hnext hagrees
        rw [hbinding] at hreturns
        exact (returns_bound hproj).mp hreturns
      · intro h hnames
        obtain ⟨hc, hnext⟩ := h hallows grant hgrant hnames
        refine ⟨hc, fun hagrees => ?_⟩
        split
        · next binding hbinding =>
          exact (returns_bound hproj).mpr (hnext hagrees binding hbinding)
        · exact returns_refuse
    · next hgrant =>
      exact iff_of_true returns_refuse fun _ grant hget => absurd hget (hgrant grant)
  · rw [if_neg hallows]
    exact iff_of_true returns_refuse fun h => absurd h hallows

theorem authorized_accepts {event : Event} {b : Strings} (hproj : Projects k mirrorId r)
    (hscoped : scope ≠ []) (hevent : Authorizes event (grantOf k mirrorId scope) b)
    (hb : bindingOf H k.value mirrorId scope (projected k r) = .ok b)
    (h : Returns (verifyAuthority H event k.value mirrorId scope (projected k r))) :
    Accepts (verifyAuthority H event k.value mirrorId scope (projected k r)) := by
  unfold verifyAuthority at h ⊢
  rw [if_pos hevent.decision, hevent.grant] at h ⊢
  simp only [canonicalAuthorityGrant_eq hproj.named hscoped, bind_ok_eq] at h ⊢
  have hgrant := compareTo_self (by simp only [grantOf, List.map_cons, List.map_nil]; decide) h
  rw [hgrant] at h ⊢
  rw [hevent.binding] at h ⊢
  simp only [hb, bind_ok_eq] at h ⊢
  rw [compareTo_self (by rw [bindingOf_names hb]; decide) h]
  exact accepts_ok.mpr rfl

end Authority

-- == projection

/-- No error of Python's is raised: what is raised is caught. -/
def Caught {α : Type} (out : Except MirrorError α) : Prop := ∀ e, out ≠ .error (.py e)

variable {α β : Type} {fs : List String}

theorem caught_ok {a : α} : Caught (.ok a) := nofun

theorem caught_schema {reason : PyStr} :
    Caught (.error (.schema reason) : Except MirrorError α) := nofun

theorem caught_bind {r : Except MirrorError α} {f : α → Except MirrorError β} :
    Caught (r >>= f) ↔ Caught r ∧ ∀ a, r = .ok a → Caught (f a) := by
  cases r with
  | ok a =>
    rw [bind_ok_eq]
    refine ⟨fun h => ⟨caught_ok, fun b hb => ?_⟩, fun h => h.2 a rfl⟩
    cases hb
    exact h
  | error e =>
    constructor
    · intro h
      exact ⟨fun e' he => h e' (by rw [Except.error.inj he]; rfl), nofun⟩
    · intro h e' he
      exact h.1 e' (by rw [Except.error.inj he])

variable {f : Unit → Except MirrorError β} {b : Bool}

theorem caught_requireThat {reason : PyStr} :
    Caught (requireThat b (.schema reason) >>= f) ↔ (b = true → Caught (f ())) := by
  cases b with
  | true => exact ⟨fun h _ => h, fun h => h rfl⟩
  | false => exact iff_of_true caught_schema nofun

theorem caught_requireField {field : String} :
    Caught (requireThat b (invalidField field) >>= f) ↔ (b = true → Caught (f ())) :=
  caught_requireThat

theorem requireNonemptyString_ok {r : Fields} {f : String} :
    (∃ v, requireNonemptyString r f = .ok v) ↔ ∃ c s, r.get? (py f) = some (.str (c :: s)) := by
  unfold requireNonemptyString
  split
  · next c s hget => exact iff_of_true ⟨_, rfl⟩ ⟨c, s, hget⟩
  · next hget =>
    refine iff_of_false (fun h => ?_) fun h => ?_
    · obtain ⟨v, hv⟩ := h
      cases hv
    · obtain ⟨c, s, h⟩ := h
      exact hget c s h

theorem caught_requireNonemptyString {r : Fields} {f : String} :
    Caught (requireNonemptyString r f) := by
  unfold requireNonemptyString
  split
  · exact caught_ok
  · exact caught_schema

theorem caught_requiredMembers {r : Fields} : Caught (requiredMembers r fs) := by
  induction fs with
  | nil => exact caught_ok
  | cons f fs ih =>
    rw [requiredMembers, caught_bind]
    refine ⟨caught_requireNonemptyString, fun v _ => ?_⟩
    rw [caught_bind]
    exact ⟨ih, fun _ _ => caught_ok⟩

theorem requiredMembers_returns {r : Fields} : (∃ ms, requiredMembers r fs = .ok ms)
      ↔ ∀ f ∈ fs, ∃ c s, r.get? (py f) = some (.str (c :: s)) := by
  induction fs with
  | nil => exact iff_of_true ⟨[], rfl⟩ nofun
  | cons f fs ih =>
    rw [List.forall_mem_cons, ← ih, ← requireNonemptyString_ok]
    constructor
    · rintro ⟨ms, h⟩
      obtain ⟨v, hv, h⟩ := of_bind_ok h
      obtain ⟨rest, hrest, -⟩ := of_bind_ok h
      exact ⟨⟨v, hv⟩, rest, hrest⟩
    · rintro ⟨⟨v, hv⟩, rest, hrest⟩
      rw [requiredMembers, hv, bind_ok_eq, hrest]
      exact ⟨_, rfl⟩

theorem caught_optionalMembers {r : Fields} : Caught (optionalMembers r fs) := by
  induction fs with
  | nil => exact caught_ok
  | cons f fs ih =>
    unfold optionalMembers
    split
    · exact caught_bind.mpr ⟨ih, fun _ _ => caught_ok⟩
    · exact caught_bind.mpr ⟨ih, fun _ _ => caught_ok⟩
    · exact caught_schema

theorem optionalMembers_returns {r : Fields} : (∃ ms, optionalMembers r fs = .ok ms)
      ↔ ∀ f ∈ fs, valueOf r f = .null ∨ ∃ s, valueOf r f = .str s := by
  constructor
  · rintro ⟨ms, h⟩
    exact (optionalMembers_ok h).2
  · intro h
    induction fs with
    | nil => exact ⟨[], rfl⟩
    | cons f fs ih =>
      obtain ⟨hvalue, hrest⟩ := List.forall_mem_cons.mp h
      obtain ⟨ms, hms⟩ := ih hrest
      rw [optionalMembers, hms]
      rcases hvalue with hnull | ⟨s, hs⟩
      · rw [hnull]
        exact ⟨_, rfl⟩
      · rw [hs]
        exact ⟨_, rfl⟩

/-- The field whose text is read as JSON. -/
def MirrorKind.jsonField : MirrorKind → String
  | roleResult => "payload_json"
  | verificationVerdict => "details_json"

/-- The words that are looked at before that text are the kind's. -/
def MirrorKind.worded (get : String → Json) : MirrorKind → Bool
  | verificationVerdict =>
    ((["VERIFIED", "VERIFICATION_FAILED", "INCONCLUSIVE", "BLOCKED_EXTERNAL"]).any
      fun v => (get "verdict").isStr (py v)) && (get "verifier").isStr (py "Frost Judge")
  | roleResult => (["GOVERNOR", "BUILDER", "JUDGE", "SRE", "EVOLUTION"]).any
      fun v => (get "role").isStr (py v)

section Projection

variable {readsJson : PyStr → Except PyErr Bool} {k : MirrorKind} {mirrorId : PyStr} {r : Fields}

variable {value : Json} {f : String}

theorem caught_requireJsonString {β : Type}
    {g : Unit → Except MirrorError β} (hg : ∀ u, Caught (g u)) :
    Caught (requireJsonString readsJson value f >>= g)
      ↔ ∀ s, value = .str s → ∃ b, readsJson s = .ok b := by
  rw [caught_bind, and_iff_left fun u _ => hg u]
  unfold requireJsonString
  split
  · next s =>
    cases hreads : readsJson s with
    | ok b =>
      refine iff_of_true ?_ fun s' hs' => ?_
      · cases b with
        | true => exact caught_ok
        | false => exact caught_schema
      · cases hs'
        exact ⟨b, hreads⟩
    | error e =>
      refine iff_of_false (fun h => h e rfl) fun h => ?_
      obtain ⟨b, hb⟩ := h s rfl
      rw [hreads] at hb
      cases hb
  · next hvalue => exact iff_of_true caught_schema fun s hs => absurd hs (hvalue s)

theorem caught_digest : Caught (match value with
      | .str s => requireThat (isSha256 s) (invalidField f)
      | _ => .error (invalidField f)) := by
  split
  · next s =>
    cases isSha256 s with
    | true => exact caught_ok
    | false => exact caught_schema
  · exact caught_schema

theorem caught_kindChecks {get : String → Json} : Caught (kindChecks readsJson get k)
      ↔ (k.worded get = true → ∀ s, get k.jsonField = .str s → ∃ b, readsJson s = .ok b) := by
  cases k with
  | roleResult =>
    rw [kindChecks, caught_requireField]
    exact imp_congr_right fun _ => caught_requireJsonString fun _ => caught_digest
  | verificationVerdict =>
    rw [kindChecks, caught_requireField, caught_requireField, MirrorKind.worded,
      Bool.and_eq_true, and_imp]
    exact imp_congr_right fun _ => imp_congr_right fun _ =>
      caught_requireJsonString fun _ => caught_digest

theorem caught_evidenceCheck : Caught (evidenceCheck value) := by
  unfold evidenceCheck
  split
  · next c s =>
    cases isSha256 (c :: s) with
    | true => exact caught_ok
    | false => exact caught_schema
  · exact caught_ok

structure Filled (k : MirrorKind) (r : Fields) : Prop where
  known : ∀ m ∈ r.members, k.isKnown m.1 = true
  required : ∀ f ∈ k.required, ∃ c s, r.get? (py f) = some (.str (c :: s))
  optional : ∀ f ∈ k.optional, valueOf r f = .null ∨ ∃ s, valueOf r f = .str s

/-- The id of a filled record can be compared, and its JSON text read if it comes to that. -/
def IdCompares (readsJson : PyStr → Except PyErr Bool) (k : MirrorKind) (mirrorId : PyStr)
    (r : Fields) : Prop :=
  ∀ s, valueOf r k.logicalIdField = .str s → Comparable s mirrorId
    ∧ (s = mirrorId → k.worded (valueOf r) = true →
      ∀ t, valueOf r k.jsonField = .str t → ∃ b, readsJson t = .ok b)

theorem caught_project : Caught (project readsJson k mirrorId r)
      ↔ ((∀ f ∈ k.required, ∃ c s, r.get? (py f) = some (.str (c :: s))) →
          (∀ f ∈ k.optional, valueOf r f = .null ∨ ∃ s, valueOf r f = .str s) →
          IdCompares readsJson k mirrorId r) := by
  rw [← requiredMembers_returns, ← optionalMembers_returns]
  by_cases hrequired : ∃ ms, requiredMembers r k.required = .ok ms
  swap
  · exact iff_of_true (caught_bind.mpr ⟨caught_requiredMembers, fun a ha =>
      absurd ⟨a, ha⟩ hrequired⟩) fun h => absurd h hrequired
  by_cases hoptional : ∃ ms, optionalMembers r k.optional = .ok ms
  swap
  · exact iff_of_true (caught_bind.mpr ⟨caught_requiredMembers, fun _ _ => caught_bind.mpr
      ⟨caught_optionalMembers, fun a ha => absurd ⟨a, ha⟩ hoptional⟩⟩) fun _ h =>
        absurd h hoptional
  refine Iff.trans ?_ ⟨fun h _ _ => h, fun h => h hrequired hoptional⟩
  obtain ⟨c, s, hget⟩ := requiredMembers_returns.mp hrequired k.logicalIdField
    (by cases k <;> decide)
  obtain ⟨requireds, hrequireds⟩ := hrequired
  obtain ⟨optionals, hoptionals⟩ := hoptional
  have hlogical : valueOf r k.logicalIdField = .str (c :: s) := by
    rw [valueOf, hget]
    rfl
  unfold project
  rw [hrequireds, bind_ok_eq, hoptionals, bind_ok_eq, hlogical]
  unfold IdCompares
  rw [hlogical]
  by_cases hc : Comparable (c :: s) mirrorId
  · simp only [compareDigest_ascii hc.1 hc.2, Except.mapError, bind_ok_eq]
    rw [caught_requireThat, caught_bind, caught_kindChecks, and_iff_left fun _ _ =>
      caught_bind.mpr ⟨caught_evidenceCheck, fun _ _ => caught_ok⟩]
    constructor
    · intro h s' hs'
      cases hs'
      exact ⟨hc, fun heq => h (decide_eq_true heq)⟩
    · intro h heq
      exact (h _ rfl).2 (of_decide_eq_true heq)
  · simp only [compareDigest_error hc, Except.mapError]
    exact iff_of_false (fun h => h _ rfl) fun h => hc (h _ rfl).1

theorem caught_projection (hkind : MirrorKind.ofName? k.value = some k) :
    Caught (canonicalMirrorProjection readsJson k.value mirrorId r.doc)
      ↔ (mirrorId ≠ [] → Filled k r → IdCompares readsJson k mirrorId r) := by
  unfold canonicalMirrorProjection
  simp only [hkind, Fields.fields?_doc]
  by_cases hid : mirrorId = []
  · rw [if_pos hid]
    exact iff_of_true caught_schema fun h => absurd hid h
  rw [if_neg hid]
  split
  · next m hunknown =>
    refine iff_of_true caught_schema fun _ hfilled => ?_
    have hfound := List.find?_some hunknown
    rw [hfilled.known m (List.mem_of_find?_eq_some hunknown)] at hfound
    cases hfound
  · next f hunknown hmissing =>
    refine iff_of_true caught_schema fun _ hfilled => ?_
    have hfound := List.find?_some hmissing
    obtain ⟨c, s, hget⟩ := hfilled.required f (List.mem_of_find?_eq_some hmissing)
    rw [hget] at hfound
    cases hfound
  · next hunknown hmissing =>
    rw [caught_project]
    constructor
    · intro h _ hfilled
      exact h hfilled.required hfilled.optional
    · intro h hrequired hoptional
      refine h hid ⟨fun m hm => ?_, hrequired, hoptional⟩
      have hnot := List.find?_eq_none.mp hunknown m hm
      simpa using hnot

end Projection

-- == result

/-- What is compared once the record is projected and its event found. -/
def EventCompares (H : Host) (rows : List EventRow) (k : MirrorKind) (r : Fields)
    (mirrorId scope eventId eventHash : PyStr) : Prop :=
  ∀ event, Records H rows eventId event → Comparable event.eventHash.str eventHash
    ∧ (event.eventHash.str = eventHash → event.type.str = py "DECISION_RECORDED" →
      AuthorityCompares H event k r mirrorId scope)

section Verify

variable {H : Host} {readsJson : PyStr → Except PyErr Bool} {rows : List EventRow}

theorem returns_verifyEvent (hvalid : verifyChain H rows = .ok true) {k : MirrorKind}
    {r : Fields} {mirrorId scope eventId eventHash : PyStr} (hproj : Projects k mirrorId r)
    (hscoped : scope ≠ []) :
    Returns (verifyEvent H rows k.value mirrorId scope eventId eventHash (projected k r))
      ↔ EventCompares H rows k r mirrorId scope eventId eventHash := by
  obtain ⟨es, hes, -⟩ := verifyChain_eq_true.mp hvalid
  unfold verifyEvent
  simp only [hvalid, Except.mapError, bind_ok_eq, if_true, hes]
  split
  · next hfind =>
    refine iff_of_true returns_refuse fun event hrecords => ?_
    obtain ⟨es', hes', hfound⟩ := hrecords.found
    rw [hes] at hes'
    cases hes'
    rw [hfind] at hfound
    cases hfound
  · next event hfind =>
    have hrecords : Records H rows eventId event := ⟨hvalid, es, hes, hfind⟩
    have honly : ∀ event', Records H rows eventId event' → event' = event := by
      intro event' h
      obtain ⟨es', hes', hfound⟩ := h.found
      rw [hes] at hes'
      cases hes'
      rw [hfind] at hfound
      exact (Option.some.inj hfound).symm
    by_cases hc : Comparable event.eventHash.str eventHash
    · simp only [compareDigest_ascii hc.1 hc.2, bind_ok_eq]
      by_cases hhash : event.eventHash.str = eventHash
      · rw [decide_eq_true hhash, if_pos rfl]
        by_cases htype : event.type.str = py "DECISION_RECORDED"
        · rw [if_neg (not_not_intro htype), returns_verifyAuthority hproj hscoped]
          constructor
          · intro h event' hrecords'
            rw [honly event' hrecords']
            exact ⟨hc, fun _ _ => h⟩
          · intro h
            exact (h event hrecords).2 hhash htype
        · rw [if_pos htype]
          refine iff_of_true returns_refuse fun event' hrecords' => ?_
          rw [honly event' hrecords']
          exact ⟨hc, fun _ h => absurd h htype⟩
      · rw [decide_eq_false hhash]
        refine iff_of_true returns_refuse fun event' hrecords' => ?_
        rw [honly event' hrecords']
        exact ⟨hc, fun h => absurd h hhash⟩
    · simp only [compareDigest_error hc]
      exact iff_of_false not_returns_error fun h => hc (h event hrecords).1

end Verify

section Result

variable (H : Host) (readsJson : PyStr → Except PyErr Bool) (rows : List EventRow)
  (mirrorKind mirrorId : PyStr) (r : Fields) (eventId eventHash scope : PyStr)

/-- The event referred to was recorded for this row, with the grant and the binding that are
made of it. -/
def Committed : Prop :=
  ∃ event grant binding, Records H rows eventId event ∧ eventId ≠ []
    ∧ eventHash = event.eventHash.str
    ∧ canonicalAuthorityGrant mirrorKind mirrorId scope = .ok grant
    ∧ canonicalMirrorBinding H readsJson mirrorKind mirrorId r.doc scope = .ok binding
    ∧ Authorizes event grant binding

/-- The verifier fails closed: it comes back, and accepts what was committed. -/
structure FailsClosed : Prop where
  returns : Returns (verifyMirrorEvidence H readsJson rows mirrorKind mirrorId r.doc eventId
    eventHash scope)
  accepts : Committed H readsJson rows mirrorKind mirrorId r eventId eventHash scope →
    Accepts (verifyMirrorEvidence H readsJson rows mirrorKind mirrorId r.doc eventId eventHash
      scope)

/-- Whatever is compared, hashed or read on the way can be. -/
def Compares : Prop :=
  ∀ k, MirrorKind.ofName? mirrorKind = some k → eventId ≠ [] → eventHash ≠ [] → scope ≠ [] →
    (mirrorId ≠ [] → Filled k r → IdCompares readsJson k mirrorId r)
    ∧ ((canonicalMirrorProjection readsJson mirrorKind mirrorId r.doc).isOk = true →
      EventCompares H rows k r mirrorId scope eventId eventHash)

variable {H readsJson rows mirrorKind mirrorId r eventId eventHash scope}

theorem returns_verifyMirrorEvidence (hvalid : verifyChain H rows = .ok true) :
    Returns (verifyMirrorEvidence H readsJson rows mirrorKind mirrorId r.doc eventId eventHash
        scope)
      ↔ Compares H readsJson rows mirrorKind mirrorId r eventId eventHash scope := by
  unfold verifyMirrorEvidence
  cases hkind : MirrorKind.ofName? mirrorKind with
  | none =>
    refine iff_of_true returns_refuse fun k hk => ?_
    rw [hkind] at hk
    cases hk
  | some k =>
  cases ofName?_value hkind
  rw [if_neg (by simp)]
  by_cases hmissing : eventId = [] ∨ eventHash = [] ∨ scope = []
  · rw [if_pos hmissing]
    refine iff_of_true returns_refuse fun _ _ hevent hhash hscope => ?_
    rcases hmissing with h | h | h
    · exact absurd h hevent
    · exact absurd h hhash
    · exact absurd h hscope
  rw [if_neg hmissing]
  have hscoped : scope ≠ [] := fun h => hmissing (Or.inr (Or.inr h))
  have hcompares : Compares H readsJson rows k.value mirrorId r eventId eventHash scope
      ↔ Caught (canonicalMirrorProjection readsJson k.value mirrorId r.doc)
        ∧ ((canonicalMirrorProjection readsJson k.value mirrorId r.doc).isOk = true →
          EventCompares H rows k r mirrorId scope eventId eventHash) := by
    rw [caught_projection hkind]
    constructor
    · intro h
      exact h k hkind (fun h => hmissing (Or.inl h)) (fun h => hmissing (Or.inr (Or.inl h))) hscoped
    · intro h k' hk' _ _ _
      rw [hkind] at hk'
      cases hk'
      exact h
  rw [hcompares]
  cases hp : canonicalMirrorProjection readsJson k.value mirrorId r.doc with
  | error e =>
    cases e with
    | schema reason => exact iff_of_true ⟨_, rfl⟩ ⟨caught_schema, nofun⟩
    | py e => exact iff_of_false not_returns_error fun h => h.1 e rfl
  | ok p =>
    obtain ⟨k', r', hk', hr', rfl, hproj⟩ := projection_ok hp
    rw [hkind] at hk'
    rw [Fields.fields?_doc] at hr'
    cases hk'
    cases hr'
    simp only [returns_verifyEvent hvalid hproj hscoped]
    exact ⟨fun h => ⟨caught_ok, fun _ => h⟩, fun h => h.2 rfl⟩

theorem committed_accepts (hhex : Hexadecimal H)
    (hcommitted : Committed H readsJson rows mirrorKind mirrorId r eventId eventHash scope)
    (h : Returns (verifyMirrorEvidence H readsJson rows mirrorKind mirrorId r.doc eventId
      eventHash scope)) :
    Accepts (verifyMirrorEvidence H readsJson rows mirrorKind mirrorId r.doc eventId eventHash
      scope) := by
  obtain ⟨event, grant, binding, hrecords, heventId, rfl, hgrant, hbinding, hevent⟩ := hcommitted
  unfold canonicalMirrorBinding at hbinding
  split at hbinding
  · cases hbinding
  · next hscoped =>
    obtain ⟨p, hp, hbinding⟩ := of_bind_ok hbinding
    obtain ⟨k, r', hkind, hr', rfl, hproj⟩ := projection_ok hp
    rw [Fields.fields?_doc] at hr'
    cases hr'
    cases ofName?_value hkind
    rw [canonicalAuthorityGrant_eq hproj.named hscoped] at hgrant
    cases hgrant
    obtain ⟨t, ht⟩ := hrecords.hashed
    have hhash : event.eventHash.str ≠ [] := ht ▸ (hhex t).2
    unfold verifyMirrorEvidence at h ⊢
    rw [hkind, if_neg (by simp), if_neg (by simp [heventId, hhash, hscoped]), hp] at h ⊢
    simp only [verifyEvent_eq hhex hrecords hevent.type] at h ⊢
    exact authorized_accepts hproj hscoped hevent hbinding h

/-- Over a valid store the verifier fails closed just if all that it compares, hashes and reads
on its way can be. -/
theorem failsClosed_iff (hhex : Hexadecimal H) (hvalid : verifyChain H rows = .ok true) :
    FailsClosed H readsJson rows mirrorKind mirrorId r eventId eventHash scope
      ↔ Compares H readsJson rows mirrorKind mirrorId r eventId eventHash scope := by
  rw [← returns_verifyMirrorEvidence hvalid]
  exact ⟨fun h => h.returns, fun h => ⟨h, fun hcommitted => committed_accepts hhex hcommitted h⟩⟩

end Result

theorem Sample.filled : Filled .roleResult Sample.record where
  known := by decide +kernel
  required := requiredMembers_returns.mp (exists_ok (by decide +kernel))
  optional := optionalMembers_returns.mp (exists_ok (by decide +kernel))

theorem failsClosed_sample :
    FailsClosed Sample.host (fun _ => .ok true) [Sample.row] Sample.kind Sample.resultId
        Sample.record (py "e-1") Sample.event.eventHash.str Sample.scope
      ↔ Compares Sample.host (fun _ => .ok true) [Sample.row] Sample.kind Sample.resultId
        Sample.record (py "e-1") Sample.event.eventHash.str Sample.scope :=
  failsClosed_iff Sample.hexadecimal Sample.records.verifies

/-- An id of one letter that is not ASCII raises a `TypeError`. -/
theorem raises_accented : ¬ ∀ (H : Host) (readsJson : PyStr → Except PyErr Bool)
    (rows : List EventRow), Hexadecimal H → verifyChain H rows = .ok true →
      ∀ mirrorKind mirrorId r eventId eventHash scope,
        FailsClosed H readsJson rows mirrorKind mirrorId r eventId eventHash scope := by
  intro h
  have hcompares := (returns_verifyMirrorEvidence Sample.records.verifies).mp (h Sample.host
    (fun _ => .ok true) [Sample.row] Sample.hexadecimal Sample.records.verifies Sample.kind [233]
    Sample.record (py "e-1") Sample.event.eventHash.str Sample.scope).returns
  obtain ⟨hcomparable, -⟩ := (hcompares .roleResult rfl (by decide) (Sample.hexadecimal _).2
    (by decide)).1 (by decide) Sample.filled Sample.resultId rfl
  exact absurd (hcomparable.2 233 (List.mem_cons_self ..)) (by decide)

end Centinal26.Evidence
