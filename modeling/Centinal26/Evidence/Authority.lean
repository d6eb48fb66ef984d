/-
What the verifier accepts.
-/
import Centinal26.Events.Chain
import Centinal26.Evidence.Mirror

namespace Centinal26.Evidence

open Py Events

-- == lookups

theorem getItem?_of_mem {α β : Type} [DecidableEq α] {d : List (α × β)}
    (h : (d.map Prod.fst).Nodup) {k : α} {v : β} (hm : (k, v) ∈ d) : getItem? d k = some v := by
  induction d with
  | nil => cases hm
  | cons n rest ih =>
    obtain ⟨hn, hrest⟩ := List.nodup_cons.mp h
    unfold getItem?
    rcases List.mem_cons.mp hm with heq | hm
    · cases heq
      simp
    · have hne : n.1 ≠ k := by
        intro heq
        apply hn
        rw [heq]
        exact List.mem_map_of_mem hm
      have hmore := ih hrest hm
      unfold getItem? at hmore
      simp [hne, hmore]

variable {k : MirrorKind} {ms p : Members} {r : Fields} {fs : List String}
  {readsJson : PyStr → Except PyErr Bool} {mirrorId : PyStr}

theorem field_of_mem (h : (ms.map Prod.fst).Nodup) {f : String} {v : Json}
    (hm : (py f, v) ∈ ms) : field (sortByName ms) f = v := by
  rw [field, getItem?_of_mem (ordered_sortByName h).nodup (mem_sortByName.mpr hm)]
  rfl

-- == projections

def projectedMembers (k : MirrorKind) (r : Fields) : Members :=
  (py "schema", .str k.schema) :: (py "mirror_kind", .str k.value)
    :: k.authority.map fun f => (py f, valueOf r f)

def projected (k : MirrorKind) (r : Fields) : Members := sortByName (projectedMembers k r)

/-- What holds of a record that is projected. -/
structure Projects (k : MirrorKind) (mirrorId : PyStr) (r : Fields) : Prop where
  named : mirrorId ≠ []
  texts : ∀ f ∈ k.authority, valueOf r f = .null ∨ ∃ s, valueOf r f = .str s
  logical : valueOf r k.logicalIdField = .str mirrorId

theorem requiredMembers_ok (h : requiredMembers r fs = .ok ms) :
    ms = fs.map (fun f => (py f, valueOf r f)) ∧ ∀ f ∈ fs, ∃ s, valueOf r f = .str s := by
  induction fs generalizing ms with
  | nil =>
    cases h
    exact ⟨rfl, nofun⟩
  | cons f fs ih =>
    obtain ⟨v, hv, h⟩ := of_bind_ok h
    obtain ⟨rest, hrest, h⟩ := of_bind_ok h
    cases h
    obtain ⟨rfl, htexts⟩ := ih hrest
    have hvalue : valueOf r f = v ∧ ∃ s, v = .str s := by
      unfold requireNonemptyString at hv
      split at hv
      · next c s hget =>
        cases hv
        exact ⟨by rw [valueOf, hget]; rfl, _, rfl⟩
      · cases hv
    obtain ⟨rfl, hs⟩ := hvalue
    refine ⟨rfl, fun g hg => ?_⟩
    rcases List.mem_cons.mp hg with rfl | hg
    · exact hs
    · exact htexts g hg

theorem optionalMembers_ok
    (h : optionalMembers r fs = .ok ms) : ms = fs.map (fun f => (py f, valueOf r f))
      ∧ ∀ f ∈ fs, valueOf r f = .null ∨ ∃ s, valueOf r f = .str s := by
  induction fs generalizing ms with
  | nil =>
    cases h
    exact ⟨rfl, nofun⟩
  | cons f fs ih =>
    unfold optionalMembers at h
    split at h
    · next hv =>
      obtain ⟨rest, hrest, h⟩ := of_bind_ok h
      cases h
      obtain ⟨rfl, htexts⟩ := ih hrest
      refine ⟨by rw [List.map_cons, hv], fun g hg => ?_⟩
      rcases List.mem_cons.mp hg with rfl | hg
      · exact Or.inl hv
      · exact htexts g hg
    · next s hv =>
      obtain ⟨rest, hrest, h⟩ := of_bind_ok h
      cases h
      obtain ⟨rfl, htexts⟩ := ih hrest
      refine ⟨by rw [List.map_cons, hv], fun g hg => ?_⟩
      rcases List.mem_cons.mp hg with rfl | hg
      · exact Or.inr ⟨s, hv⟩
      · exact htexts g hg
    · cases h

theorem compareDigest_true {a b : PyStr} (h : compareDigest a b = .ok true) : a = b := by
  unfold compareDigest at h
  split at h
  · exact of_decide_eq_true (Except.ok.inj h)
  · cases h

theorem requireThat_ok {b : Bool} {e : MirrorError} {u : Unit} (h : requireThat b e = .ok u) :
    b = true := by
  unfold requireThat at h
  split at h
  · next hb => exact hb
  · cases h

theorem project_ok (hid : mirrorId ≠ []) (h : project readsJson k mirrorId r = .ok p) :
    p = projected k r ∧ Projects k mirrorId r := by
  unfold project at h
  obtain ⟨requireds, hrequired, h⟩ := of_bind_ok h
  obtain ⟨optionals, hoptional, h⟩ := of_bind_ok h
  obtain ⟨rfl, htexts⟩ := requiredMembers_ok hrequired
  obtain ⟨rfl, htexts'⟩ := optionalMembers_ok hoptional
  cases hlogical : valueOf r k.logicalIdField with
  | str logicalId =>
    rw [hlogical] at h
    obtain ⟨same, hsame, h⟩ := of_bind_ok h
    obtain ⟨_, hrequire, h⟩ := of_bind_ok h
    obtain ⟨_, -, h⟩ := of_bind_ok h
    obtain ⟨_, -, h⟩ := of_bind_ok h
    cases h
    rw [requireThat_ok hrequire] at hsame
    have heq := compareDigest_true (of_mapError_ok hsame)
    refine ⟨?_, hid, fun f hf => ?_, by rw [hlogical, heq]⟩
    · rw [projected, projectedMembers, MirrorKind.authority, List.map_append]
    · rcases List.mem_append.mp hf with hf | hf
      · exact Or.inr (htexts f hf)
      · exact htexts' f hf
  | _ => rw [hlogical] at h; cases h

theorem ofName?_value {name : PyStr} (h : MirrorKind.ofName? name = some k) : name = k.value := by
  unfold MirrorKind.ofName? at h
  have hfound := List.find?_some h
  exact (of_decide_eq_true hfound).symm

theorem projection_ok {mirrorKind : PyStr}
    {doc : Doc} (h : canonicalMirrorProjection readsJson mirrorKind mirrorId doc = .ok p) :
    ∃ k r, MirrorKind.ofName? mirrorKind = some k ∧ doc.fields? = some r
      ∧ p = projected k r ∧ Projects k mirrorId r := by
  unfold canonicalMirrorProjection at h
  cases hkind : MirrorKind.ofName? mirrorKind with
  | none => rw [hkind] at h; cases h
  | some k =>
  cases hrecord : doc.fields? with
  | none => rw [hkind, hrecord] at h; cases h
  | some r =>
  simp only [hkind, hrecord] at h
  split at h
  · cases h
  · next hid =>
    split at h
    · cases h
    · cases h
    · exact ⟨k, r, rfl, rfl, project_ok hid h⟩

-- == values

section Values

variable (k : MirrorKind) (r : Fields)

theorem nodup_projected : ((projectedMembers k r).map Prod.fst).Nodup := by
  have hnames : (projectedMembers k r).map Prod.fst
      = py "schema" :: py "mirror_kind" :: k.authority.map py := by
    rw [projectedMembers, List.map_cons, List.map_cons, List.map_map]
    rfl
  rw [hnames]
  cases k with
  | roleResult => decide
  | verificationVerdict => decide

theorem field_schema : field (projected k r) "schema" = .str k.schema :=
  field_of_mem (nodup_projected k r) (List.mem_cons_self ..)

theorem field_mirrorKind : field (projected k r) "mirror_kind" = .str k.value :=
  field_of_mem (nodup_projected k r) (List.mem_cons_of_mem _ (List.mem_cons_self ..))

theorem field_authority {f : String} (hf : f ∈ k.authority) :
    field (projected k r) f = valueOf r f :=
  field_of_mem (nodup_projected k r) (List.mem_cons_of_mem _ (List.mem_cons_of_mem _
    (List.mem_map_of_mem hf)))

end Values

theorem value_injective {k k' : MirrorKind} (h : k.value = k'.value) : k = k' := by
  revert h
  cases k <;> cases k' <;> decide

theorem projected_inj {k k' : MirrorKind} {r r' : Fields} (h : projected k' r' = projected k r) :
    k' = k ∧ ∀ f ∈ k.authority, valueOf r' f = valueOf r f := by
  have hkind : k' = k := by
    have hfield := field_mirrorKind k' r'
    rw [h, field_mirrorKind k r] at hfield
    exact (value_injective (Json.str.inj hfield)).symm
  subst hkind
  refine ⟨rfl, fun f hf => ?_⟩
  rw [← field_authority k' r' hf, h, field_authority k' r hf]

end Centinal26.Evidence

namespace Centinal26.Evidence

open Py Events

-- == comparisons

def Accepts (out : Except MirrorError Verification) : Prop := ∃ v, out = .ok v ∧ v.ok = true

theorem accepts_ok {v : Verification} : Accepts (.ok v) ↔ v.ok = true := by
  constructor
  · rintro ⟨w, hw, hok⟩
    cases hw
    exact hok
  · intro h
    exact ⟨v, rfl, h⟩

theorem not_accepts_error {e : MirrorError} : ¬ Accepts (.error e) := by
  rintro ⟨v, hv, -⟩
  cases hv

theorem not_accepts_refuse {reason : String} : ¬ Accepts (refuse reason) := by
  rintro ⟨v, hv, hok⟩
  cases hv
  cases hok

theorem compareDigest_ascii {a b : PyStr} (ha : Ascii a) (hb : Ascii b) :
    compareDigest a b = .ok (decide (a = b)) := by
  have hall : ∀ {s : PyStr}, Ascii s → s.all (fun c => decide (c < 128)) = true := by
    intro s hs
    rw [List.all_eq_true]
    exact fun c hc => decide_eq_true (hs c hc)
  rw [compareDigest, hall ha, hall hb]
  rfl

/-- Every string of the dictionary is ASCII. -/
def Strings.AllAscii (d : Strings) : Prop := ∀ p ∈ d, Ascii p.2

variable {b expected stored : Strings} {mirrorId scope mirrorId' scope' eventId : PyStr}
  {k' : MirrorKind} {p : Members} {event : Event} {rows : List EventRow}

theorem mismatch_iff {actual : Members}
    (hnames : expected.map Prod.fst = stored.map Prod.fst) (ha : expected.AllAscii)
    (hs : stored.AllAscii) (hstored : ∀ p ∈ stored, field actual p.1 = .str p.2) :
    ∃ o, mismatch actual expected = .ok o ∧ (o = none ↔ expected = stored) := by
  induction expected generalizing stored with
  | nil =>
    cases stored with
    | nil => exact ⟨none, rfl, iff_of_true rfl rfl⟩
    | cons q stored => cases hnames
  | cons p expected ih =>
    cases stored with
    | nil => cases hnames
    | cons q stored =>
    obtain ⟨f, v⟩ := p
    obtain ⟨g, w⟩ := q
    obtain ⟨hname, hrest⟩ := List.cons.inj hnames
    change f = g at hname
    subst hname
    have hfield : field actual f = .str w := hstored (f, w) (List.mem_cons_self ..)
    have hdigest := compareDigest_ascii (hs (f, w) (List.mem_cons_self ..))
      (ha (f, v) (List.mem_cons_self ..))
    rw [mismatch, hfield]
    simp only [hdigest, bind_ok_eq]
    by_cases heq : w = v
    · subst heq
      obtain ⟨o, ho, hiff⟩ := ih hrest (fun p hp => ha p (List.mem_cons_of_mem _ hp))
        (fun p hp => hs p (List.mem_cons_of_mem _ hp))
        fun p hp => hstored p (List.mem_cons_of_mem _ hp)
      refine ⟨o, ?_, ?_⟩
      · rw [decide_eq_true rfl, if_pos rfl]
        exact ho
      · rw [hiff]
        exact ⟨fun h => by rw [h], fun h => (List.cons.inj h).2⟩
    · refine ⟨some f, ?_, iff_of_false (nofun) fun h => ?_⟩
      · rw [decide_eq_false heq]
        rfl
      · cases h
        exact heq rfl

theorem field_document {d : Strings} (h : ((d.map Prod.fst).map py).Nodup) :
    ∀ p ∈ d, field d.document p.1 = .str p.2 := by
  intro p hp
  refine field_of_mem ?_ (List.mem_map_of_mem hp)
  rw [List.map_map] at h ⊢
  exact h

theorem sameNames_document (hnames : expected.map Prod.fst = stored.map Prod.fst) :
    sameNames stored.document expected = true := by
  have hmem : ∀ f, (∃ p ∈ expected, p.1 = f) ↔ ∃ p ∈ stored, p.1 = f := by
    intro f
    rw [← List.mem_map, ← List.mem_map, hnames]
  rw [sameNames, Bool.and_eq_true, List.all_eq_true, List.all_eq_true]
  constructor
  · intro m hm
    obtain ⟨q, hq, rfl⟩ := List.mem_map.mp (mem_sortByName.mp hm)
    obtain ⟨p, hp, hpq⟩ := (hmem q.1).mpr ⟨q, hq, rfl⟩
    exact List.any_eq_true.mpr ⟨p, hp, decide_eq_true (by rw [hpq])⟩
  · intro p hp
    obtain ⟨q, hq, hqp⟩ := (hmem p.1).mp ⟨p, hp, rfl⟩
    refine List.any_eq_true.mpr ⟨(py q.1, .str q.2), mem_sortByName.mpr
      (List.mem_map_of_mem hq), decide_eq_true ?_⟩
    rw [← hqp]

theorem accepts_compareTo {schemaReason reason : String}
    {next : Except MirrorError Verification} (hnames : expected.map Prod.fst = stored.map Prod.fst)
    (hnodup : ((stored.map Prod.fst).map py).Nodup) (ha : expected.AllAscii)
    (hs : stored.AllAscii) : Accepts (compareTo stored.document expected schemaReason reason next)
      ↔ expected = stored ∧ Accepts next := by
  obtain ⟨o, ho, hiff⟩ := mismatch_iff hnames ha hs (field_document hnodup)
  unfold compareTo
  rw [if_pos (sameNames_document hnames), ho]
  cases o with
  | none =>
    show Accepts next ↔ _
    exact ⟨fun h => ⟨hiff.mp rfl, h⟩, fun h => h.2⟩
  | some f =>
    refine iff_of_false not_accepts_refuse fun h => ?_
    cases hiff.mpr h.1

-- == the parts

theorem ascii_value (k : MirrorKind) : Ascii k.value := by
  cases k <;> exact ascii_py_of rfl

theorem ascii_schema (k : MirrorKind) : Ascii k.schema := by
  cases k <;> exact ascii_py_of rfl

theorem ofName?_of_value (k : MirrorKind) : MirrorKind.ofName? k.value = some k := by
  cases k <;> rfl

def grantOf (k : MirrorKind) (mirrorId scope : PyStr) : Strings :=
  [("schema", py "centinal26-mirror-authority-grant-v1"), ("outcome", py "ALLOW"),
    ("mirror_schema", k.schema), ("mirror_kind", k.value), ("mirror_id", mirrorId),
    ("authority_scope", scope)]

theorem canonicalAuthorityGrant_eq {k : MirrorKind} (hid : mirrorId ≠ []) (hscope : scope ≠ []) :
    canonicalAuthorityGrant k.value mirrorId scope = .ok (grantOf k mirrorId scope) := by
  unfold canonicalAuthorityGrant
  rw [ofName?_of_value]
  simp only [if_neg hid, if_neg hscope]
  rfl

theorem grantOf_inj {k : MirrorKind} : grantOf k' mirrorId' scope' = grantOf k mirrorId scope
      ↔ k' = k ∧ mirrorId' = mirrorId ∧ scope' = scope := by
  constructor
  · intro h
    simp only [grantOf, List.cons.injEq, Prod.mk.injEq, true_and, and_true] at h
    exact ⟨value_injective h.2.1, h.2.2⟩
  · rintro ⟨rfl, rfl, rfl⟩
    rfl

theorem grantOf_ascii {k : MirrorKind} (hid : Ascii mirrorId)
    (hscope : Ascii scope) : (grantOf k mirrorId scope).AllAscii := by
  intro p hp
  simp only [grantOf, List.mem_cons, List.not_mem_nil, or_false] at hp
  rcases hp with rfl | rfl | rfl | rfl | rfl | rfl
  · exact ascii_py_of rfl
  · exact ascii_py_of rfl
  · exact ascii_schema k
  · exact ascii_value k
  · exact hid
  · exact hscope

def AsciiIds (p : Members) : Prop :=
  Ascii (stringOf p "contract_id") ∧ Ascii (stringOf p "result_id")

variable {H : Host} {readsJson : PyStr → Except PyErr Bool}

/-- Digests are written in ASCII, and none is empty. -/
def Hexadecimal (H : Host) : Prop := ∀ t, Ascii (H.sha256 t).str ∧ (H.sha256 t).str ≠ []

/-- The texts of two projections do not collide. -/
def NoCollision (H : Host) (p p' : Members) : Prop :=
  ∀ t t', canonicalJson (.obj p) = .ok t → canonicalJson (.obj p') = .ok t' →
    H.sha256 t' = H.sha256 t → t' = t

theorem projectionHash_inj {p' : Members} {h : PyStr} (hcollision : NoCollision H p p')
    (hp : projectionHash H p = .ok h) (hp' : projectionHash H p' = .ok h) : p' = p := by
  obtain ⟨t, ht, hsha⟩ := of_map_ok hp
  obtain ⟨t', ht', hsha'⟩ := of_map_ok hp'
  have htext := of_mapError_ok ht
  have htext' := of_mapError_ok ht'
  have hsame := hcollision t t' htext htext' (Text.ext (hsha'.trans hsha.symm))
  rw [hsame] at htext'
  exact Json.obj.inj (canonicalJson_injective htext' htext)

theorem projectionHash_ascii (hhex : Hexadecimal H) {h : PyStr}
    (hh : projectionHash H p = .ok h) : Ascii h := by
  obtain ⟨t, -, rfl⟩ := of_map_ok hh
  exact (hhex t).1

theorem bindingOf_ascii (hhex : Hexadecimal H) {k : MirrorKind} {r : Fields}
    (hid : Ascii mirrorId) (hscope : Ascii scope)
    (hids : AsciiIds (projected k r))
    (hb : bindingOf H k.value mirrorId scope (projected k r) = .ok b) : b.AllAscii := by
  obtain ⟨h, hh, hb⟩ := of_bind_ok hb
  cases hb
  have hschema : stringOf (projected k r) "schema" = k.schema := by
    rw [stringOf, field_schema]
  intro p hp
  simp only [List.mem_cons, List.not_mem_nil, or_false] at hp
  rcases hp with rfl | rfl | rfl | rfl | rfl | rfl | rfl
  · rw [hschema]
    exact ascii_schema k
  · exact ascii_value k
  · exact hid
  · exact hids.1
  · exact hids.2
  · exact projectionHash_ascii hhex hh
  · exact hscope

theorem bindingOf_inj {k : MirrorKind} {r r' : Fields}
    {b' : Strings} (hcollision : NoCollision H (projected k r) (projected k' r'))
    (hb : bindingOf H k.value mirrorId scope (projected k r) = .ok b)
    (hb' : bindingOf H k'.value mirrorId scope (projected k' r') = .ok b') :
    b' = b ↔ projected k' r' = projected k r := by
  constructor
  · intro heq
    obtain ⟨h, hh, hb⟩ := of_bind_ok hb
    obtain ⟨h', hh', hb'⟩ := of_bind_ok hb'
    cases hb
    cases hb'
    simp only [List.cons.injEq, Prod.mk.injEq, true_and, and_true] at heq
    rw [heq.2.2.2.2] at hh'
    exact projectionHash_inj hcollision hh hh'
  · intro heq
    obtain ⟨rfl, -⟩ := projected_inj heq
    rw [heq, hb] at hb'
    exact (Except.ok.inj hb').symm

theorem bindingOf_names {k : MirrorKind} (hb : bindingOf H k.value mirrorId scope p = .ok b) :
    b.map Prod.fst = ["schema", "mirror_kind", "mirror_id", "contract_id", "result_id",
      "mirror_sha256", "authority_scope"] := by
  obtain ⟨h, -, hb⟩ := of_bind_ok hb
  cases hb
  rfl

-- == events

/-- The event says that this grant was given and this binding made. -/
structure Authorizes (event : Event) (grant binding : Strings) : Prop where
  type : event.type.str = py "DECISION_RECORDED"
  decision : allows (event.payload.get? (py "decision")) = true
  grant : event.payload.get? (py "authority_grant") = some (.obj grant.document)
  binding : event.payload.get? (py "mirror_binding") = some (.obj binding.document)

theorem accepts_verifyAuthority (hhex : Hexadecimal H) {k : MirrorKind} {r r' : Fields}
    (hevent : Authorizes event (grantOf k mirrorId scope) b)
    (hb : bindingOf H k.value mirrorId scope (projected k r) = .ok b)
    (hid : Ascii mirrorId) (hid' : Ascii mirrorId') (hscope : Ascii scope)
    (hscope' : Ascii scope') (hids : AsciiIds (projected k r))
    (hids' : AsciiIds (projected k' r')) (hnamed : mirrorId' ≠ []) (hscoped : scope' ≠ [])
    (hcollision : NoCollision H (projected k r) (projected k' r')) :
    Accepts (verifyAuthority H event k'.value mirrorId' scope' (projected k' r'))
      ↔ k' = k ∧ mirrorId' = mirrorId ∧ scope' = scope ∧ projected k' r' = projected k r := by
  unfold verifyAuthority
  rw [if_pos hevent.decision, hevent.grant]
  simp only [canonicalAuthorityGrant_eq hnamed hscoped, bind_ok_eq]
  rw [accepts_compareTo (by rfl) (by simp only [grantOf, List.map_cons, List.map_nil]; decide)
    (grantOf_ascii hid' hscope') (grantOf_ascii hid hscope), grantOf_inj, hevent.binding]
  constructor
  · rintro ⟨⟨rfl, rfl, rfl⟩, haccepts⟩
    refine ⟨rfl, rfl, rfl, ?_⟩
    simp only at haccepts
    cases hb' : bindingOf H k'.value mirrorId' scope' (projected k' r') with
    | error e =>
      rw [hb'] at haccepts
      exact absurd haccepts not_accepts_error
    | ok b' =>
      rw [hb', bind_ok_eq, accepts_compareTo ((bindingOf_names hb').trans (bindingOf_names hb).symm)
        (by rw [bindingOf_names hb]; decide) (bindingOf_ascii hhex hid' hscope' hids' hb')
        (bindingOf_ascii hhex hid hscope hids hb)] at haccepts
      exact (bindingOf_inj hcollision hb hb').mp haccepts.1
  · rintro ⟨rfl, rfl, rfl, heq⟩
    refine ⟨⟨rfl, rfl, rfl⟩, ?_⟩
    simp only
    rw [heq, hb, bind_ok_eq, accepts_compareTo rfl (by rw [bindingOf_names hb]; decide)
      (bindingOf_ascii hhex hid hscope hids hb) (bindingOf_ascii hhex hid hscope hids hb)]
    exact ⟨rfl, accepts_ok.mpr rfl⟩

/-- The event a store has under an id, where the store verifies. -/
structure Records (H : Host) (rows : List EventRow) (eventId : PyStr) (event : Event) : Prop where
  verifies : verifyChain H rows = .ok true
  found : ∃ es, events rows = .ok es
    ∧ es.find? (fun e => decide (e.eventId.str = eventId)) = some event

theorem Records.hashed (h : Records H rows eventId event) : ∃ t, H.sha256 t = event.eventHash := by
  obtain ⟨es, hes, hfound⟩ := h.found
  obtain ⟨es', hes', -, hsound⟩ := verifyChain_eq_true.mp h.verifies
  rw [hes] at hes'
  cases hes'
  obtain ⟨-, t, -, ht⟩ := hsound event (List.mem_of_find?_eq_some hfound)
  exact ⟨t, ht⟩

theorem verifyEvent_eq (hhex : Hexadecimal H) (h : Records H rows eventId event)
    (htype : event.type.str = py "DECISION_RECORDED") (mirrorKind mirrorId scope : PyStr)
    (projection : Members) :
    verifyEvent H rows mirrorKind mirrorId scope eventId event.eventHash.str projection
      = verifyAuthority H event mirrorKind mirrorId scope projection := by
  obtain ⟨es, hes, hfound⟩ := h.found
  obtain ⟨t, ht⟩ := h.hashed
  have hascii : Ascii event.eventHash.str := ht ▸ (hhex t).1
  unfold verifyEvent
  simp only [h.verifies, Except.mapError, bind_ok_eq, if_true, hes, hfound,
    compareDigest_ascii hascii hascii, decide_true, htype, ne_eq, not_true_eq_false, if_false]

theorem accepts_iff (hhex : Hexadecimal H)
    (hrecords : Records H rows eventId event) (heventId : eventId ≠ [])
    {mirrorKind : PyStr} {record : Doc} {grant binding : Strings}
    (hgrant : canonicalAuthorityGrant mirrorKind mirrorId scope = .ok grant)
    (hbinding : canonicalMirrorBinding H readsJson mirrorKind mirrorId record scope = .ok binding)
    (hp : canonicalMirrorProjection readsJson mirrorKind mirrorId record = .ok p)
    (hevent : Authorizes event grant binding)
    {mirrorKind' : PyStr} {record' : Doc} {p' : Members}
    (hp' : canonicalMirrorProjection readsJson mirrorKind' mirrorId' record' = .ok p')
    (hascii : Ascii mirrorId ∧ Ascii mirrorId' ∧ Ascii scope ∧ Ascii scope')
    (hids : AsciiIds p) (hids' : AsciiIds p') (hcollision : NoCollision H p p') :
    Accepts (verifyMirrorEvidence H readsJson rows mirrorKind' mirrorId' record' eventId
        event.eventHash.str scope')
      ↔ mirrorKind' = mirrorKind ∧ mirrorId' = mirrorId ∧ scope' = scope ∧ p' = p := by
  obtain ⟨k, r, hkind, -, rfl, hproj⟩ := projection_ok hp
  obtain ⟨k', r', hkind', -, rfl, hproj'⟩ := projection_ok hp'
  cases ofName?_value hkind
  cases ofName?_value hkind'
  unfold canonicalMirrorBinding at hbinding
  split at hbinding
  · cases hbinding
  · next hscoped =>
    rw [hp, bind_ok_eq] at hbinding
    rw [canonicalAuthorityGrant_eq hproj.named hscoped] at hgrant
    cases hgrant
    obtain ⟨t, ht⟩ := hrecords.hashed
    have hhash : event.eventHash.str ≠ [] := ht ▸ (hhex t).2
    unfold verifyMirrorEvidence
    rw [hkind', if_neg (by simp)]
    by_cases hscoped' : scope' = []
    · rw [if_pos (Or.inr (Or.inr hscoped'))]
      refine iff_of_false not_accepts_refuse fun h => hscoped ?_
      rw [← h.2.2.1, hscoped']
    · rw [if_neg (by simp [heventId, hhash, hscoped']), hp']
      simp only [verifyEvent_eq hhex hrecords hevent.type]
      rw [accepts_verifyAuthority hhex hevent hbinding hascii.1 hascii.2.1 hascii.2.2.1
        hascii.2.2.2 hids hids' hproj'.named hscoped' hcollision]
      constructor
      · rintro ⟨rfl, h⟩
        exact ⟨rfl, h⟩
      · rintro ⟨hvalue, h⟩
        exact ⟨value_injective hvalue, h⟩

end Centinal26.Evidence
