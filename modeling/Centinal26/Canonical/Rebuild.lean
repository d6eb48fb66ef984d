/-
What holds of a store after any ingests: rows stay, an accepted bundle with keys is there, and the
projection can be rebuilt from the objects alone.
-/
import Centinal26.Canonical.Append
import Centinal26.Py.Reread

namespace Centinal26.Canonical

open Py

variable {P : Platform}

-- == ingests

variable {l : Lists} {t u : Tables} {r : Nat × Tables} {ms : Members}

theorem ingestLists_grown {r : Counts × Tables} (h : ingestLists P l t = .ok r) : Grown t r.2 := by
  obtain ⟨objects, hobjects, h⟩ := of_bind_ok h
  obtain ⟨events, hevents, h⟩ := of_bind_ok h
  obtain ⟨links, hlinks, h⟩ := of_bind_ok h
  obtain ⟨decisions, hdecisions, h⟩ := of_bind_ok h
  cases h
  have hfirst := insertAll_grown (fun _ _ _ _ => insertObject_grows) hobjects
  have hsecond := insertAll_grown (fun _ _ _ _ => insertProvenance_grows) hevents
  have hthird := insertAll_grown (fun _ _ _ _ => insertLinks_grows) hlinks
  have hlast := insertAll_grown (fun _ _ _ _ => insertFilterDecision_grows) hdecisions
  exact ((hfirst.trans hsecond).trans hthird).trans hlast

theorem ingestBundle_ok {bundle : Doc} {counts : Counts}
    (h : ingestBundle P t bundle = (.ok counts, u)) :
    ∃ ms l, validateBundle P.toShows bundle.json = .ok [] ∧ bundle.json = .obj ms
      ∧ listsOf ms = .ok l ∧ ingestLists P l t = .ok (counts, u) := by
  unfold ingestBundle at h
  split at h
  · cases h
  · cases h
  · next hvalid =>
    split at h
    · next ms hms =>
      split at h
      · cases h
      · next l hl =>
        split at h
        · next r hr =>
          cases h
          exact ⟨ms, l, hvalid, hms, hl, hr⟩
        · cases h
    · cases h

theorem ingestBundle_error {bundle : Doc} {e : StoreErr}
    (h : (ingestBundle P t bundle).1 = .error e) : (ingestBundle P t bundle).2 = t := by
  unfold ingestBundle at h ⊢
  split
  · rfl
  · rfl
  · next hvalid =>
    rw [hvalid] at h
    split
    · next ms hms =>
      split
      · rfl
      · next l hl =>
        split
        · next r hr =>
          simp only [hms, hl, hr] at h
          cases h
        · rfl
    · rfl

theorem ingestBundle_grown (t : Tables) (bundle : Doc) : Grown t (ingestBundle P t bundle).2 := by
  cases h : (ingestBundle P t bundle).1 with
  | error e =>
    rw [ingestBundle_error h]
    exact Grown.refl t
  | ok counts =>
    obtain ⟨ms, l, -, -, -, hrun⟩ := ingestBundle_ok (Prod.ext h rfl)
    exact ingestLists_grown hrun

theorem ingestAll_grown (t : Tables) (bundles : List Doc) : Grown t (ingestAll P t bundles) := by
  induction bundles generalizing t with
  | nil => exact Grown.refl t
  | cons bundle rest ih => exact (ingestBundle_grown t bundle).trans (ih _)

-- == keys

def isNull : Json → Bool
  | .null | .float .nan => true
  | _ => false

theorem textColumn_null_iff {v : Json} : textColumn P v = .ok none ↔ isNull v = true := by
  cases v with
  | null => exact iff_of_true rfl rfl
  | bool b => exact iff_of_false nofun nofun
  | int n =>
    refine iff_of_false (fun h => ?_) nofun
    rw [textColumn] at h
    split at h <;> cases h
  | float x =>
    cases x with
    | nan => exact iff_of_true rfl rfl
    | infinity | negInfinity | finite _ =>
      exact iff_of_false nofun nofun
  | str s => exact iff_of_false (fun h => nomatch textColumn_str h) nofun
  | arr xs => exact iff_of_false nofun nofun
  | obj ms => exact iff_of_false nofun nofun

def isKeyed : Json → Bool
  | .obj ms => !((getItem? ms (py "filter_decision_id")).map isNull).getD false
  | _ => true

def keyed (bundle : Doc) : Bool :=
  match bundle.json with
  | .obj ms =>
    match getD ms "filter_decisions" (.arr []) with
    | .arr decisions => decisions.all isKeyed
    | _ => true
  | _ => true

theorem decisions_of_listsOf (h : listsOf ms = .ok l) :
    getD ms "filter_decisions" (.arr []) = .arr l.decisions := by
  unfold listsOf at h
  split at h
  · split at h
    · split at h
      · next decisions hdecisions =>
        cases h
        exact hdecisions
      · cases h
    · cases h
  · cases h

theorem objects_of_listsOf (h : listsOf ms = .ok l) :
    getD ms "objects" (.arr []) = .arr l.objects := by
  unfold listsOf at h
  split at h
  · next objects hobjects =>
    split at h
    · split at h
      · cases h
        exact hobjects
      · cases h
    · cases h
  · cases h

theorem keyed_iff {bundle : Doc} (hms : bundle.json = .obj ms)
    (hl : listsOf ms = .ok l) : keyed bundle = true ↔ ∀ d ∈ l.decisions, isKeyed d = true := by
  unfold keyed
  rw [hms]
  simp only [decisions_of_listsOf hl, List.all_eq_true]

theorem isKeyed_spec {d : Json} (h : isKeyed d = true) : ∀ ms did, d = .obj ms →
    item ms "filter_decision_id" = .ok did → textColumn P did ≠ .ok none := by
  rintro ms did rfl hdid hnull
  rw [textColumn_null_iff] at hnull
  unfold item at hdid
  split at hdid
  · next v hv =>
    cases hdid
    rw [isKeyed, hv, Option.map_some, Option.getD_some, hnull] at h
    cases h
  · cases hdid

theorem ingestBundle_again {v : Tables} {bundle : Doc} {counts : Counts}
    (h : ingestBundle P t bundle = (.ok counts, u)) (hgrown : Grown u v) :
    ingestBundle P v bundle = (.ok ⟨0, 0, 0⟩, v) ↔ keyed bundle = true := by
  obtain ⟨ms, l, hvalid, hms, hl, hrun⟩ := ingestBundle_ok h
  rw [keyed_iff hms hl]
  constructor
  · intro hagain d hd
    obtain ⟨ms', l', -, hms', hl', hrun'⟩ := ingestBundle_ok hagain
    cases hms.symm.trans hms'
    cases hl.symm.trans hl'
    obtain ⟨objects, -, hrun'⟩ := of_bind_ok hrun'
    obtain ⟨events, -, hrun'⟩ := of_bind_ok hrun'
    obtain ⟨links, -, hrun'⟩ := of_bind_ok hrun'
    obtain ⟨decisions, hdecisions, hrun'⟩ := of_bind_ok hrun'
    have hzero : decisions.1 = 0 :=
      congrArg (fun r : Counts × Tables => r.1.filterDecisions) (Except.ok.inj hrun')
    obtain ⟨w, m, hm, hle⟩ := insertAll_counts hdecisions hd
    rw [hzero] at hle
    cases hkeyed : isKeyed d with
    | true => rfl
    | false =>
      exfalso
      cases d with
      | obj ds =>
        rw [isKeyed, Bool.not_eq_false'] at hkeyed
        cases hget : getItem? ds (py "filter_decision_id") with
        | none =>
          rw [hget] at hkeyed
          cases hkeyed
        | some did =>
          rw [hget, Option.map_some, Option.getD_some] at hkeyed
          have hone := insertFilterDecision_null (item_ok hget) (textColumn_null_iff.mpr hkeyed) hm
          omega
      | null | bool _ | int _ | float _ | str _ | arr _ => cases hkeyed
  · intro hkeyed
    obtain ⟨ms', l', hms', hl', hnamed, hidentified⟩ := named_of_validateBundle hvalid
    cases hms.symm.trans hms'
    cases hl.symm.trans hl'
    obtain ⟨objects, hobjects, hrun⟩ := of_bind_ok hrun
    obtain ⟨events, hevents, hrun⟩ := of_bind_ok hrun
    obtain ⟨links, hlinks, hrun⟩ := of_bind_ok hrun
    obtain ⟨decisions, hdecisions, hrun⟩ := of_bind_ok hrun
    cases hrun
    have hfourth := insertAll_grown (fun _ _ _ _ => insertFilterDecision_grows) hdecisions
    have hthird := insertAll_grown (fun _ _ _ _ => insertLinks_grows) hlinks
    have hsecond := insertAll_grown (fun _ _ _ _ => insertProvenance_grows) hevents
    have hdecisions' := insertAll_again (f := insertFilterDecision P)
      (fun _ _ _ _ => insertFilterDecision_grows)
      (fun _ d _ _ hd => insertFilterDecision_again (isKeyed_spec (hkeyed d hd)))
      hdecisions hgrown
    have hlinks' := insertAll_again (f := insertLinks P) (fun _ _ _ _ => insertLinks_grows)
      (fun _ _ _ _ _ => insertLinks_again) hlinks (hfourth.trans hgrown)
    have hevents' := insertAll_again (f := insertProvenance P)
      (fun _ _ _ _ => insertProvenance_grows)
      (fun _ e _ _ he => insertProvenance_again (hidentified e he)) hevents
      ((hthird.trans hfourth).trans hgrown)
    have hobjects' := insertAll_again (f := insertObject P) (fun _ _ _ _ => insertObject_grows)
      (fun _ o _ _ ho => insertObject_again (hnamed o ho)) hobjects
      (((hsecond.trans hthird).trans hfourth).trans hgrown)
    have hlists : ingestLists P l v = .ok (⟨0, 0, 0⟩, v) := by
      rw [ingestLists, hobjects', bind_ok_eq, hevents', bind_ok_eq, hlinks', bind_ok_eq,
        hdecisions']
      rfl
    unfold ingestBundle
    rw [hvalid]
    simp only [hms, hl, hlists]

-- == projection

/-- Every object can be projected, under a key of its own. -/
structure Sound (P : Platform) (t : Tables) : Prop where
  rows : ∀ r ∈ t.objects, ∃ p, projectionRow P r.envelope = .ok p ∧ p.objectId = r.objectId
  nodup : (t.objects.map ObjectRow.objectId).Nodup

theorem Sound.congr (h : Sound P t) (hobjects : u.objects = t.objects) : Sound P u := by
  constructor
  · rw [hobjects]
    exact h.rows
  · rw [hobjects]
    exact h.nodup

theorem projectionRow_zero {envelope : Json} {p : ProjectionRow}
    (h : projectionRow P envelope = .ok p) : p.authoritative = 0 := by
  unfold projectionRow at h
  split at h
  · simp only [bind_ok_iff, Except.ok.injEq] at h
    obtain ⟨_, -, _, -, _, -, _, -, _, -, _, -, _, -, _, -, _, -, _, -, _, -, _, -, _, -, _, -,
      _, -, rfl⟩ := h
    rfl
  · cases h

theorem projectAll_ok {rs : List ObjectRow} {done : List ProjectionRow}
    (hrows : ∀ r ∈ rs, ∃ p, projectionRow P r.envelope = .ok p ∧ p.objectId = r.objectId)
    (hnodup : (rs.map ObjectRow.objectId).Nodup)
    (hfresh : ∀ r ∈ rs, ∀ row ∈ done, row.objectId ≠ r.objectId)
    (hzero : ∀ row ∈ done, row.authoritative = 0) :
    ∃ rows, projectAll P rs done = .ok rows ∧ ∀ row ∈ rows, row.authoritative = 0 := by
  induction rs generalizing done with
  | nil => exact ⟨done, rfl, hzero⟩
  | cons r rest ih =>
    obtain ⟨p, hp, hkey⟩ := hrows r (List.mem_cons_self ..)
    obtain ⟨hr, hrest⟩ := List.nodup_cons.mp hnodup
    have hnew : (done.any fun row => decide (row.objectId = p.objectId)) = false := by
      rw [List.any_eq_false]
      intro row hrow
      rw [decide_eq_true_eq, hkey]
      exact hfresh r (List.mem_cons_self ..) row hrow
    rw [projectAll, hp, bind_ok_eq, hnew, Bool.and_false]
    refine ih (fun q hq => hrows q (List.mem_cons_of_mem _ hq)) hrest ?_ ?_
    · intro q hq row hrow
      rcases List.mem_append.mp hrow with hrow | hrow
      · exact hfresh q (List.mem_cons_of_mem _ hq) row hrow
      · rw [List.mem_singleton.mp hrow, hkey]
        exact fun heq => hr (heq ▸ List.mem_map_of_mem hq)
    · intro row hrow
      rcases List.mem_append.mp hrow with hrow | hrow
      · exact hzero row hrow
      · rw [List.mem_singleton.mp hrow]
        exact projectionRow_zero hp

theorem insertRow_new {ρ : Type} {key : ρ → Option PyStr} {rows : List ρ} {id : Option PyStr}
    {same : ρ → Except StoreErr Unit} {row : Except StoreErr ρ} {r : ρ}
    (h : insertRow key rows id same row = .ok (some r)) :
    selectBy key rows id = none ∧ row = .ok r := by
  unfold insertRow at h
  split at h
  · obtain ⟨_, -, h⟩ := of_bind_ok h
    cases h
  · next hnone =>
    obtain ⟨r', hr', h⟩ := of_bind_ok h
    cases h
    exact ⟨hnone, hr'⟩

theorem document_payload {written : Json × Text}
    (hnormal : (Json.obj ms).isNormal = true) (hdict : isDict (get ms "payload") = true)
    (h : document (.obj ms) = .ok written) :
    written.1 = .obj ms ∧ ∃ search, document (getD ms "payload" (.obj [])) = .ok search := by
  obtain ⟨q, hq, h⟩ := of_bind_ok h
  obtain ⟨text, htext, h⟩ := of_bind_ok h
  cases h
  have hqms := dumps_loads_eq _ q hnormal hq
  refine ⟨hqms, ?_⟩
  subst hqms
  obtain ⟨ps, hps⟩ : ∃ ps, getItem? ms (py "payload") = some (.obj ps) := by
    unfold get getD at hdict
    cases hget : getItem? ms (py "payload") with
    | none =>
      rw [hget] at hdict
      cases hdict
    | some v =>
      rw [hget] at hdict
      cases v with
      | obj ps => exact ⟨ps, rfl⟩
      | null | bool _ | int _ | float _ | str _ | arr _ => cases hdict
  rw [Json.isNormal, Bool.and_eq_true, decide_eq_true_eq, allNormalMembers_eq,
    List.all_eq_true] at hnormal
  have hmem := Dict.mem_items (d := ⟨ms, hnormal.1.nodup⟩).mpr hps
  have hencodable := (encodable_text (.obj ms)).mp (encode_eq_ok.mp htext ▸ text.encodable)
  rw [Json.isEncodable, allEncodableMembers_eq, List.all_eq_true] at hencodable
  have hpayload := hencodable _ hmem
  rw [Bool.and_eq_true] at hpayload
  rw [loads_obj hnormal.1.nodup, dumps_strItems] at hq
  obtain ⟨fields, hfields, -⟩ := of_map_ok hq
  obtain ⟨-, hvalues⟩ := dumpsFields_spec hfields
  obtain ⟨d, hd, -⟩ := hvalues (py "payload", loads (.obj ps))
    (List.mem_map.mpr ⟨(py "payload", .obj ps), hmem, rfl⟩)
  have hdps := dumps_loads_eq _ d (hnormal.2 _ hmem) hd
  rw [getD, hps, Option.getD_some, document, hd, bind_ok_eq, hdps]
  exact ⟨_, by rw [show encode ((Json.obj ps).text .canonical)
    = .ok ⟨_, (encodable_text _).mpr hpayload.2⟩ from encode_str ⟨_, _⟩]; rfl⟩

theorem projectionRow_ok {id : Option PyStr} {envelope : Json} {row : ObjectRow}
    {oid : Json} {search : Json × Text} (hoid : item ms "object_id" = .ok oid)
    (hid : textColumn P oid = .ok id) (hrow : objectRow P ms id envelope = .ok row)
    (hsearch : document (getD ms "payload" (.obj [])) = .ok search) :
    ∃ p, projectionRow P (.obj ms) = .ok p ∧ p.objectId = id := by
  simp only [objectRow, bind_ok_iff, Except.ok.injEq] at hrow
  obtain ⟨_, -, type, htype, status, hstatus, epistemic, hepistemic, hrow⟩ := hrow
  obtain ⟨verification, hverification, _, -, _, -, _, -, _, -, _, -, _, -, hrow⟩ := hrow
  obtain ⟨typeText, htypeText, statusText, hstatusText, epistemicText, hepistemicText, hrow⟩ := hrow
  obtain ⟨verificationText, hverificationText, _, -, _, -, _, -, hrow⟩ := hrow
  obtain ⟨typeValue, htypeValue, statusValue, hstatusValue, epistemicValue, hepistemicValue,
    verificationValue, hverificationValue, -⟩ := hrow
  refine ⟨⟨id, typeValue, statusValue, epistemicValue, verificationValue, search.2.str, 0⟩, ?_, rfl⟩
  simp only [projectionRow, hoid, htype, hstatus, hepistemic, hverification, hsearch, hid,
    htypeText, hstatusText, hepistemicText, hverificationText, htypeValue, hstatusValue,
    hepistemicValue, hverificationValue, bind_ok_eq]

theorem insertObject_sound {obj : Json} (hnamed : Named obj)
    (hnormal : obj.isNormal = true) (ht : Sound P t) (h : insertObject P t obj = .ok r) :
    Sound P r.2 := by
  obtain ⟨ms, oid, hash, rfl, hoid, hhash, hdict⟩ := hnamed
  rw [insertObject, item_ok hoid] at h
  obtain ⟨v, hv, h⟩ := of_bind_ok h
  cases hv
  obtain ⟨envelope, henvelope, h⟩ := of_bind_ok h
  obtain ⟨id, hid, h⟩ := of_bind_ok h
  obtain ⟨new, hnew, h⟩ := of_bind_ok h
  cases h
  obtain ⟨hwritten, search, hsearch⟩ := document_payload hnormal hdict (raises_ok henvelope)
  cases new with
  | none => exact ht.congr (List.append_nil _)
  | some row =>
    obtain ⟨hfresh, hrow⟩ := insertRow_new hnew
    have hkey := textColumn_str (raises_ok hid)
    obtain ⟨hrowId, -, hrowEnvelope⟩ := objectRow_spec hhash (raises_ok hrow)
    obtain ⟨p, hp, hpid⟩ := projectionRow_ok (item_ok hoid) (raises_ok hid) (raises_ok hrow) hsearch
    constructor
    · intro q hq
      rcases List.mem_append.mp hq with hq | hq
      · exact ht.rows q hq
      · rw [Option.toList_some, List.mem_singleton] at hq
        rw [hq, hrowEnvelope, hwritten, hrowId]
        exact ⟨p, hp, hpid⟩
    · show ((t.objects ++ [row]).map ObjectRow.objectId).Nodup
      rw [List.map_append, List.map_singleton, List.nodup_append]
      refine ⟨ht.nodup, List.nodup_singleton _, ?_⟩
      intro a ha b hb heq
      rw [List.mem_singleton.mp hb, hrowId, hkey] at heq
      obtain ⟨q, hq, rfl⟩ := List.mem_map.mp ha
      rw [hkey, selectBy] at hfresh
      exact absurd (decide_eq_true heq) (List.find?_eq_none.mp hfresh q hq)

theorem insertProvenance_objects {event : Json}
    (h : insertProvenance P t event = .ok r) : r.2.objects = t.objects := by
  unfold insertProvenance at h
  split at h
  · simp only [bind_ok_iff, Except.ok.injEq] at h
    obtain ⟨_, -, _, -, _, -, _, -, rfl⟩ := h
    rfl
  · cases h

theorem insertFilterDecision_objects {decision : Json}
    (h : insertFilterDecision P t decision = .ok r) : r.2.objects = t.objects := by
  unfold insertFilterDecision at h
  split at h
  · simp only [bind_ok_iff, Except.ok.injEq] at h
    obtain ⟨_, -, _, -, _, -, _, -, rfl⟩ := h
    rfl
  · cases h

theorem insertLink_objects {oid : Json} {pid : Json}
    (h : insertLink P oid t pid = .ok r) : r.2.objects = t.objects := by
  unfold insertLink at h
  obtain ⟨object, -, h⟩ := of_bind_ok h
  obtain ⟨event, -, h⟩ := of_bind_ok h
  split at h
  · split at h
    · cases h
      rfl
    · split at h
      · cases h
        rfl
      · cases h
  · cases h
    rfl

theorem insertLinks_sound {obj : Json} (ht : Sound P t)
    (h : insertLinks P t obj = .ok r) : Sound P r.2 := by
  unfold insertLinks at h
  split at h
  · obtain ⟨ids, -, h⟩ := of_bind_ok h
    split at h
    · cases h
      exact ht
    · obtain ⟨oid, -, h⟩ := of_bind_ok h
      exact insertAll_keeps (fun u x r _ hu hr => hu.congr (insertLink_objects hr)) ht h
  · cases h

theorem normal_of_mem {xs : List Json} (h : allNormal xs = true) : ∀ x ∈ xs, x.isNormal = true := by
  induction xs with
  | nil => exact nofun
  | cons y rest ih =>
    rw [allNormal, Bool.and_eq_true] at h
    exact List.forall_mem_cons.mpr ⟨h.1, ih h.2⟩

theorem normal_objects {bundle : Doc} (hms : bundle.json = .obj ms)
    (hl : listsOf ms = .ok l) : ∀ obj ∈ l.objects, obj.isNormal = true := by
  have hnormal := bundle.normal
  rw [hms, Json.isNormal, Bool.and_eq_true, decide_eq_true_eq, allNormalMembers_eq,
    List.all_eq_true] at hnormal
  have hobjects := objects_of_listsOf hl
  unfold getD at hobjects
  cases hget : getItem? ms (py "objects") with
  | none =>
    rw [hget, Option.getD_none] at hobjects
    rw [← Json.arr.inj hobjects]
    exact nofun
  | some v =>
    rw [hget, Option.getD_some] at hobjects
    subst hobjects
    have hmem := Dict.mem_items (d := ⟨ms, hnormal.1.nodup⟩).mpr hget
    exact normal_of_mem (hnormal.2 _ hmem)

theorem ingestBundle_sound (ht : Sound P t) (bundle : Doc) :
    Sound P (ingestBundle P t bundle).2 := by
  cases h : (ingestBundle P t bundle).1 with
  | error e =>
    rw [ingestBundle_error h]
    exact ht
  | ok counts =>
    obtain ⟨ms, l, hvalid, hms, hl, hrun⟩ := ingestBundle_ok (Prod.ext h rfl)
    obtain ⟨ms', l', hms', hl', hnamed, -⟩ := named_of_validateBundle hvalid
    cases hms.symm.trans hms'
    cases hl.symm.trans hl'
    obtain ⟨objects, hobjects, hrun⟩ := of_bind_ok hrun
    obtain ⟨events, hevents, hrun⟩ := of_bind_ok hrun
    obtain ⟨links, hlinks, hrun⟩ := of_bind_ok hrun
    obtain ⟨decisions, hdecisions, hrun⟩ := of_bind_ok hrun
    have htables := congrArg Prod.snd (Except.ok.inj hrun)
    rw [← htables]
    have hfirst : Sound P objects.2 := insertAll_keeps
      (fun u obj r hobj hu => insertObject_sound (hnamed obj hobj)
        (normal_objects hms hl obj hobj) hu) ht hobjects
    have hsecond : Sound P events.2 := insertAll_keeps
      (fun u x r _ hu hr => hu.congr (insertProvenance_objects hr)) hfirst hevents
    have hthird : Sound P links.2 := insertAll_keeps
      (fun u x r _ hu hr => insertLinks_sound hu hr) hsecond hlinks
    exact insertAll_keeps
      (fun u x r _ hu hr => hu.congr (insertFilterDecision_objects hr)) hthird hdecisions

theorem ingestAll_sound (ht : Sound P t) (bundles : List Doc) :
    Sound P (ingestAll P t bundles) := by
  induction bundles generalizing t with
  | nil => exact ht
  | cons bundle rest ih => exact ih (ingestBundle_sound ht bundle)

theorem sound_empty : Sound P .empty :=
  ⟨nofun, List.nodup_nil⟩

-- == store

/-- The store is append-only and atomic, the projection comes from the objects alone, and a bundle
is stored once, unless one of its decisions has no key. -/
theorem store_appendOnly (P : Platform) :
    (∀ t bundle e, (ingestBundle P t bundle).1 = .error e → (ingestBundle P t bundle).2 = t)
    ∧ (∀ t bundles, t.objects <+: (ingestAll P t bundles).objects
      ∧ t.events <+: (ingestAll P t bundles).events
      ∧ t.decisions <+: (ingestAll P t bundles).decisions)
    ∧ (∀ t bundle counts later, (ingestBundle P t bundle).1 = .ok counts →
      let u := ingestAll P (ingestBundle P t bundle).2 later
      ingestBundle P u bundle = (.ok ⟨0, 0, 0⟩, u) ↔ keyed bundle = true)
    ∧ ∀ bundles, let t := ingestAll P .empty bundles
      ∃ rows, projectAll P t.objects [] = .ok rows
        ∧ rebuildProjection P t = (.ok t.objects.length, { t with projection := rows })
        ∧ ∀ row ∈ rows, row.authoritative = 0 := by
  refine ⟨fun t bundle e => ingestBundle_error, ?_, ?_, ?_⟩
  · intro t bundles
    have hgrown := ingestAll_grown (P := P) t bundles
    exact ⟨hgrown.objects, hgrown.events, hgrown.decisions⟩
  · intro t bundle counts later h
    exact ingestBundle_again (Prod.ext h rfl) (ingestAll_grown _ later)
  · intro bundles
    have hsound := ingestAll_sound (P := P) sound_empty bundles
    obtain ⟨rows, hrows, hzero⟩ :
        ∃ rows, projectAll P (ingestAll P .empty bundles).objects [] = .ok rows
          ∧ ∀ row ∈ rows, row.authoritative = 0 :=
      projectAll_ok hsound.rows hsound.nodup (nofun) nofun
    refine ⟨rows, hrows, ?_, hzero⟩
    rw [rebuildProjection, hrows]

namespace Sample

/-- A platform to try things on. -/
private def platform : Platform where
  str _ := []
  repr _ := []
  realText _ := []
  toFloat _ := .ok .infinity
  sha256 := id

private def text (s : String) : Json := .str (py s)

private def object : Json := .obj [
  (py "authoritative", .bool true), (py "authority_class", text "AUTHORITATIVE_RECORD"),
  (py "confidence", .int 1), (py "content_hash", .str (py "sha256:" ++ List.replicate 64 48)),
  (py "epistemic_status", text "OBSERVED"), (py "ingested_at", text "2026-01-01"),
  (py "object_id", text "o"), (py "payload", .obj []), (py "status", text "ACTIVE"),
  (py "type", text "NOTE"), (py "verification_status", text "UNVERIFIED")]

/-- A decision whose id is `null`. -/
private def decision : Json := .obj [(py "decision", text "RETAIN"),
  (py "filter_decision_id", .null), (py "input_object_id", text "o")]

private def bundle : Json :=
  .obj [(py "filter_decisions", .arr [decision]), (py "objects", .arr [object])]

private def loaded : Doc := ⟨bundle, by decide +kernel⟩

/-- Stored twice, the decision is there twice. -/
theorem unkeyed_twice : (ingestBundle platform .empty loaded).1.toOption = some ⟨1, 0, 1⟩
      ∧ (ingestBundle platform (ingestBundle platform .empty loaded).2 loaded).1.toOption
        = some ⟨0, 0, 1⟩
      ∧ (ingestAll platform .empty [loaded, loaded]).decisions.length = 2 := by
  decide +kernel

end Sample

end Centinal26.Canonical
