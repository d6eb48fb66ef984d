/-
The store only grows, and what was stored once is stored.
-/
import Centinal26.Canonical.Store

namespace Centinal26.Canonical

open Py

-- == growth

/-- Every row is where it was. -/
structure Grown (t u : Tables) : Prop where
  objects : t.objects <+: u.objects
  events : t.events <+: u.events
  links : t.links <+: u.links
  decisions : t.decisions <+: u.decisions
  projection : u.projection = t.projection

theorem Grown.refl (t : Tables) : Grown t t :=
  ⟨List.prefix_rfl, List.prefix_rfl, List.prefix_rfl, List.prefix_rfl, rfl⟩

theorem Grown.trans {t u v : Tables} (h : Grown t u) (h' : Grown u v) : Grown t v :=
  ⟨h.objects.trans h'.objects, h.events.trans h'.events, h.links.trans h'.links,
    h.decisions.trans h'.decisions, h'.projection.trans h.projection⟩

theorem raises_ok {α : Type} {r : Except PyErr α} {a : α} (h : raises r = .ok a) : r = .ok a := by
  cases r with
  | ok b => exact congrArg Except.ok (Except.ok.inj h)
  | error e => cases h

-- == rows

section Rows

variable {ρ : Type} {key : ρ → Option PyStr} {rows rows' : List ρ} {id : Option PyStr}
  {same : ρ → Except StoreErr Unit} {row row' : Except StoreErr ρ}

variable {r : ρ} {s : PyStr} {new : Option ρ}

theorem selectBy_grown (h : selectBy key rows id = some r) (hgrown : rows <+: rows') :
    selectBy key rows' id = some r := by
  obtain ⟨new, rfl⟩ := hgrown
  cases id with
  | none => cases h
  | some s =>
    rw [selectBy] at h ⊢
    rw [List.find?_append, h, Option.some_or]

theorem selectBy_new (h : selectBy key rows (some s) = none)
    (hr : key r = some s) : selectBy key (rows ++ [r]) (some s) = some r := by
  rw [selectBy] at h ⊢
  rw [List.find?_append, h, Option.none_or, List.find?_cons_of_pos (by rw [hr, decide_eq_true rfl])]

theorem insertRow_grown (h : insertRow key rows id same row = .ok none)
    (hgrown : rows <+: rows') : insertRow key rows' id same row' = .ok none := by
  unfold insertRow at h ⊢
  split at h
  · next existing hfound =>
    rw [selectBy_grown hfound hgrown]
    exact h
  · obtain ⟨new, -, h⟩ := of_bind_ok h
    cases h

theorem insertRow_again (hid : id = some s) (h : insertRow key rows id same row = .ok new)
    (hnew : ∀ r, row = .ok r → key r = some s ∧ same r = .ok ()) :
    insertRow key (rows ++ new.toList) id same row = .ok none := by
  subst hid
  cases hfound : selectBy key rows (some s) with
  | some existing =>
    have hnone : new = none := by
      unfold insertRow at h
      rw [hfound] at h
      obtain ⟨_, -, h⟩ := of_bind_ok h
      exact (Except.ok.inj h).symm
    subst hnone
    rw [Option.toList_none, List.append_nil]
    exact insertRow_grown h List.prefix_rfl
  | none =>
    unfold insertRow at h
    rw [hfound] at h
    obtain ⟨r, hr, h⟩ := of_bind_ok h
    cases h
    obtain ⟨hkey, hsame⟩ := hnew r hr
    rw [insertRow, Option.toList_some, selectBy_new hfound hkey]
    simp only [hsame]
    rfl

theorem insertRow_null (h : insertRow key rows none same row = .ok new) :
    new.toList.length = 1 := by
  obtain ⟨r, -, h⟩ := of_bind_ok h
  cases h
  rfl

end Rows

-- == loops

section Loops

variable {f : Tables → Json → Except StoreErr (Nat × Tables)}

variable {xs : List Json} {t : Tables} {r : Nat × Tables}

theorem insertAll_keeps {Q : Tables → Prop}
    (hkeeps : ∀ t x r, x ∈ xs → Q t → f t x = .ok r → Q r.2) (ht : Q t)
    (h : insertAll f xs t = .ok r) : Q r.2 := by
  induction xs generalizing t r with
  | nil =>
    cases h
    exact ht
  | cons x rest ih =>
    obtain ⟨first, hfirst, h⟩ := of_bind_ok h
    obtain ⟨later, hlater, h⟩ := of_bind_ok h
    cases h
    exact ih (r := later) (fun t x r hx => hkeeps t x r (List.mem_cons_of_mem _ hx))
      (hkeeps t x first (List.mem_cons_self ..) ht hfirst) hlater

theorem insertAll_grown
    (hgrows : ∀ t x r, x ∈ xs → f t x = .ok r → Grown t r.2) (h : insertAll f xs t = .ok r) :
    Grown t r.2 :=
  insertAll_keeps (Q := Grown t) (fun u x r hx hu hr => hu.trans (hgrows u x r hx hr))
    (Grown.refl t) h

theorem insertAll_again {u : Tables} (hgrows : ∀ t x r, x ∈ xs → f t x = .ok r → Grown t r.2)
    (hagain : ∀ t x r u, x ∈ xs → f t x = .ok r → Grown r.2 u → f u x = .ok (0, u))
    (h : insertAll f xs t = .ok r) (hgrown : Grown r.2 u) : insertAll f xs u = .ok (0, u) := by
  induction xs generalizing t r with
  | nil => rfl
  | cons x rest ih =>
    obtain ⟨first, hfirst, h⟩ := of_bind_ok h
    obtain ⟨later, hlater, h⟩ := of_bind_ok h
    cases h
    have hrest : ∀ t x r, x ∈ rest → f t x = .ok r → Grown t r.2 :=
      fun t x r hx => hgrows t x r (List.mem_cons_of_mem _ hx)
    have hnow := hagain t x first u (List.mem_cons_self ..) hfirst
      ((insertAll_grown hrest hlater).trans hgrown)
    have hlast := ih hrest (fun t x r u hx => hagain t x r u (List.mem_cons_of_mem _ hx))
      hlater hgrown
    rw [insertAll, hnow, bind_ok_eq, hlast]
    rfl

theorem insertAll_counts
    (h : insertAll f xs t = .ok r) {x : Json} (hx : x ∈ xs) : ∃ v m, f v x = .ok m ∧ m.1 ≤ r.1 := by
  induction xs generalizing t r with
  | nil => cases hx
  | cons y rest ih =>
    obtain ⟨first, hfirst, h⟩ := of_bind_ok h
    obtain ⟨later, hlater, h⟩ := of_bind_ok h
    cases h
    rcases List.mem_cons.mp hx with rfl | hx
    · exact ⟨t, first, hfirst, Nat.le_add_right ..⟩
    · obtain ⟨v, m, hm, hle⟩ := ih hlater hx
      exact ⟨v, m, hm, hle.trans (Nat.le_add_left ..)⟩

end Loops

-- == inserts

section Inserts

variable {P : Platform}

theorem textColumn_str {s : PyStr} {id : Option PyStr} (h : textColumn P (.str s) = .ok id) :
    id = some s := by
  obtain ⟨t, ht, rfl⟩ := of_map_ok h
  rw [encode_eq_ok.mp ht]

variable {ms : Members} {t u : Tables} {obj : Json} {r : Nat × Tables}

variable {name : String} {v event decision oid pid : Json}

theorem item_eq {w : Json} (h : item ms name = .ok v)
    (hw : getItem? ms (py name) = some w) : v = w := by
  unfold item at h
  rw [hw] at h
  exact (Except.ok.inj h).symm

theorem item_ok (h : getItem? ms (py name) = some v) : item ms name = .ok v := by
  unfold item
  rw [h]

theorem refuseIf_false {kind message : String} {id : PyStr} :
    refuseIf false kind id message = .ok () := rfl

theorem grown_objects (t : Tables) (new : List ObjectRow) :
    Grown t { t with objects := t.objects ++ new } :=
  ⟨List.prefix_append .., List.prefix_rfl, List.prefix_rfl, List.prefix_rfl, rfl⟩

theorem grown_events (t : Tables) (new : List EventRow) :
    Grown t { t with events := t.events ++ new } :=
  ⟨List.prefix_rfl, List.prefix_append .., List.prefix_rfl, List.prefix_rfl, rfl⟩

theorem grown_links (t : Tables) (new : List (PyStr × PyStr)) :
    Grown t { t with links := t.links ++ new } :=
  ⟨List.prefix_rfl, List.prefix_rfl, List.prefix_append .., List.prefix_rfl, rfl⟩

theorem grown_decisions (t : Tables) (new : List DecisionRow) :
    Grown t { t with decisions := t.decisions ++ new } :=
  ⟨List.prefix_rfl, List.prefix_rfl, List.prefix_rfl, List.prefix_append .., rfl⟩

theorem insertObject_grows (h : insertObject P t obj = .ok r) : Grown t r.2 := by
  unfold insertObject at h
  split at h
  · obtain ⟨_, -, h⟩ := of_bind_ok h
    obtain ⟨_, -, h⟩ := of_bind_ok h
    obtain ⟨_, -, h⟩ := of_bind_ok h
    obtain ⟨new, -, h⟩ := of_bind_ok h
    cases h
    exact grown_objects t _
  · cases h

theorem insertProvenance_grows (h : insertProvenance P t event = .ok r) : Grown t r.2 := by
  unfold insertProvenance at h
  split at h
  · obtain ⟨_, -, h⟩ := of_bind_ok h
    obtain ⟨_, -, h⟩ := of_bind_ok h
    obtain ⟨_, -, h⟩ := of_bind_ok h
    obtain ⟨new, -, h⟩ := of_bind_ok h
    cases h
    exact grown_events t _
  · cases h

theorem insertFilterDecision_grows
    (h : insertFilterDecision P t decision = .ok r) : Grown t r.2 := by
  unfold insertFilterDecision at h
  split at h
  · obtain ⟨_, -, h⟩ := of_bind_ok h
    obtain ⟨_, -, h⟩ := of_bind_ok h
    obtain ⟨_, -, h⟩ := of_bind_ok h
    obtain ⟨new, -, h⟩ := of_bind_ok h
    cases h
    exact grown_decisions t _
  · cases h

theorem insertLink_grows (h : insertLink P oid t pid = .ok r) : Grown t r.2 := by
  unfold insertLink at h
  obtain ⟨object, -, h⟩ := of_bind_ok h
  obtain ⟨event, -, h⟩ := of_bind_ok h
  split at h
  · split at h
    · cases h
      exact Grown.refl t
    · split at h
      · cases h
        exact grown_links t _
      · cases h
  · cases h
    exact Grown.refl t

theorem insertLinks_grows (h : insertLinks P t obj = .ok r) : Grown t r.2 := by
  unfold insertLinks at h
  split at h
  · obtain ⟨ids, -, h⟩ := of_bind_ok h
    split at h
    · cases h
      exact Grown.refl t
    · obtain ⟨oid, -, h⟩ := of_bind_ok h
      exact insertAll_grown (fun t x r _ => insertLink_grows) h
  · cases h

-- == again

theorem objectRow_spec {id : Option PyStr} {envelope : Json} {hash : PyStr}
    {row : ObjectRow} (hhash : getItem? ms (py "content_hash") = some (.str hash))
    (h : objectRow P ms id envelope = .ok row) :
    row.objectId = id ∧ row.contentHash = hash ∧ row.envelope = envelope := by
  simp only [objectRow, bind_ok_iff, Except.ok.injEq] at h
  obtain ⟨v, hv, _, -, _, -, _, -, _, -, _, -, _, -, _, -, _, -, _, -, h⟩ := h
  obtain ⟨column, hcolumn, _, -, _, -, _, -, _, -, _, -, _, -, h⟩ := h
  obtain ⟨stored, hstored, _, -, _, -, _, -, _, -, _, -, _, -, _, -, rfl⟩ := h
  cases item_eq hv hhash
  cases textColumn_str hcolumn
  exact ⟨rfl, (Except.ok.inj hstored).symm, rfl⟩

theorem insertObject_again (hnamed : Named obj)
    (h : insertObject P t obj = .ok r) (hgrown : Grown r.2 u) :
    insertObject P u obj = .ok (0, u) := by
  obtain ⟨ms, oid, hash, rfl, hoid, hhash, -⟩ := hnamed
  rw [insertObject, item_ok hoid] at h ⊢
  obtain ⟨v, hv, h⟩ := of_bind_ok h
  cases hv
  obtain ⟨envelope, henvelope, h⟩ := of_bind_ok h
  obtain ⟨id, hid, h⟩ := of_bind_ok h
  obtain ⟨new, hnew, h⟩ := of_bind_ok h
  cases h
  have hkey := textColumn_str (raises_ok hid)
  have hagain : insertRow ObjectRow.objectId u.objects id (sameObject P ms envelope.1)
      (raises (objectRow P ms id envelope.1)) = .ok none := by
    refine insertRow_grown (insertRow_again hkey hnew fun row hrow => ?_) hgrown.objects
    obtain ⟨hrowId, hrowHash, hrowEnvelope⟩ := objectRow_spec hhash (raises_ok hrow)
    refine ⟨hrowId.trans hkey, ?_⟩
    rw [sameObject, item_ok hoid, item_ok hhash, hrowHash, hrowEnvelope]
    simp only [raises, bind_ok_eq, Json.str?, ne_eq, not_true_eq_false, decide_false,
      refuseIf_false]
  rw [raises, bind_ok_eq, henvelope, bind_ok_eq, hid, bind_ok_eq, hagain, bind_ok_eq]
  simp only [Option.toList_none, List.length_nil, List.append_nil]

theorem insertProvenance_again
    (hidentified : Identified event) (h : insertProvenance P t event = .ok r)
    (hgrown : Grown r.2 u) : insertProvenance P u event = .ok (0, u) := by
  obtain ⟨ms, pid, rfl, hpid⟩ := hidentified
  rw [insertProvenance, item_ok hpid] at h ⊢
  obtain ⟨v, hv, h⟩ := of_bind_ok h
  cases hv
  obtain ⟨document, hdocument, h⟩ := of_bind_ok h
  obtain ⟨id, hid, h⟩ := of_bind_ok h
  obtain ⟨new, hnew, h⟩ := of_bind_ok h
  cases h
  have hkey := textColumn_str (raises_ok hid)
  have hagain : insertRow EventRow.eventId u.events id
      (sameEvent P (.str pid) (digest P document.2) document.1)
      (.ok ⟨id, digest P document.2, document.1⟩) = .ok none := by
    refine insertRow_grown (insertRow_again hkey hnew fun row hrow => ?_) hgrown.events
    cases hrow
    refine ⟨hkey, ?_⟩
    simp only [sameEvent, ne_eq, not_true_eq_false, decide_false, Bool.or_self, refuseIf_false]
  rw [raises, bind_ok_eq, hdocument, bind_ok_eq, hid, bind_ok_eq]
  simp only [hagain, bind_ok_eq, Option.toList_none, List.length_nil, List.append_nil]

theorem insertFilterDecision_again
    (hkeyed : ∀ ms did, decision = .obj ms → item ms "filter_decision_id" = .ok did →
      textColumn P did ≠ .ok none)
    (h : insertFilterDecision P t decision = .ok r) (hgrown : Grown r.2 u) :
    insertFilterDecision P u decision = .ok (0, u) := by
  unfold insertFilterDecision at h
  split at h
  · next ms =>
    obtain ⟨did, hdid, h⟩ := of_bind_ok h
    obtain ⟨document, hdocument, h⟩ := of_bind_ok h
    obtain ⟨id, hid, h⟩ := of_bind_ok h
    obtain ⟨new, hnew, h⟩ := of_bind_ok h
    cases h
    obtain ⟨s, hkey⟩ : ∃ s, id = some s := by
      cases id with
      | none => exact absurd (raises_ok hid) (hkeyed ms did rfl (raises_ok hdid))
      | some s => exact ⟨s, rfl⟩
    have hagain : insertRow DecisionRow.decisionId u.decisions id
        (sameDecision P did (digest P document.2) document.1)
        (raises (decisionRow P u ms id (digest P document.2) document.1)) = .ok none := by
      refine insertRow_grown (insertRow_again hkey hnew fun row hrow => ?_) hgrown.decisions
      have hdecision := raises_ok hrow
      simp only [decisionRow, bind_ok_iff] at hdecision
      obtain ⟨_, -, _, -, _, -, _, -, _, -, _, -, _, -, hrow⟩ := hdecision
      split at hrow
      · cases hrow
        refine ⟨hkey, ?_⟩
        simp only [sameDecision, ne_eq, not_true_eq_false, decide_false, Bool.or_self,
          refuseIf_false]
      · cases hrow
    rw [insertFilterDecision, hdid, bind_ok_eq, hdocument, bind_ok_eq, hid, bind_ok_eq]
    simp only [hagain, bind_ok_eq, Option.toList_none, List.length_nil, List.append_nil]
  · cases h

theorem insertFilterDecision_null {did : Json}
    (hdid : item ms "filter_decision_id" = .ok did) (hnull : textColumn P did = .ok none)
    (h : insertFilterDecision P t (.obj ms) = .ok r) : r.1 = 1 := by
  rw [insertFilterDecision, hdid] at h
  obtain ⟨v, hv, h⟩ := of_bind_ok h
  cases hv
  obtain ⟨document, -, h⟩ := of_bind_ok h
  obtain ⟨id, hid, h⟩ := of_bind_ok h
  cases (raises_ok hid).symm.trans hnull
  obtain ⟨new, hnew, h⟩ := of_bind_ok h
  cases h
  exact insertRow_null hnew

theorem insertLink_again (h : insertLink P oid t pid = .ok r) (hgrown : Grown r.2 u) :
    insertLink P oid u pid = .ok (0, u) := by
  unfold insertLink at h ⊢
  obtain ⟨object, hobject, h⟩ := of_bind_ok h
  obtain ⟨event, hevent, h⟩ := of_bind_ok h
  rw [hobject, bind_ok_eq, hevent, bind_ok_eq]
  cases object with
  | none => rfl
  | some o =>
    cases event with
    | none => rfl
    | some e =>
      have hmem : (o, e) ∈ u.links := by
        by_cases hin : (o, e) ∈ t.links
        · simp only [if_pos hin] at h
          cases h
          exact hgrown.links.subset hin
        · simp only [if_neg hin] at h
          split at h
          · cases h
            exact hgrown.links.subset (List.mem_append_right _ (List.mem_singleton_self _))
          · cases h
      exact if_pos hmem

theorem insertLinks_again (h : insertLinks P t obj = .ok r) (hgrown : Grown r.2 u) :
    insertLinks P u obj = .ok (0, u) := by
  unfold insertLinks at h
  split at h
  · next ms =>
    obtain ⟨ids, hids, h⟩ := of_bind_ok h
    rw [insertLinks, hids, bind_ok_eq]
    split at h
    · next hempty => rw [if_pos hempty]
    · next hempty =>
      obtain ⟨oid, hoid, h⟩ := of_bind_ok h
      rw [if_neg hempty, hoid, bind_ok_eq]
      exact insertAll_again (fun t x r _ => insertLink_grows)
        (fun t x r u _ => insertLink_again) h hgrown
  · cases h

end Inserts

end Centinal26.Canonical
