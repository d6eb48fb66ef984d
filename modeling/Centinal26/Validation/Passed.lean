/-
What each check reads where it adds no violation.
-/
import Centinal26.Validation.Checks

namespace Centinal26.Validation

open Py Check

-- == records

structure RecordOf (schema : String) (fields : List String) (value : PyVal) (item : Items) :
    Prop where
  record : value = .dict item
  complete : ∀ f ∈ fields, ∃ m ∈ item, m.1 = .str (py f)
  closed : ∀ m ∈ item, ∃ f ∈ fields, m.1 = .str (py f)
  schema : itemOf item "schema" = .str (py schema)

variable {names : List PyStr} {r : Option Items}

theorem clean_each_add {f : PyStr → Check Unit} (h : ∀ s, ¬ (f s).Clean ()) :
    (each (fun _ s => f s) 0 names).Clean () ↔ names = [] := by
  rw [clean_each (P := fun _ => False) fun _ s => iff_false_intro (h s)]
  cases names with
  | nil => exact ⟨fun _ => rfl, fun _ s hs => (List.not_mem_nil hs).elim⟩
  | cons s rest => exact ⟨fun hall => (hall s (List.mem_cons_self ..)).elim, nofun⟩

theorem sortedNames_eq_nil : sortedNames names = [] ↔ names = [] := by
  rw [← List.length_eq_zero_iff, sortedNames, List.length_mergeSort, List.length_eq_zero_iff]

variable {fields : List String} {item : Items} {key code : String} {path : PyStr}

theorem missing_eq_nil :
    missing fields item = [] ↔ ∀ f ∈ fields, ∃ m ∈ item, m.1 = .str (py f) := by
  simp [missing, List.filter_eq_nil_iff]

theorem extra_eq_nil : extra fields item = [] ↔ ∀ m ∈ item, ∃ f ∈ fields, m.1 = .str (py f) := by
  simp [extra, List.filter_eq_nil_iff]

theorem has_field (hkey : key ∈ fields) (h : ∀ f ∈ fields, ∃ m ∈ item, m.1 = .str (py f)) :
    item.any (fun m => decide (m.1 = .str (py key))) = true := by
  obtain ⟨m, hm, heq⟩ := h key hkey
  exact List.any_eq_true.mpr ⟨m, hm, decide_eq_true heq⟩

theorem clean_record {value : PyVal} {kind noun schema : String} (hschema : "schema" ∈ fields) :
    (record value path kind noun schema fields).Clean r
      ↔ ∃ item, r = some item ∧ RecordOf schema fields value item := by
  unfold record
  cases hv : value.dict? with
  | none =>
    constructor
    · intro h
      exact absurd h not_clean_refuse
    · rintro ⟨item, -, h⟩
      rw [PyVal.dict?_eq.mpr h.record] at hv
      cases hv
  | some item =>
    dsimp only
    simp only [clean_bind, clean_each_add fun _ => not_clean_add, clean_check, clean_pure,
      sortedNames_eq_nil, List.map_eq_nil_iff, missing_eq_nil, extra_eq_nil]
    constructor
    · rintro ⟨-, hcomplete, -, hclosed, -, hs, rfl⟩
      rw [has_field hschema hcomplete] at hs
      exact ⟨item, rfl, PyVal.dict?_eq.mp hv, hcomplete, hclosed, PyVal.eq_str.mp hs⟩
    · rintro ⟨item', rfl, h⟩
      rw [PyVal.dict?_eq.mpr h.record] at hv
      cases hv
      refine ⟨(), h.complete, (), h.closed, (), ?_, rfl⟩
      rw [PyVal.eq_str.mpr h.schema, Bool.or_true]

-- == members

theorem clean_text {r : Option PyStr} : (text item key path code).Clean r
      ↔ ∃ s, r = some s ∧ itemOf item key = .str s ∧ s ≠ [] := by
  unfold text
  split
  · next c s hv =>
    rw [clean_pure, hv]
    constructor
    · rintro rfl
      exact ⟨c :: s, rfl, rfl, by simp⟩
    · rintro ⟨s', rfl, hs', -⟩
      rw [PyVal.str.inj hs']
  · next hne =>
    constructor
    · intro h
      exact absurd h not_clean_refuse
    · rintro ⟨s, -, hs, hs'⟩
      cases s with
      | nil => exact absurd rfl hs'
      | cons c s => exact absurd hs (hne c s)

theorem clean_mapping : (mapping item key path code).Clean r
      ↔ ∃ d, r = some d ∧ itemOf item key = .dict d := by
  unfold mapping
  split
  · next d hv =>
    rw [clean_pure, PyVal.dict?_eq.mp hv]
    constructor
    · rintro rfl
      exact ⟨d, rfl, rfl⟩
    · rintro ⟨d', rfl, hd⟩
      rw [PyVal.dict.inj hd]
  · next hv =>
    constructor
    · intro h
      exact absurd h not_clean_refuse
    · rintro ⟨d, -, hd⟩
      rw [PyVal.dict?_eq.mpr hd] at hv
      cases hv

theorem clean_enum {allowed : List String}
    {r : Option PyStr} : (enum item key allowed path code).Clean r
      ↔ ∃ a ∈ allowed, r = some (py a) ∧ itemOf item key = .str (py a) := by
  unfold enum
  split
  · next s hv =>
    rw [PyVal.text?_eq.mp hv]
    split
    · next hany =>
      rw [clean_pure]
      obtain ⟨a, ha, heq⟩ := List.any_eq_true.mp hany
      rw [← of_decide_eq_true heq]
      constructor
      · rintro rfl
        exact ⟨a, ha, rfl, rfl⟩
      · rintro ⟨a', -, rfl, hs⟩
        rw [PyVal.str.inj hs]
    · next hany =>
      constructor
      · intro h
        exact absurd h not_clean_refuse
      · rintro ⟨a, ha, -, hs⟩
        exact absurd (List.any_eq_true.mpr ⟨a, ha, decide_eq_true (PyVal.str.inj hs).symm⟩) hany
  · next hv =>
    constructor
    · intro h
      exact absurd h not_clean_refuse
    · rintro ⟨a, -, -, hs⟩
      rw [PyVal.text?_eq.mpr hs] at hv
      cases hv

section Times

variable (fromisoformat : PyStr → Option DateTime)

def TimeOf (value : PyVal) (t : Instant) : Prop :=
  ∃ s, value = .str s ∧ fromisoformat s = some (.aware t) ∧ 0 ≤ t ∧ t ≤ maxInstant

variable {fromisoformat}

theorem clean_timestamp {item : Items} {key : String} {path : PyStr} {code : String}
    {r : Option Instant} : (timestamp fromisoformat item key path code).Clean r
      ↔ ∃ t, r = some t ∧ TimeOf fromisoformat (itemOf item key) t := by
  unfold timestamp TimeOf
  split
  · next t hv =>
    obtain ⟨s, hs, ht⟩ := Option.bind_eq_some_iff.mp hv
    rw [PyVal.text?_eq.mp hs]
    simp only [clean_bind, clean_lift, clean_pure, astimezone_ok]
    constructor
    · rintro ⟨t', ⟨hrange, rfl⟩, rfl⟩
      exact ⟨t', rfl, s, rfl, ht, hrange⟩
    · rintro ⟨t', rfl, s', hs', ht', hrange⟩
      cases hs'
      rw [ht] at ht'
      cases ht'
      exact ⟨t, ⟨hrange, rfl⟩, rfl⟩
  · next hne =>
    constructor
    · intro h
      exact absurd h not_clean_refuse
    · rintro ⟨t, -, s, hs, ht, -⟩
      refine absurd ?_ (hne t)
      rw [hs]
      exact ht

end Times

-- == arrays

/-- A value is an array of different non-empty strings. -/
structure StringsOf (minItems : Nat) (value : PyVal) (ss : List PyStr) : Prop where
  listed : value = .list (ss.map .str)
  nonempty : ∀ s ∈ ss, s ≠ []
  once : ss.Nodup
  enough : minItems ≤ ss.length

theorem goodEntries_map {ss : List PyStr} (h : ∀ s ∈ ss, s ≠ []) :
    goodEntries (ss.map .str) = ss := by
  induction ss with
  | nil => rfl
  | cons s ss ih =>
    obtain ⟨hs, hss⟩ := List.forall_mem_cons.mp h
    cases s with
    | nil => exact absurd rfl hs
    | cons c s =>
      show (c :: s) :: goodEntries (ss.map .str) = _
      rw [ih hss]

theorem clean_entry {path : PyStr} {code : String} (index : Nat) (v : PyVal) :
    (entry path code index v).Clean () ↔ ∃ s, v = .str s ∧ s ≠ [] := by
  unfold entry
  split
  · next c s => exact ⟨fun _ => ⟨c :: s, rfl, by simp⟩, fun _ => rfl⟩
  · next hne =>
    constructor
    · intro h
      exact absurd h not_clean_add
    · rintro ⟨s, rfl, hs⟩
      cases s with
      | nil => exact absurd rfl hs
      | cons c s => exact absurd rfl (hne c s)

theorem clean_strings {item : Items} {key : String} {path : PyStr} {code : String}
    {minItems : Nat} {r : Option (List PyStr)} : (strings item key path code minItems).Clean r
      ↔ ∃ ss, r = some ss ∧ StringsOf minItems (itemOf item key) ss := by
  unfold strings
  cases hv : (itemOf item key).list? with
  | none =>
    constructor
    · intro h
      exact absurd h not_clean_refuse
    · rintro ⟨ss, -, h⟩
      rw [PyVal.list?_eq.mpr h.listed] at hv
      cases hv
  | some values =>
    dsimp only
    rw [clean_bind]
    simp only [clean_bind, clean_check, clean_each clean_entry, clean_pure, decide_eq_true_eq]
    constructor
    · rintro ⟨-, henough, -, hgood, -, honce, rfl⟩
      have hvalues : ∃ ss : List PyStr, values = ss.map .str ∧ ∀ s ∈ ss, s ≠ [] := by
        refine ⟨goodEntries values, ?_⟩
        clear hv henough honce
        induction values with
        | nil => exact ⟨rfl, by simp [goodEntries]⟩
        | cons v vs ih =>
          obtain ⟨⟨s, rfl, hs⟩, hvs⟩ := List.forall_mem_cons.mp hgood
          obtain ⟨hmap, hne⟩ := ih hvs
          cases s with
          | nil => exact absurd rfl hs
          | cons c s =>
            show _ = ((c :: s) :: goodEntries vs).map PyVal.str ∧ ∀ t ∈ (c :: s) :: _, t ≠ []
            refine ⟨by rw [List.map_cons, ← hmap], ?_⟩
            exact List.forall_mem_cons.mpr ⟨hs, hne⟩
      obtain ⟨ss, rfl, hne⟩ := hvalues
      rw [goodEntries_map hne] at honce ⊢
      rw [List.length_map] at henough ⊢
      rw [if_pos ⟨henough, rfl, honce⟩]
      exact ⟨ss, rfl, PyVal.list?_eq.mp hv, hne, honce, henough⟩
    · rintro ⟨ss, rfl, hlisted, hne, honce, henough⟩
      rw [PyVal.list?_eq.mpr hlisted] at hv
      cases hv
      rw [goodEntries_map hne, List.length_map]
      refine ⟨(), henough, (), ?_, (), honce, if_pos ⟨henough, rfl, honce⟩⟩
      intro v hmem
      obtain ⟨s, hs, rfl⟩ := List.mem_map.mp hmem
      exact ⟨s, rfl, hne s hs⟩

-- == index

variable {idField collection singular : String} {index : List (PyStr × Items)}

theorem clean_indexOne {position : Nat} {value : PyVal}
    {before : List (PyStr × Items)} (hbefore : (before.map Prod.fst).Nodup) :
    (indexOne idField collection singular position before value).Clean index
      ↔ index = before ++ identified idField [value] ∧ (index.map Prod.fst).Nodup := by
  have hone : identified idField [value] = [] ∨ ∃ m, identified idField [value] = [m] := by
    unfold identified
    rw [List.filterMap_cons]
    split
    · exact Or.inl rfl
    · next m _ => exact Or.inr ⟨m, rfl⟩
  unfold indexOne
  rcases hone with hnone | ⟨⟨id, item⟩, hsome⟩
  · rw [hnone]
    simp only [clean_pure, List.append_nil]
    constructor
    · rintro rfl
      exact ⟨rfl, hbefore⟩
    · rintro ⟨rfl, -⟩
      rfl
  · rw [hsome]
    dsimp only
    split
    · next hdup =>
      constructor
      · intro h
        obtain ⟨u, hadd, -⟩ := clean_bind.mp h
        exact absurd hadd not_clean_add
      · rintro ⟨rfl, honce⟩
        obtain ⟨v, hv⟩ := Option.isSome_iff_exists.mp hdup
        have hmem := (getItem?_eq_some hbefore).mp hv
        rw [List.map_append, List.nodup_append] at honce
        exact absurd rfl (honce.2.2 id (List.mem_map_of_mem hmem) id (by simp))
    · next hnew =>
      rw [clean_pure]
      constructor
      · rintro rfl
        refine ⟨rfl, ?_⟩
        rw [List.map_append, List.nodup_append]
        refine ⟨hbefore, by simp, fun a ha b hb => ?_⟩
        rw [List.map_singleton, List.mem_singleton] at hb
        rintro rfl
        -- the id is one of those before it
        obtain ⟨⟨id', item'⟩, hm, hid⟩ := List.mem_map.mp ha
        have hfound := (getItem?_eq_some hbefore).mpr hm
        rw [show id' = id from hid.trans hb] at hfound
        exact hnew (Option.isSome_iff_exists.mpr ⟨item', hfound⟩)
      · rintro ⟨rfl, -⟩
        rfl

theorem clean_indexUnique {values : List PyVal} :
    ∀ {position : Nat} {before index : List (PyStr × Items)}, (before.map Prod.fst).Nodup →
      ((indexUnique idField collection singular position before values).Clean index
        ↔ index = before ++ identified idField values ∧ (index.map Prod.fst).Nodup) := by
  induction values with
  | nil =>
    intro position before index hbefore
    rw [indexUnique, clean_pure]
    constructor
    · rintro rfl
      exact ⟨by simp [identified], hbefore⟩
    · rintro ⟨rfl, -⟩
      simp [identified]
  | cons value rest ih =>
    intro position before index hbefore
    have hsplit : identified idField (value :: rest)
        = identified idField [value] ++ identified idField rest := by
      unfold identified
      rw [← List.filterMap_append, List.singleton_append]
    rw [indexUnique, clean_bind, hsplit]
    constructor
    · rintro ⟨between, hone, hrest⟩
      obtain ⟨rfl, hnodup⟩ := (clean_indexOne hbefore).mp hone
      rw [← List.append_assoc]
      exact (ih hnodup).mp hrest
    · rintro ⟨rfl, honce⟩
      rw [← List.append_assoc] at honce ⊢
      have hnodup : ((before ++ identified idField [value]).map Prod.fst).Nodup := by
        rw [List.map_append] at honce
        exact (List.nodup_append.mp honce).1
      exact ⟨_, (clean_indexOne hbefore).mpr ⟨rfl, hnodup⟩, (ih hnodup).mpr ⟨rfl, honce⟩⟩

theorem clean_refsExist {refs : List PyStr} {path : PyStr}
    {code : String} {b : Bool} : (refsExist (some refs) index path code).Clean b
      ↔ b = true ∧ ∀ ref ∈ refs, (getItem? index ref).isSome = true := by
  have heach : (each (fun position ref => check (getItem? index ref).isSome code
      (below path ("[" ++ toString position ++ "]")) (py "reference does not exist")) 0
      refs).Clean () ↔ ∀ ref ∈ refs, (getItem? index ref).isSome = true :=
    clean_each (P := fun ref => (getItem? index ref).isSome = true) fun _ _ => clean_check
  unfold refsExist
  rw [clean_bind]
  constructor
  · rintro ⟨u, hall, hb⟩
    have hall := heach.mp hall
    exact ⟨(clean_pure.mp hb).symm.trans (List.all_eq_true.mpr hall), hall⟩
  · rintro ⟨rfl, hall⟩
    exact ⟨(), heach.mpr hall, clean_pure.mpr (List.all_eq_true.mpr hall)⟩

end Centinal26.Validation
