/-
What is read back of a document whose text escapes every surrogate: two that make a pair are one
character, and the names of a record are sorted as strings, whatever they were sorted as.
-/
import Centinal26.Py.Typed
import Centinal26.Py.Utf8

namespace Py

-- == surrogates

/-- Surrogates that make a pair are one character. -/
def joined : PyStr → PyStr
  | high :: low :: rest =>
    if 0xD800 ≤ high ∧ high < 0xDC00 ∧ 0xDC00 ≤ low ∧ low < 0xE000 then
      (0x10000 + (high - 0xD800) * 0x400 + (low - 0xDC00)) :: joined rest
    else high :: joined (low :: rest)
  | s => s

mutual

/-- What is read back of a document that was written with `ensure_ascii`. -/
def Json.joined : Json → Json
  | .str s => .str (Py.joined s)
  | .arr xs => .arr (joinedAll xs)
  | .obj ms => .obj (joinedMembers ms)
  | d => d

def joinedAll : List Json → List Json
  | [] => []
  | x :: xs => x.joined :: joinedAll xs

def joinedMembers : List (PyStr × Json) → List (PyStr × Json)
  | [] => []
  | (k, v) :: rest => (Py.joined k, v.joined) :: joinedMembers rest

end

theorem joined_encodable {s : PyStr} (h : Encodable s) : joined s = s := by
  induction s using joined.induct with
  | case1 high low rest hpair ih =>
    have hscalar := h high (List.mem_cons_self ..)
    unfold isScalar at hscalar
    rw [decide_eq_true_eq] at hscalar
    omega
  | case2 high low rest hpair ih =>
    rw [joined, if_neg hpair, ih fun c hc => h c (List.mem_cons_of_mem _ hc)]
  | case3 s hs => rw [joined.eq_2 s hs]

theorem escapeChar_unit {c : Nat} (hlow : 0x80 ≤ c) (hhigh : c < 0x10000) :
    escapeChar true c = unicodeEscape c := by
  simp only [escapeChar, Bool.true_and]
  rw [if_neg (by omega), if_neg (by omega), if_neg (by omega), if_neg (by omega),
    if_neg (by omega), if_neg (by omega), if_neg (by omega), if_neg (by omega),
    if_pos (by rw [decide_eq_true_eq]; omega), if_pos hhigh]

theorem escapeChar_pair {c high low : Nat} (hc : 0x10000 ≤ c)
    (hhigh : high = 0xD800 + (c - 0x10000) / 0x400) (hlow : low = 0xDC00 + (c - 0x10000) % 0x400) :
    escapeChar true c = unicodeEscape high ++ unicodeEscape low := by
  simp only [escapeChar, Bool.true_and]
  rw [if_neg (by omega), if_neg (by omega), if_neg (by omega), if_neg (by omega),
    if_neg (by omega), if_neg (by omega), if_neg (by omega), if_neg (by omega),
    if_pos (by rw [decide_eq_true_eq]; omega), if_neg (by omega), ← hhigh, ← hlow]

theorem flatMap_joined (s : PyStr) :
    (joined s).flatMap (escapeChar true) = s.flatMap (escapeChar true) := by
  induction s using joined.induct with
  | case1 high low rest hpair ih =>
    obtain ⟨hhigh, hhigh', hlow, hlow'⟩ := hpair
    obtain ⟨c, hc⟩ : ∃ c, c = 0x10000 + (high - 0xD800) * 0x400 + (low - 0xDC00) := ⟨_, rfl⟩
    have hjoined : joined (high :: low :: rest) = c :: joined rest := by
      rw [joined, if_pos ⟨hhigh, hhigh', hlow, hlow'⟩, hc]
    have hescape : escapeChar true c = escapeChar true high ++ escapeChar true low := by
      rw [escapeChar_unit (c := high) (by omega) (by omega),
        escapeChar_unit (c := low) (by omega) (by omega)]
      exact escapeChar_pair (by omega) (by omega) (by omega)
    rw [hjoined, List.flatMap_cons, ih, hescape, List.flatMap_cons, List.flatMap_cons,
      List.append_assoc]
  | case2 high low rest hpair ih =>
    rw [joined, if_neg hpair, List.flatMap_cons, List.flatMap_cons, ih]
  | case3 s hs => rw [joined.eq_2 s hs]

theorem stringLiteral_joined (s : PyStr) :
    stringLiteral true (joined s) = stringLiteral true s := by
  rw [stringLiteral, stringLiteral, flatMap_joined]

mutual

theorem text_joined (b : Style) (hb : b.ensureAscii = true) : ∀ d : Json, d.joined.text b = d.text b
  | .null | .bool _ | .int _ | .float _ => rfl
  | .str s => by rw [Json.joined, Json.text, Json.text, hb, stringLiteral_joined]
  | .arr xs => by rw [Json.joined, Json.text, Json.text, itemTexts_joined b hb xs]
  | .obj ms => by rw [Json.joined, Json.text, Json.text, memberTexts_joined b hb ms]

theorem itemTexts_joined (b : Style) (hb : b.ensureAscii = true) : ∀ xs : List Json,
    itemTexts b (joinedAll xs) = itemTexts b xs
  | [] => rfl
  | x :: xs => by
    rw [joinedAll, itemTexts, itemTexts, text_joined b hb x, itemTexts_joined b hb xs]

theorem memberTexts_joined (b : Style) (hb : b.ensureAscii = true) :
    ∀ ms : List (PyStr × Json), memberTexts b (joinedMembers ms) = memberTexts b ms
  | [] => rfl
  | (k, v) :: rest => by
    rw [joinedMembers, memberTexts, memberTexts, text_joined b hb v, hb, stringLiteral_joined,
      memberTexts_joined b hb rest]

end

mutual

theorem isShort_joined : ∀ d : Json, d.joined.isShort = d.isShort
  | .null | .bool _ | .int _ | .float _ | .str _ => rfl
  | .arr xs => by rw [Json.joined, Json.isShort, Json.isShort, allShort_joined xs]
  | .obj ms => by rw [Json.joined, Json.isShort, Json.isShort, allShortMembers_joined ms]

theorem allShort_joined : ∀ xs : List Json, allShort (joinedAll xs) = allShort xs
  | [] => rfl
  | x :: xs => by rw [joinedAll, allShort, allShort, isShort_joined x, allShort_joined xs]

theorem allShortMembers_joined : ∀ ms : List (PyStr × Json),
    allShortMembers (joinedMembers ms) = allShortMembers ms
  | [] => rfl
  | (_, v) :: rest => by
    rw [joinedMembers, allShortMembers, allShortMembers, isShort_joined v,
      allShortMembers_joined rest]

end

-- == records

theorem joinedMembers_eq (ms : List (PyStr × Json)) :
    joinedMembers ms = ms.map fun m => (joined m.1, m.2.joined) := by
  induction ms with
  | nil => rfl
  | cons m rest ih => rw [joinedMembers, List.map_cons, ih]

variable {α : Type} {m : PyStr × α} {ms : List (PyStr × α)}

theorem sortByName_map {β : Type} (f : PyStr × α → PyStr × β) (hf : ∀ m, (f m).1 = m.1)
    (ms : List (PyStr × α)) : sortByName (ms.map f) = (sortByName ms).map f := by
  have hinsert : ∀ (m : PyStr × α) (ms : List (PyStr × α)),
      insertByName (f m) (ms.map f) = (insertByName m ms).map f := by
    intro m ms
    induction ms with
    | nil => rfl
    | cons n rest ih =>
      rw [List.map_cons, insertByName, insertByName, hf, hf]
      split
      · rfl
      · rw [ih, List.map_cons]
  induction ms with
  | nil => rfl
  | cons m rest ih => rw [List.map_cons, sortByName, sortByName, ih, hinsert]

theorem insertByName_first (h : ∀ n ∈ ms, m.1 < n.1) : insertByName m ms = m :: ms := by
  cases ms with
  | nil => rfl
  | cons n rest => rw [insertByName, if_pos (h n (List.mem_cons_self ..))]

theorem filter_insertByName (p : PyStr × α → Bool) (h : Ordered ms) : (insertByName m ms).filter p
      = if p m = true then insertByName m (ms.filter p) else ms.filter p := by
  induction ms with
  | nil =>
    rw [insertByName]
    split
    · next hp => rw [List.filter_cons_of_pos hp, List.filter_nil, insertByName]
    · next hp => rw [List.filter_cons_of_neg hp, List.filter_nil]
  | cons n rest ih =>
    obtain ⟨hn, hrest⟩ := List.pairwise_cons.mp h
    rw [insertByName]
    by_cases hlt : m.1 < n.1
    · rw [if_pos hlt]
      -- everything that is left comes after the new name
      have hfirst : insertByName m ((n :: rest).filter p) = m :: (n :: rest).filter p := by
        apply insertByName_first
        intro k hk
        rcases List.mem_cons.mp (List.mem_of_mem_filter hk) with rfl | hk
        · exact hlt
        · exact lt_trans hlt (hn k.1 (List.mem_map_of_mem hk))
      by_cases hp : p m = true
      · rw [if_pos hp, List.filter_cons_of_pos hp, hfirst]
      · rw [if_neg hp, List.filter_cons_of_neg hp]
    · rw [if_neg hlt]
      by_cases hpn : p n = true
      · rw [List.filter_cons_of_pos hpn, List.filter_cons_of_pos hpn, ih hrest]
        by_cases hp : p m = true
        · rw [if_pos hp, if_pos hp, insertByName, if_neg hlt]
        · rw [if_neg hp, if_neg hp]
      · rw [List.filter_cons_of_neg hpn, List.filter_cons_of_neg hpn, ih hrest]

theorem filter_sortByName (p : PyStr × α → Bool)
    (h : (ms.map Prod.fst).Nodup) : (sortByName ms).filter p = sortByName (ms.filter p) := by
  induction ms with
  | nil => rfl
  | cons m rest ih =>
    obtain ⟨-, hrest⟩ := List.nodup_cons.mp h
    rw [sortByName, filter_insertByName p (ordered_sortByName hrest), ih hrest]
    by_cases hp : p m = true
    · rw [if_pos hp, List.filter_cons_of_pos hp, sortByName]
    · rw [if_neg hp, List.filter_cons_of_neg hp]

theorem nodup_sortByName (h : (ms.map Prod.fst).Nodup) : ((sortByName ms).map Prod.fst).Nodup :=
  (ordered_sortByName h).nodup

theorem loads_filter {ms : List (PyStr × Json)} (h : (ms.map Prod.fst).Nodup) (k : PyStr) :
    ∃ items, loads (.obj (sortByName ms)) = .dict items
      ∧ (∀ n v, (n, v) ∈ ms → getItem? items (.str n) = some (loads v))
      ∧ .dict (items.filter fun m => !decide (m.1 = .str k))
        = loads (.obj (sortByName (ms.filter fun m => !decide (m.1 = k)))) := by
  have hsorted := nodup_sortByName h
  have hvalues : (((sortByName ms).map fun m => (m.1, loads m.2)).map Prod.fst).Nodup := by
    rw [List.map_map]
    exact hsorted
  refine ⟨_, loads_obj hsorted, fun n v hm => ?_, ?_⟩
  · refine (Dict.mem_items (d := ⟨_, nodup_strItems hvalues⟩)).mp ?_
    refine List.mem_map.mpr ⟨(n, loads v), ?_, rfl⟩
    exact List.mem_map.mpr ⟨(n, v), mem_sortByName.mpr hm, rfl⟩
  · have hrest : ((ms.filter fun m => !decide (m.1 = k)).map Prod.fst).Nodup :=
      h.sublist (List.filter_sublist.map _)
    rw [loads_obj (nodup_sortByName hrest), ← filter_sortByName _ h, strItems, strItems,
      List.filter_map, List.filter_map]
    congr 3
    refine List.filter_congr fun m _ => ?_
    simp

theorem joined_obj {ms : List (PyStr × Json)} (h : ∀ m ∈ ms, Encodable m.1) :
    (Json.obj (sortByName ms)).joined = .obj (sortByName (ms.map fun m => (m.1, m.2.joined))) := by
  have hnames : (sortByName ms).map (fun m => (joined m.1, m.2.joined))
      = (sortByName ms).map fun m => (m.1, m.2.joined) :=
    List.map_congr_left fun m hm => by rw [joined_encodable (h m (mem_sortByName.mp hm))]
  rw [Json.joined, joinedMembers_eq, hnames]
  exact congrArg Json.obj (sortByName_map (fun m => (m.1, m.2.joined)) (fun _ => rfl) ms).symm

theorem isNormal_sorted {ms : List (PyStr × Json)} (hnames : (ms.map Prod.fst).Nodup) :
    (Json.obj (sortByName ms)).isNormal = true ↔ ∀ m ∈ ms, m.2.isNormal = true := by
  rw [Json.isNormal, decide_eq_true (ordered_sortByName hnames), Bool.true_and,
    allNormalMembers_eq, List.all_eq_true]
  exact forall_congr' fun m => by rw [mem_sortByName]

mutual

theorem joined_isEncodable : ∀ d : Json, d.isEncodable = true → d.joined = d
  | .null, _ | .bool _, _ | .int _, _ | .float _, _ => rfl
  | .str s, h => by
    rw [Json.isEncodable, decide_eq_true_eq] at h
    rw [Json.joined, joined_encodable h]
  | .arr xs, h => by rw [Json.joined, joinedAll_encodable xs h]
  | .obj ms, h => by rw [Json.joined, joinedMembers_encodable ms h]

theorem joinedAll_encodable : ∀ xs : List Json, allEncodable xs = true → joinedAll xs = xs
  | [], _ => rfl
  | x :: xs, h => by
    rw [allEncodable, Bool.and_eq_true] at h
    rw [joinedAll, joined_isEncodable x h.1, joinedAll_encodable xs h.2]

theorem joinedMembers_encodable : ∀ ms : List (PyStr × Json), allEncodableMembers ms = true →
    joinedMembers ms = ms
  | [], _ => rfl
  | (k, v) :: rest, h => by
    rw [allEncodableMembers, Bool.and_eq_true, Bool.and_eq_true, decide_eq_true_eq] at h
    rw [joinedMembers, joined_encodable h.1.1, joined_isEncodable v h.1.2,
      joinedMembers_encodable rest h.2]

end

-- == keys

def PyKey.isStr : PyKey → Bool
  | .str _ => true
  | _ => false

theorem PyKey.isStr_of_lt {a b : PyKey} {r : Bool} (h : a.lt b = .ok r) : a.isStr = b.isStr := by
  cases a <;> cases b <;> first | rfl | cases h

variable {ms ms' : List (PyKey × Json)} {items : List (PyKey × PyVal)}

theorem insertMember_head {m : PyKey × Json}
    (h : insertMember m ms = .ok ms') : ms' ≠ [] ∧ ∀ n ∈ ms.head?, m.1.isStr = n.1.isStr := by
  cases ms with
  | nil =>
    cases h
    exact ⟨List.cons_ne_nil _ _, nofun⟩
  | cons n rest =>
    rw [insertMember] at h
    obtain ⟨lt, hlt, h⟩ := of_bind_ok h
    refine ⟨?_, fun k hk => ?_⟩
    · split at h
      · cases h
        exact List.cons_ne_nil _ _
      · obtain ⟨_, -, h⟩ := of_bind_ok h
        cases h
        exact List.cons_ne_nil _ _
    · cases hk
      exact PyKey.isStr_of_lt hlt

theorem sortMembers_isStr (h : sortMembers ms = .ok ms') :
    ∀ m ∈ ms, ∀ n ∈ ms, m.1.isStr = n.1.isStr := by
  induction ms generalizing ms' with
  | nil => exact nofun
  | cons m rest ih =>
    rw [sortMembers] at h
    obtain ⟨sorted, hsorted, h⟩ := of_bind_ok h
    have hhead : ∀ n ∈ rest, m.1.isStr = n.1.isStr := by
      intro n hn
      cases sorted with
      | nil =>
        cases rest with
        | nil => cases hn
        | cons k rest =>
          rw [sortMembers] at hsorted
          obtain ⟨_, -, hinsert⟩ := of_bind_ok hsorted
          exact absurd rfl (insertMember_head hinsert).1
      | cons k sorted =>
        have hk := mem_sortMembers hsorted (List.mem_cons_self ..)
        rw [(insertMember_head h).2 k rfl]
        exact ih hsorted k hk n hn
    intro a ha b hb
    rcases List.mem_cons.mp ha with rfl | ha' <;> rcases List.mem_cons.mp hb with rfl | hb'
    · rfl
    · exact hhead b hb'
    · exact (hhead a ha').symm
    · exact ih hsorted a ha' b hb'

theorem dumpsItems_keys {ds : List (PyKey × Json)}
    (h : dumpsItems items = .ok ds) : ds.map Prod.fst = items.map Prod.fst := by
  induction items generalizing ds with
  | nil =>
    cases h
    rfl
  | cons m rest ih =>
    obtain ⟨k, v⟩ := m
    rw [dumpsItems] at h
    obtain ⟨d, -, h⟩ := of_bind_ok h
    obtain ⟨rest', hrest, h⟩ := of_bind_ok h
    cases h
    rw [List.map_cons, List.map_cons, ih hrest]

theorem eq_strItems (h : ∀ m ∈ items, m.1.isStr = true) : ∃ ms, items = strItems ms := by
  induction items with
  | nil => exact ⟨[], rfl⟩
  | cons m rest ih =>
    obtain ⟨ms, rfl⟩ := ih fun n hn => h n (List.mem_cons_of_mem _ hn)
    obtain ⟨k, v⟩ := m
    have hk := h _ (List.mem_cons_self ..)
    cases k with
    | str s => exact ⟨(s, v) :: ms, rfl⟩
    | none | bool _ | int _ | float _ | object => cases hk

theorem strItems_of_dumps {d : Json} {s : PyStr}
    (h : dumps (.dict items) = .ok d) (hs : .str s ∈ items.map Prod.fst) :
    ∃ ms, items = strItems ms := by
  rw [dumps] at h
  obtain ⟨ds, hds, h⟩ := of_bind_ok h
  obtain ⟨sorted, hsorted, -⟩ := of_bind_ok h
  have hkeys := dumpsItems_keys hds
  refine eq_strItems fun m hm => ?_
  rw [← hkeys] at hs
  obtain ⟨n, hn, hname⟩ := List.mem_map.mp hs
  obtain ⟨n', hn', hname'⟩ := List.mem_map.mp (hkeys ▸ List.mem_map_of_mem (f := Prod.fst) hm)
  rw [← hname', sortMembers_isStr hsorted n' hn' n hn, hname]
  rfl

-- == one name

theorem dumpsFields_setItem {ms : List (PyStr × PyVal)} {fields : List (PyStr × Json)}
    {k : PyStr} {v : PyVal} {w : Json} (h : dumpsFields dumps ms = .ok fields)
    (hv : dumps v = .ok w) : dumpsFields dumps (setItem ms k v) = .ok (setItem fields k w) := by
  induction ms generalizing fields with
  | nil =>
    cases h
    rw [setItem, dumpsFields_cons, hv]
    rfl
  | cons m rest ih =>
    rw [dumpsFields_cons] at h
    obtain ⟨d, hd, h⟩ := of_bind_ok h
    obtain ⟨ds, hds, h⟩ := of_bind_ok h
    cases h
    unfold setItem
    split
    · rw [dumpsFields_cons, hv, hds]
      rfl
    · rw [dumpsFields_cons, hd, ih hds]
      rfl

theorem filter_setItem {α β : Type} [DecidableEq α] (d : List (α × β)) (k : α) (v : β) :
    (setItem d k v).filter (fun m => !decide (m.1 = k)) = d.filter fun m => !decide (m.1 = k) := by
  induction d with
  | nil => simp [setItem]
  | cons m rest ih =>
    unfold setItem
    split
    · next hk => simp [hk]
    · next hk => simp [hk, ih]

mutual

theorem dumps_loads_eq : ∀ d q : Json, d.isNormal = true → dumps (loads d) = .ok q → q = d
  | .null | .bool _ | .float _ | .str _ => fun _ _ h => by
    rw [loads, dumps] at h
    exact (Except.ok.inj h).symm
  | .int _ => fun _ _ h => by
    rw [loads, dumps] at h
    obtain ⟨_, -, h⟩ := of_bind_ok h
    exact (Except.ok.inj h).symm
  | .arr xs => fun q hn h => by
    rw [loads, dumps] at h
    obtain ⟨qs, hqs, h⟩ := of_bind_ok h
    rw [← Except.ok.inj h, dumpsList_loads_eq xs qs hn hqs]
  | .obj ms => fun q hn h => by
    rw [Json.isNormal, Bool.and_eq_true, decide_eq_true_eq] at hn
    rw [loads_obj hn.1.nodup, dumps_strItems] at h
    obtain ⟨fields, hfields, rfl⟩ := of_map_ok h
    rw [dumpsFields_loads_eq ms fields hn.2 hfields, sortByName_eq hn.1]

theorem dumpsList_loads_eq : ∀ xs qs : List Json, allNormal xs = true →
    dumpsList (loadsList xs) = .ok qs → qs = xs
  | [] => fun _ _ h => by
    rw [loadsList, dumpsList] at h
    exact (Except.ok.inj h).symm
  | x :: xs => fun qs hn h => by
    rw [allNormal, Bool.and_eq_true] at hn
    rw [loadsList, dumpsList] at h
    obtain ⟨q, hq, h⟩ := of_bind_ok h
    obtain ⟨rest, hrest, h⟩ := of_bind_ok h
    rw [← Except.ok.inj h, dumps_loads_eq x q hn.1 hq, dumpsList_loads_eq xs rest hn.2 hrest]

theorem dumpsFields_loads_eq : ∀ (ms fields : List (PyStr × Json)), allNormalMembers ms = true →
    dumpsFields dumps (ms.map fun m => (m.1, loads m.2)) = .ok fields → fields = ms
  | [] => fun _ _ h => (Except.ok.inj h).symm
  | (k, v) :: rest => fun fields hn h => by
    rw [allNormalMembers, Bool.and_eq_true] at hn
    rw [List.map_cons, dumpsFields_cons] at h
    obtain ⟨q, hq, h⟩ := of_bind_ok h
    obtain ⟨later, hlater, h⟩ := of_bind_ok h
    rw [← Except.ok.inj h, dumps_loads_eq v q hn.1 hq, dumpsFields_loads_eq rest later hn.2 hlater]

end

/-- The names in what is read back of a value are in order. -/
def keepsOrder (v : PyVal) : Bool :=
  match dumps v with
  | .ok d => d.joined.isNormal
  | .error _ => false

theorem keepsOrder_iff {v : PyVal} {d : Json} (h : dumps v = .ok d) :
    keepsOrder v = true ↔ d.joined.isNormal = true := by
  rw [keepsOrder, h]

end Py
