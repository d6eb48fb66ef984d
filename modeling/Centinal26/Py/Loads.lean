/-
What `json.loads` gives back can be dumped again, and comes back as it is: a value
read from JSON has its keys sorted, no key twice, and no integer with more digits
than `int` writes.
-/
import Centinal26.Py.Dict
import Centinal26.Py.JsonText

namespace Py

-- == order

variable {α : Type} {ms : List (PyStr × α)}

theorem dictOf_eq {β : Type} [DecidableEq α] {pairs : List (α × β)}
    (h : (pairs.map Prod.fst).Nodup) : dictOf pairs = pairs := by
  induction pairs using List.reverseRecOn with
  | nil => rfl
  | append_singleton pairs m ih =>
    rw [List.map_append, List.map_singleton, List.nodup_append] at h
    have hlast : dictOf (pairs ++ [m]) = setItem (dictOf pairs) m.1 m.2 := by
      unfold dictOf
      rw [List.foldl_append]
      rfl
    rw [hlast, ih h.1, setItem_new (getItem?_of_not_mem ?_)]
    exact fun hm => h.2.2 _ hm _ (List.mem_singleton_self _) rfl

theorem Ordered.nodup (h : Ordered ms) : (ms.map Prod.fst).Nodup :=
  List.Pairwise.imp (fun hlt => ne_of_lt hlt) h

theorem sortByName_eq (h : Ordered ms) : sortByName ms = ms := by
  induction ms with
  | nil => rfl
  | cons m rest ih =>
    obtain ⟨hm, hrest⟩ := List.pairwise_cons.mp h
    rw [sortByName, ih hrest]
    cases rest with
    | nil => rfl
    | cons n rest =>
      rw [insertByName, if_pos (hm n.1 (List.mem_cons_self ..))]

mutual

theorem normalise_eq : ∀ d : Json, d.isNormal = true → d.normalise = d
  | .null, _ => rfl
  | .bool _, _ => rfl
  | .int _, _ => rfl
  | .float _, _ => rfl
  | .str _, _ => rfl
  | .arr xs, h => by rw [Json.normalise, normaliseAll_eq xs h]
  | .obj ms, h => by
    rw [Json.isNormal, Bool.and_eq_true, decide_eq_true_eq] at h
    rw [Json.normalise, normaliseMembers_eq ms h.2, dictOf_eq h.1.nodup, sortByName_eq h.1]

theorem normaliseAll_eq : ∀ xs : List Json, allNormal xs = true → normaliseAll xs = xs
  | [], _ => rfl
  | x :: xs, h => by
    rw [allNormal, Bool.and_eq_true] at h
    rw [normaliseAll, normalise_eq x h.1, normaliseAll_eq xs h.2]

theorem normaliseMembers_eq : ∀ ms : List (PyStr × Json),
    allNormalMembers ms = true → normaliseMembers ms = ms
  | [], _ => rfl
  | (k, v) :: rest, h => by
    rw [allNormalMembers, Bool.and_eq_true] at h
    rw [normaliseMembers, normalise_eq v h.1, normaliseMembers_eq rest h.2]

end

-- == digits

mutual

/-- No integer of the document is too long to be written. -/
def Json.isShort : Json → Bool
  | .int n => (checkDigits n).isOk
  | .arr xs => allShort xs
  | .obj ms => allShortMembers ms
  | _ => true

def allShort : List Json → Bool
  | [] => true
  | x :: xs => x.isShort && allShort xs

def allShortMembers : List (PyStr × Json) → Bool
  | [] => true
  | (_, v) :: rest => v.isShort && allShortMembers rest

end

theorem allShortMembers_eq (ms : List (PyStr × Json)) :
    allShortMembers ms = ms.all fun m => m.2.isShort := by
  induction ms with
  | nil => rfl
  | cons m rest ih => rw [allShortMembers, List.all_cons, ih]

variable {n : PyKey × Json} {ms ms' : List (PyKey × Json)}

theorem mem_insertMember {m : PyKey × Json}
    (h : insertMember m ms = .ok ms') (hn : n ∈ ms') : n = m ∨ n ∈ ms := by
  induction ms generalizing ms' with
  | nil =>
    cases h
    exact List.mem_cons.mp hn
  | cons k rest ih =>
    unfold insertMember at h
    obtain ⟨lt, -, h⟩ := of_bind_ok h
    split at h
    · cases h
      exact List.mem_cons.mp hn
    · obtain ⟨rest', hrest, h⟩ := of_bind_ok h
      cases h
      rcases List.mem_cons.mp hn with rfl | hn
      · exact Or.inr (List.mem_cons_self ..)
      · exact (ih hrest hn).imp_right (List.mem_cons_of_mem _)

theorem mem_sortMembers (h : sortMembers ms = .ok ms') (hn : n ∈ ms') : n ∈ ms := by
  induction ms generalizing ms' with
  | nil =>
    cases h
    exact hn
  | cons m rest ih =>
    unfold sortMembers at h
    obtain ⟨rest', hrest, h⟩ := of_bind_ok h
    rcases mem_insertMember h hn with rfl | hn
    · exact List.mem_cons_self ..
    · exact List.mem_cons_of_mem _ (ih hrest hn)

theorem mem_writeKeys {k : PyStr} {v : Json}
    {ms' : List (PyStr × Json)} (h : writeKeys ms = .ok ms') (hn : (k, v) ∈ ms') :
    ∃ key, (key, v) ∈ ms := by
  induction ms generalizing ms' with
  | nil =>
    cases h
    cases hn
  | cons m rest ih =>
    unfold writeKeys at h
    obtain ⟨name, -, h⟩ := of_bind_ok h
    obtain ⟨rest', hrest, h⟩ := of_bind_ok h
    cases h
    rcases List.mem_cons.mp hn with hn | hn
    · cases hn
      exact ⟨m.1, List.mem_cons_self ..⟩
    · obtain ⟨key, hkey⟩ := ih hrest hn
      exact ⟨key, List.mem_cons_of_mem _ hkey⟩

mutual

theorem isShort_dumps : ∀ (v : PyVal) (d : Json), dumps v = .ok d → d.isShort = true
  | .none => fun _ h => by cases h; rfl
  | .bool _ => fun _ h => by cases h; rfl
  | .float _ => fun _ h => by cases h; rfl
  | .str _ => fun _ h => by cases h; rfl
  | .object => fun _ h => by cases h
  | .int n => fun d h => by
    rw [dumps] at h
    obtain ⟨u, hu, h⟩ := of_bind_ok h
    cases h
    rw [Json.isShort, hu]
    rfl
  | .list xs => fun d h => by
    rw [dumps] at h
    obtain ⟨ds, hds, h⟩ := of_bind_ok h
    cases h
    exact isShort_dumpsList xs ds hds
  | .tuple xs => fun d h => by
    rw [dumps] at h
    obtain ⟨ds, hds, h⟩ := of_bind_ok h
    cases h
    exact isShort_dumpsList xs ds hds
  | .dict items => fun d h => by
    rw [dumps] at h
    obtain ⟨ds, hds, h⟩ := of_bind_ok h
    obtain ⟨sorted, hsorted, h⟩ := of_bind_ok h
    obtain ⟨written, hwritten, h⟩ := of_bind_ok h
    cases h
    rw [Json.isShort, allShortMembers_eq, List.all_eq_true]
    intro m hm
    obtain ⟨key, hkey⟩ := mem_writeKeys hwritten hm
    exact isShort_dumpsItems items ds hds _ (mem_sortMembers hsorted hkey)

theorem isShort_dumpsList : ∀ (xs : List PyVal) (ds : List Json),
    dumpsList xs = .ok ds → allShort ds = true
  | [] => fun _ h => by cases h; rfl
  | x :: xs => fun ds h => by
    rw [dumpsList] at h
    obtain ⟨d, hd, h⟩ := of_bind_ok h
    obtain ⟨rest, hrest, h⟩ := of_bind_ok h
    cases h
    rw [allShort, isShort_dumps x d hd, isShort_dumpsList xs rest hrest]
    rfl

theorem isShort_dumpsItems : ∀ (items : List (PyKey × PyVal))
    (ds : List (PyKey × Json)), dumpsItems items = .ok ds →
    ∀ m ∈ ds, m.2.isShort = true
  | [] => fun _ h m hm => by
    cases h
    cases hm
  | (k, v) :: rest => fun ds h m hm => by
    rw [dumpsItems] at h
    obtain ⟨d, hd, h⟩ := of_bind_ok h
    obtain ⟨ds', hds', h⟩ := of_bind_ok h
    cases h
    rcases List.mem_cons.mp hm with rfl | hm
    · exact isShort_dumps v d hd
    · exact isShort_dumpsItems rest ds' hds' m hm

end

mutual

theorem isShort_normalise : ∀ d : Json, d.isShort = true → d.normalise.isShort = true
  | .null => fun _ => rfl
  | .bool _ => fun _ => rfl
  | .int _ => fun h => h
  | .float _ => fun _ => rfl
  | .str _ => fun _ => rfl
  | .arr xs => fun h => allShort_normaliseAll xs h
  | .obj ms => fun h => by
    rw [Json.isShort, allShortMembers_eq, List.all_eq_true] at h
    rw [Json.normalise, Json.isShort, allShortMembers_eq, List.all_eq_true]
    intro m hm
    exact short_normaliseMembers ms h m ((dictOf_spec _).2 m (mem_sortByName.mp hm))

theorem allShort_normaliseAll : ∀ xs : List Json, allShort xs = true →
    allShort (normaliseAll xs) = true
  | [] => fun _ => rfl
  | x :: xs => fun h => by
    rw [allShort, Bool.and_eq_true] at h
    rw [normaliseAll, allShort, isShort_normalise x h.1, allShort_normaliseAll xs h.2]
    rfl

theorem short_normaliseMembers : ∀ ms : List (PyStr × Json),
    (∀ m ∈ ms, m.2.isShort = true) → ∀ m ∈ normaliseMembers ms, m.2.isShort = true
  | [] => fun _ m hm => by cases hm
  | (k, v) :: rest => fun h m hm => by
    rw [normaliseMembers] at hm
    rcases List.mem_cons.mp hm with rfl | hm
    · exact isShort_normalise v (h _ (List.mem_cons_self ..))
    · exact short_normaliseMembers rest (fun n hn => h n (List.mem_cons_of_mem _ hn)) m hm

end

-- == loads

theorem loadsMembers_eq (ms : List (PyStr × Json)) :
    loadsMembers ms = strItems (ms.map fun m => (m.1, loads m.2)) := by
  induction ms with
  | nil => rfl
  | cons m rest ih =>
    show (PyKey.str m.1, loads m.2) :: loadsMembers rest = _
    rw [ih]
    rfl

theorem nodup_strItems {α : Type} {ms : List (PyStr × α)}
    (h : (ms.map Prod.fst).Nodup) : ((strItems ms).map Prod.fst).Nodup := by
  have hmap : (strItems ms).map Prod.fst = (ms.map Prod.fst).map PyKey.str := by
    rw [strItems, List.map_map, List.map_map]
    rfl
  rw [hmap]
  exact h.map fun s t hst => PyKey.str.inj hst

theorem loads_obj {ms : List (PyStr × Json)} (h : (ms.map Prod.fst).Nodup) :
    loads (.obj ms) = .dict (strItems (ms.map fun m => (m.1, loads m.2))) := by
  rw [loads, loadsMembers_eq, dictOf_eq]
  refine nodup_strItems ?_
  rw [List.map_map]
  exact h

mutual

theorem dumps_loads : ∀ d : Json, d.isNormal = true → d.isShort = true → dumps (loads d) = .ok d
  | .null => fun _ _ => by rw [loads, dumps]
  | .bool _ => fun _ _ => by rw [loads, dumps]
  | .float _ => fun _ _ => by rw [loads, dumps]
  | .str _ => fun _ _ => by rw [loads, dumps]
  | .int n => fun _ h => by
    rw [Json.isShort] at h
    obtain ⟨u, hu⟩ := exists_ok h
    rw [loads, dumps, hu]
    rfl
  | .arr xs => fun hn hs => by
    rw [loads, dumps, dumpsList_loads xs hn hs]
    rfl
  | .obj ms => fun hn hs => by
    rw [Json.isNormal, Bool.and_eq_true, decide_eq_true_eq] at hn
    rw [loads_obj hn.1.nodup, dumps_strItems, dumpsFields_loads ms hn.2 hs]
    show Except.ok (Json.obj (sortByName ms)) = _
    rw [sortByName_eq hn.1]

theorem dumpsList_loads : ∀ xs : List Json, allNormal xs = true → allShort xs = true →
    dumpsList (loadsList xs) = .ok xs
  | [] => fun _ _ => by rw [loadsList, dumpsList]
  | x :: xs => fun hn hs => by
    rw [allNormal, Bool.and_eq_true] at hn
    rw [allShort, Bool.and_eq_true] at hs
    rw [loadsList, dumpsList, dumps_loads x hn.1 hs.1, dumpsList_loads xs hn.2 hs.2]
    rfl

theorem dumpsFields_loads : ∀ ms : List (PyStr × Json), allNormalMembers ms = true →
    allShortMembers ms = true →
    dumpsFields dumps (ms.map fun m => (m.1, loads m.2)) = .ok ms
  | [] => fun _ _ => rfl
  | (k, v) :: rest => fun hn hs => by
    rw [allNormalMembers, Bool.and_eq_true] at hn
    rw [allShortMembers, Bool.and_eq_true] at hs
    rw [List.map_cons, dumpsFields_cons, dumps_loads v hn.1 hs.1, dumpsFields_loads rest hn.2 hs.2]
    rfl

end

theorem allItemsFinite_strItems (ms : List (PyStr × PyVal)) :
    allItemsFinite (strItems ms) = ms.all fun m => m.2.isFinite := by
  induction ms with
  | nil => rfl
  | cons m rest ih =>
    show allItemsFinite ((PyKey.str m.1, m.2) :: strItems rest) = _
    rw [allItemsFinite, ih, List.all_cons, Bool.true_and]
    all_goals exact nofun

mutual

theorem isFinite_loads : ∀ d : Json, d.isNormal = true → (loads d).isFinite = d.isFinite
  | .null, _ => by rw [loads]; rfl
  | .bool _, _ => by rw [loads]; rfl
  | .int _, _ => by rw [loads]; rfl
  | .str _, _ => by rw [loads]; rfl
  | .float x, _ => by
    rw [loads]
    cases x <;> rfl
  | .arr xs, hn => by
    rw [loads, PyVal.isFinite, Json.isFinite]
    exact allFinite_loads xs hn
  | .obj ms, hn => by
    rw [Json.isNormal, Bool.and_eq_true, decide_eq_true_eq] at hn
    rw [loads_obj hn.1.nodup, PyVal.isFinite, Json.isFinite, allItemsFinite_strItems]
    exact allFiniteMembers_loads ms hn.2

theorem allFinite_loads : ∀ xs : List Json, allNormal xs = true →
    allValuesFinite (loadsList xs) = allFinite xs
  | [], _ => by rw [loadsList]; rfl
  | x :: xs, hn => by
    rw [allNormal, Bool.and_eq_true] at hn
    rw [loadsList, allValuesFinite, allFinite, isFinite_loads x hn.1, allFinite_loads xs hn.2]

theorem allFiniteMembers_loads : ∀ ms : List (PyStr × Json), allNormalMembers ms = true →
    ((ms.map fun m => (m.1, loads m.2)).all fun m => m.2.isFinite) = allFiniteMembers ms
  | [], _ => rfl
  | (k, v) :: rest, hn => by
    rw [allNormalMembers, Bool.and_eq_true] at hn
    rw [List.map_cons, List.all_cons, allFiniteMembers, isFinite_loads v hn.1,
      allFiniteMembers_loads rest hn.2]

end

end Py
