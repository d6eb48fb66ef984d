/-
What is written by `json.dumps(value, sort_keys=True, allow_nan=False)` and read back
is written as it was, if the names in it are in order. They are unless a dictionary has
keys that are not strings: these are sorted as what they are, and written as strings.
-/
import Centinal26.Py.Loads

namespace Py

mutual

theorem isFinite_dumps : ∀ (v : PyVal) (d : Json), dumps v = .ok d →
    v.isFinite = true → d.isFinite = true
  | .none => fun _ h _ => by cases h; rfl
  | .bool _ => fun _ h _ => by cases h; rfl
  | .str _ => fun _ h _ => by cases h; rfl
  | .object => fun _ h _ => by cases h
  | .int n => fun _ h _ => by
    rw [dumps] at h
    obtain ⟨_, -, h⟩ := of_bind_ok h
    cases h
    rfl
  | .float x => fun _ h hv => by
    cases h
    cases x with
    | finite lit => rfl
    | nan | infinity | negInfinity => cases hv
  | .list xs => fun _ h hv => by
    rw [dumps] at h
    obtain ⟨ds, hds, h⟩ := of_bind_ok h
    cases h
    exact isFinite_dumpsList xs ds hds hv
  | .tuple xs => fun _ h hv => by
    rw [dumps] at h
    obtain ⟨ds, hds, h⟩ := of_bind_ok h
    cases h
    exact isFinite_dumpsList xs ds hds hv
  | .dict items => fun _ h hv => by
    rw [dumps] at h
    obtain ⟨ds, hds, h⟩ := of_bind_ok h
    obtain ⟨sorted, hsorted, h⟩ := of_bind_ok h
    obtain ⟨written, hwritten, h⟩ := of_bind_ok h
    cases h
    rw [Json.isFinite, allFiniteMembers_eq, List.all_eq_true]
    intro m hm
    obtain ⟨key, hkey⟩ := mem_writeKeys hwritten hm
    exact isFinite_dumpsItems items ds hds hv _ (mem_sortMembers hsorted hkey)

theorem isFinite_dumpsList : ∀ (xs : List PyVal) (ds : List Json),
    dumpsList xs = .ok ds → allValuesFinite xs = true → allFinite ds = true
  | [] => fun _ h _ => by cases h; rfl
  | x :: xs => fun ds h hv => by
    rw [dumpsList] at h
    obtain ⟨d, hd, h⟩ := of_bind_ok h
    obtain ⟨rest, hrest, h⟩ := of_bind_ok h
    cases h
    rw [allValuesFinite, Bool.and_eq_true] at hv
    rw [allFinite, isFinite_dumps x d hd hv.1, isFinite_dumpsList xs rest hrest hv.2]
    rfl

theorem isFinite_dumpsItems : ∀ (items : List (PyKey × PyVal))
    (ds : List (PyKey × Json)), dumpsItems items = .ok ds → allItemsFinite items = true →
    ∀ m ∈ ds, m.2.isFinite = true
  | [] => fun _ h _ m hm => by
    cases h
    cases hm
  | (k, v) :: rest => fun ds h hv m hm => by
    rw [dumpsItems] at h
    obtain ⟨d, hd, h⟩ := of_bind_ok h
    obtain ⟨ds', hds', h⟩ := of_bind_ok h
    cases h
    unfold allItemsFinite at hv
    obtain ⟨hkv, hrest⟩ := Bool.and_eq_true_iff.mp hv
    obtain ⟨-, hfinite⟩ := Bool.and_eq_true_iff.mp hkv
    rcases List.mem_cons.mp hm with rfl | hm
    · exact isFinite_dumps v d hd hfinite
    · exact isFinite_dumpsItems rest ds' hds' hrest m hm

end

variable {v : PyVal} {d : Json} {ms : List (PyStr × PyVal)}

theorem dumpsStrict_ok (h : dumpsStrict v = .ok d) : dumps v = .ok d ∧ v.isFinite = true := by
  obtain ⟨d', hd', h⟩ := of_bind_ok h
  split at h
  · next hfinite =>
    cases h
    exact ⟨hd', hfinite⟩
  · cases h

/-- The names of everything that is written are in order. -/
def readsBack (v : PyVal) : Bool :=
  match dumpsStrict v with
  | .ok d => d.isNormal
  | .error _ => true

theorem dumps_readsBack (h : dumpsStrict v = .ok d) (hreads : readsBack v = true) :
    dumps (loads d) = dumps v ∧ (loads d).isFinite = v.isFinite := by
  unfold readsBack at hreads
  rw [h] at hreads
  obtain ⟨hdumps, hfinite⟩ := dumpsStrict_ok h
  refine ⟨(dumps_loads d hreads (isShort_dumps v d hdumps)).trans hdumps.symm, ?_⟩
  rw [isFinite_loads d hreads, isFinite_dumps v d hdumps hfinite, hfinite]

-- == members

theorem get?_of_mem {d : Fields} {k : PyStr} {v : Json} (h : (k, v) ∈ d.members) :
    d.get? k = some v := by
  have hordered : Ordered d.members := by
    have hnormal := d.normal
    rw [Json.isNormal, Bool.and_eq_true, decide_eq_true_eq] at hnormal
    exact hnormal.1
  exact (Dict.mem_items (d := ⟨d.members, hordered.nodup⟩)).mp h

theorem normaliseMembers_map (ms : List (PyStr × Json)) :
    normaliseMembers ms = ms.map fun m => (m.1, m.2.normalise) := by
  induction ms with
  | nil => rfl
  | cons m rest ih =>
    rw [List.map_cons, ← ih]
    rfl

theorem dumpsFields_spec {ds : List (PyStr × Json)}
    (h : dumpsFields dumps ms = .ok ds) : ds.map Prod.fst = ms.map Prod.fst
      ∧ ∀ m ∈ ms, ∃ d, dumps m.2 = .ok d ∧ (m.1, d) ∈ ds := by
  induction ms generalizing ds with
  | nil =>
    cases h
    exact ⟨rfl, nofun⟩
  | cons m rest ih =>
    rw [dumpsFields_cons] at h
    obtain ⟨d, hd, h⟩ := of_bind_ok h
    obtain ⟨ds', hds', h⟩ := of_bind_ok h
    cases h
    obtain ⟨hnames, hmem⟩ := ih hds'
    refine ⟨by rw [List.map_cons, List.map_cons, hnames], fun n hn => ?_⟩
    rcases List.mem_cons.mp hn with rfl | hn
    · exact ⟨d, hd, List.mem_cons_self ..⟩
    · obtain ⟨d', hd', hm⟩ := hmem n hn
      exact ⟨d', hd', List.mem_cons_of_mem _ hm⟩

theorem fields_of_dumps
    (hnames : (ms.map Prod.fst).Nodup) (h : dumps (.dict (strItems ms)) = .ok d) :
    ∃ fields, d.load.fields? = some fields ∧ ∀ k v, (k, v) ∈ ms →
      ∃ dv, dumps v = .ok dv ∧ fields.get? k = some dv.normalise := by
  rw [dumps_strItems] at h
  cases hds : dumpsFields dumps ms with
  | error e =>
    rw [hds] at h
    cases h
  | ok ds =>
  rw [hds] at h
  cases h
  obtain ⟨hsame, hmem⟩ := dumpsFields_spec hds
  have hdistinct : ((normaliseMembers (sortByName ds)).map Prod.fst).Nodup := by
    have hordered : Ordered (sortByName ds) := ordered_sortByName (by rw [hsame]; exact hnames)
    rw [normaliseMembers_map, List.map_map]
    exact hordered.nodup
  refine ⟨⟨_, (Json.obj (sortByName ds)).load.normal⟩, rfl, fun k v hm => ?_⟩
  obtain ⟨dv, hdv, hin⟩ := hmem _ hm
  refine ⟨dv, hdv, get?_of_mem ?_⟩
  show (k, dv.normalise) ∈ sortByName (dictOf (normaliseMembers (sortByName ds)))
  rw [mem_sortByName, dictOf_eq hdistinct, normaliseMembers_map]
  exact List.mem_map.mpr ⟨(k, dv), mem_sortByName.mpr hin, rfl⟩

end Py
