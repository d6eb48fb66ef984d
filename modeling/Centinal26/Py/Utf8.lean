/-
JSON as bytes: a text in UTF-8, and what `json.loads` makes of bytes.
-/
import Centinal26.Py.ReadBack
import Centinal26.Py.ScanBack

namespace Py

-- == UTF-8

def Text.chars (t : Text) : List Char := t.str.map Char.ofNat

/-- `s.encode("utf-8")`. -/
def Text.utf8 (t : Text) : ByteArray := (t.chars.flatMap String.utf8EncodeChar).toByteArray

def decodeUtf8 (b : ByteArray) : Option PyStr :=
  b.utf8Decode?.map fun cs => cs.toList.map Char.toNat

theorem toNat_ofNat {c : Nat} (h : isScalar c = true) : (Char.ofNat c).toNat = c := by
  have hvalid : c.isValidChar := by
    rw [isScalar, decide_eq_true_eq] at h
    rcases h with h | ⟨h, h'⟩
    · exact Or.inl h
    · exact Or.inr ⟨h, h'⟩
  rw [Char.ofNat, dif_pos hvalid]
  rfl

theorem decodeUtf8_utf8 (t : Text) : decodeUtf8 t.utf8 = some t.str := by
  have hdecode : t.utf8.utf8Decode? = some t.chars.toArray := List.utf8Decode?_utf8Encode
  rw [decodeUtf8, hdecode, Option.map_some, Text.chars, List.map_map]
  congr 1
  calc t.str.map (Char.toNat ∘ Char.ofNat)
      = t.str.map id := List.map_congr_left fun c hc => toNat_ofNat (t.encodable c hc)
    _ = t.str := List.map_id _

theorem utf8_injective {s t : Text} (h : s.utf8 = t.utf8) : s = t := by
  apply Text.ext
  have hs := decodeUtf8_utf8 s
  rw [h, decodeUtf8_utf8 t] at hs
  exact (Option.some.inj hs).symm

theorem size_utf8_le (t : Text) : t.utf8.size ≤ 4 * t.str.length := by
  have hle : ∀ cs : List Char, (cs.flatMap String.utf8EncodeChar).length ≤ 4 * cs.length := by
    intro cs
    induction cs with
    | nil => exact Nat.le_refl _
    | cons c cs ih =>
      rw [List.flatMap_cons, List.length_append, List.length_cons, String.length_utf8EncodeChar]
      have hc := c.utf8Size_le_four
      omega
  have hsize : t.utf8.size = (t.chars.flatMap String.utf8EncodeChar).length :=
    List.size_toByteArray
  rw [hsize]
  have hlength : t.chars.length = t.str.length := List.length_map ..
  rw [← hlength]
  exact hle _

-- == documents

/-- What `json.loads` raises on bytes. -/
inductive BytesError : Type
  /-- on the characters they are -/
  | text (e : LoadsError)
  | unicodeDecode
  | recursion
deriving DecidableEq

/-- What `json.loads` makes of bytes: those that are no plain UTF-8 are up to `other`. -/
def loadsBytes (toFloat : PyStr → PyFloat) (other : ByteArray → Except BytesError Json)
    (b : ByteArray) : Except BytesError Json :=
  match decodeUtf8 b with
  | some s =>
    if s.head? = some 0xFEFF ∨ 0 ∈ s.take 2 then other b
    else (loadsText toFloat s).mapError .text
  | none => other b

def canonicalBytes (v : PyVal) : Except PyErr ByteArray := do
  let d ← dumpsStrict v
  let t ← encode (d.text .canonical)
  return t.utf8

theorem canonicalBytes_ok_iff {v : PyVal} {b : ByteArray} : canonicalBytes v = .ok b
      ↔ ∃ (d : Json) (t : Text), dumpsStrict v = .ok d ∧ t.str = d.text .canonical ∧ b = t.utf8 := by
  unfold canonicalBytes
  constructor
  · intro h
    obtain ⟨d, hd, h⟩ := of_bind_ok h
    obtain ⟨t, ht, h⟩ := of_bind_ok h
    cases h
    exact ⟨d, t, hd, encode_eq_ok.mp ht, rfl⟩
  · rintro ⟨d, t, hd, ht, rfl⟩
    rw [hd, bind_ok_eq, encode_eq_ok.mpr ht]
    rfl

theorem loadsBytes_utf8 {toFloat : PyStr → PyFloat} {other : ByteArray → Except BytesError Json}
    {ms : List (PyStr × Json)} (h : (Json.obj ms).Scannable toFloat) {t : Text}
    (ht : t.str = (Json.obj ms).text .canonical) :
    loadsBytes toFloat other t.utf8 = .ok (.obj ms) := by
  have hread := loadsText_text toFloat h (s := []) (Or.inl rfl)
  rw [List.append_nil, ← ht] at hread
  have hplain : ¬ (t.str.head? = some 0xFEFF ∨ 0 ∈ t.str.take 2) := by
    rw [ht]
    cases ms with
    | nil => decide
    | cons m rest =>
      obtain ⟨r, hr⟩ : ∃ r, (Json.obj (m :: rest)).text .canonical = 123 :: 34 :: r := by
        cases rest with
        | nil => exact ⟨_, rfl⟩
        | cons n rest => exact ⟨_, rfl⟩
      rw [hr]
      simp
  unfold loadsBytes
  rw [decodeUtf8_utf8]
  simp only [if_neg hplain, hread]
  rfl

-- == sorted values

theorem setItem_strItems {α : Type} (ms : List (PyStr × α)) (k : PyStr) (v : α) :
    setItem (strItems ms) (.str k) v = strItems (setItem ms k v) := by
  induction ms with
  | nil => rfl
  | cons m rest ih =>
    show setItem ((PyKey.str m.1, m.2) :: strItems rest) _ _ = _
    unfold setItem
    by_cases hk : m.1 = k
    · rw [if_pos hk, if_pos (congrArg PyKey.str hk)]
      rfl
    · rw [if_neg hk, if_neg fun h => hk (PyKey.str.inj h), ih]
      rfl

theorem dictOf_strItems {α : Type} (ps : List (PyStr × α)) :
    dictOf (strItems ps) = strItems (dictOf ps) := by
  induction ps using List.reverseRecOn with
  | nil => rfl
  | append_singleton ps m ih =>
    have hlast : dictOf (ps ++ [m]) = setItem (dictOf ps) m.1 m.2 := by
      unfold dictOf
      rw [List.foldl_append]
      rfl
    have hlast' : dictOf (strItems (ps ++ [m]))
        = setItem (dictOf (strItems ps)) (PyKey.str m.1) m.2 := by
      unfold dictOf strItems
      rw [List.map_append, List.foldl_append]
      rfl
    rw [hlast', hlast, ih, setItem_strItems]

theorem mem_dumpsFields {ms : List (PyStr × PyVal)} {ds : List (PyStr × Json)}
    (h : dumpsFields dumps ms = .ok ds) {m : PyStr × Json} (hm : m ∈ ds) :
    ∃ v, (m.1, v) ∈ ms ∧ dumps v = .ok m.2 := by
  induction ms generalizing ds with
  | nil =>
    cases h
    cases hm
  | cons n rest ih =>
    rw [dumpsFields_cons] at h
    obtain ⟨d, hd, h⟩ := of_bind_ok h
    obtain ⟨ds', hds', h⟩ := of_bind_ok h
    cases h
    rcases List.mem_cons.mp hm with rfl | hm
    · exact ⟨n.2, List.mem_cons_self .., hd⟩
    · obtain ⟨v, hv, hdumps⟩ := ih hds' hm
      exact ⟨v, List.mem_cons_of_mem _ hv, hdumps⟩

mutual

theorem isNormal_dumps_loads : ∀ (d q : Json), dumps (loads d) = .ok q → q.isNormal = true
  | .null => fun _ h => by rw [loads, dumps] at h; cases h; rfl
  | .bool _ => fun _ h => by rw [loads, dumps] at h; cases h; rfl
  | .float _ => fun _ h => by rw [loads, dumps] at h; cases h; rfl
  | .str _ => fun _ h => by rw [loads, dumps] at h; cases h; rfl
  | .int _ => fun _ h => by
    rw [loads, dumps] at h
    obtain ⟨_, -, h⟩ := of_bind_ok h
    cases h
    rfl
  | .arr xs => fun q h => by
    rw [loads, dumps] at h
    obtain ⟨qs, hqs, h⟩ := of_bind_ok h
    cases h
    exact allNormal_dumpsList_loads xs qs hqs
  | .obj ms => fun q h => by
    rw [loads, loadsMembers_eq, dictOf_strItems, dumps_strItems] at h
    obtain ⟨fields, hfields, rfl⟩ := of_map_ok h
    obtain ⟨hnodup, hmem⟩ := dictOf_spec (ms.map fun m => (m.1, loads m.2))
    rw [← (dumpsFields_spec hfields).1] at hnodup
    rw [Json.isNormal, decide_eq_true (ordered_sortByName hnodup), Bool.true_and,
      allNormalMembers_eq, List.all_eq_true]
    intro n hn
    obtain ⟨v, hv, hdumps⟩ := mem_dumpsFields hfields (mem_sortByName.mp hn)
    obtain ⟨m, hm, heq⟩ := List.mem_map.mp (hmem _ hv)
    obtain ⟨-, rfl⟩ := Prod.mk.inj heq
    exact isNormal_member_loads ms m hm _ hdumps

theorem allNormal_dumpsList_loads : ∀ (xs qs : List Json),
    dumpsList (loadsList xs) = .ok qs → allNormal qs = true
  | [] => fun _ h => by rw [loadsList, dumpsList] at h; cases h; rfl
  | x :: xs => fun qs h => by
    rw [loadsList, dumpsList] at h
    obtain ⟨q, hq, h⟩ := of_bind_ok h
    obtain ⟨rest, hrest, h⟩ := of_bind_ok h
    cases h
    rw [allNormal, isNormal_dumps_loads x q hq, allNormal_dumpsList_loads xs rest hrest]
    rfl

theorem isNormal_member_loads : ∀ (ms : List (PyStr × Json)), ∀ m ∈ ms, ∀ q,
    dumps (loads m.2) = .ok q → q.isNormal = true
  | [] => fun _ hm => by cases hm
  | (k, v) :: rest => fun m hm q h => by
    rcases List.mem_cons.mp hm with rfl | hm
    · exact isNormal_dumps_loads v q h
    · exact isNormal_member_loads rest m hm q h

end

section Written

variable {toFloat : PyStr → PyFloat} (other : ByteArray → Except BytesError Json)
  {items : List (PyKey × PyVal)} {d : Json} {t : Text}

theorem loadsBytes_written (hd : dumpsStrict (.dict items) = .ok d)
    (ht : t.str = d.text .canonical) (hfloats : d.ReadsFloats toFloat)
    (hnormal : d.isNormal = true) : loadsBytes toFloat other t.utf8 = .ok d := by
  have hdumps := (dumpsStrict_ok hd).1
  have hshort := isShort_dumps _ d hdumps
  obtain ⟨ms, rfl⟩ : ∃ ms, d = .obj ms := by
    rw [dumps] at hdumps
    obtain ⟨_, -, h⟩ := of_bind_ok hdumps
    obtain ⟨_, -, h⟩ := of_bind_ok h
    obtain ⟨written, -, h⟩ := of_bind_ok h
    exact ⟨written, (Except.ok.inj h).symm⟩
  exact loadsBytes_utf8 ⟨hnormal, hshort, hfloats⟩ ht

/-- Reading a text back and writing it gives the bytes it came from just if its document
was in order. -/
theorem canonicalBytes_loads_iff (hd : dumpsStrict (.dict items) = .ok d)
    (ht : t.str = d.text .canonical) (hfloats : d.ReadsFloats toFloat) :
    (∃ q, loadsBytes toFloat other t.utf8 = .ok q ∧ canonicalBytes (loads q) = .ok t.utf8)
      ↔ d.isNormal = true := by
  obtain ⟨hdumps, hfinite⟩ := dumpsStrict_ok hd
  have hdfinite := isFinite_dumps _ d hdumps hfinite
  constructor
  · rintro ⟨q, -, hq⟩
    obtain ⟨d', t', hd', ht', hbytes⟩ := canonicalBytes_ok_iff.mp hq
    obtain ⟨hdumps', -⟩ := dumpsStrict_ok hd'
    have htext : d.text .canonical = d'.text .canonical := by
      rw [← ht, ← ht', utf8_injective hbytes]
    rw [text_injective htext]
    exact isNormal_dumps_loads q d' hdumps'
  · intro hnormal
    have hshort := isShort_dumps _ d hdumps
    refine ⟨d, loadsBytes_written other hd ht hfloats hnormal, ?_⟩
    refine canonicalBytes_ok_iff.mpr ⟨d, t, ?_, ht, rfl⟩
    unfold dumpsStrict
    rw [dumps_loads _ hnormal hshort, bind_ok_eq, isFinite_loads _ hnormal, hdfinite]
    rfl

end Written

end Py
