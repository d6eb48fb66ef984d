/-
Tables with a primary key, as lists of rows in insertion order that carry
the key constraint with them.
-/
import Mathlib.Data.List.Nodup

/-- Rows of type `α` with distinct keys, oldest first. -/
structure Table {α κ : Type} (key : α → κ) where
  rows : List α
  nodup : (rows.map key).Nodup

namespace Table

variable {α κ : Type} {key : α → κ}

def empty : Table key := ⟨[], List.nodup_nil⟩

variable [DecidableEq κ]

def find? (t : Table key) (k : κ) : Option α :=
  t.rows.find? fun r => decide (key r = k)

theorem map_key_update (rows : List α) (k : κ) (f : α → α) (hf : ∀ a, key (f a) = key a) :
    (rows.map fun r => if key r = k then f r else r).map key = rows.map key := by
  rw [List.map_map]
  refine List.map_congr_left fun r _ => ?_
  simp only [Function.comp_apply]
  split
  · exact hf r
  · rfl

/-- `UPDATE .. WHERE key = k`: rewrite the row of one key. -/
def modify (t : Table key) (k : κ) (f : α → α) (hf : ∀ a, key (f a) = key a) : Table key where
  rows := t.rows.map fun r => if key r = k then f r else r
  nodup := by
    rw [map_key_update t.rows k f hf]
    exact t.nodup

/-- `INSERT`: append a row, unless its key is taken. -/
def insert? (t : Table key) (a : α) : Option (Table key) :=
  if h : key a ∈ t.rows.map key then none
  else some
    { rows := t.rows ++ [a]
      nodup := by
        rw [List.map_append]
        refine List.nodup_append.2 ⟨t.nodup, by simp, ?_⟩
        intro x hx y hy
        simp only [List.map_cons, List.map_nil, List.mem_singleton] at hy
        subst hy
        intro hxy
        subst hxy
        exact h hx }

-- == lookups

variable {t t' : Table key} {k : κ} {a : α} {le : α → α → Bool} {p : α → Bool}

theorem mem_of_find? (h : t.find? k = some a) : a ∈ t.rows :=
  List.mem_of_find?_eq_some h

theorem key_of_find? (h : t.find? k = some a) : key a = k := by
  have := List.find?_some h
  simpa using this

theorem find?_of_mem (h : a ∈ t.rows) : t.find? (key a) = some a := by
  obtain ⟨rows, hnd⟩ := t
  replace h : a ∈ rows := h
  show rows.find? (fun r => decide (key r = key a)) = some a
  induction rows with
  | nil => cases h
  | cons b rows ih =>
    rw [List.map_cons, List.nodup_cons] at hnd
    rcases List.mem_cons.mp h with rfl | h'
    · simp
    · have hne : key b ≠ key a := fun hb =>
        hnd.1 (hb ▸ List.mem_map_of_mem h')
      rw [List.find?_cons_of_neg (by simpa using hne)]
      exact ih hnd.2 h'

theorem find?_eq_some_iff : t.find? k = some a ↔ a ∈ t.rows ∧ key a = k := by
  constructor
  · intro h
    exact ⟨mem_of_find? h, key_of_find? h⟩
  · rintro ⟨h, rfl⟩
    exact find?_of_mem h

theorem find?_modify (t : Table key) (k : κ) (f : α → α) (hf : ∀ a, key (f a) = key a) (j : κ) :
    (t.modify k f hf).find? j = if j = k then (t.find? k).map f else t.find? j := by
  obtain ⟨rows, hnd⟩ := t
  show (rows.map fun r => if key r = k then f r else r).find? (fun r => decide (key r = j))
    = if j = k then (rows.find? fun r => decide (key r = k)).map f
      else rows.find? fun r => decide (key r = j)
  clear hnd
  induction rows with
  | nil => simp
  | cons b rows ih =>
    rw [List.map_cons]
    by_cases hbk : key b = k
    · by_cases hjk : j = k
      · subst hjk
        simp [hbk, hf]
      · have hbj : key b ≠ j := fun h => hjk (h ▸ hbk)
        have hfbj : key (f b) ≠ j := by rw [hf]; exact hbj
        simp only [hbk, if_true, hjk, if_false] at ih ⊢
        rw [List.find?_cons_of_neg (by simpa using hfbj),
          List.find?_cons_of_neg (by simpa using hbj), ih]
    · by_cases hbj : key b = j
      · have hjk : j ≠ k := fun h => hbk (hbj.trans h)
        simp [hbj, hjk]
      · rw [if_neg hbk, List.find?_cons_of_neg (by simpa using hbj), ih,
          List.find?_cons_of_neg (by simpa using hbk),
          List.find?_cons_of_neg (by simpa using hbj)]

theorem find?_insert (h : t.insert? a = some t')
    (j : κ) : t'.find? j = if j = key a then some a else t.find? j := by
  unfold insert? at h
  split at h
  · cases h
  · next hfresh =>
    injection h with h
    subst h
    show (t.rows ++ [a]).find? _ = _
    rw [List.find?_append]
    split
    · next hj =>
      subst hj
      have hnone : t.rows.find? (fun r => decide (key r = key a)) = none := by
        rw [List.find?_eq_none]
        intro r hr hk
        exact hfresh ((of_decide_eq_true hk) ▸ List.mem_map_of_mem hr)
      rw [hnone]
      simp
    · next hj =>
      have hsing : [a].find? (fun r => decide (key r = j)) = none := by
        simp [Ne.symm hj]
      rw [hsing, Option.or_none]
      rfl

theorem find?_of_insert (h : t.insert? a = some t') : t.find? (key a) = none := by
  unfold insert? at h
  split at h
  · cases h
  · next hfresh =>
    unfold find?
    rw [List.find?_eq_none]
    intro r hr hk
    exact hfresh ((of_decide_eq_true hk) ▸ List.mem_map_of_mem hr)

theorem rows_insert (h : t.insert? a = some t') : t'.rows = t.rows ++ [a] := by
  unfold insert? at h
  split at h
  · cases h
  · cases h
    rfl

theorem exists_of_insert_none (h : t.insert? a = none) : ∃ b, t.find? (key a) = some b := by
  unfold insert? at h
  split at h
  · next hmem =>
    obtain ⟨b, hb, hkey⟩ := List.mem_map.mp hmem
    exact ⟨b, hkey ▸ find?_of_mem hb⟩
  · cases h

-- == conflicts

def insertOrIgnore (t : Table key) (a : α) : Table key :=
  match t.insert? a with
  | some t' => t'
  | none => t

/-- `INSERT .. ON CONFLICT DO UPDATE` of every column. -/
def upsert (t : Table key) (a : α) : Table key :=
  match t.insert? a with
  | some t' => t'
  | none => t.modify (key a) (fun r => if key r = key a then a else r) fun r => by
    split
    · next h => exact h.symm
    · rfl

theorem find?_upsert (t : Table key) (a : α) (j : κ) :
    (t.upsert a).find? j = if j = key a then some a else t.find? j := by
  unfold upsert
  cases hi : t.insert? a with
  | some t' => exact find?_insert hi j
  | none =>
    obtain ⟨b, hb⟩ := exists_of_insert_none hi
    rw [find?_modify, hb, Option.map_some, if_pos (key_of_find? hb)]

-- == subsets

def filter (t : Table key) (p : α → Bool) : Table key :=
  ⟨t.rows.filter p, t.nodup.sublist (List.filter_sublist.map key)⟩

theorem find?_filter (t : Table key) (p : α → Bool) (k : κ) :
    (t.filter p).find? k = (t.find? k).filter p := by
  cases hfind : t.find? k with
  | none =>
    rw [Option.filter_none]
    cases h : (t.filter p).find? k with
    | none => rfl
    | some a =>
      obtain ⟨hmem, rfl⟩ := find?_eq_some_iff.mp h
      rw [find?_of_mem (List.mem_of_mem_filter hmem)] at hfind
      cases hfind
  | some a =>
    obtain ⟨hmem, rfl⟩ := find?_eq_some_iff.mp hfind
    cases hp : p a with
    | true =>
      rw [Option.filter_some_pos hp]
      exact find?_of_mem (List.mem_filter.mpr ⟨hmem, hp⟩)
    | false =>
      rw [Option.filter_some_neg (by simp [hp])]
      cases h : (t.filter p).find? (key a) with
      | none => rfl
      | some b =>
        obtain ⟨hb, hkey⟩ := find?_eq_some_iff.mp h
        obtain ⟨hb, hpb⟩ := List.mem_filter.mp hb
        rw [← hkey, find?_of_mem hb] at hfind
        cases hfind
        rw [hp] at hpb
        cases hpb

-- == selection

omit [DecidableEq κ]

/-- Keep the row that comes first in the order `le`. -/
def keepFirst (le : α → α → Bool) (best : Option α) (r : α) : Option α :=
  match best with
  | none => some r
  | some b => if le b r then some b else some r

/-- The first row, in the order `le`, of those that satisfy `p`. -/
def minBy? (t : Table key) (p : α → Bool) (le : α → α → Bool) : Option α :=
  (t.rows.filter p).foldl (keepFirst le) none

theorem keepFirst_mem {best : Option α} {r : α}
    (h : keepFirst le best r = some a) : best = some a ∨ a = r := by
  unfold keepFirst at h
  split at h
  · cases h
    exact Or.inr rfl
  · split at h
    · exact Or.inl h
    · cases h
      exact Or.inr rfl

private theorem foldl_keepFirst_mem {rows : List α}
    {init : Option α} (h : rows.foldl (keepFirst le) init = some a) :
    init = some a ∨ a ∈ rows := by
  induction rows generalizing init with
  | nil => exact Or.inl h
  | cons r rows ih =>
    rcases ih h with hbest | hmem
    · rcases keepFirst_mem hbest with hinit | rfl
      · exact Or.inl hinit
      · exact Or.inr (List.mem_cons_self ..)
    · exact Or.inr (List.mem_cons_of_mem _ hmem)

theorem minBy?_spec (h : t.minBy? p le = some a) : a ∈ t.rows ∧ p a = true := by
  rcases foldl_keepFirst_mem h with hnone | hmem
  · cases hnone
  · exact List.mem_filter.mp hmem

private theorem foldl_keepFirst_some (rows : List α) (a : α) :
    ∃ b, rows.foldl (keepFirst le) (some a) = some b := by
  induction rows generalizing a with
  | nil => exact ⟨a, rfl⟩
  | cons r rows ih =>
    rw [List.foldl_cons, keepFirst]
    split
    · exact ih a
    · exact ih r

private theorem foldl_keepFirst_le (htotal : ∀ a b, le a b = true ∨ le b a = true)
    (htrans : ∀ a b c, le a b = true → le b c = true → le a c = true) {rows : List α}
    {init : Option α} (h : rows.foldl (keepFirst le) init = some a) :
    (∀ b, init = some b → le a b = true) ∧ ∀ r ∈ rows, le a r = true := by
  have hrefl : ∀ b, le b b = true := fun b => (htotal b b).elim id id
  induction rows generalizing init with
  | nil =>
    refine ⟨fun b hb => ?_, fun _ h => absurd h List.not_mem_nil⟩
    rw [List.foldl_nil, hb] at h
    cases h
    exact hrefl _
  | cons r rows ih =>
    obtain ⟨hkept, hrest⟩ := ih h
    -- the row that is kept is before both the earlier one and this one
    have hboth : (∀ b, init = some b → le a b = true) ∧ le a r = true := by
      unfold keepFirst at hkept
      cases init with
      | none => exact ⟨nofun, hkept r rfl⟩
      | some b =>
        by_cases hbr : le b r = true
        · have hab := hkept b (if_pos hbr)
          exact ⟨fun _ h => Option.some.inj h ▸ hab, htrans _ _ _ hab hbr⟩
        · have har := hkept r (if_neg hbr)
          refine ⟨fun _ h => Option.some.inj h ▸ htrans _ _ _ har ?_, har⟩
          exact (htotal b r).resolve_left hbr
    exact ⟨hboth.1, List.forall_mem_cons.mpr ⟨hboth.2, hrest⟩⟩

theorem minBy?_le (htotal : ∀ a b, le a b = true ∨ le b a = true)
    (htrans : ∀ a b c, le a b = true → le b c = true → le a c = true)
    (h : t.minBy? p le = some a) : ∀ r ∈ t.rows, p r = true → le a r = true := fun r hr hp =>
  (foldl_keepFirst_le htotal htrans h).2 r (List.mem_filter.mpr ⟨hr, hp⟩)

theorem minBy?_none (h : t.minBy? p le = none) : ∀ r ∈ t.rows, p r = false := by
  intro r hr
  unfold minBy? at h
  cases hfilter : t.rows.filter p with
  | nil => exact Bool.eq_false_iff.mpr (List.filter_eq_nil_iff.mp hfilter r hr)
  | cons b rest =>
    rw [hfilter] at h
    obtain ⟨c, hc⟩ := foldl_keepFirst_some rest b
    rw [List.foldl_cons] at h
    exact absurd (hc.symm.trans h) (by simp)

theorem find?_minBy? [DecidableEq κ] (h : t.minBy? p le = some a) : t.find? (key a) = some a :=
  find?_of_mem (minBy?_spec h).1

end Table
