/-
Values read from JSON, looked at as the code does: a member by name, the type a value has been
found to be, and the time it is the text of.
-/
import Centinal26.Py.Dict
import Centinal26.Py.Host

namespace Py

/-- `separators=(",", ":")`. -/
def Style.compact : Style := ⟨true, py ",", py ":"⟩

theorem isAscii_compact : Style.compact.IsAscii := by
  refine ⟨rfl, ascii_py_of ?_, ascii_py_of ?_⟩
  · decide
  · decide

/-- `json.dumps(…, separators=(",", ":")).encode()`: the text is ASCII. -/
def Json.compactText (d : Json) : Text :=
  ⟨d.text .compact, (ascii_text isAscii_compact d).encodable⟩

abbrev Items := List (PyKey × PyVal)

def itemOf (d : Items) (key : String) : PyVal := (getItem? d (.str (py key))).getD .none

theorem py_inj {s t : String} : py s = py t ↔ s = t := by
  constructor
  · intro h
    apply String.toList_inj.mp
    refine List.map_injective_iff.mpr (fun a b hab => ?_) h
    exact Char.toNat_inj.mp hab
  · rintro rfl
    rfl

theorem itemOf_item (k key : String) (v : PyVal) (rest : Items) :
    itemOf (item k v :: rest) key = if k = key then v else itemOf rest key := by
  unfold itemOf item
  rw [getItem?_cons]
  simp only [PyKey.str.injEq, py_inj]
  split <;> rfl

/-- `isinstance(value, str)`. -/
def PyVal.text? : PyVal → Option PyStr
  | .str s => some s
  | _ => Option.none

/-- `isinstance(value, int)`: `True` and `False` are integers. -/
def PyVal.int? : PyVal → Option Int
  | .bool b => some (if b then 1 else 0)
  | .int n => some n
  | _ => Option.none

/-- `isinstance(value, dict)`. -/
def PyVal.dict? : PyVal → Option Items
  | .dict items => some items
  | _ => Option.none

/-- `isinstance(value, list)`. -/
def PyVal.list? : PyVal → Option (List PyVal)
  | .list items => some items
  | _ => Option.none

def PyVal.isTrue : PyVal → Bool
  | .bool b => b
  | _ => false

def astimezone (t : Instant) : Except PyErr Instant :=
  if 0 ≤ t ∧ t ≤ maxInstant then .ok t else .error .overflowError

variable {s : PyStr} {v : PyVal}

theorem PyVal.text?_eq : PyVal.text? v = some s ↔ v = .str s := by
  cases v <;> simp [PyVal.text?]

theorem PyVal.dict?_eq {d : Items} : PyVal.dict? v = some d ↔ v = .dict d := by
  cases v <;> simp [PyVal.dict?]

theorem PyVal.list?_eq {xs : List PyVal} : PyVal.list? v = some xs ↔ v = .list xs := by
  cases v <;> simp [PyVal.list?]

theorem PyVal.isTrue_eq : PyVal.isTrue v = true ↔ v = .bool true := by
  cases v <;> simp [PyVal.isTrue]

theorem mapM_text? {vs : List PyVal} {ss : List PyStr} :
    vs.mapM PyVal.text? = some ss ↔ vs = ss.map .str := by
  induction vs generalizing ss with
  | nil => simp [eq_comm]
  | cons v vs ih =>
    rw [List.mapM_cons]
    cases hv : PyVal.text? v with
    | none =>
      have hne : ∀ s, v ≠ .str s := fun s hs => by
        rw [PyVal.text?_eq.mpr hs] at hv
        cases hv
      cases ss with
      | nil => simp
      | cons s ss => simp [hne s]
    | some s =>
      rw [PyVal.text?_eq.mp hv]
      cases hvs : vs.mapM PyVal.text? with
      | none =>
        have hne : ∀ ss : List PyStr, vs ≠ ss.map .str := fun ss hss => by
          rw [ih.mpr hss] at hvs
          cases hvs
        cases ss with
        | nil => simp
        | cons t ts => simp [hne ts]
      | some ss' =>
        rw [ih.mp hvs]
        cases ss with
        | nil => simp
        | cons t ts =>
          simp only [Option.pure_def, Option.bind_eq_bind, Option.bind_some,
            Option.some.injEq, List.cons.injEq, List.map_cons, PyVal.str.injEq]
          refine and_congr_right fun _ => ⟨fun h => h ▸ rfl, fun h => ?_⟩
          exact List.map_injective_iff.mpr (fun _ _ h => PyVal.str.inj h) h

theorem PyVal.eq_str : v.eq (.str s) = true ↔ v = .str s := by
  cases v <;> simp [PyVal.eq, PyVal.num?]

theorem astimezone_ok {t t' : Instant} :
    astimezone t = .ok t' ↔ (0 ≤ t ∧ t ≤ maxInstant) ∧ t' = t := by
  unfold astimezone
  split
  · next h => simp [h, eq_comm]
  · next h => simp [h]

theorem getItem?_eq_some {α β : Type} [DecidableEq α] {d : List (α × β)}
    (h : (d.map Prod.fst).Nodup) {k : α} {v : β} : getItem? d k = some v ↔ (k, v) ∈ d := by
  induction d with
  | nil => simp [getItem?]
  | cons m rest ih =>
    obtain ⟨hm, hrest⟩ := List.nodup_cons.mp h
    rw [getItem?_cons, List.mem_cons]
    split
    · next hkey =>
      constructor
      · intro hj
        exact Or.inl (by rw [← hkey, ← Option.some.inj hj])
      · rintro (heq | hmem)
        · rw [← heq]
        · exact absurd (List.mem_map.mpr ⟨_, hmem, hkey.symm⟩) hm
    · next hkey =>
      rw [ih hrest]
      refine ⟨Or.inr, fun hmem => hmem.resolve_left fun heq => hkey ?_⟩
      rw [← heq]

end Py
