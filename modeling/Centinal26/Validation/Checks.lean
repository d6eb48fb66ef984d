/-
The checks a governance bundle is validated by: each looks at one member of a record, and
adds a violation where the member is not as it should be.
-/
import Centinal26.Py.Typed

namespace Centinal26.Validation

open Py

structure Violation where
  code : PyStr
  path : PyStr
  message : PyStr
deriving DecidableEq

/-- A computation that adds violations to the list, or raises. -/
def Check (α : Type) : Type := Except PyErr (α × List Violation)

namespace Check

variable {α β : Type}

/-- It returns a value and adds no violation. -/
def Clean (x : Check α) (a : α) : Prop := x = .ok (a, [])

protected def pure (a : α) : Check α := .ok (a, [])

protected def bind (x : Check α) (f : α → Check β) : Check β :=
  match x with
  | .error e => .error e
  | .ok (a, vs) =>
    match f a with
    | .error e => .error e
    | .ok (b, ws) => .ok (b, vs ++ ws)

instance : Monad Check where
  pure := Check.pure
  bind := Check.bind

theorem clean_pure {a b : α} : (pure a : Check α).Clean b ↔ a = b := by
  constructor
  · intro h
    cases h
    rfl
  · rintro rfl
    rfl

theorem clean_bind {x : Check α} {f : α → Check β} {b : β} :
    (x >>= f).Clean b ↔ ∃ a, x.Clean a ∧ (f a).Clean b := by
  constructor
  · intro h
    unfold Clean at h
    change Check.bind x f = _ at h
    unfold Check.bind at h
    split at h
    · cases h
    · next a vs =>
      split at h
      · cases h
      · next b' ws hf =>
        obtain ⟨rfl, hnil⟩ := Prod.mk.inj (Except.ok.inj h)
        obtain ⟨rfl, rfl⟩ := List.append_eq_nil_iff.mp hnil
        exact ⟨a, rfl, hf⟩
  · rintro ⟨a, hx, hf⟩
    unfold Clean at hx hf ⊢
    change Check.bind x f = _
    unfold Check.bind
    rw [hx]
    dsimp only
    rw [hf]
    rfl

def lift (r : Except PyErr α) : Check α := r.map fun a => (a, [])

theorem clean_lift {r : Except PyErr α} {a : α} : (lift r).Clean a ↔ r = .ok a := by
  unfold lift Clean
  cases r with
  | error e =>
    constructor <;>
    · intro h
      cases h
  | ok b =>
    constructor
    · intro h
      cases h
      rfl
    · intro h
      cases h
      rfl

def add (code : String) (path message : PyStr) : Check Unit := .ok ((), [⟨py code, path, message⟩])

theorem not_clean_add {code : String} {path message : PyStr} {u : Unit} :
    ¬ (add code path message).Clean u := by
  intro h
  cases h

/-- Nothing is returned, and the violation added. -/
def refuse (code : String) (path message : PyStr) : Check (Option α) := do
  add code path message
  pure none

theorem not_clean_refuse {code : String} {path message : PyStr} {a : Option α} :
    ¬ (refuse code path message).Clean a := by
  intro h
  obtain ⟨u, hadd, -⟩ := clean_bind.mp h
  exact not_clean_add hadd

def check (condition : Bool) (code : String) (path message : PyStr) : Check Unit :=
  if condition then pure () else add code path message

theorem clean_check {condition : Bool} {code : String} {path message : PyStr} {u : Unit} :
    (check condition code path message).Clean u ↔ condition = true := by
  cases condition with
  | true => exact ⟨fun _ => rfl, fun _ => rfl⟩
  | false => exact ⟨fun h => absurd h not_clean_add, fun h => (by cases h)⟩

/-- A check for each value, with its position. -/
def each (f : Nat → α → Check Unit) : Nat → List α → Check Unit
  | _, [] => pure ()
  | index, a :: rest => do
    f index a
    each f (index + 1) rest

theorem clean_each {f : Nat → α → Check Unit} {P : α → Prop}
    (h : ∀ index a, (f index a).Clean () ↔ P a) {xs : List α} :
    ∀ {index : Nat}, (each f index xs).Clean () ↔ ∀ a ∈ xs, P a := by
  induction xs with
  | nil =>
    intro index
    exact ⟨fun _ a ha => (List.not_mem_nil ha).elim, fun _ => rfl⟩
  | cons a rest ih =>
    intro index
    rw [each, clean_bind, List.forall_mem_cons]
    constructor
    · rintro ⟨u, ha, hrest⟩
      exact ⟨(h index a).mp ha, ih.mp hrest⟩
    · rintro ⟨ha, hrest⟩
      exact ⟨(), (h index a).mpr ha, ih.mpr hrest⟩

end Check

open Check

-- == members

def below (path : PyStr) (step : String) : PyStr := path ++ py step

/-- The strings of `fields` a dictionary has no key for. -/
def missing (fields : List String) (item : Items) : List String :=
  fields.filter fun f => !item.any fun m => decide (m.1 = .str (py f))

/-- The keys of a dictionary that are none of `fields`. -/
def extra (fields : List String) (item : Items) : List PyStr :=
  (item.filter fun m => !fields.any fun f => decide (m.1 = .str (py f))).map fun m =>
    match m.1 with
    | .str s => s
    -- the keys of JSON are strings
    | _ => []

def sortedNames (names : List PyStr) : List PyStr := names.mergeSort fun a b => decide (a ≤ b)

def record (value : PyVal) (path : PyStr) (kind noun schema : String) (fields : List String) :
    Check (Option Items) := do
  match value.dict? with
  | none => refuse (kind ++ "_OBJECT_REQUIRED") path (py (noun ++ " must be an object"))
  | some item =>
    each (fun _ f => add "FIELD_REQUIRED" (below path "." ++ f) (f ++ py " is required")) 0
      (sortedNames ((missing fields item).map py))
    each (fun _ f => add "ADDITIONAL_PROPERTY_FORBIDDEN" (below path "." ++ f)
      (f ++ py " is not allowed by the object schema")) 0 (sortedNames (extra fields item))
    check (!(item.any fun m => decide (m.1 = .str (py "schema")))
        || (itemOf item "schema").eq (.str (py schema)))
      "SCHEMA_VERSION_INVALID" (below path ".schema") (py ("schema must be " ++ schema))
    pure (some item)

def text (item : Items) (key : String) (path : PyStr) (code : String) : Check (Option PyStr) :=
  match itemOf item key with
  | .str (c :: s) => pure (some (c :: s))
  | _ => refuse code (below path ("." ++ key)) (py (key ++ " must be a non-empty string"))

def mapping (item : Items) (key : String) (path : PyStr) (code : String) : Check (Option Items) :=
  match (itemOf item key).dict? with
  | some d => pure (some d)
  | none => refuse code (below path ("." ++ key)) (py (key ++ " must be an object"))

def enum (item : Items) (key : String) (allowed : List String) (path : PyStr) (code : String) :
    Check (Option PyStr) :=
  match (itemOf item key).text? with
  | some s =>
    if allowed.any fun a => decide (py a = s) then pure (some s)
    else refuse code (below path ("." ++ key)) (py (key ++ " is outside its closed set"))
  | none => refuse code (below path ("." ++ key)) (py (key ++ " is outside its closed set"))

variable (fromisoformat : PyStr → Option DateTime)

/-- `_timestamp`, with `_parse_time` in it: what `astimezone` raises is not handled. -/
def timestamp (item : Items) (key : String) (path : PyStr) (code : String) :
    Check (Option Instant) :=
  match (itemOf item key).text?.bind fromisoformat with
  | some (.aware t) => do
    let t ← lift (astimezone t)
    pure (some t)
  | _ => refuse code (below path ("." ++ key))
      (py (key ++ " must be an offset-aware ISO-8601 timestamp"))

/-- The entries of an array that are non-empty strings. -/
def goodEntries (values : List PyVal) : List PyStr :=
  values.filterMap fun v => match v with
    | .str (c :: s) => some (c :: s)
    | _ => none

def entry (path : PyStr) (code : String) (index : Nat) : PyVal → Check Unit
  | .str (_ :: _) => pure ()
  | _ => add code (below path ("[" ++ toString index ++ "]"))
      (py "array entries must be non-empty strings")

def strings (item : Items) (key : String) (path : PyStr) (code : String) (minItems : Nat) :
    Check (Option (List PyStr)) := do
  match (itemOf item key).list? with
  | none => refuse code (below path ("." ++ key)) (py (key ++ " must be an array"))
  | some values =>
    check (decide (minItems ≤ values.length)) code (below path ("." ++ key))
      (py (key ++ " requires " ++ toString minItems ++ " item(s)"))
    each (entry (below path ("." ++ key)) code) 0 values
    check (decide (goodEntries values).Nodup) code (below path ("." ++ key))
      (py "array entries must be unique")
    pure (if minItems ≤ values.length ∧ (goodEntries values).length = values.length
      ∧ (goodEntries values).Nodup then some (goodEntries values) else none)

/-- The identified records of a collection. -/
def identified (idField : String) (items : List PyVal) : List (PyStr × Items) :=
  items.filterMap fun v => do
    let item ← v.dict?
    match itemOf item idField with
    | .str (c :: s) => some (c :: s, item)
    | _ => none

def indexOne (idField collection singular : String) (position : Nat)
    (index : List (PyStr × Items)) (value : PyVal) : Check (List (PyStr × Items)) :=
  match identified idField [value] with
  | [(id, item)] =>
    if (getItem? index id).isSome then do
      add ("DUPLICATE_" ++ singular ++ "_ID")
        (py (collection ++ "[" ++ toString position ++ "]." ++ idField))
        (py (idField ++ " must be unique within " ++ collection))
      pure index
    else pure (index ++ [(id, item)])
  | _ => pure index

def indexUnique (idField collection singular : String) :
    Nat → List (PyStr × Items) → List PyVal → Check (List (PyStr × Items))
  | _, index, [] => pure index
  | position, index, value :: rest => do
    let index ← indexOne idField collection singular position index value
    indexUnique idField collection singular (position + 1) index rest

def refsExist (refs : Option (List PyStr)) (index : List (PyStr × Items)) (path : PyStr)
    (code : String) : Check Bool := do
  match refs with
  | none => pure false
  | some refs =>
    each (fun position ref => check (getItem? index ref).isSome code
      (below path ("[" ++ toString position ++ "]")) (py "reference does not exist")) 0 refs
    pure (refs.all fun ref => (getItem? index ref).isSome)

end Centinal26.Validation
