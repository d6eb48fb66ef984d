/-
What a Python process gets from the machine it runs on: clock readings,
random identifiers, and the two library functions whose values nothing in
the repository depends on (`isoformat`, SHA-256).
-/
import Centinal26.Py.Json
import Mathlib.Logic.Function.Basic

namespace Py

abbrev Instant := Int

/-- A `datetime`, with or without a timezone. -/
inductive DateTime : Type
  | naive (t : Instant)
  | aware (t : Instant)
deriving DecidableEq

/-- `a < b`; comparing an aware with a naive datetime raises. -/
def DateTime.lt : DateTime → DateTime → Except PyErr Bool
  | .naive a, .naive b => .ok (decide (a < b))
  | .aware a, .aware b => .ok (decide (a < b))
  | _, _ => .error .typeError

/-- `a <= b`. -/
def DateTime.le : DateTime → DateTime → Except PyErr Bool
  | .naive a, .naive b => .ok (decide (a ≤ b))
  | .aware a, .aware b => .ok (decide (a ≤ b))
  | _, _ => .error .typeError

/-- The last instant a `datetime` can hold, counted from year 1. -/
def maxInstant : Instant := 315537897599999999

def addSeconds (now : Instant) (n : Int) : Except PyErr Instant :=
  if now + n * 1000000 ≤ maxInstant then .ok (now + n * 1000000)
  else .error .overflowError

/-- A string meant as a timestamp: its text, and its parse if it has one. -/
structure IsoText where
  raw : PyStr
  parsed : Option DateTime
deriving DecidableEq

def fromisoformat (s : IsoText) : Except PyErr DateTime :=
  match s.parsed with
  | some d => .ok d
  | none => .error (.valueError "Invalid isoformat string")

/-- The process's surroundings. -/
structure Host where
  /-- the n-th reading of the clock -/
  clock : Nat → Instant
  /-- the n-th identifier drawn -/
  uuid4 : Nat → Text
  uuid4_injective : Function.Injective uuid4
  isoformat : Instant → Text
  /-- the hex digest of an encoded text -/
  sha256 : Text → Text

/-- `hashlib.sha256(json.dumps(value, sort_keys=True, separators=(",", ":"),
ensure_ascii=False).encode("utf-8")).hexdigest()`. -/
def canonicalSha256 (H : Host) (v : PyVal) : Except PyErr Text := do
  .ok (H.sha256 (← canonicalText v))

theorem dumps_of_canonicalSha256 {H : Host} {v : PyVal} {sha : Text}
    (h : canonicalSha256 H v = .ok sha) : ∃ doc, dumps v = .ok doc := by
  cases hd : dumps v with
  | ok doc => exact ⟨doc, rfl⟩
  | error e =>
    unfold canonicalSha256 canonicalText at h
    rw [hd] at h
    cases h

/-- `"0" * 64`. -/
def genesis : Text :=
  ⟨List.replicate 64 48, fun c hc => by
    rw [List.eq_of_mem_replicate hc]
    decide⟩

def item (key : String) (v : PyVal) : PyKey × PyVal := (.str (py key), v)

def Text.val (t : Text) : PyVal := .str t.str

def optText : Option PyStr → PyVal
  | some s => .str s
  | none => .none

/-- A machine to try things on, with a clock of one's choice: identifiers
count in unary, timestamps are printed as microseconds, and a checksum stands
in for the digest. -/
def Host.sample (clock : Nat → Instant) : Host where
  clock := clock
  uuid4 n := ⟨List.replicate (n + 1) 97, fun c hc => by
    rw [List.eq_of_mem_replicate hc]
    decide⟩
  uuid4_injective m n h := by
    have hlen := congrArg (fun t : Text => t.str.length) h
    simp only [List.length_replicate] at hlen
    omega
  isoformat t := ⟨intRepr t, (ascii_intRepr t).encodable⟩
  sha256 t :=
    let sum : Nat := t.str.foldl (fun h c => (h * 31 + c) % 4294967291) 7
    ⟨intRepr sum, (ascii_intRepr sum).encodable⟩

-- == floats

/-- What the code does with a float that is a time. -/
structure Floats (τ : Type) where
  add : τ → τ → τ
  /-- `a < b` -/
  lt : τ → τ → Bool
  /-- `a <= b` -/
  le : τ → τ → Bool
  zero : τ
  /-- what a column holds of it: NaN is stored as `NULL` -/
  column : τ → Option τ

def Floats.sample : Floats Int where
  add a b := a + b
  lt a b := decide (a < b)
  le a b := decide (a ≤ b)
  zero := 0
  column a := some a

end Py
