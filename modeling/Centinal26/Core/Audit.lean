/-
What both engines are built on: grants, the functions they call, and the
audit log.
-/
import Centinal26.Py.Host
import Centinal26.Py.Records

namespace Centinal26.Core

open Py

-- == grants

structure Grant where
  grantId : PyStr
  capability : PyStr
  expiresAt : IsoText
deriving DecidableEq

def Grant.asdict (g : Grant) : PyVal :=
  .dict [item "grant_id" (.str g.grantId), item "capability" (.str g.capability),
    item "expires_at" (.str g.expiresAt.raw)]

/-- `permits`, at a reading of the clock. -/
def Grant.permits (g : Grant) (capability : PyStr) (now : Instant) : Except PyErr Bool :=
  if g.capability = capability then do
    (DateTime.aware now).lt (← fromisoformat g.expiresAt)
  else .ok false

theorem Grant.permits_eq_true {g : Grant} {capability : PyStr} {now : Instant}
    (h : g.permits capability now = .ok true) : g.capability = capability
      ∧ ∃ x, fromisoformat g.expiresAt = .ok (.aware x) ∧ now < x := by
  unfold permits at h
  split at h
  · next hcap =>
    refine ⟨hcap, ?_⟩
    cases hparsed : fromisoformat g.expiresAt with
    | error e =>
      rw [hparsed] at h
      cases h
    | ok d =>
      rw [hparsed] at h
      cases d with
      | naive t => cases h
      | aware t => exact ⟨t, rfl, of_decide_eq_true (Except.ok.inj h)⟩
  · cases h

-- == calls

/-- How a call of a capability's function ends. -/
inductive Outcome (α : Type) : Type
  | returned (a : α)
  | raised (name message : PyStr)
  | escaped

-- == the log

structure AuditLog where
  /-- the bytes decode -/
  utf8 : Bool
  /-- each line, if it is JSON -/
  lines : List (Option Json)
  /-- the last line ends in a newline -/
  terminated : Bool

namespace AuditLog

def empty : AuditLog := ⟨true, [], true⟩

def lineHash : Option Json → Except PyErr PyVal
  | none => .error (.valueError "Expecting value")
  | some (.obj members) =>
    match members.reverse.find? fun m => decide (m.1 = py "hash") with
    | some m => .ok (loads m.2)
    | none => .error (.keyError (py "hash"))
  | some _ => .error .typeError

def previous (log : AuditLog) : Except PyErr PyVal :=
  if log.utf8 then
    match log.lines.getLast? with
    | none => .ok genesis.val
    | some line => lineHash line
  else .error .unicodeDecodeError

/-- The file with one more line written to it. -/
def write (log : AuditLog) (line : Json) : AuditLog :=
  if log.terminated then { log with lines := log.lines ++ [some line] }
  else
    { log with lines := log.lines.dropLast ++ [none], terminated := true }

def record (H : Host) (now : Instant) (event : String) (payload previous : PyVal) :
    List (PyKey × PyVal) :=
  [item "timestamp" (H.isoformat now).val, item "event" (.str (py event)),
    item "payload" payload, item "previous_hash" previous]

/-- `append`, at a reading of the clock. -/
def append (H : Host) (log : AuditLog) (event : String) (payload : PyVal)
    (now : Instant) : Except PyErr AuditLog := do
  let fields := record H now event payload (← log.previous)
  let canonical := (← dumps (.dict fields)).text ⟨true, py ",", py ":"⟩
  let hash := H.sha256 (← encode canonical)
  .ok (log.write (← dumps (.dict (fields ++ [item "hash" hash.val]))))

/-- A record can be linked to what the log ends in. -/
def readable (log : AuditLog) : Bool :=
  match log.previous with
  | .ok hash => (dumps hash).isOk
  | .error _ => false

/-- The separators of the text that is hashed. -/
def compact : Style := ⟨true, py ",", py ":"⟩

theorem isAscii_compact : compact.IsAscii :=
  ⟨rfl, ascii_py_of (by decide), ascii_py_of (by decide)⟩

theorem dumps_str_isOk (s : PyStr) : (dumps (.str s)).isOk = true := by
  rw [dumps]
  rfl

section Append

variable {H : Host} {log : AuditLog} {event : String} {payload hash : PyVal}
  {now : Instant}

theorem dumps_record_eq {rest : List (PyStr × PyVal)} :
    (dumps (.dict (record H now event payload hash ++ strItems rest))).isOk = true
      ↔ ((dumps payload).isOk = true ∧ (dumps hash).isOk = true)
        ∧ ∀ m ∈ rest, (dumps m.2).isOk = true := by
  have hfields : record H now event payload hash ++ strItems rest
      = strItems ([(py "timestamp", (H.isoformat now).val),
        (py "event", .str (py event)), (py "payload", payload),
        (py "previous_hash", hash)] ++ rest) := rfl
  rw [hfields, dumps_record_isOk, List.forall_mem_append]
  simp only [List.forall_mem_cons, Text.val, dumps_str_isOk, true_and,
    List.not_mem_nil, false_implies, implies_true, and_true]

/-- The text that is hashed encodes, so only the record with its hash can
still be refused. -/
theorem append_linked {doc : Json} (hprev : log.previous = .ok hash)
    (hd : dumps (.dict (record H now event payload hash)) = .ok doc) :
    ∃ sha : Text, log.append H event payload now = (dumps (.dict (record H now event payload hash
          ++ strItems [(py "hash", sha.val)]))).map log.write := by
  let text : Text := ⟨doc.text compact, (ascii_text isAscii_compact doc).encodable⟩
  refine ⟨H.sha256 text, ?_⟩
  have hcompact : (⟨true, py ",", py ":"⟩ : Style) = compact := rfl
  unfold append
  simp only [hprev, hd, hcompact, bind_ok_eq]
  rw [show encode (doc.text compact) = .ok text from encode_str text]
  rfl

theorem append_isOk : (log.append H event payload now).isOk = true
      ↔ log.readable = true ∧ (dumps payload).isOk = true := by
  cases hprev : log.previous with
  | error e =>
    unfold append readable
    rw [hprev]
    exact ⟨nofun, fun h => (by cases h.1)⟩
  | ok hash =>
    have hplain := @dumps_record_eq H event payload hash now []
    have hreadable : log.readable = (dumps hash).isOk := by
      unfold readable
      rw [hprev]
    rw [hreadable, and_comm]
    rw [strItems, List.map_nil, List.append_nil] at hplain
    simp only [List.not_mem_nil, false_implies, implies_true, and_true] at hplain
    cases hd : dumps (.dict (record H now event payload hash)) with
    | error e =>
      rw [hd] at hplain
      have happ : log.append H event payload now = .error e := by
        unfold append
        simp only [hprev, hd, bind_ok_eq]
        rfl
      rw [happ, ← hplain]
      rfl
    | ok doc =>
      obtain ⟨sha, happ⟩ := append_linked hprev hd
      rw [happ, isOk_map, dumps_record_eq]
      simp only [List.forall_mem_singleton, Text.val, dumps_str_isOk, and_true]

end Append

end AuditLog

end Centinal26.Core
