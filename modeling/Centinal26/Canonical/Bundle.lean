/-
`validate_bundle`: what a bundle of canonical objects, provenance events and filter decisions has
to satisfy before it is stored.
-/
import Centinal26.Py.Loads

namespace Centinal26.Canonical

open Py

-- == values

/-- `str(value)` and `repr(value)`, as an f-string shows a value. -/
structure Shows where
  str : Json → PyStr
  repr : Json → PyStr

abbrev Members := List (PyStr × Json)

def getD (ms : Members) (name : String) (default : Json) : Json :=
  (getItem? ms (py name)).getD default

def get (ms : Members) (name : String) : Json := getD ms name .null

def isName (v : Json) (name : String) : Bool := decide (v.str? = some (py name))

/-- `value in names`, of a set or dictionary: what cannot be hashed raises. -/
def inNames (v : Json) (names : List PyStr) : Except PyErr Bool :=
  match v with
  | .str s => .ok (decide (s ∈ names))
  | .arr _ | .obj _ => .error .typeError
  | _ => .ok false

/-- `for x in value`. -/
def iterate : Json → Except PyErr (List Json)
  | .arr xs => .ok xs
  | .str s => .ok (s.map fun c => .str [c])
  | .obj ms => .ok (ms.map fun m => .str m.1)
  | _ => .error .typeError

def within (s : PyStr) : Json → Except PyErr Bool
  | .arr xs => .ok (xs.any fun x => decide (x.str? = some s))
  | .str t => .ok (decide (s <:+: t))
  | .obj ms => .ok (ms.any fun m => decide (m.1 = s))
  | _ => .error .typeError

def errorIf (wrong : Bool) (message : PyStr) : List PyStr := if wrong then [message] else []

def about (subject : PyStr) (message : String) : PyStr := subject ++ py ": " ++ py message

def indexed (name : String) (i : Nat) : PyStr := py name ++ py "[" ++ intRepr i ++ py "]"

/-- `SHA256_RE.match`: `$` also matches before a newline at the end. -/
def isSha256 (s : PyStr) : Bool :=
  let digits := (s.drop 7).take 64
  let rest := s.drop 71
  decide (s.take 7 = py "sha256:") && decide (digits.length = 64)
    && digits.all (fun c => (48 ≤ c && c ≤ 57) || (97 ≤ c && c ≤ 102))
    && (decide (rest = []) || decide (rest = [10]))

-- == objects

/-- What is known of the objects so far. -/
structure Seen where
  /-- `object_by_id` -/
  objects : List (PyStr × Members)
  /-- `seen_content` -/
  content : List (PyStr × Json)

/-- `oid in seen_content and seen_content[oid] != ch`. -/
def clashes (s : Seen) (oid : PyStr) (hash : Json) : Bool :=
  match getItem? s.content oid with
  | some known => !(loads known).eq (loads hash)
  | none => false

def Seen.add (s : Seen) (oid : PyStr) (ms : Members) (hash : Json) : Seen where
  objects := if (getItem? s.objects oid).isSome then s.objects else s.objects ++ [(oid, ms)]
  content := if clashes s oid hash then s.content else setItem s.content oid hash

def derivedEpistemic : List PyStr :=
  [py "DERIVED", py "INFERENCE", py "SPECULATION", py "PREDICTION"]

def provenanceIds (ms : Members) : List Json :=
  match getD ms "provenance_ids" (.arr []) with
  | .arr ids => ids
  | _ => []

def payload (ms : Members) : Members :=
  match get ms "payload" with
  | .obj ps => ps
  | _ => []

def isList : Json → Bool
  | .arr _ => true
  | _ => false

def isDict : Json → Bool
  | .obj _ => true
  | _ => false

def isDerived (ms : Members) : Except PyErr Bool := do
  if ← inNames (get ms "epistemic_status") derivedEpistemic then .ok true
  else inNames (get ms "authority_class") [py "DERIVED_RECORD", py "PROJECTION"]

def reconstructionErrors (oid : PyStr) (ms : Members) : Except PyErr (List PyStr) := do
  if isName (get ms "type") "RECONSTRUCTION" then
    let original ← inNames (get (payload ms) "originality_status")
      [py "ORIGINAL", py "AUTHENTIC_ORIGINAL"]
    .ok (errorIf original (about oid "reconstructed object cannot claim original status")
      ++ errorIf (provenanceIds ms).isEmpty (about oid "reconstruction requires provenance"))
  else .ok []

def objectErrors (s : Seen) (oid : PyStr) (ms : Members) : Except PyErr (List PyStr) := do
  let hash := get ms "content_hash"
  let authority := get ms "authority_class"
  let authoritative := get ms "authoritative"
  let derived ← isDerived ms
  let reconstruction ← reconstructionErrors oid ms
  let claim := isName (get ms "type") "CLAIM" && isName (get ms "verification_status") "VERIFIED"
  let evidence := getD (payload ms) "evidence_ids" (.arr [])
  .ok (errorIf (!(hash.str?.map isSha256).getD false) (about oid "invalid content_hash")
    ++ errorIf (clashes s oid hash)
      (about oid "immutable object_id reused with different content_hash")
    ++ errorIf (isName authority "PROJECTION" && !(authoritative matches .bool false))
      (about oid "projections must declare authoritative=false")
    ++ errorIf (isName authority "AUTHORITATIVE_RECORD" && !(authoritative matches .bool true))
      (about oid "authoritative records must declare authoritative=true")
    ++ errorIf (isName authority "DERIVED_RECORD" && !(authoritative matches .bool false))
      (about oid "derived records must declare authoritative=false")
    ++ errorIf (!isList (getD ms "provenance_ids" (.arr [])))
      (about oid "provenance_ids must be a list")
    ++ errorIf (derived && (provenanceIds ms).isEmpty)
      (about oid "derived/projection object requires provenance")
    ++ errorIf (!isDict (get ms "payload")) (about oid "payload must be an object")
    ++ errorIf (claim && (!isList evidence || !evidence.truthy))
      (about oid "VERIFIED claim requires evidence_ids")
    ++ reconstruction)

def named? (v : Json) : Option PyStr :=
  match v with
  | .str s => if s.isEmpty then none else some s
  | _ => none

def checkObject (i : Nat) (obj : Json) (s : Seen) : Except PyErr (List PyStr × Seen) :=
  match obj with
  | .obj ms =>
    match named? (get ms "object_id") with
    | some oid => do
      .ok (← objectErrors s oid ms, s.add oid ms (get ms "content_hash"))
    | none => .ok ([indexed "objects" i ++ py " missing object_id"], s)
  | _ => .ok ([indexed "objects" i ++ py " must be an object"], s)

def checkObjects : Nat → List Json → Seen → Except PyErr (List PyStr × Seen)
  | _, [], s => .ok ([], s)
  | i, obj :: rest, s => do
    let first ← checkObject i obj s
    let later ← checkObjects (i + 1) rest first.2
    .ok (first.1 ++ later.1, later.2)

-- == events

section Loops

variable (S : Shows)

def refErrors (pid : PyStr) (kind : String) (names : List PyStr) :
    List Json → Except PyErr (List PyStr)
  | [] => .ok []
  | ref :: rest => do
    let known ← inNames ref names
    let later ← refErrors pid kind names rest
    .ok (errorIf (!known) (about pid kind ++ S.str ref) ++ later)

def checkEvent (names : List PyStr) (i : Nat) (event : Json) (byId : List (PyStr × Members)) :
    Except PyErr (List PyStr × List (PyStr × Members)) :=
  match event with
  | .obj ms =>
    match named? (get ms "provenance_event_id") with
    | some pid => do
      let inputs := getD ms "input_ids" (.arr [])
      let outputs := getD ms "output_ids" (.arr [])
      let inputErrors ← refErrors S pid "unresolved input object " names (← iterate inputs)
      let outputErrors ← refErrors S pid "unresolved output object " names (← iterate outputs)
      .ok (errorIf (getItem? byId pid).isSome (py "duplicate provenance_event_id: " ++ pid)
          ++ errorIf (!inputs.truthy) (about pid "provenance event requires at least one input")
          ++ errorIf (!outputs.truthy) (about pid "provenance event requires at least one output")
          ++ inputErrors ++ outputErrors,
        setItem byId pid ms)
    | none => .ok ([indexed "provenance_events" i ++ py " missing provenance_event_id"], byId)
  | _ => .ok ([indexed "provenance_events" i ++ py " must be an object"], byId)

def checkEvents (names : List PyStr) : Nat → List Json → List (PyStr × Members) →
    Except PyErr (List PyStr × List (PyStr × Members))
  | _, [], byId => .ok ([], byId)
  | i, event :: rest, byId => do
    let first ← checkEvent S names i event byId
    let later ← checkEvents names (i + 1) rest first.2
    .ok (first.1 ++ later.1, later.2)

-- == links

/-- `prov_by_id.get(pid)`. -/
def lookUp (byId : List (PyStr × Members)) : Json → Except PyErr (Option Members)
  | .str pid => .ok (getItem? byId pid)
  | .arr _ | .obj _ => .error .typeError
  | _ => .ok none

def linkErrors (byId : List (PyStr × Members)) (oid : PyStr) : List Json → Except PyErr (List PyStr)
  | [] => .ok []
  | pid :: rest => do
    let error ← match ← lookUp byId pid with
      | none => .ok [about oid "unresolved provenance event " ++ S.str pid]
      | some event => do
        let found ← within oid (getD event "output_ids" (.arr []))
        .ok (errorIf (!found) (about oid "provenance event " ++ S.str pid
          ++ py " does not name object as output"))
    .ok (error ++ (← linkErrors byId oid rest))

def checkLinks (byId : List (PyStr × Members)) : List (PyStr × Members) → Except PyErr (List PyStr)
  | [] => .ok []
  | obj :: rest => do
    let errors ← linkErrors S byId obj.1 (← iterate (getD obj.2 "provenance_ids" (.arr [])))
    .ok (errors ++ (← checkLinks byId rest))

-- == decisions

def allowedFilterDecisions : List PyStr :=
  [py "RETAIN", py "REJECT_FROM_PROJECTION", py "MERGE", py "QUARANTINE", py "DEFER", py "PROMOTE"]

def checkDecision (names : List PyStr) (i : Nat) : Json → Except PyErr (List PyStr)
  | .obj ms => do
    let did := S.str (getD ms "filter_decision_id" (.str (indexed "filter_decisions" i)))
    let action := get ms "decision"
    let input := get ms "input_object_id"
    let allowed ← inNames action allowedFilterDecisions
    let known ← inNames input names
    .ok (errorIf (!allowed) (about did "illegal dedupe/filter decision " ++ S.repr action
        ++ py "; deletion is not a canonicalization action")
      ++ errorIf (!known) (about did "unresolved input_object_id " ++ S.str input)
      ++ errorIf (isName action "MERGE" && !(get ms "canonical_target_id").truthy)
        (about did "MERGE requires canonical_target_id"))
  | _ => .ok [indexed "filter_decisions" i ++ py " must be an object"]

def checkDecisions (names : List PyStr) : Nat → List Json → Except PyErr (List PyStr)
  | _, [] => .ok []
  | i, decision :: rest => do
    let errors ← checkDecision S names i decision
    .ok (errors ++ (← checkDecisions names (i + 1) rest))

-- == bundle

/-- The three lists of a bundle that has them. -/
structure Lists where
  objects : List Json
  events : List Json
  decisions : List Json

/-- The lists of a bundle, or the error that one of them is none. -/
def listsOf (ms : Members) : Except PyStr Lists :=
  match getD ms "objects" (.arr []) with
  | .arr objects =>
    match getD ms "provenance_events" (.arr []) with
    | .arr events =>
      match getD ms "filter_decisions" (.arr []) with
      | .arr decisions => .ok ⟨objects, events, decisions⟩
      | _ => .error (py "filter_decisions must be a list")
    | _ => .error (py "provenance_events must be a list")
  | _ => .error (py "objects must be a list")

/-- The errors of a bundle whose lists are lists. -/
def checkLists (l : Lists) : Except PyErr (List PyStr) := do
  let objects ← checkObjects 0 l.objects ⟨[], []⟩
  let names := objects.2.objects.map Prod.fst
  let events ← checkEvents S names 0 l.events []
  let links ← checkLinks S events.2 objects.2.objects
  let decisions ← checkDecisions S names 0 l.decisions
  .ok (objects.1 ++ events.1 ++ links ++ decisions)

def validateBundle : Json → Except PyErr (List PyStr)
  | .obj ms =>
    match listsOf ms with
    | .ok l => checkLists S l
    | .error message => .ok [message]
  | _ => .error .typeError

end Loops

-- == accepted

/-- An object with an identity and a digest. -/
def Named (obj : Json) : Prop :=
  ∃ ms oid hash, obj = .obj ms ∧ getItem? ms (py "object_id") = some (.str oid)
    ∧ getItem? ms (py "content_hash") = some (.str hash) ∧ isDict (get ms "payload") = true

def Identified (event : Json) : Prop :=
  ∃ ms pid, event = .obj ms ∧ getItem? ms (py "provenance_event_id") = some (.str pid)

theorem errorIf_nil {wrong : Bool} {message : PyStr} :
    errorIf wrong message = [] ↔ wrong = false := by
  unfold errorIf
  cases wrong <;> simp

theorem str_of_named {ms : Members} {name : String} {s : PyStr}
    (h : named? (get ms name) = some s) : getItem? ms (py name) = some (.str s) := by
  unfold get getD at h
  cases hget : getItem? ms (py name) with
  | none =>
    rw [hget] at h
    cases h
  | some v =>
    rw [hget, Option.getD_some] at h
    unfold named? at h
    split at h
    · split at h
      · cases h
      · cases h
        rfl
    · cases h

theorem checkObject_nil {i : Nat} {obj : Json} {s s' : Seen}
    (h : checkObject i obj s = .ok ([], s')) : Named obj := by
  unfold checkObject at h
  split at h
  · next ms =>
    split at h
    · next oid hoid =>
      obtain ⟨errors, herrors, h⟩ := of_bind_ok h
      obtain ⟨rfl, -⟩ := Prod.mk.inj (Except.ok.inj h)
      obtain ⟨derived, -, herrors⟩ := of_bind_ok herrors
      obtain ⟨reconstruction, -, herrors⟩ := of_bind_ok herrors
      have hnil := Except.ok.inj herrors
      simp only [List.append_eq_nil_iff, errorIf_nil] at hnil
      obtain ⟨⟨⟨⟨⟨⟨⟨⟨⟨hhash, -⟩, -⟩, -⟩, -⟩, -⟩, -⟩, hpayload⟩, -⟩, -⟩ := hnil
      rw [Bool.not_eq_false'] at hhash hpayload
      obtain ⟨hash, hhash⟩ : ∃ hash, getItem? ms (py "content_hash") = some (.str hash) := by
        unfold get getD at hhash
        cases hget : getItem? ms (py "content_hash") with
        | none =>
          rw [hget] at hhash
          cases hhash
        | some v =>
          rw [hget] at hhash
          cases v with
          | str t => exact ⟨t, rfl⟩
          | null | bool _ | int _ | float _ | arr _ | obj _ => cases hhash
      exact ⟨ms, oid, hash, rfl, str_of_named hoid, hhash, hpayload⟩
    · cases h
  · cases h

theorem checkObjects_nil {objects : List Json} {i : Nat} {s s' : Seen}
    (h : checkObjects i objects s = .ok ([], s')) : ∀ obj ∈ objects, Named obj := by
  induction objects generalizing i s s' with
  | nil => exact nofun
  | cons obj rest ih =>
    obtain ⟨first, hfirst, h⟩ := of_bind_ok h
    obtain ⟨later, hlater, h⟩ := of_bind_ok h
    obtain ⟨errors, next⟩ := first
    obtain ⟨errors', last⟩ := later
    obtain ⟨hnil, -⟩ := Prod.mk.inj (Except.ok.inj h)
    obtain ⟨rfl, rfl⟩ := List.append_eq_nil_iff.mp hnil
    exact List.forall_mem_cons.mpr ⟨checkObject_nil hfirst, ih hlater⟩

section Events

variable {S : Shows} {names : List PyStr}

variable {i : Nat} {byId byId' : List (PyStr × Members)}

theorem checkEvent_nil {event : Json}
    (h : checkEvent S names i event byId = .ok ([], byId')) : Identified event := by
  unfold checkEvent at h
  split at h
  · next ms =>
    split at h
    · next pid hpid => exact ⟨ms, pid, rfl, str_of_named hpid⟩
    · cases h
  · cases h

theorem checkEvents_nil {events : List Json}
    (h : checkEvents S names i events byId = .ok ([], byId')) :
    ∀ event ∈ events, Identified event := by
  induction events generalizing i byId byId' with
  | nil => exact nofun
  | cons event rest ih =>
    obtain ⟨first, hfirst, h⟩ := of_bind_ok h
    obtain ⟨later, hlater, h⟩ := of_bind_ok h
    obtain ⟨errors, next⟩ := first
    obtain ⟨errors', last⟩ := later
    obtain ⟨hnil, -⟩ := Prod.mk.inj (Except.ok.inj h)
    obtain ⟨rfl, rfl⟩ := List.append_eq_nil_iff.mp hnil
    exact List.forall_mem_cons.mpr ⟨checkEvent_nil hfirst, ih hlater⟩

theorem named_of_validateBundle {bundle : Json} (h : validateBundle S bundle = .ok []) :
    ∃ ms l, bundle = .obj ms ∧ listsOf ms = .ok l ∧ (∀ obj ∈ l.objects, Named obj)
      ∧ ∀ event ∈ l.events, Identified event := by
  unfold validateBundle at h
  split at h
  · next ms =>
    split at h
    · next l hl =>
      obtain ⟨objects, hobjects, h⟩ := of_bind_ok h
      obtain ⟨events, hevents, h⟩ := of_bind_ok h
      obtain ⟨links, -, h⟩ := of_bind_ok h
      obtain ⟨decisions, -, h⟩ := of_bind_ok h
      obtain ⟨errors, seen⟩ := objects
      obtain ⟨errors', byId⟩ := events
      have hnil := Except.ok.inj h
      simp only [List.append_eq_nil_iff] at hnil
      obtain ⟨⟨⟨rfl, rfl⟩, -⟩, -⟩ := hnil
      exact ⟨ms, l, rfl, hl, checkObjects_nil hobjects, checkEvents_nil hevents⟩
    · cases h
  · cases h

end Events

end Centinal26.Canonical
