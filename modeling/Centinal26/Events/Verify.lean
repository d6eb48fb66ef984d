/-
`verify_chain` over any content of the table, and the calls that ask it first.
-/
import Centinal26.Events.Store
import Centinal26.Lib.Chain
import Centinal26.Py.Scan

namespace Centinal26.Events.Raw

open Py

-- == cells

/-- A value of a column with text affinity. -/
inductive Cell : Type
  | text (t : Text)
  | blob (bytes : List UInt8)
  /-- a text that is not UTF-8 -/
  | broken
deriving DecidableEq

/-- What `int(row["schema_version"])` comes to. -/
inductive Version : Type
  | whole (n : Int)
  | notNumber
  | infinite
deriving DecidableEq

structure RawRow where
  seq : Int
  eventId : Cell
  ts : Cell
  type : Cell
  entityId : Option Cell
  payloadJson : Cell
  prevHash : Cell
  eventHash : Cell
  schemaVersion : Version

/-- Every column of the row can be fetched. -/
def RawRow.isFetched (r : RawRow) : Bool :=
  ([r.eventId, r.ts, r.type, r.payloadJson, r.prevHash, r.eventHash]
    ++ r.entityId.toList).all fun c => decide (c ≠ .broken)

/-- An `Event`, as it is read: its columns may be blobs. -/
structure RawEvent where
  seq : Int
  eventId : Cell
  ts : Cell
  type : Cell
  entityId : Option Cell
  payload : Fields
  prevHash : Cell
  eventHash : Cell

/-- What is raised. -/
inductive VerifyErr : Type
  | py (e : PyErr)
  | jsonDecode
  | stateTransition
  | recursionError
deriving DecidableEq

/-- `except (json.JSONDecodeError, StateTransitionError, TypeError, ValueError)`. -/
def VerifyErr.isCaught : VerifyErr → Bool
  | .jsonDecode => true
  | .stateTransition => true
  | .recursionError => false
  | .py .typeError => true
  | .py (.valueError _) => true
  | .py .unicodeDecodeError => true
  | .py .unicodeEncodeError => true
  | .py _ => false

/-- What the platform decides of `json`: how a float is read, how bytes are decoded, and
where the stack ends. -/
structure Platform where
  toFloat : PyStr → PyFloat
  decode : List UInt8 → Option PyStr
  loadsTooDeep : PyStr → Bool
  dumpsTooDeep : Json → Bool

-- == reading

section Reading

variable (P : Platform)

def loadsStr (s : PyStr) : Except VerifyErr Json :=
  if P.loadsTooDeep s then .error .recursionError
  else match loadsText P.toFloat s with
    | .ok d => .ok d
    | .error .decode => .error .jsonDecode
    | .error .tooManyDigits =>
      .error (.py (.valueError "Exceeds the limit for integer string conversion"))

/-- The string `json.loads` scans. -/
def Cell.source? : Cell → Option PyStr
  | .text t => some t.str
  | .blob bytes => P.decode bytes
  | .broken => none

def Cell.loads (c : Cell) : Except VerifyErr Json :=
  match c.source? P with
  | none => .error (.py .unicodeDecodeError)
  | some s => loadsStr P s

def RawRow.toEvent (r : RawRow) : Except VerifyErr RawEvent :=
  match r.schemaVersion with
  | .infinite => .error (.py .overflowError)
  | .notNumber => .error (.py (.valueError "invalid literal for int()"))
  | .whole n =>
    if n ≠ eventSchemaVersion then .error .stateTransition
    else do
      let doc ← r.payloadJson.loads P
      match doc.load.fields? with
      | none => .error .stateTransition
      | some payload => .ok ⟨r.seq, r.eventId, r.ts, r.type, r.entityId, payload,
          r.prevHash, r.eventHash⟩

def events (rows : List RawRow) : Except VerifyErr (List RawEvent) :=
  if rows.all RawRow.isFetched then rows.mapM (RawRow.toEvent P)
  else .error (.py (.operationalError "Could not decode to UTF-8 column"))

-- == hashing

/-- A column, as `json.dumps` takes it. -/
def Cell.dumps : Cell → Except VerifyErr PyStr
  | .text t => .ok t.str
  | _ => .error (.py .typeError)

def dumpsEntity : Option Cell → Except VerifyErr (Option PyStr)
  | none => .ok none
  | some c => c.dumps.map some

/-- `json.dumps(payload, allow_nan=False)`, as far as it raises. -/
def checkPayload (payload : Fields) : Except VerifyErr Unit :=
  if P.dumpsTooDeep payload.doc.json then .error .recursionError
  else if payload.doc.json.isFinite then .ok ()
  else .error (.py notCompliant)

variable (H : Host)

def RawEvent.rehash (e : RawEvent) : Except VerifyErr Text := do
  let entityId ← dumpsEntity e.entityId
  let eventId ← e.eventId.dumps
  checkPayload P e.payload
  let prevHash ← e.prevHash.dumps
  let ts ← e.ts.dumps
  let type ← e.type.dumps
  let text ← (encode ((eventBody eventId ts type entityId e.payload prevHash).text
    .canonical)).mapError .py
  .ok (H.sha256 text)

def Cell.isEventType : Cell → Bool
  | .text t => (EventType.ofName? t.str).isSome
  | _ => false

/-- The loop of `verify_chain`. -/
def verifyEvents : Cell → List RawEvent → Except VerifyErr Bool
  | _, [] => .ok true
  | previous, e :: rest =>
    if e.prevHash ≠ previous then .ok false
    else if !e.type.isEventType then .ok false
    else do
      let expected ← e.rehash P H
      if .text expected ≠ e.eventHash then .ok false
      else verifyEvents e.eventHash rest

def verifyChain (rows : List RawRow) : Except VerifyErr Bool :=
  match events P rows with
  | .error x => if x.isCaught then .ok false else .error x
  | .ok es => verifyEvents P H (.text genesis) es

-- == callers

/-- A call that asks `verify_chain` first: what it does of a chain that holds, and of one
that does not. -/
structure Caller (α : Type) where
  valid : List RawEvent → Except VerifyErr α
  invalid : Except VerifyErr α

def Caller.call {α : Type} (c : Caller α) (rows : List RawRow) : Except VerifyErr α := do
  if ← verifyChain P H rows then
    let es ← events P rows
    c.valid es
  else c.invalid

end Reading

section Callers

variable {α : Type}

def stateSummary (summarise : List RawEvent → Except VerifyErr α) (blank : α) : Caller α :=
  ⟨summarise, .ok blank⟩

/-- `_existing_state`, the guard of `ingest_bytes`. -/
def existingState (rebuild : List RawEvent → Except VerifyErr α) : Caller α :=
  ⟨rebuild, .error (.py (.valueError "refusing ingestion because the event chain is invalid"))⟩

/-- `advance_until_idle`, after its first check. -/
def advanceUntilIdle (proceed : List RawEvent → Except VerifyErr α) : Caller α :=
  ⟨proceed, .error (.py (.valueError "refusing advance because the event chain is invalid"))⟩

end Callers

-- == statements

section Statements

variable (P : Platform) (H : Host)

/-- The row can be read and hashed again. -/
def Rehashes (r : RawRow) : Prop :=
  r.isFetched = true ∧ ∃ e t, r.toEvent P = .ok e ∧ e.rehash P H = .ok t

/-- The call does what it does of a chain that holds, or what it does of one that does not;
the latter if some row cannot be hashed again. -/
structure Guarded {α : Type} (c : Caller α) (rows : List RawRow) : Prop where
  outcome : c.call P H rows = c.invalid
    ∨ ∃ es, events P rows = .ok es ∧ c.call P H rows = c.valid es
  closed : (∃ r ∈ rows, ¬ Rehashes P H r) → c.call P H rows = c.invalid

/-- What is expected of a guard. -/
structure FailsClosed (rows : List RawRow) : Prop where
  total : ∃ b, verifyChain P H rows = .ok b
  closed : (∃ r ∈ rows, ¬ Rehashes P H r) → verifyChain P H rows = .ok false
  summary : ∀ (α : Type) (summarise : List RawEvent → Except VerifyErr α) (blank : α),
    Guarded P H (stateSummary summarise blank) rows
  ingest : ∀ (α : Type) (rebuild : List RawEvent → Except VerifyErr α),
    Guarded P H (existingState rebuild) rows
  advance : ∀ (α : Type) (proceed : List RawEvent → Except VerifyErr α),
    Guarded P H (advanceUntilIdle proceed) rows

/-- What was read of the row serialises. -/
structure Serialisable (e : RawEvent) : Prop where
  eventId : ∃ t, e.eventId = .text t
  ts : ∃ t, e.ts = .text t
  entityId : ∀ c, e.entityId = some c → ∃ t, c = .text t
  shallow : P.dumpsTooDeep e.payload.doc.json = false
  finite : e.payload.doc.json.isFinite = true
  encodable : e.payload.doc.json.isEncodable = true

/-- Reading the row goes beyond what is caught. -/
def Overruns (r : RawRow) : Prop :=
  r.schemaVersion = .infinite ∨ r.schemaVersion = .whole eventSchemaVersion
    ∧ ∃ s, r.payloadJson.source? P = some s ∧ P.loadsTooDeep s = true

/-- The type is known and the hash is right. -/
def Sound (e : RawEvent) : Prop :=
  e.type.isEventType = true ∧ ∃ t, e.rehash P H = .ok t ∧ e.eventHash = .text t

/-- A row is reached: it comes after sound rows, and its link and its type are right. -/
def Reached (g : Cell) (pre : List RawEvent) (e : RawEvent) : Prop :=
  Chain.Linked RawEvent.prevHash RawEvent.eventHash g pre ∧ (∀ d ∈ pre, Sound P H d)
    ∧ e.prevHash = Chain.last RawEvent.eventHash g pre ∧ e.type.isEventType = true

/-- No row of the table that `verify_chain` reaches makes it raise: every column can be
fetched, the first row that cannot be read does not go beyond what is caught, and a row
that is reached serialises. -/
structure Manageable (rows : List RawRow) : Prop where
  fetched : ∀ r ∈ rows, r.isFetched = true
  read : ∀ pre r post, rows = pre ++ r :: post → (∀ q ∈ pre, ∃ e, q.toEvent P = .ok e) →
    ¬ Overruns P r
  serialisable : ∀ es, rows.mapM (RawRow.toEvent P) = .ok es → ∀ pre e post,
    es = pre ++ e :: post → Reached P H (.text genesis) pre e → Serialisable P e

end Statements

variable {P : Platform} {H : Host}

-- == reads

theorem caught_iff {r : RawRow} {x : VerifyErr} (h : r.toEvent P = .error x) :
    x.isCaught = true ↔ ¬ Overruns P r := by
  unfold RawRow.toEvent at h
  unfold Overruns
  cases hv : r.schemaVersion with
  | infinite =>
    rw [hv] at h
    cases h
    exact iff_of_false (by decide) fun hnot => hnot (Or.inl rfl)
  | notNumber =>
    rw [hv] at h
    cases h
    exact iff_of_true rfl (by rintro (hinf | ⟨hwhole, -⟩) <;> contradiction)
  | whole n =>
    simp only [hv] at h
    split at h
    · next hne =>
      cases h
      refine iff_of_true rfl ?_
      rintro (hinf | ⟨hwhole, -⟩)
      · cases hinf
      · cases hwhole
        exact hne rfl
    · next heq =>
      obtain rfl := not_not.mp heq
      unfold Cell.loads at h
      cases hs : r.payloadJson.source? P with
      | none =>
        rw [hs] at h
        cases h
        refine iff_of_true rfl ?_
        rintro (hinf | ⟨-, s, hsome, -⟩)
        · cases hinf
        · cases hsome
      | some s =>
        simp only [hs] at h
        unfold loadsStr at h
        by_cases hdeep : P.loadsTooDeep s = true
        · rw [if_pos hdeep] at h
          cases h
          exact iff_of_false (by decide) fun hnot => hnot (Or.inr ⟨rfl, s, rfl, hdeep⟩)
        · rw [if_neg hdeep] at h
          have hnot : ¬ (Version.whole eventSchemaVersion = .infinite
              ∨ Version.whole eventSchemaVersion = .whole eventSchemaVersion
                ∧ ∃ s', some s = some s' ∧ P.loadsTooDeep s' = true) := by
            rintro (hinf | ⟨-, s', hsome, hdeep'⟩)
            · cases hinf
            · cases hsome
              exact hdeep hdeep'
          refine iff_of_true ?_ hnot
          cases hloads : loadsText P.toFloat s with
          | error e =>
            rw [hloads] at h
            cases e <;> cases h <;> rfl
          | ok d =>
            rw [hloads] at h
            simp only [bind_ok_eq] at h
            split at h
            · cases h
              rfl
            · cases h

theorem not_overruns_of_ok {r : RawRow} {e : RawEvent} (h : r.toEvent P = .ok e) :
    ¬ Overruns P r := by
  unfold RawRow.toEvent at h
  rintro (hinf | ⟨hwhole, s, hs, hdeep⟩)
  · rw [hinf] at h
    cases h
  · simp only [hwhole, ne_eq, not_true_eq_false, if_false] at h
    obtain ⟨d, hd, -⟩ := of_bind_ok h
    unfold Cell.loads loadsStr at hd
    simp only [hs, hdeep, if_true] at hd
    cases hd

theorem forall₂_left {α β : Type} {R : α → β → Prop} {xs : List α} {ys : List β}
    (h : List.Forall₂ R xs ys) {a : α} (ha : a ∈ xs) : ∃ b ∈ ys, R a b := by
  induction h with
  | nil => cases ha
  | cons hab _ ih =>
    rcases List.mem_cons.mp ha with rfl | ha
    · exact ⟨_, List.mem_cons_self .., hab⟩
    · obtain ⟨b, hb, hR⟩ := ih ha
      exact ⟨b, List.mem_cons_of_mem _ hb, hR⟩

theorem mapM_error {α β ε : Type} {f : α → Except ε β} {xs : List α} {x : ε}
    (h : xs.mapM f = .error x) :
    ∃ pre a post, xs = pre ++ a :: post ∧ (∀ b ∈ pre, ∃ c, f b = .ok c) ∧ f a = .error x := by
  induction xs with
  | nil => cases h
  | cons a xs ih =>
    rw [List.mapM_cons] at h
    cases ha : f a with
    | error y =>
      rw [ha] at h
      cases h
      exact ⟨[], a, xs, rfl, (by simp), ha⟩
    | ok c =>
      rw [ha, bind_ok_eq] at h
      cases hxs : xs.mapM f with
      | ok cs =>
        rw [hxs] at h
        cases h
      | error y =>
        rw [hxs] at h
        cases h
        obtain ⟨pre, b, post, rfl, hpre, hb⟩ := ih hxs
        refine ⟨a :: pre, b, post, rfl, ?_, hb⟩
        intro d hd
        rcases List.mem_cons.mp hd with rfl | hd
        · exact ⟨c, ha⟩
        · exact hpre d hd

theorem mapM_ok {α β ε : Type} {f : α → Except ε β} {xs : List α} {ys : List β}
    (h : xs.mapM f = .ok ys) : List.Forall₂ (fun a b => f a = .ok b) xs ys := by
  induction xs generalizing ys with
  | nil =>
    cases h
    exact .nil
  | cons a xs ih =>
    rw [List.mapM_cons] at h
    obtain ⟨b, hb, h⟩ := of_bind_ok h
    obtain ⟨bs, hbs, h⟩ := of_bind_ok h
    cases h
    exact .cons hb (ih hbs)

theorem mapM_of_cut {α β ε : Type} {f : α → Except ε β} {pre post : List α} {a : α} {x : ε}
    (hpre : ∀ b ∈ pre, ∃ c, f b = .ok c) (ha : f a = .error x) :
    (pre ++ a :: post).mapM f = .error x := by
  induction pre with
  | nil =>
    rw [List.nil_append, List.mapM_cons, ha]
    rfl
  | cons b pre ih =>
    obtain ⟨c, hc⟩ := hpre b (List.mem_cons_self ..)
    rw [List.cons_append, List.mapM_cons, hc, bind_ok_eq,
      ih fun d hd => hpre d (List.mem_cons_of_mem _ hd)]
    rfl

-- == hashing

theorem dumps_ok {c : Cell} {s : PyStr} : c.dumps = .ok s ↔ ∃ t, c = .text t ∧ t.str = s := by
  constructor
  · intro h
    cases c with
    | text t => exact ⟨t, rfl, Except.ok.inj h⟩
    | blob bytes => cases h
    | broken => cases h
  · rintro ⟨t, rfl, rfl⟩
    rfl

theorem dumpsEntity_ok {c : Option Cell} (h : ∀ d, c = some d → ∃ t, d = .text t) :
    ∃ t : Option Text, dumpsEntity c = .ok (t.map Text.str) := by
  cases c with
  | none => exact ⟨none, rfl⟩
  | some d =>
    obtain ⟨t, rfl⟩ := h d rfl
    exact ⟨some t, rfl⟩

theorem entityId_of_dumps {c : Option Cell} {s : Option PyStr} (h : dumpsEntity c = .ok s) :
    ∀ d, c = some d → ∃ t, d = .text t := by
  rintro d rfl
  obtain ⟨s', hs', -⟩ := of_map_ok h
  obtain ⟨t, rfl, -⟩ := dumps_ok.mp hs'
  exact ⟨t, rfl⟩

theorem checkPayload_ok {payload : Fields} : checkPayload P payload = .ok ()
    ↔ P.dumpsTooDeep payload.doc.json = false ∧ payload.doc.json.isFinite = true := by
  unfold checkPayload
  by_cases hdeep : P.dumpsTooDeep payload.doc.json = true
  · rw [if_pos hdeep, hdeep]
    exact iff_of_false (by simp) (by simp)
  · rw [if_neg hdeep]
    by_cases hfinite : payload.doc.json.isFinite = true
    · rw [if_pos hfinite]
      exact iff_of_true rfl ⟨Bool.eq_false_iff.mpr hdeep, hfinite⟩
    · rw [if_neg hfinite]
      exact iff_of_false (by simp) fun h => hfinite h.2

theorem isEncodable_optJson (t : Option Text) : (optJson (t.map Text.str)).isEncodable = true := by
  cases t with
  | none => rfl
  | some t => exact decide_eq_true t.encodable

theorem isEncodable_eventBody (eventId ts type prevHash : Text) (entityId : Option Text)
    (payload : Fields) : (eventBody eventId.str ts.str type.str (entityId.map Text.str) payload
      prevHash.str).isEncodable = payload.doc.json.isEncodable := by
  have hbody : eventBody eventId.str ts.str type.str (entityId.map Text.str) payload prevHash.str
      = .obj [(py "entity_id", optJson (entityId.map Text.str)), (py "event_id", .str eventId.str),
        (py "payload", payload.doc.json), (py "prev_hash", .str prevHash.str),
        (py "schema_version", .int eventSchemaVersion), (py "ts", .str ts.str),
        (py "type", .str type.str)] := rfl
  rw [hbody, Json.isEncodable, allEncodableMembers_eq]
  simp only [List.all_cons, List.all_nil, isEncodable_optJson, Json.isEncodable, encodable_py,
    eventId.encodable, prevHash.encodable, ts.encodable, type.encodable, decide_true,
    Bool.true_and, Bool.and_true]

theorem rehash_ok_iff {e : RawEvent} {prev type : Text} (hprev : e.prevHash = .text prev)
    (htype : e.type = .text type) : (∃ t, e.rehash P H = .ok t) ↔ Serialisable P e := by
  unfold RawEvent.rehash
  constructor
  · rintro ⟨t, h⟩
    obtain ⟨entityId, hentity, h⟩ := of_bind_ok h
    obtain ⟨eventId, hevent, h⟩ := of_bind_ok h
    obtain ⟨⟨⟩, hpayload, h⟩ := of_bind_ok h
    obtain ⟨prevHash, hprev', h⟩ := of_bind_ok h
    obtain ⟨ts, hts, h⟩ := of_bind_ok h
    obtain ⟨type', htype', h⟩ := of_bind_ok h
    obtain ⟨text, htext, -⟩ := of_bind_ok h
    obtain ⟨eventId, heventText, rfl⟩ := dumps_ok.mp hevent
    obtain ⟨prevHash, -, rfl⟩ := dumps_ok.mp hprev'
    obtain ⟨ts, htsText, rfl⟩ := dumps_ok.mp hts
    obtain ⟨type', -, rfl⟩ := dumps_ok.mp htype'
    have hentityText := entityId_of_dumps hentity
    obtain ⟨entity, hentity'⟩ := dumpsEntity_ok hentityText
    obtain rfl : entity.map Text.str = entityId := Except.ok.inj (hentity'.symm.trans hentity)
    obtain ⟨hshallow, hfinite⟩ := checkPayload_ok.mp hpayload
    refine ⟨⟨eventId, heventText⟩, ⟨ts, htsText⟩, hentityText, hshallow, hfinite, ?_⟩
    rw [← isEncodable_eventBody eventId ts type' prevHash entity e.payload, ← encodable_text]
    have hencode := of_mapError_ok htext
    rw [← encode_eq_ok.mp hencode]
    exact text.encodable
  · rintro ⟨⟨eventId, hevent⟩, ⟨ts, hts⟩, hentity, hshallow, hfinite, hencodable⟩
    obtain ⟨entity, hentity⟩ := dumpsEntity_ok hentity
    rw [← isEncodable_eventBody eventId ts type prev entity e.payload, ← encodable_text]
      at hencodable
    refine ⟨H.sha256 ⟨_, hencodable⟩, ?_⟩
    rw [hentity, hevent, checkPayload_ok.mpr ⟨hshallow, hfinite⟩, hprev, hts, htype]
    have hencode := encode_eq_ok.mpr (rfl : (Text.mk _ hencodable).str = _)
    simp only [Cell.dumps, bind_ok_eq, hencode]
    rfl

-- == chains

theorem verifyEvents_cons {g : Cell} {e : RawEvent} {rest : List RawEvent}
    (hprev : e.prevHash = g) (hsound : Sound P H e) :
    verifyEvents P H g (e :: rest) = verifyEvents P H e.eventHash rest := by
  obtain ⟨htype, t, ht, hhash⟩ := hsound
  rw [verifyEvents, if_neg (not_not_intro hprev), htype, ht]
  simp only [Bool.not_true, Bool.false_eq_true, if_false, bind_ok_eq, ← hhash, ne_eq,
    not_true_eq_false]

theorem type_text {e : RawEvent} (h : e.type.isEventType = true) : ∃ t, e.type = .text t := by
  cases ht : e.type with
  | text t => exact ⟨t, rfl⟩
  | blob bytes =>
    rw [ht] at h
    cases h
  | broken =>
    rw [ht] at h
    cases h

theorem reached_cons {g : Cell} {d e : RawEvent} {pre : List RawEvent} (hprev : d.prevHash = g)
    (hsound : Sound P H d) : Reached P H g (d :: pre) e ↔ Reached P H d.eventHash pre e := by
  unfold Reached
  rw [Chain.linked_cons, Chain.last_cons, List.forall_mem_cons]
  constructor
  · rintro ⟨⟨-, hlinked⟩, ⟨-, hpre⟩, hrest⟩
    exact ⟨hlinked, hpre, hrest⟩
  · rintro ⟨hlinked, hpre, hrest⟩
    exact ⟨⟨hprev, hlinked⟩, ⟨hsound, hpre⟩, hrest⟩

theorem verifyEvents_total (g : Text) (es : List RawEvent) :
    (∃ b, verifyEvents P H (.text g) es = .ok b) ↔ ∀ pre e post, es = pre ++ e :: post →
      Reached P H (.text g) pre e → Serialisable P e := by
  induction es generalizing g with
  | nil => exact iff_of_true ⟨true, rfl⟩ fun pre e post h => by simp at h
  | cons d es ih =>
    by_cases hreached : d.prevHash = .text g ∧ d.type.isEventType = true
    · obtain ⟨hprev, htype⟩ := hreached
      obtain ⟨type, htext⟩ := type_text htype
      by_cases hserial : Serialisable P d
      · obtain ⟨t, ht⟩ := (rehash_ok_iff (H := H) hprev htext).mpr hserial
        by_cases hhash : d.eventHash = .text t
        · have hsound : Sound P H d := ⟨htype, t, ht, hhash⟩
          rw [verifyEvents_cons hprev hsound, hhash, ih]
          constructor
          · intro h pre e post heq hreach
            cases pre with
            | nil =>
              cases heq
              exact hserial
            | cons c pre =>
              injection heq with hd heq
              subst hd
              refine h pre e post heq ?_
              rw [← hhash]
              exact (reached_cons hprev hsound).mp hreach
          · intro h pre e post heq hreach
            refine h (d :: pre) e post (by rw [heq]; rfl) ?_
            rw [reached_cons hprev hsound, hhash]
            exact hreach
        · refine iff_of_true ⟨false, ?_⟩ ?_
          · rw [verifyEvents, if_neg (not_not_intro hprev), htype, ht]
            simp only [Bool.not_true, Bool.false_eq_true, if_false, bind_ok_eq]
            rw [if_pos fun heq => hhash heq.symm]
          · intro pre e post heq hreach
            cases pre with
            | nil =>
              cases heq
              exact hserial
            | cons c pre =>
              injection heq with hd heq
              subst hd
              obtain ⟨-, t', ht', hhash'⟩ := hreach.2.1 d (List.mem_cons_self ..)
              rw [ht] at ht'
              cases ht'
              exact absurd hhash' hhash
      · refine iff_of_false ?_ fun h =>
          hserial (h [] d es rfl ⟨trivial, fun _ hd => (by cases hd), hprev, htype⟩)
        rintro ⟨b, hb⟩
        rw [verifyEvents, if_neg (not_not_intro hprev), htype] at hb
        simp only [Bool.not_true, Bool.false_eq_true, if_false] at hb
        obtain ⟨t, ht, -⟩ := of_bind_ok hb
        exact hserial ((rehash_ok_iff hprev htext).mp ⟨t, ht⟩)
    · refine iff_of_true ⟨false, ?_⟩ ?_
      · rw [verifyEvents]
        by_cases hprev : d.prevHash = .text g
        · rw [if_neg (not_not_intro hprev), if_pos]
          simpa using fun htype => hreached ⟨hprev, htype⟩
        · rw [if_pos hprev]
      · intro pre e post heq hreach
        cases pre with
        | nil =>
          cases heq
          exact absurd ⟨hreach.2.2.1, hreach.2.2.2⟩ hreached
        | cons c pre =>
          injection heq with hd heq
          subst hd
          exact absurd ⟨hreach.1.1, (hreach.2.1 _ (List.mem_cons_self ..)).1⟩ hreached

theorem sound_of_verifyEvents {g : Cell} {es : List RawEvent}
    (h : verifyEvents P H g es = .ok true) : ∀ e ∈ es, Sound P H e := by
  induction es generalizing g with
  | nil => exact fun _ he => (by cases he)
  | cons d es ih =>
    rw [verifyEvents] at h
    split at h
    · cases h
    · split at h
      · cases h
      · next htype =>
        obtain ⟨t, ht, h⟩ := of_bind_ok h
        split at h
        · cases h
        · next hhash =>
          have hsound : Sound P H d := ⟨by simpa using htype, t, ht, (not_not.mp hhash).symm⟩
          exact List.forall_mem_cons.mpr ⟨hsound, ih h⟩

-- == the guard

variable {rows : List RawRow}

theorem events_ok_iff {es : List RawEvent} : events P rows = .ok es
    ↔ (∀ r ∈ rows, r.isFetched = true) ∧ rows.mapM (RawRow.toEvent P) = .ok es := by
  unfold events
  by_cases hfetched : rows.all RawRow.isFetched = true
  · rw [if_pos hfetched]
    exact ⟨fun h => ⟨List.all_eq_true.mp hfetched, h⟩, fun h => h.2⟩
  · rw [if_neg hfetched]
    exact iff_of_false (by simp) fun h => hfetched (List.all_eq_true.mpr h.1)

theorem verifyChain_total : (∃ b, verifyChain P H rows = .ok b) ↔ Manageable P H rows := by
  unfold verifyChain
  by_cases hfetched : ∀ r ∈ rows, r.isFetched = true
  · have hevents : events P rows = rows.mapM (RawRow.toEvent P) :=
      if_pos (List.all_eq_true.mpr hfetched)
    rw [hevents]
    cases hread : rows.mapM (RawRow.toEvent P) with
    | ok es =>
      rw [verifyEvents_total]
      constructor
      · refine fun h => ⟨hfetched, ?_, ?_⟩
        · rintro pre r post rfl - hoverruns
          obtain ⟨e, he⟩ : ∃ e, r.toEvent P = .ok e := by
            cases he : r.toEvent P with
            | ok e => exact ⟨e, rfl⟩
            | error x =>
              have hmem : r ∈ pre ++ r :: post :=
                List.mem_append_right _ (List.mem_cons_self ..)
              obtain ⟨e, -, he'⟩ := forall₂_left (mapM_ok hread) hmem
              rw [he] at he'
              cases he'
          exact not_overruns_of_ok he hoverruns
        · intro es' hes' pre e post heq hreach
          rw [hread] at hes'
          cases hes'
          exact h pre e post heq hreach
      · exact fun h => h.serialisable es hread
    | error x =>
      obtain ⟨pre, r, post, rfl, hpre, hr⟩ := mapM_error hread
      constructor
      · rintro ⟨b, hb⟩
        have hcaught : x.isCaught = true := by
          by_contra hnot
          cases (if_neg hnot).symm.trans hb
        refine ⟨hfetched, ?_, fun es hes => ?_⟩
        · intro pre' r' post' heq hpre' hoverruns
          cases hr' : r'.toEvent P with
          | ok e => exact not_overruns_of_ok hr' hoverruns
          | error y =>
            rw [heq, mapM_of_cut hpre' hr'] at hread
            cases hread
            exact (caught_iff hr').mp hcaught hoverruns
        · rw [hread] at hes
          cases hes
      · intro h
        exact ⟨false, if_pos ((caught_iff hr).mpr (h.read pre r post rfl hpre))⟩
  · have hevents : events P rows
        = .error (.py (.operationalError "Could not decode to UTF-8 column")) :=
      if_neg fun hall => hfetched (List.all_eq_true.mp hall)
    rw [hevents]
    refine iff_of_false ?_ fun h => hfetched h.fetched
    rintro ⟨b, hb⟩
    cases hb

theorem rehashes_of_true (h : verifyChain P H rows = .ok true) : ∀ r ∈ rows, Rehashes P H r := by
  intro r hr
  unfold verifyChain at h
  split at h
  · split at h <;> cases h
  · next es hes =>
    obtain ⟨hfetched, hread⟩ := events_ok_iff.mp hes
    obtain ⟨e, he, hre⟩ := forall₂_left (mapM_ok hread) hr
    obtain ⟨-, t, ht, -⟩ := sound_of_verifyEvents h e he
    exact ⟨hfetched r hr, e, t, hre, ht⟩

theorem closed_of_total {b : Bool} (h : verifyChain P H rows = .ok b)
    (hrow : ∃ r ∈ rows, ¬ Rehashes P H r) : verifyChain P H rows = .ok false := by
  cases b with
  | false => exact h
  | true =>
    obtain ⟨r, hr, hnot⟩ := hrow
    exact absurd (rehashes_of_true h r hr) hnot

theorem guarded {α : Type} (c : Caller α) {b : Bool} (h : verifyChain P H rows = .ok b) :
    Guarded P H c rows := by
  have hinvalid : verifyChain P H rows = .ok false → c.call P H rows = c.invalid := by
    intro hfalse
    unfold Caller.call
    rw [hfalse]
    rfl
  refine ⟨?_, fun hrow => hinvalid (closed_of_total h hrow)⟩
  cases b with
  | false => exact Or.inl (hinvalid h)
  | true =>
    refine Or.inr ?_
    have hes : ∃ es, events P rows = .ok es := by
      unfold verifyChain at h
      split at h
      · split at h <;> cases h
      · next es hes => exact ⟨es, hes⟩
    obtain ⟨es, hes⟩ := hes
    refine ⟨es, hes, ?_⟩
    unfold Caller.call
    rw [h, bind_ok_eq, if_pos rfl, hes, bind_ok_eq]

/-- `verify_chain` fails closed exactly on the tables it can manage. -/
theorem verify_failsClosed (P : Platform) (H : Host) (rows : List RawRow) :
    FailsClosed P H rows ↔ Manageable P H rows := by
  constructor
  · exact fun h => verifyChain_total.mp h.total
  · intro h
    obtain ⟨b, hb⟩ := verifyChain_total.mpr h
    exact ⟨⟨b, hb⟩, closed_of_total hb, fun α summarise blank => guarded _ hb,
      fun α rebuild => guarded _ hb, fun α proceed => guarded _ hb⟩

-- == samples

namespace Sample

def platform : Platform := ⟨fun _ => .nan, fun _ => none, fun _ => false, fun _ => false⟩

def host : Host := Host.sample fun n => n

/-- A first row with this payload, whatever its hash. -/
def row (payload : String) : RawRow :=
  ⟨1, .text (Text.lit "event"), .text (Text.lit "now"), .text (Text.lit "GOAL_DISCOVERED"),
    none, .text (Text.lit payload), .text genesis, .text genesis, .whole eventSchemaVersion⟩

/-- A payload that parses and does not serialise: NaN, or a surrogate alone. -/
theorem raises : verifyChain platform host [row "\x7b\"a\":NaN\x7d"] = .error (.py notCompliant)
    ∧ verifyChain platform host [row "\x7b\"a\":\"\\ud800\"\x7d"] = .error (.py .unicodeEncodeError)
    ∧ ¬ FailsClosed platform host [row "\x7b\"a\":NaN\x7d"] := by
  have hnan : verifyChain platform host [row "\x7b\"a\":NaN\x7d"] = .error (.py notCompliant) := by
    decide +kernel
  refine ⟨hnan, by decide +kernel, fun h => ?_⟩
  obtain ⟨b, hb⟩ := h.total
  rw [hnan] at hb
  cases hb

end Sample

end Centinal26.Events.Raw
