/-
The weekly sweep: `next_conversation` and `record_review`, again and again in one ISO week.
-/
import Centinal26.Intelligence.Work
import Centinal26.Py.ReadBack
import Mathlib.Algebra.Order.Ring.Rat
import Mathlib.Data.Prod.Lex
import Mathlib.Order.Lattice

namespace Centinal26.Intelligence.Sweep

open Py Steps

variable {H : Host}

-- == weeks

/-- A `datetime`: without a timezone, in the timezone of the controller or in another. -/
inductive Moment : Type
  | naive (t : Instant)
  | own (wall utc : Instant)
  | other (utc : Instant)

def Moment.utc : Moment → Instant
  | .naive t => t
  | .own _ utc => utc
  | .other utc => utc

/-- How far the clocks of a timezone are from UTC, at a time in UTC. -/
abbrev Zone := Instant → Int

/-- `_local`: a time that is in the timezone already is not converted. -/
def localTime (zone : Zone) (now : Moment) : Except PyErr Instant :=
  match now with
  | .own wall _ => .ok wall
  | .naive t | .other t => do
    isoTime t
    isoTime (t + zone t)
    .ok (t + zone t)

/-- The year and the week of `isocalendar`: those of the Thursday. -/
def isocalendar (wall : Instant) : Nat × Nat :=
  let day := wall.toNat / 86400000000
  let thursday := calendarDay (day - day % 7 + 3)
  (thursday.yearNumber, thursday.day / 7 + 1)

theorem ascii_pad (w n : Nat) : Ascii (pad w n) := by
  induction w generalizing n with
  | zero => exact ascii_nil
  | succ w ih =>
    refine ascii_append.mpr ⟨ih _, fun c hc => ?_⟩
    rw [List.mem_singleton.mp hc]
    omega

/-- `f"{year}-W{week:02d}"`. -/
def weekText (week : Nat × Nat) : Text :=
  ⟨intRepr week.1 ++ (py "-W" ++ pad 2 week.2), encodable_append.mpr ⟨(ascii_intRepr _).encodable,
      encodable_append.mpr ⟨encodable_py _, (ascii_pad 2 _).encodable⟩⟩⟩

def weekId (zone : Zone) (now : Moment) : Except PyErr Text := do
  .ok (weekText (isocalendar (← localTime zone now)))

-- == tables

structure Conversation where
  conversationKey : Text
  title : Text
  project : Text
  reviewClass : Text
  strategicValue : Rat
  status : Text
  lastReviewedWeek : Option Text
  lastReviewedAt : Option Text
  reviewCount : Int
  unresolvedCount : Int
  notes : Text

/-- A row of `conversation_reviews`. -/
structure Review where
  conversationKey : Text
  weekId : Text
  reviewedAt : Text
  uniqueSignal : Text
  contradiction : Text
  openLoop : Text
  decision : Text
  implementationState : Text
  architecturalImplication : Text
  confidence : PyFloat
  sourceBasis : Text
  reviewHash : Text

/-- `PRIMARY KEY(conversation_key, week_id)`. -/
def Review.slot (r : Review) : PyStr × PyStr := (r.conversationKey.str, r.weekId.str)

structure Registry where
  conversations : Table Conversation.conversationKey
  reviews : Table Review.slot

-- == reads

namespace Conversation

/-- The `CASE` of the query. -/
def rank (c : Conversation) : Nat :=
  if c.reviewClass.str = py "P0" then 0
  else if c.reviewClass.str = py "P1" then 1
  else if c.reviewClass.str = py "P2" then 2
  else 3

def sortKey (c : Conversation) : Nat ×ₗ Ratᵒᵈ ×ₗ PyStr :=
  toLex (c.rank, toLex (OrderDual.toDual c.strategicValue, c.conversationKey.str))

/-- `ORDER BY CASE review_class .. END, strategic_value DESC, conversation_key ASC`. -/
def before (a b : Conversation) : Bool := decide (a.sortKey ≤ b.sortKey)

def isAutomation (c : Conversation) : Bool := decide (c.project.str = py "Automation")

/-- `project='Automation' AND COALESCE(last_reviewed_week,'') != ?`. -/
def isPending (week : Text) (c : Conversation) : Bool :=
  c.isAutomation && decide (((c.lastReviewedWeek.map Text.str).getD []) ≠ week.str)

/-- What `record_review` makes of the row. -/
def reviewed (week reviewedAt : Text) (c : Conversation) : Conversation :=
  { c with
    lastReviewedWeek := some week, lastReviewedAt := some reviewedAt
    reviewCount := c.reviewCount + 1 }

theorem reviewed_key (week reviewedAt : Text) (c : Conversation) :
    (c.reviewed week reviewedAt).conversationKey = c.conversationKey := rfl

end Conversation

def nextConversation (zone : Zone) (now : Moment) (db : Registry) :
    Except PyErr (Option Conversation) := do
  let week ← weekId zone now
  .ok (db.conversations.minBy? (Conversation.isPending week) Conversation.before)

def reviewClasses : List String := ["P0", "P1", "P2", "P3"]

/-- What `coverage` reports; the fraction before it is rounded. -/
structure Coverage where
  weekId : Text
  totalRegistered : Nat
  reviewedCount : Nat
  remainingCount : Int
  coverageFraction : Rat
  remainingByClass : List (String × Nat)
  nextConversation : Option Text

def coverage (zone : Zone) (now : Moment) (db : Registry) : Except PyErr Coverage := do
  let week ← weekId zone now
  let rows := db.conversations.rows.filter Conversation.isAutomation
  let total := rows.length
  let reviewed := rows.countP fun c => decide (c.lastReviewedWeek = some week)
  let next ← nextConversation zone now db
  .ok
    { weekId := week
      totalRegistered := total
      reviewedCount := reviewed
      remainingCount := total - reviewed
      coverageFraction := if total = 0 then 1 else (reviewed : Rat) / total
      remainingByClass := reviewClasses.map fun cls => (cls, rows.countP fun c =>
        decide (c.reviewClass.str = py cls) && decide (c.lastReviewedWeek ≠ some week))
      nextConversation := next.map Conversation.conversationKey }

-- == review

structure Findings where
  uniqueSignal : PyStr
  contradiction : PyStr
  openLoop : PyStr
  decision : PyStr
  implementationState : PyStr
  architecturalImplication : PyStr
  confidence : PyFloat
  sourceBasis : PyStr

/-- `0.0 <= x <= 1.0`. -/
def inUnit : PyFloat → Bool
  | .finite lit => decide (0 ≤ lit.value) && decide (lit.value ≤ 1)
  | _ => false

/-- The items of `record_review`'s `body`. -/
def reviewFields (key : PyStr) (week reviewedAt : Text) (a : Findings) : List (PyStr × PyVal) :=
  [(py "conversation_key", .str key), (py "week_id", week.val), (py "reviewed_at", reviewedAt.val),
    (py "unique_signal", .str a.uniqueSignal), (py "contradiction", .str a.contradiction),
    (py "open_loop", .str a.openLoop), (py "decision", .str a.decision),
    (py "implementation_state", .str a.implementationState),
    (py "architectural_implication", .str a.architecturalImplication),
    (py "confidence", .float a.confidence), (py "source_basis", .str a.sourceBasis)]

def reviewRow (key week reviewedAt : Text) (a : Findings) (digest : Text) :
    Except PyErr Review := do
  .ok ⟨key, week, reviewedAt, ← encode a.uniqueSignal, ← encode a.contradiction,
    ← encode a.openLoop, ← encode a.decision, ← encode a.implementationState,
    ← encode a.architecturalImplication, a.confidence, ← encode a.sourceBasis, digest⟩

/-- `record_review`; `sqlite` is what the database makes of the transaction: where another holds
the lock, or the disk is full, it raises. -/
def recordReview (H : Host) (zone : Zone) (key : PyStr) (a : Findings) (now : Moment)
    (sqlite : Except PyErr Unit) : Tx PyErr Registry Text := fun db =>
  if !inUnit a.confidence then .error (.valueError "confidence must be in [0, 1]")
  else do
    isoTime now.utc
    let reviewedAt := H.isoformat now.utc
    let week ← weekId zone now
    let digest ← sha256Json H (.dict (strItems (reviewFields key week reviewedAt a)))
    sqlite
    let name ← encode key
    match db.conversations.find? name with
    | none => .error (.keyError key)
    | some _ => do
      let row ← reviewRow name week reviewedAt a digest
      .ok (digest, {
        conversations := db.conversations.modify name (Conversation.reviewed week reviewedAt)
          (Conversation.reviewed_key week reviewedAt)
        reviews := db.reviews.upsert row })

-- == sweep

/-- A round: `next_conversation(asked)`, and the review of what it returns. -/
structure Round where
  asked : Moment
  findings : Findings
  now : Moment
  sqlite : Except PyErr Unit

/-- What a round comes to. -/
inductive Outcome : Type
  | raised (e : PyErr)
  | nothing
  | failed (c : Conversation) (e : PyErr)
  | reviewed (c : Conversation)

namespace Outcome

def visit? : Outcome → Option Conversation
  | .reviewed c => some c
  | _ => none

def isFailure : Outcome → Bool
  | .failed .. => true
  | _ => false

end Outcome

def round (H : Host) (zone : Zone) (r : Round) (db : Registry) : Outcome × Registry :=
  match nextConversation zone r.asked db with
  | .error e => (.raised e, db)
  | .ok none => (.nothing, db)
  | .ok (some c) =>
    match (recordReview H zone c.conversationKey.str r.findings r.now r.sqlite).commit db with
    | (.error e, db') => (.failed c e, db')
    | (.ok _, db') => (.reviewed c, db')

abbrev Turn := Machine.Entry Round Outcome Registry

def turns (H : Host) (zone : Zone) (rounds : List Round) (db : Registry) : List Turn :=
  Machine.trace (round H zone) rounds db

/-- The conversations that have been reviewed, in the order of the rounds. -/
def visits (H : Host) (zone : Zone) (rounds : List Round) (db : Registry) : List Conversation :=
  (turns H zone rounds db).filterMap fun e => e.output.visit?

def after (H : Host) (zone : Zone) (rounds : List Round) (db : Registry) : Registry :=
  Machine.exec (round H zone) rounds db

-- == statements

/-- The time is in the week, by the clocks of the controller. -/
def InWeek (zone : Zone) (week : Nat × Nat) (now : Moment) : Prop :=
  ∃ wall, localTime zone now = .ok wall ∧ isocalendar wall = week

/-- The conversations that are still to visit in the week, in the order of the query. -/
structure Pending (week : Text) (db : Registry) (todo : List Conversation) : Prop where
  ordered : todo.Pairwise fun a b => a.before b = true
  once : (todo.map Conversation.conversationKey).Nodup
  mem_iff : ∀ c, c ∈ todo ↔ c ∈ db.conversations.rows ∧ c.project.str = py "Automation"
    ∧ c.lastReviewedWeek ≠ some week

def Findings.texts (a : Findings) : List PyStr :=
  [a.uniqueSignal, a.contradiction, a.openLoop, a.decision, a.implementationState,
    a.architecturalImplication, a.sourceBasis]

/-- Nothing is wrong with the review of the round. -/
structure Round.Proper (r : Round) : Prop where
  confidence : inUnit r.findings.confidence = true
  texts : ∀ s ∈ r.findings.texts, Encodable s
  utc : isoTime r.now.utc = .ok ()
  sqlite : r.sqlite = .ok ()

/-- The sweep, of what was to visit at first. -/
structure Swept (H : Host) (zone : Zone) (week : Nat × Nat) (rounds : List Round) (db : Registry)
    (todo : List Conversation) : Prop where
  pending : Pending (weekText week) db todo
  inOrder : visits H zone rounds db = todo.take (visits H zone rounds db).length
  rest : Pending (weekText week) (after H zone rounds db)
    (todo.drop (visits H zone rounds db).length)
  others : ∀ key, (∀ c ∈ visits H zone rounds db, c.conversationKey ≠ key) →
    (after H zone rounds db).conversations.find? key = db.conversations.find? key
  failures : ∀ e ∈ turns H zone rounds db, e.output.isFailure = true →
    e.after = e.before ∧ ¬ e.input.Proper
  complete : todo.length + (turns H zone rounds db).countP (fun e => e.output.isFailure)
    ≤ rounds.length → visits H zone rounds db = todo
  next : ∀ now, InWeek zone week now → nextConversation zone now (after H zone rounds db)
    = .ok (todo.drop (visits H zone rounds db).length).head?
  covered : ∀ now, InWeek zone week now → ∃ cov,
    coverage zone now (after H zone rounds db) = .ok cov
    ∧ (nextConversation zone now (after H zone rounds db) = .ok none ↔ cov.remainingCount = 0)

-- == pending

variable {a b c : Conversation} {r : Round} {key : Text}

theorem before_iff : a.before b = true ↔ a.sortKey ≤ b.sortKey :=
  decide_eq_true_iff

theorem before_total (a b : Conversation) : a.before b = true ∨ b.before a = true := by
  rw [before_iff, before_iff]
  exact le_total _ _

theorem before_trans (a b c : Conversation) (hab : a.before b = true) (hbc : b.before c = true) :
    a.before c = true := by
  rw [before_iff] at *
  exact le_trans hab hbc

theorem key_of_before (hab : a.before b = true) (hba : b.before a = true) :
    a.conversationKey = b.conversationKey := by
  have hkey := congrArg ofLex (le_antisymm (before_iff.mp hab) (before_iff.mp hba))
  have hrest := congrArg ofLex (congrArg Prod.snd hkey)
  exact Text.ext (congrArg Prod.snd hrest)

theorem weekText_ne_nil (week : Nat × Nat) : (weekText week).str ≠ [] := by
  intro h
  have hdash := (List.append_eq_nil_iff.mp (List.append_eq_nil_iff.mp h).2).1
  exact absurd hdash (by decide)

theorem isPending_iff {week : Nat × Nat} : c.isPending (weekText week) = true
      ↔ c.project.str = py "Automation" ∧ c.lastReviewedWeek ≠ some (weekText week) := by
  unfold Conversation.isPending Conversation.isAutomation
  rw [Bool.and_eq_true, decide_eq_true_eq, decide_eq_true_eq]
  refine and_congr_right fun _ => not_congr ?_
  cases c.lastReviewedWeek with
  | none => exact iff_of_false (fun h => weekText_ne_nil week h.symm) (nofun)
  | some w => exact ⟨fun h => congrArg some (Text.ext h), fun h => by cases h; rfl⟩

theorem exists_pending (week : Nat × Nat) (db : Registry) :
    ∃ todo, Pending (weekText week) db todo := by
  let rows := db.conversations.rows.filter (Conversation.isPending (weekText week))
  have hperm : (rows.mergeSort Conversation.before).Perm rows := List.mergeSort_perm _ _
  have htotal (a b : Conversation) : (a.before b || b.before a) = true := by
    rw [Bool.or_eq_true]
    exact before_total a b
  refine ⟨rows.mergeSort Conversation.before, List.pairwise_mergeSort before_trans htotal rows,
    ?_, fun c => ?_⟩
  · rw [(hperm.map Conversation.conversationKey).nodup_iff]
    exact db.conversations.nodup.sublist (List.filter_sublist.map _)
  · rw [hperm.mem_iff, List.mem_filter, isPending_iff]

variable {zone : Zone} {week : Nat × Nat} {db db' : Registry} {todo : List Conversation}

theorem weekId_eq {now : Moment} (h : InWeek zone week now) :
    weekId zone now = .ok (weekText week) := by
  obtain ⟨wall, hwall, rfl⟩ := h
  unfold weekId
  rw [hwall]
  rfl

theorem nextConversation_eq (h : Pending (weekText week) db todo) {now : Moment}
    (hnow : InWeek zone week now) : nextConversation zone now db = .ok todo.head? := by
  have hpending : ∀ c, c ∈ todo ↔ c ∈ db.conversations.rows
      ∧ c.isPending (weekText week) = true := fun c => by rw [h.mem_iff, isPending_iff]
  unfold nextConversation
  rw [weekId_eq hnow]
  refine congrArg Except.ok ?_
  cases hmin : db.conversations.minBy? (Conversation.isPending (weekText week))
      Conversation.before with
  | none =>
    cases todo with
    | nil => rfl
    | cons c todo =>
      obtain ⟨hmem, hc⟩ := (hpending c).mp (List.mem_cons_self ..)
      exact absurd hc (Bool.eq_false_iff.mp (Table.minBy?_none hmin c hmem))
  | some a =>
    have ha := (hpending a).mpr (Table.minBy?_spec hmin)
    cases todo with
    | nil => cases ha
    | cons c todo =>
      obtain ⟨hmem, hc⟩ := (hpending c).mp (List.mem_cons_self ..)
      have hac := Table.minBy?_le before_total before_trans hmin c hmem hc
      rcases List.mem_cons.mp ha with rfl | ha
      · rfl
      · have hca := List.rel_of_pairwise_cons h.ordered ha
        have hnot := (List.nodup_cons.mp h.once).1
        exact absurd (List.mem_map.mpr ⟨a, ha, key_of_before hac hca⟩) hnot

theorem coverage_eq (h : Pending (weekText week) db todo) {now : Moment}
    (hnow : InWeek zone week now) :
    ∃ cov, coverage zone now db = .ok cov ∧ cov.remainingCount = todo.length := by
  unfold coverage
  rw [nextConversation_eq h hnow, weekId_eq hnow]
  refine ⟨_, rfl, ?_⟩
  have hperm : todo.Perm ((db.conversations.rows.filter Conversation.isAutomation).filter
      fun c => !decide (c.lastReviewedWeek = some (weekText week))) := by
    refine (List.perm_ext_iff_of_nodup h.once.of_map ?_).mpr fun c => ?_
    · exact (db.conversations.nodup.of_map.filter _).filter _
    · rw [h.mem_iff, List.mem_filter, List.mem_filter, Conversation.isAutomation,
        decide_eq_true_eq, Bool.not_eq_true', decide_eq_false_iff_not, and_assoc]
  have hlength := hperm.length_eq
  rw [← List.countP_eq_length_filter] at hlength
  have hcount := List.length_eq_countP_add_countP
    (fun c => decide (c.lastReviewedWeek = some (weekText week)))
    (l := db.conversations.rows.filter Conversation.isAutomation)
  simp only [decide_not, Bool.decide_eq_true] at hcount
  show (((db.conversations.rows.filter Conversation.isAutomation).length : Nat) : Int) - _ = _
  omega

-- == reviews

theorem sha256Json_fields {ms : List (PyStr × PyVal)} {docs : List (PyStr × Json)}
    (hdocs : dumpsFields dumps ms = .ok docs) (hfinite : ∀ m ∈ ms, m.2.isFinite = true)
    (hencodable : ∀ d ∈ docs, Encodable d.1 ∧ d.2.isEncodable = true) :
    ∃ digest, sha256Json H (.dict (strItems ms)) = .ok digest := by
  have hdoc : dumpsStrict (.dict (strItems ms)) = .ok (.obj (sortByName docs)) := by
    unfold dumpsStrict
    rw [dumps_strItems, hdocs, PyVal.isFinite, allItemsFinite_strItems]
    exact if_pos (List.all_eq_true.mpr hfinite)
  have htext : Encodable ((Json.obj (sortByName docs)).text .canonical) := by
    rw [encodable_text, Json.isEncodable, allEncodableMembers_eq, List.all_eq_true]
    intro d hd
    obtain ⟨hname, hvalue⟩ := hencodable d (mem_sortByName.mp hd)
    rw [hvalue, decide_eq_true hname]
    rfl
  unfold sha256Json
  rw [hdoc, bind_ok_eq, encode, dif_pos htext]
  exact ⟨_, rfl⟩

theorem sha256Json_review (week : Nat × Nat) (key reviewedAt : Text) (a : Findings)
    (hconfidence : inUnit a.confidence = true) (htexts : ∀ s ∈ a.texts, Encodable s) :
    ∃ digest, sha256Json H (.dict (strItems (reviewFields key.str (weekText week) reviewedAt a)))
      = .ok digest := by
  have hfinite : (PyVal.float a.confidence).isFinite = true := by
    cases h : a.confidence with
    | finite lit => rfl
    | _ =>
      rw [h] at hconfidence
      cases hconfidence
  simp only [Findings.texts, List.forall_mem_cons] at htexts
  obtain ⟨h1, h2, h3, h4, h5, h6, h7, -⟩ := htexts
  have hdocs : dumpsFields dumps (reviewFields key.str (weekText week) reviewedAt a) = .ok
      [(py "conversation_key", .str key.str), (py "week_id", .str (weekText week).str),
        (py "reviewed_at", .str reviewedAt.str), (py "unique_signal", .str a.uniqueSignal),
        (py "contradiction", .str a.contradiction), (py "open_loop", .str a.openLoop),
        (py "decision", .str a.decision),
        (py "implementation_state", .str a.implementationState),
        (py "architectural_implication", .str a.architecturalImplication),
        (py "confidence", .float a.confidence), (py "source_basis", .str a.sourceBasis)] := rfl
  refine sha256Json_fields hdocs ?_ ?_
  · simp only [reviewFields, List.forall_mem_cons]
    exact ⟨rfl, rfl, rfl, rfl, rfl, rfl, rfl, rfl, rfl, hfinite, rfl, List.forall_mem_nil _⟩
  · simp only [List.forall_mem_cons, encodable_py, Json.isEncodable, decide_eq_true_eq, true_and,
      key.encodable, (weekText week).encodable, reviewedAt.encodable, h1, h2, h3, h4, h5, h6, h7]
    exact List.forall_mem_nil _

theorem encode_ok {s : PyStr} (h : Encodable s) : encode s = .ok ⟨s, h⟩ := dif_pos h

theorem reviewRow_ok (week : Nat × Nat) (key reviewedAt : Text) {a : Findings} (digest : Text)
    (htexts : ∀ s ∈ a.texts, Encodable s) :
    ∃ row, reviewRow key (weekText week) reviewedAt a digest = .ok row := by
  simp only [Findings.texts, List.forall_mem_cons] at htexts
  obtain ⟨h1, h2, h3, h4, h5, h6, h7, -⟩ := htexts
  unfold reviewRow
  rw [encode_ok h1, encode_ok h2, encode_ok h3, encode_ok h4, encode_ok h5, encode_ok h6,
    encode_ok h7]
  exact ⟨_, rfl⟩

theorem recordReview_proper (hproper : r.Proper) (hweek : InWeek zone week r.now)
    (hc : db.conversations.find? key = some c) :
    ∃ out, recordReview H zone key.str r.findings r.now r.sqlite db = .ok out := by
  obtain ⟨hconfidence, htexts, hutc, hsqlite⟩ := hproper
  obtain ⟨digest, hdigest⟩ := sha256Json_review (H := H) week key (H.isoformat r.now.utc)
    r.findings hconfidence htexts
  obtain ⟨row, hrow⟩ := reviewRow_ok week key (H.isoformat r.now.utc) digest htexts
  unfold recordReview
  rw [hconfidence, hutc, weekId_eq hweek]
  simp only [Bool.not_true, Bool.false_eq_true, if_false, bind_ok_eq, hdigest, hsqlite,
    encode_str, hc, hrow]
  exact ⟨_, rfl⟩

/-- The conversation of the key is marked as reviewed, and nothing else of the conversations
changes. -/
def Reviewed (week : Text) (key : Text) (db db' : Registry) : Prop :=
  ∃ reviewedAt, db'.conversations = db.conversations.modify key
    (Conversation.reviewed week reviewedAt) (Conversation.reviewed_key week reviewedAt)

theorem recordReview_ok {digest : Text} (hweek : InWeek zone week r.now)
    (h : recordReview H zone key.str r.findings r.now r.sqlite db = .ok (digest, db')) :
    Reviewed (weekText week) key db db' := by
  unfold recordReview at h
  split at h
  · cases h
  · obtain ⟨_, -, h⟩ := of_bind_ok h
    obtain ⟨week', hweek', h⟩ := of_bind_ok h
    rw [weekId_eq hweek] at hweek'
    cases hweek'
    obtain ⟨_, -, h⟩ := of_bind_ok h
    obtain ⟨_, -, h⟩ := of_bind_ok h
    rw [encode_str, bind_ok_eq] at h
    split at h
    · cases h
    · obtain ⟨row, -, h⟩ := of_bind_ok h
      cases h
      exact ⟨_, rfl⟩

theorem Pending.review (h : Pending (weekText week) db (c :: todo))
    (hreviewed : Reviewed (weekText week) c.conversationKey db db') :
    Pending (weekText week) db' todo := by
  obtain ⟨reviewedAt, hdb'⟩ := hreviewed
  obtain ⟨hfresh, honce⟩ := List.nodup_cons.mp h.once
  refine ⟨(List.pairwise_cons.mp h.ordered).2, honce, fun x => ?_⟩
  have hmem : x ∈ db'.conversations.rows ↔ db'.conversations.find? x.conversationKey = some x :=
    ⟨Table.find?_of_mem, Table.mem_of_find?⟩
  rw [hmem, hdb', Table.find?_modify]
  have hx := h.mem_iff x
  rw [List.mem_cons] at hx
  by_cases hkey : x.conversationKey = c.conversationKey
  · rw [if_pos hkey]
    constructor
    · intro hin
      exact absurd (List.mem_map.mpr ⟨x, hin, hkey⟩) hfresh
    · rintro ⟨hrow, -, hlast⟩
      obtain ⟨c', -, rfl⟩ := Option.map_eq_some_iff.mp hrow
      exact absurd rfl hlast
  · rw [if_neg hkey, Table.find?_eq_some_iff, and_iff_left rfl, ← hx]
    exact ⟨Or.inr, fun hin => hin.resolve_left fun heq => hkey (heq ▸ rfl)⟩

-- == rounds

/-- What a round comes to, by what is to visit. -/
inductive Turned (H : Host) (zone : Zone) (week : Text) (r : Round) (db : Registry) :
    List Conversation → Prop
  | nothing (h : round H zone r db = (.nothing, db)) : Turned H zone week r db []
  | failed {c : Conversation} {todo : List Conversation} (e : PyErr)
      (h : round H zone r db = (.failed c e, db)) (hproper : ¬ r.Proper) :
      Turned H zone week r db (c :: todo)
  | reviewed {c : Conversation} {todo : List Conversation} (db' : Registry)
      (h : round H zone r db = (.reviewed c, db'))
      (hreviewed : Reviewed week c.conversationKey db db') : Turned H zone week r db (c :: todo)

theorem round_turned (h : Pending (weekText week) db todo)
    (hasked : InWeek zone week r.asked) (hnow : InWeek zone week r.now) :
    Turned H zone (weekText week) r db todo := by
  have hnext := nextConversation_eq h hasked
  cases todo with
  | nil =>
    refine .nothing ?_
    unfold round
    rw [hnext]
    rfl
  | cons c todo =>
    have hfind := Table.find?_of_mem ((h.mem_iff c).mp (List.mem_cons_self ..)).1
    rcases (recordReview H zone c.conversationKey.str r.findings r.now r.sqlite).commit_cases db
      with ⟨digest, db', hok, hcommit⟩ | ⟨e, herror, hcommit⟩
    · refine .reviewed db' ?_ (recordReview_ok hnow hok)
      unfold round
      rw [hnext]
      simp only [List.head?_cons, hcommit]
    · refine .failed e ?_ fun hproper => ?_
      · unfold round
        rw [hnext]
        simp only [List.head?_cons, hcommit]
      · obtain ⟨out, hok⟩ := recordReview_proper (H := H) hproper hnow hfind
        rw [herror] at hok
        cases hok

theorem swept_nil (h : Pending (weekText week) db todo) : Swept H zone week [] db todo where
  pending := h
  inOrder := rfl
  rest := h
  others _ _ := rfl
  failures _ he := by cases he
  complete hlength := by
    cases todo with
    | nil => rfl
    | cons c todo => cases hlength
  next _ hnow := nextConversation_eq h hnow
  covered now hnow := by
    obtain ⟨cov, hcov, hremaining⟩ := coverage_eq h hnow
    refine ⟨cov, hcov, ?_⟩
    show nextConversation zone now db = _ ↔ _
    rw [nextConversation_eq h hnow, hremaining]
    cases todo with
    | nil => exact iff_of_true rfl rfl
    | cons c todo => exact iff_of_false (nofun) (nofun)

theorem turns_cons (r : Round) (rounds : List Round) (db : Registry) : turns H zone (r :: rounds) db
      = ⟨r, db, (round H zone r db).1, (round H zone r db).2⟩
        :: turns H zone rounds (round H zone r db).2 := rfl

theorem after_cons (r : Round) (rounds : List Round) (db : Registry) :
    after H zone (r :: rounds) db = after H zone rounds (round H zone r db).2 := rfl

theorem Swept.still {rounds : List Round} {out : Outcome}
    (h : Swept H zone week rounds db todo) (hround : round H zone r db = (out, db))
    (hvisit : out.visit? = none) (hproper : out.isFailure = true → ¬ r.Proper)
    (hidle : out.isFailure = false → todo = []) : Swept H zone week (r :: rounds) db todo := by
  have hturns : turns H zone (r :: rounds) db = ⟨r, db, out, db⟩ :: turns H zone rounds db := by
    rw [turns_cons, hround]
  have hvisits : visits H zone (r :: rounds) db = visits H zone rounds db := by
    unfold visits
    rw [hturns]
    exact List.filterMap_cons_none hvisit
  have hafter : after H zone (r :: rounds) db = after H zone rounds db := by
    rw [after_cons, hround]
  refine ⟨h.pending, ?_, ?_, ?_, ?_, ?_, ?_, ?_⟩
  · rw [hvisits]
    exact h.inOrder
  · rw [hvisits, hafter]
    exact h.rest
  · rw [hvisits, hafter]
    exact h.others
  · rw [hturns, List.forall_mem_cons]
    exact ⟨fun hfailed => ⟨rfl, hproper hfailed⟩, h.failures⟩
  · rw [hvisits, hturns, List.countP_cons, List.length_cons]
    intro hlength
    cases hfailure : out.isFailure with
    | true =>
      simp only [hfailure, if_true] at hlength
      exact h.complete (by omega)
    | false =>
      have hvisits := h.inOrder
      rw [hidle hfailure, List.take_nil] at hvisits
      rw [hidle hfailure, hvisits]
  · rw [hvisits, hafter]
    exact h.next
  · rw [hafter]
    exact h.covered

theorem Swept.visit {rounds : List Round}
    (h : Swept H zone week rounds db' todo) (hpending : Pending (weekText week) db (c :: todo))
    (hround : round H zone r db = (.reviewed c, db'))
    (hreviewed : Reviewed (weekText week) c.conversationKey db db') :
    Swept H zone week (r :: rounds) db (c :: todo) := by
  have hturns : turns H zone (r :: rounds) db
      = ⟨r, db, .reviewed c, db'⟩ :: turns H zone rounds db' := by
    rw [turns_cons, hround]
  have hvisits : visits H zone (r :: rounds) db = c :: visits H zone rounds db' := by
    unfold visits
    rw [hturns]
    rfl
  have hafter : after H zone (r :: rounds) db = after H zone rounds db' := by
    rw [after_cons, hround]
  refine ⟨hpending, ?_, ?_, ?_, ?_, ?_, ?_, ?_⟩
  · rw [hvisits, List.length_cons, List.take_succ_cons, ← h.inOrder]
  · rw [hvisits, hafter]
    exact h.rest
  · rw [hvisits, hafter]
    intro key hkey
    obtain ⟨hc, hkey⟩ := List.forall_mem_cons.mp hkey
    obtain ⟨reviewedAt, hdb'⟩ := hreviewed
    rw [h.others key hkey, hdb', Table.find?_modify, if_neg (Ne.symm hc)]
  · rw [hturns, List.forall_mem_cons]
    exact ⟨nofun, h.failures⟩
  · rw [hvisits, hturns, List.countP_cons_of_neg (by exact Bool.false_ne_true), List.length_cons,
      List.length_cons]
    intro hlength
    rw [h.complete (by omega)]
  · rw [hvisits, hafter]
    exact h.next
  · rw [hafter]
    exact h.covered

/-- The sweep: whatever is to visit in the week is visited once and in order, by the rounds
whose reviews do not fail. -/
theorem sweep_swept (H : Host) (zone : Zone) (week : Nat × Nat) (rounds : List Round)
    (hweek : ∀ r ∈ rounds, InWeek zone week r.asked ∧ InWeek zone week r.now) (db : Registry) :
    ∃ todo, Swept H zone week rounds db todo := by
  obtain ⟨todo, hpending⟩ := exists_pending week db
  refine ⟨todo, ?_⟩
  induction rounds generalizing db todo with
  | nil => exact swept_nil hpending
  | cons r rounds ih =>
    obtain ⟨⟨hasked, hnow⟩, hweek⟩ := List.forall_mem_cons.mp hweek
    have hturned := round_turned (H := H) hpending hasked hnow
    cases hturned with
    | nothing h =>
      exact (ih hweek db [] hpending).still h rfl (nofun) fun _ => rfl
    | failed e h hproper =>
      exact (ih hweek db _ hpending).still h rfl (fun _ => hproper) nofun
    | reviewed db' h hreviewed =>
      exact (ih hweek db' _ (hpending.review hreviewed)).visit hpending h hreviewed

-- == sample

namespace Sample

def machine : Host := Host.sample fun n => n

def mexico : Zone := fun _ => -21600000000

def conversation (key reviewClass : String) (value : Rat) (week : Option Text) : Conversation :=
  ⟨.lit key, .lit key, .lit "Automation", .lit reviewClass, value, .lit "ACTIVE", week, none, 0, 0,
    .lit ""⟩

/-- Three conversations to visit, and one that has been reviewed already. -/
def registry : Registry :=
  ⟨⟨[conversation "ideas" "P2" (1 / 2) none, conversation "agents" "P2" (1 / 2) none,
      conversation "roadmap" "P0" 0 none,
      conversation "status" "P0" 1 (some (weekText (2026, 34)))], by decide⟩, .empty⟩

def noon : Moment := .naive 63922824000000000

def confidence : PyFloat := .finite ⟨0, [48, 46, 48], readFloat_zero⟩

def findings : Findings := ⟨py "", py "", py "", py "", py "", py "", confidence, py ""⟩

def round (sqlite : Except PyErr Unit) : Round := ⟨noon, findings, noon, sqlite⟩

def rounds : List Round :=
  [round (.ok ()), round (.error (.operationalError "database is locked")), round (.ok ()),
    round (.ok ()), round (.ok ())]

theorem inWeek_noon : InWeek mexico (2026, 34) noon := ⟨63922802400000000, rfl, by decide⟩

theorem sweep_sample : (visits machine mexico rounds registry).map Conversation.conversationKey
      = [.lit "roadmap", .lit "agents", .lit "ideas"]
    ∧ ∃ todo, Swept machine mexico (2026, 34) rounds registry todo := by
  refine ⟨by decide +kernel, sweep_swept machine mexico (2026, 34) rounds ?_ registry⟩
  intro r hr
  simp only [rounds, List.mem_cons, List.not_mem_nil, or_false] at hr
  rcases hr with rfl | rfl | rfl | rfl | rfl <;> exact ⟨inWeek_noon, inWeek_noon⟩

end Sample

end Centinal26.Intelligence.Sweep
