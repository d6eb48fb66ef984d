/-
The audit log of the Hermes bridge: one line a record, each with the hash of the one before it.
-/
import Centinal26.Ingest.Extract
import Centinal26.Py.Loads

namespace Centinal26.Hermes.Log

open Py
open Ingest (splitlines linesFrom isLineBreak)

-- == the log

/-- What the bridge gets from the language and the machine. -/
structure Machine where
  /-- the hex digest of an encoded text -/
  sha256 : Text → PyStr
  /-- the n-th `now_iso()` -/
  nowIso : Nat → PyStr
  loads : PyStr → Except PyErr Json

inductive Raised : Type
  | py (e : PyErr)
  | attribute
deriving DecidableEq

/-- `json.dumps(value, sort_keys=True, ensure_ascii=False)`. -/
def lineStyle : Style := ⟨false, py ", ", py ": "⟩

/-- `json.dumps`, which writes no integer that is too long. -/
def jsonDumps (style : Style) (d : Json) : Except PyErr PyStr :=
  if d.isShort then .ok (d.text style)
  else .error (.valueError "Exceeds the limit (4300 digits) for integer string conversion")

def sha256Obj (M : Machine) (d : Json) : Except PyErr PyStr := do
  .ok (M.sha256 (← encode (← jsonDumps .canonical d)))

def item (row : Json) (name : String) : Except PyErr Json :=
  match row with
  | .obj ms =>
    match getItem? ms (py name) with
    | some v => .ok v
    | none => .error (.keyError (py name))
  | _ => .error .typeError

def zeros : PyStr := List.replicate 64 48

structure Call where
  event : PyStr
  payload : Fields

variable (M : Machine)

/-- The hash of the last line, where there is a file. -/
def previousHash (file : Option PyStr) : Except PyErr Json :=
  match file.bind fun t => (splitlines t).getLast? with
  | none => .ok (.str zeros)
  | some line => do item (← M.loads line) "hash"

/-- The `body`, as its names are sorted. -/
def bodyOf (n : Nat) (c : Call) (prev : Json) : Members :=
  [(py "event", .str c.event), (py "payload", .obj c.payload.members),
    (py "previous_hash", prev), (py "timestamp", .str (M.nowIso n))]

def recordOf (n : Nat) (c : Call) (prev : Json) (hash : PyStr) : Members :=
  [(py "event", .str c.event), (py "hash", .str hash), (py "payload", .obj c.payload.members),
    (py "previous_hash", prev), (py "timestamp", .str (M.nowIso n))]

def audit (n : Nat) (c : Call) (file : Option PyStr) : Except PyErr (Option PyStr) := do
  let prev ← previousHash M file
  let hash ← sha256Obj M (.obj (bodyOf M n c prev))
  let line ← jsonDumps lineStyle (.obj (recordOf M n c prev hash))
  let _ ← encode line
  .ok (some (file.getD [] ++ line ++ [10]))

def auditAll : Nat → List Call → Option PyStr → Except PyErr (Option PyStr)
  | _, [], file => .ok file
  | n, c :: cs, file => do auditAll (n + 1) cs (← audit M n c file)

def verifyLines (prev : PyStr) : List PyStr → Except Raised Bool
  | [] => .ok true
  | line :: rest =>
    match M.loads line with
    | .error e => .error (.py e)
    | .ok (.obj ms) =>
      match getItem? ms (py "hash") with
      | none => .error (.py (.keyError (py "hash")))
      | some found =>
        let row := ms.filter fun m => decide (m.1 ≠ py "hash")
        match item (.obj row) "previous_hash", sha256Obj M (.obj row) with
        | .error e, _ => .error (.py e)
        | .ok previous, hashed =>
          if previous.isStr prev then
            match hashed with
            | .error e => .error (.py e)
            | .ok hash => if found.isStr hash then verifyLines hash rest else .ok false
          else .ok false
    | .ok (.arr _) => .error (.py .typeError)
    | .ok _ => .error .attribute

def verifyAudit (file : Option PyStr) : Except Raised Bool :=
  match file with
  | none => .ok true
  | some t => verifyLines M zeros (splitlines t)

/-- What the calls promise of the log: all succeed, it verifies, and has a record for each. -/
def Unbroken (calls : List Call) : Prop :=
  ∃ file, auditAll M 0 calls none = .ok file ∧ verifyAudit M file = .ok true
    ∧ (splitlines (file.getD [])).length = calls.length

/-- The text of a call, as `json.dumps` writes it, has no line in it that ends, and no integer that
is too long. -/
structure Tame (c : Call) : Prop where
  event : ∀ d ∈ stringLiteral false c.event, isLineBreak d = false
  payload : ∀ d ∈ (Json.obj c.payload.members).text lineStyle, isLineBreak d = false
  short : (Json.obj c.payload.members).isShort = true

-- == lines

variable {c d : Nat} {s u : PyStr}

theorem linesFrom_cons (h : isLineBreak c = false) (acc s : PyStr) :
    linesFrom acc (c :: s) = linesFrom (c :: acc) s := by
  have hne : c ≠ 13 := by
    rintro rfl
    cases h
  rw [linesFrom]
  · rw [h]
    rfl
  · exact fun _ hc _ => hne hc

theorem linesFrom_line {l : PyStr} (h : ∀ c ∈ l, isLineBreak c = false) (acc rest : PyStr) :
    linesFrom acc (l ++ 10 :: rest) = (acc.reverse ++ l) :: linesFrom [] rest := by
  induction l generalizing acc with
  | nil =>
    rw [List.append_nil, List.nil_append, linesFrom]
    · rfl
    · exact fun _ hc _ => absurd hc (by decide)
  | cons c l ih =>
    obtain ⟨hc, hl⟩ := List.forall_mem_cons.mp h
    rw [List.cons_append, linesFrom_cons hc, ih hl, List.reverse_cons, List.append_assoc]
    rfl

/-- Where no line ends in two characters, there are as many lines as ends. -/
theorem length_linesFrom {acc : PyStr} (h : 13 ∉ s)
    (hend : s = [] ∧ acc = [] ∨ s.getLast? = some 10) :
    (linesFrom acc s).length = s.countP isLineBreak := by
  induction s generalizing acc with
  | nil =>
    rcases hend with ⟨-, rfl⟩ | hend
    · rfl
    · cases hend
  | cons c s ih =>
    obtain ⟨hne, hs⟩ := not_or.mp (fun hor => h (List.mem_cons.mpr hor))
    have hlast : s = [] ∧ c = 10 ∨ s.getLast? = some 10 := by
      rcases hend with ⟨hnil, -⟩ | hend
      · cases hnil
      · cases s with
        | nil => exact Or.inl ⟨rfl, Option.some.inj hend⟩
        | cons d s => exact Or.inr (by rw [← hend, List.getLast?_cons_cons])
    cases hbreak : isLineBreak c with
    | false =>
      rw [linesFrom_cons hbreak, List.countP_cons_of_neg (by rw [hbreak]; decide)]
      refine ih hs (hlast.imp ?_ id)
      rintro ⟨-, rfl⟩
      cases hbreak
    | true =>
      rw [linesFrom, List.countP_cons_of_pos hbreak]
      · rw [hbreak, if_pos rfl, List.length_cons]
        exact congrArg (· + 1) (ih hs (hlast.imp (fun hnil => ⟨hnil.1, rfl⟩) id))
      · exact fun _ hc _ => hne hc.symm

-- == texts

theorem escapeChar_all {p : Nat → Prop} (hplain : ∀ d, 32 ≤ d → d ≤ 126 → p d)
    (hcode : c < 32 → ∀ d ∈ unicodeEscape c, p d) (hself : 32 ≤ c → p c) :
    ∀ d ∈ escapeChar false c, p d := by
  let all : PyStr → Prop := fun s => ∀ d ∈ s, p d
  have hpair : ∀ d, 32 ≤ d → d ≤ 126 → all [92, d] := fun d h h' =>
    List.forall_mem_cons.mpr ⟨hplain 92 (by decide) (by decide),
      List.forall_mem_singleton.mpr (hplain d h h')⟩
  unfold escapeChar
  change all _
  iterate 7 refine iteInduction (fun _ => hpair _ (by decide) (by decide)) fun _ => ?_
  refine iteInduction hcode fun hlow => iteInduction nofun fun _ => ?_
  exact List.forall_mem_singleton.mpr (hself (Nat.le_of_not_lt hlow))

theorem escapeChar_control (hd : d ∈ escapeChar false c) : 32 ≤ d := by
  have hdigit : ∀ n, 32 ≤ hexDigit n := by
    intro n
    unfold hexDigit
    split <;> omega
  refine escapeChar_all (fun _ h _ => h) (fun _ e he => ?_) id d hd
  simp only [unicodeEscape, List.mem_cons, List.not_mem_nil, or_false] at he
  rcases he with rfl | rfl | rfl | rfl | rfl | rfl
  all_goals first | exact hdigit _ | omega

theorem literal_control (hd : d ∈ stringLiteral false s) : 32 ≤ d := by
  unfold stringLiteral at hd
  rcases List.mem_append.mp hd with hd | hd
  · rcases List.mem_cons.mp hd with rfl | hd
    · decide
    · obtain ⟨c, -, hd⟩ := List.mem_flatMap.mp hd
      exact escapeChar_control hd
  · rw [List.mem_singleton.mp hd]
    decide

theorem floatRepr_control {x : PyFloat} (hd : d ∈ floatRepr x) : 32 ≤ d := by
  cases x with
  | nan => exact (by decide : ∀ d ∈ py "NaN", 32 ≤ d) d hd
  | infinity => exact (by decide : ∀ d ∈ py "Infinity", 32 ≤ d) d hd
  | negInfinity => exact (by decide : ∀ d ∈ py "-Infinity", 32 ≤ d) d hd
  | finite lit =>
    have hnum := (readFloat_spec lit.spelled).1 d hd
    simp only [numberChar, Bool.or_eq_true, Bool.and_eq_true, decide_eq_true_eq, beq_iff_eq] at hnum
    omega

/-- What the text of the log has in it: a blank, or what is in the text that is hashed. -/
def Seen (u : PyStr) (d : Nat) : Prop := 32 ≤ d ∧ (d = 32 ∨ d ∈ u)

theorem Seen.mono {v : PyStr} (h : Seen u d) (huv : u ⊆ v) : Seen v d :=
  ⟨h.1, h.2.imp_right fun hd => huv hd⟩

theorem separator_seen (hd : d ∈ py ", ") (hu : 44 ∈ u) : Seen u d := by
  rcases (by decide : ∀ d ∈ py ", ", d = 44 ∨ d = 32) d hd with rfl | rfl
  · exact ⟨by decide, Or.inr hu⟩
  · exact ⟨by decide, Or.inl rfl⟩

mutual

/-- No control character is in the text of a value, and nothing new but blanks. -/
theorem text_seen : ∀ (v : Json) {d : Nat}, d ∈ v.text lineStyle → Seen (v.text .canonical) d
  | .null, d, hd => ⟨(by decide : ∀ d ∈ py "null", 32 ≤ d) d hd, Or.inr hd⟩
  | .bool b, d, hd => by
    refine ⟨?_, Or.inr hd⟩
    cases b with
    | false => exact (by decide : ∀ d ∈ py "false", 32 ≤ d) d hd
    | true => exact (by decide : ∀ d ∈ py "true", 32 ≤ d) d hd
  | .int n, d, hd => by
    refine ⟨?_, Or.inr hd⟩
    rcases mem_intRepr (n := n) hd with h | h
    · omega
    · omega
  | .float x, d, hd => ⟨floatRepr_control hd, Or.inr hd⟩
  | .str s, d, hd => ⟨literal_control hd, Or.inr hd⟩
  | .arr xs, d, hd => by
    unfold Json.text at hd ⊢
    rcases List.mem_append.mp hd with hd | hd
    · rcases List.mem_cons.mp hd with rfl | hd
      · exact ⟨by decide, Or.inr (List.mem_cons_self ..)⟩
      · exact (items_seen xs hd).mono fun e he =>
          List.mem_append_left _ (List.mem_cons_of_mem _ he)
    · rw [List.mem_singleton.mp hd]
      exact ⟨by decide, Or.inr (List.mem_append_right _ (List.mem_singleton_self _))⟩
  | .obj ms, d, hd => by
    unfold Json.text at hd ⊢
    rcases List.mem_append.mp hd with hd | hd
    · rcases List.mem_cons.mp hd with rfl | hd
      · exact ⟨by decide, Or.inr (List.mem_cons_self ..)⟩
      · exact (members_seen ms hd).mono fun e he =>
          List.mem_append_left _ (List.mem_cons_of_mem _ he)
    · rw [List.mem_singleton.mp hd]
      exact ⟨by decide, Or.inr (List.mem_append_right _ (List.mem_singleton_self _))⟩

theorem items_seen : ∀ (xs : List Json) {d : Nat}, d ∈ joinWith (py ", ") (itemTexts lineStyle xs) →
      Seen (joinWith (py ",") (itemTexts .canonical xs)) d
  | [], d, hd => by cases hd
  | [x], d, hd => text_seen x hd
  | x :: y :: xs, d, hd => by
    change d ∈ x.text lineStyle ++ py ", " ++ joinWith (py ", ") (itemTexts lineStyle (y :: xs))
      at hd
    change Seen (x.text .canonical ++ py "," ++
      joinWith (py ",") (itemTexts .canonical (y :: xs))) d
    rcases List.mem_append.mp hd with hd | hd
    · rcases List.mem_append.mp hd with hd | hd
      · exact (text_seen x hd).mono fun e he => List.mem_append_left _ (List.mem_append_left _ he)
      · exact separator_seen hd (List.mem_append_left _ (List.mem_append_right _ (by decide)))
    · exact (items_seen (y :: xs) hd).mono fun e he => List.mem_append_right _ he

theorem members_seen : ∀ (ms : List (PyStr × Json)) {d : Nat},
    d ∈ joinWith (py ", ") (memberTexts lineStyle ms) →
      Seen (joinWith (py ",") (memberTexts .canonical ms)) d
  | [], d, hd => by cases hd
  | [m], d, hd => member_seen m hd
  | m :: n :: ms, d, hd => by
    change d ∈ stringLiteral false m.1 ++ py ": " ++ m.2.text lineStyle ++ py ", " ++
      joinWith (py ", ") (memberTexts lineStyle (n :: ms)) at hd
    change Seen (stringLiteral false m.1 ++ py ":" ++ m.2.text .canonical ++ py "," ++
      joinWith (py ",") (memberTexts .canonical (n :: ms))) d
    rcases List.mem_append.mp hd with hd | hd
    · rcases List.mem_append.mp hd with hd | hd
      · exact (member_seen m hd).mono fun e he =>
          List.mem_append_left _ (List.mem_append_left _ he)
      · exact separator_seen hd (List.mem_append_left _ (List.mem_append_right _ (by decide)))
    · exact (members_seen (n :: ms) hd).mono fun e he => List.mem_append_right _ he

theorem member_seen : ∀ (m : PyStr × Json) {d : Nat},
    d ∈ stringLiteral false m.1 ++ py ": " ++ m.2.text lineStyle →
      Seen (stringLiteral false m.1 ++ py ":" ++ m.2.text .canonical) d
  | (k, v), d, hd => by
    rcases List.mem_append.mp hd with hd | hd
    · rcases List.mem_append.mp hd with hd | hd
      · exact ⟨literal_control hd, Or.inr (List.mem_append_left _ (List.mem_append_left _ hd))⟩
      · rcases (by decide : ∀ d ∈ py ": ", d = 58 ∨ d = 32) d hd with rfl | rfl
        · exact ⟨by decide, Or.inr (List.mem_append_left _ (List.mem_append_right _ (by decide)))⟩
        · exact ⟨by decide, Or.inl rfl⟩
    · exact (text_seen v hd).mono fun e he => List.mem_append_right _ he

end

-- == files

def fileText (ls : List PyStr) : PyStr := ls.flatMap fun l => l ++ [10]

theorem fileText_append (ls : List PyStr) (l : PyStr) :
    fileText (ls ++ [l]) = fileText ls ++ l ++ [10] := by
  unfold fileText
  rw [List.flatMap_append, List.flatMap_singleton, List.append_assoc]

variable {ls : List PyStr} {c : Call} {n d : Nat} {prev : Json} {hash : PyStr}

theorem splitlines_fileText (h : ∀ l ∈ ls, ∀ c ∈ l, isLineBreak c = false) :
    splitlines (fileText ls) = ls := by
  induction ls with
  | nil => rfl
  | cons l ls ih =>
    obtain ⟨hl, hls⟩ := List.forall_mem_cons.mp h
    have hcons : fileText (l :: ls) = l ++ 10 :: fileText ls := by
      unfold fileText
      rw [List.flatMap_cons, List.append_assoc]
      rfl
    unfold splitlines at ih ⊢
    rw [hcons, linesFrom_line hl, ih hls]
    rfl

theorem getLast_fileText : ∀ ls : List PyStr, ls = [] ∨ (fileText ls).getLast? = some 10 := by
  intro ls
  induction ls using List.reverseRecOn with
  | nil => exact Or.inl rfl
  | append_singleton ls l _ =>
    rw [fileText_append]
    exact Or.inr (List.getLast?_concat ..)

/-- As many lines as were written are read just if none of them has a line end in it. -/
theorem length_fileText (h : ∀ l ∈ ls, ∀ c ∈ l, 32 ≤ c) :
    (splitlines (fileText ls)).length = ls.length ↔ ∀ l ∈ ls, ∀ c ∈ l, isLineBreak c = false := by
  constructor
  · intro hlen
    have hcr : 13 ∉ fileText ls := by
      intro hmem
      obtain ⟨l, hl, hmem⟩ := List.mem_flatMap.mp hmem
      rcases List.mem_append.mp hmem with hmem | hmem
      · exact absurd (h l hl 13 hmem) (by decide)
      · cases List.mem_singleton.mp hmem
    have hend : fileText ls = [] ∧ ([] : PyStr) = [] ∨ (fileText ls).getLast? = some 10 :=
      (getLast_fileText ls).imp (fun hnil => ⟨by rw [hnil]; rfl, rfl⟩) id
    unfold splitlines at hlen
    rw [length_linesFrom hcr hend] at hlen
    clear h hcr hend
    induction ls with
    | nil => exact fun l hl => absurd hl List.not_mem_nil
    | cons l ls ih =>
      have hcount : (fileText (l :: ls)).countP isLineBreak
          = l.countP isLineBreak + 1 + (fileText ls).countP isLineBreak := by
        unfold fileText
        rw [List.flatMap_cons, List.countP_append, List.countP_append]
        rfl
      have hle : ∀ ms : List PyStr, ms.length ≤ (fileText ms).countP isLineBreak := by
        intro ms
        unfold fileText
        induction ms with
        | nil => exact Nat.le_refl 0
        | cons m ms ih =>
          rw [List.flatMap_cons, List.countP_append, List.countP_append, List.length_cons]
          have hone : List.countP isLineBreak [10] = 1 := rfl
          omega
      have hrest := hle ls
      rw [hcount, List.length_cons] at hlen
      have hnone : l.countP isLineBreak = 0 := by omega
      refine List.forall_mem_cons.mpr ⟨?_, ih (by omega)⟩
      intro c hc
      rw [List.countP_eq_zero] at hnone
      exact Bool.eq_false_iff.mpr (hnone c hc)
  · intro hnone
    rw [splitlines_fileText hnone]

-- == records

/-- The hash of a body, where it has one. -/
def hashOf (n : Nat) (c : Call) (prev : PyStr) : PyStr :=
  match sha256Obj M (.obj (bodyOf M n c (.str prev))) with
  | .ok hash => hash
  | .error _ => []

/-- The records of the calls, each linked to the one before it. -/
def records : Nat → List Call → PyStr → List Members
  | _, [], _ => []
  | n, c :: cs, prev =>
    recordOf M n c (.str prev) (hashOf M n c prev) :: records (n + 1) cs (hashOf M n c prev)

def lineOf (record : Members) : PyStr := (Json.obj record).text lineStyle

/-- The hash and the clock write printable ASCII. -/
structure Machine.Printable : Prop where
  sha256 : ∀ t, ∀ c ∈ M.sha256 t, 32 ≤ c ∧ c ≤ 126
  nowIso : ∀ n, ∀ c ∈ M.nowIso n, 32 ≤ c ∧ c ≤ 126

/-- `json.loads` reads the records that the calls write. -/
def Machine.Reads (calls : List Call) : Prop :=
  ∀ record ∈ records M 0 calls zeros, (Json.obj record).isShort = true →
    M.loads (lineOf record) = .ok (.obj record)

def Call.Encodes (c : Call) : Prop :=
  Py.Encodable c.event ∧ (Json.obj c.payload.members).isEncodable = true

theorem printable_break {c : Nat} (h : 32 ≤ c ∧ c ≤ 126) : isLineBreak c = false := by
  unfold isLineBreak
  simp only [Bool.or_eq_false_iff, Bool.and_eq_false_iff, decide_eq_false_iff_not,
    beq_eq_false_iff_ne]
  omega

theorem literal_printable {s : PyStr} (h : ∀ c ∈ s, 32 ≤ c ∧ c ≤ 126) :
    ∀ d ∈ stringLiteral false s, 32 ≤ d ∧ d ≤ 126 := by
  intro d hd
  unfold stringLiteral at hd
  rcases List.mem_append.mp hd with hd | hd
  · rcases List.mem_cons.mp hd with rfl | hd
    · decide
    · obtain ⟨c, hc, hd⟩ := List.mem_flatMap.mp hd
      exact escapeChar_all (p := fun d => 32 ≤ d ∧ d ≤ 126) (fun _ h h' => ⟨h, h'⟩)
        (fun hlow => absurd (h c hc).1 (by omega)) (fun _ => h c hc) d hd
  · rw [List.mem_singleton.mp hd]
    decide

theorem zeros_printable : ∀ c ∈ zeros, 32 ≤ c ∧ c ≤ 126 := by
  intro c hc
  rw [List.eq_of_mem_replicate hc]
  decide

theorem mem_lineOf {M : Machine} (hM : M.Printable) {prev : PyStr}
    (hprev : ∀ d ∈ prev, 32 ≤ d ∧ d ≤ 126) (hhash : ∀ d ∈ hash, 32 ≤ d ∧ d ≤ 126)
    (hd : d ∈ lineOf (recordOf M n c (.str prev) hash)) :
    d ∈ stringLiteral false c.event ∨ d ∈ (Json.obj c.payload.members).text lineStyle
      ∨ 32 ≤ d ∧ d ≤ 126 := by
  have hkeys : ∀ k ∈ ["event", "hash", "payload", "previous_hash", "timestamp"],
      ∀ d ∈ stringLiteral false (py k), 32 ≤ d ∧ d ≤ 126 := by decide
  have hcomma : ∀ d ∈ py ", ", 32 ≤ d ∧ d ≤ 126 := by decide
  have hcolon : ∀ d ∈ py ": ", 32 ≤ d ∧ d ≤ 126 := by decide
  have htime := literal_printable (hM.nowIso n)
  simp only [List.forall_mem_cons] at hkeys
  obtain ⟨h₁, h₂, h₃, h₄, h₅, -⟩ := hkeys
  change d ∈ 123 :: ((stringLiteral false (py "event") ++ py ": " ++ stringLiteral false c.event)
    ++ py ", " ++ ((stringLiteral false (py "hash") ++ py ": " ++ stringLiteral false hash)
    ++ py ", " ++ ((stringLiteral false (py "payload") ++ py ": "
      ++ (Json.obj c.payload.members).text lineStyle)
    ++ py ", " ++ ((stringLiteral false (py "previous_hash") ++ py ": " ++ stringLiteral false prev)
    ++ py ", " ++ (stringLiteral false (py "timestamp") ++ py ": "
      ++ stringLiteral false (M.nowIso n)))))) ++ [125] at hd
  rcases List.mem_append.mp hd with hd | hd
  · rcases List.mem_cons.mp hd with rfl | hd
    · exact Or.inr (Or.inr (by decide))
    · simp only [List.mem_append] at hd
      rcases hd with (((hd | hd) | hd) | hd) | (((hd | hd) | hd) | hd) | (((hd | hd) | hd) | hd)
        | (((hd | hd) | hd) | hd) | (hd | hd) | hd
      · exact Or.inr (Or.inr (h₁ d hd))
      · exact Or.inr (Or.inr (hcolon d hd))
      · exact Or.inl hd
      · exact Or.inr (Or.inr (hcomma d hd))
      · exact Or.inr (Or.inr (h₂ d hd))
      · exact Or.inr (Or.inr (hcolon d hd))
      · exact Or.inr (Or.inr (literal_printable hhash d hd))
      · exact Or.inr (Or.inr (hcomma d hd))
      · exact Or.inr (Or.inr (h₃ d hd))
      · exact Or.inr (Or.inr (hcolon d hd))
      · exact Or.inr (Or.inl hd)
      · exact Or.inr (Or.inr (hcomma d hd))
      · exact Or.inr (Or.inr (h₄ d hd))
      · exact Or.inr (Or.inr (hcolon d hd))
      · exact Or.inr (Or.inr (literal_printable hprev d hd))
      · exact Or.inr (Or.inr (hcomma d hd))
      · exact Or.inr (Or.inr (h₅ d hd))
      · exact Or.inr (Or.inr (hcolon d hd))
      · exact Or.inr (Or.inr (htime d hd))
  · rw [List.mem_singleton.mp hd]
    exact Or.inr (Or.inr (by decide))

/-- What a call brings is in its line, whatever the line is linked to. -/
theorem lineOf_mem {M : Machine}
    (hd : d ∈ stringLiteral false c.event ∨ d ∈ (Json.obj c.payload.members).text lineStyle) :
    d ∈ lineOf (recordOf M n c prev hash) := by
  change d ∈ 123 :: ((stringLiteral false (py "event") ++ py ": " ++ stringLiteral false c.event)
    ++ py ", " ++ ((stringLiteral false (py "hash") ++ py ": " ++ stringLiteral false hash)
    ++ py ", " ++ ((stringLiteral false (py "payload") ++ py ": "
      ++ (Json.obj c.payload.members).text lineStyle) ++ py ", " ++ _))) ++ [125]
  simp only [List.mem_append, List.mem_cons]
  rcases hd with hd | hd
  · exact Or.inl (Or.inr (Or.inl (Or.inl (Or.inr hd))))
  · exact Or.inl (Or.inr (Or.inr (Or.inr (Or.inl (Or.inl (Or.inr hd))))))

theorem isShort_recordOf {M : Machine} : (Json.obj (recordOf M n c prev hash)).isShort = true
      ↔ (Json.obj c.payload.members).isShort = true ∧ prev.isShort = true := by
  simp [recordOf, Json.isShort, allShortMembers]

theorem isShort_bodyOf {M : Machine} : (Json.obj (bodyOf M n c prev)).isShort = true
      ↔ (Json.obj c.payload.members).isShort = true ∧ prev.isShort = true := by
  simp [bodyOf, Json.isShort, allShortMembers]

-- == a call

section Call

variable {M : Machine} (hM : M.Printable) {n : Nat} {c : Call} {prev : PyStr}
  (hprev : ∀ d ∈ prev, 32 ≤ d ∧ d ≤ 126)

theorem printable_encodable {s : PyStr} (h : ∀ d ∈ s, 32 ≤ d ∧ d ≤ 126) : Py.Encodable s :=
  Ascii.encodable fun d hd => by
    have := h d hd
    omega

include hM

theorem hashOf_printable : ∀ d ∈ hashOf M n c prev, 32 ≤ d ∧ d ≤ 126 := by
  unfold hashOf
  split
  · next hash h =>
    obtain ⟨text, -, h⟩ := of_bind_ok h
    obtain ⟨t, -, h⟩ := of_bind_ok h
    cases h
    exact hM.sha256 t
  · exact fun d hd => absurd hd List.not_mem_nil

include hprev

theorem encodes_body (hc : c.Encodes) :
    Py.Encodable ((Json.obj (bodyOf M n c (.str prev))).text .canonical) := by
  rw [encodable_text]
  simp only [Json.isEncodable, bodyOf, allEncodableMembers, Bool.and_eq_true, decide_eq_true_eq]
  exact ⟨⟨encodable_py _, hc.1⟩, ⟨encodable_py _, hc.2⟩,
    ⟨encodable_py _, printable_encodable hprev⟩,
    ⟨encodable_py _, printable_encodable (hM.nowIso n)⟩, trivial⟩

theorem sha256Obj_body (hc : c.Encodes) (hshort : (Json.obj c.payload.members).isShort = true) :
    sha256Obj M (.obj (bodyOf M n c (.str prev))) = .ok (hashOf M n c prev) := by
  have hdumps : jsonDumps .canonical (.obj (bodyOf M n c (.str prev)))
      = .ok ((Json.obj (bodyOf M n c (.str prev))).text .canonical) :=
    if_pos (isShort_bodyOf.mpr ⟨hshort, rfl⟩)
  have henc := encodes_body hM hprev (n := n) hc
  have hok : ∃ hash, sha256Obj M (.obj (bodyOf M n c (.str prev))) = .ok hash := by
    refine ⟨M.sha256 ⟨_, henc⟩, ?_⟩
    unfold sha256Obj
    rw [hdumps, bind_ok_eq, encode, dif_pos henc, bind_ok_eq]
  obtain ⟨hash, hok⟩ := hok
  unfold hashOf
  rw [hok]

theorem encodes_line (hc : c.Encodes) {hash : PyStr} (hhash : ∀ d ∈ hash, 32 ≤ d ∧ d ≤ 126) :
    Py.Encodable (lineOf (recordOf M n c (.str prev) hash)) := by
  have hcanon : Py.Encodable ((Json.obj (recordOf M n c (.str prev) hash)).text .canonical) := by
    rw [encodable_text]
    simp only [Json.isEncodable, recordOf, allEncodableMembers, Bool.and_eq_true, decide_eq_true_eq]
    exact ⟨⟨encodable_py _, hc.1⟩, ⟨encodable_py _, printable_encodable hhash⟩,
      ⟨encodable_py _, hc.2⟩, ⟨encodable_py _, printable_encodable hprev⟩,
      ⟨encodable_py _, printable_encodable (hM.nowIso n)⟩, trivial⟩
  intro d hd
  rcases (text_seen _ hd).2 with rfl | hd
  · decide
  · exact hcanon d hd

theorem audit_ok {file : Option PyStr} (hfile : previousHash M file = .ok (.str prev))
    (hc : c.Encodes) (hshort : (Json.obj c.payload.members).isShort = true) :
    audit M n c file = .ok (some (file.getD []
      ++ lineOf (recordOf M n c (.str prev) (hashOf M n c prev)) ++ [10])) := by
  have hprintable : ∀ d ∈ hashOf M n c prev, 32 ≤ d ∧ d ≤ 126 := hashOf_printable hM
  have hline := encodes_line hM hprev (n := n) hc hprintable
  have hdumps : jsonDumps lineStyle (.obj (recordOf M n c (.str prev) (hashOf M n c prev)))
      = .ok (lineOf (recordOf M n c (.str prev) (hashOf M n c prev))) :=
    if_pos (isShort_recordOf.mpr ⟨hshort, rfl⟩)
  unfold audit
  rw [hfile, bind_ok_eq, sha256Obj_body hM hprev hc hshort, bind_ok_eq, hdumps, bind_ok_eq,
    encode, dif_pos hline, bind_ok_eq]

theorem tame_line (hc : Tame c) :
    ∀ d ∈ lineOf (recordOf M n c (.str prev) (hashOf M n c prev)), isLineBreak d = false := by
  intro d hd
  rcases mem_lineOf hM hprev (hashOf_printable hM) hd with hd | hd | hd
  · exact hc.event d hd
  · exact hc.payload d hd
  · exact printable_break hd

end Call

-- == runs

section Run

variable {M : Machine}

/-- The line is one of the call's, with a hash before it and its own. -/
def Writes (M : Machine) (c : Call) (line : PyStr) : Prop :=
  (Json.obj c.payload.members).isShort = true
    ∧ ∃ n prev hash, line = lineOf (recordOf M n c prev hash)

variable {file file' : Option PyStr} {cs : List Call} {ls : List PyStr}

theorem audit_writes {n : Nat} {c : Call} (h : audit M n c file = .ok file') :
    ∃ line, file'.getD [] = file.getD [] ++ line ++ [10] ∧ Writes M c line := by
  obtain ⟨prev, -, h⟩ := of_bind_ok h
  obtain ⟨hash, -, h⟩ := of_bind_ok h
  obtain ⟨line, hline, h⟩ := of_bind_ok h
  obtain ⟨t, -, h⟩ := of_bind_ok h
  cases h
  unfold jsonDumps at hline
  split at hline
  · next hshort =>
    cases hline
    exact ⟨_, rfl, (isShort_recordOf.mp hshort).1, n, prev, hash, rfl⟩
  · cases hline

/-- A run that succeeds writes a line for each call. -/
theorem auditAll_writes {n : Nat} (h : auditAll M n cs file = .ok file') :
    ∃ ls, file'.getD [] = file.getD [] ++ fileText ls ∧ List.Forall₂ (Writes M) cs ls := by
  induction cs generalizing n file with
  | nil =>
    cases h
    exact ⟨[], (List.append_nil _).symm, .nil⟩
  | cons c cs ih =>
    obtain ⟨mid, hmid, h⟩ := of_bind_ok h
    obtain ⟨line, htext, hline⟩ := audit_writes hmid
    obtain ⟨ls, hls, hall⟩ := ih h
    refine ⟨line :: ls, ?_, .cons hline hall⟩
    rw [hls, htext, fileText, fileText, List.flatMap_cons]
    simp only [List.append_assoc]

theorem forall₂_mem {α β : Type} {R : α → β → Prop} {xs : List α} {ys : List β}
    (h : List.Forall₂ R xs ys) : (∀ x ∈ xs, ∃ y ∈ ys, R x y) ∧ ∀ y ∈ ys, ∃ x ∈ xs, R x y := by
  induction h with
  | nil => exact ⟨fun _ hx => absurd hx List.not_mem_nil, fun _ hy => absurd hy List.not_mem_nil⟩
  | @cons x y xs ys hxy _ ih =>
    constructor
    · refine List.forall_mem_cons.mpr ⟨⟨y, List.mem_cons_self .., hxy⟩, fun z hz => ?_⟩
      obtain ⟨w, hw, hzw⟩ := ih.1 z hz
      exact ⟨w, List.mem_cons_of_mem _ hw, hzw⟩
    · refine List.forall_mem_cons.mpr ⟨⟨x, List.mem_cons_self .., hxy⟩, fun z hz => ?_⟩
      obtain ⟨w, hw, hwz⟩ := ih.2 z hz
      exact ⟨w, List.mem_cons_of_mem _ hw, hwz⟩

theorem length_records (cs : List Call) : ∀ (n : Nat) (prev : PyStr),
    (records M n cs prev).length = cs.length := by
  induction cs with
  | nil => exact fun _ _ => rfl
  | cons c cs ih => exact fun n prev => congrArg (· + 1) (ih (n + 1) _)

theorem records_lines (hM : M.Printable) {n : Nat} {prev : PyStr}
    (hprev : ∀ d ∈ prev, 32 ≤ d ∧ d ≤ 126) (htame : ∀ c ∈ cs, Tame c) :
    ∀ l ∈ (records M n cs prev).map lineOf, ∀ d ∈ l, isLineBreak d = false := by
  induction cs generalizing n prev with
  | nil => exact fun l hl => absurd hl List.not_mem_nil
  | cons c cs ih =>
    obtain ⟨htame, htames⟩ := List.forall_mem_cons.mp htame
    rw [records, List.map_cons]
    exact List.forall_mem_cons.mpr ⟨tame_line hM hprev htame, ih (hashOf_printable hM) htames⟩

theorem previousHash_line {record : Members} {hash : PyStr}
    (hls : ∀ l ∈ ls ++ [lineOf record], ∀ d ∈ l, isLineBreak d = false)
    (hread : M.loads (lineOf record) = .ok (.obj record))
    (hhash : getItem? record (py "hash") = some (.str hash)) :
    previousHash M (some (fileText (ls ++ [lineOf record]))) = .ok (.str hash) := by
  unfold previousHash
  rw [Option.bind_some, splitlines_fileText hls, List.getLast?_concat]
  simp only
  rw [hread, bind_ok_eq]
  unfold item
  simp only [hhash]

/-- Calls without a line end in them write their records. -/
theorem auditAll_ok (hM : M.Printable) {n : Nat} {prev : PyStr}
    (hprev : ∀ d ∈ prev, 32 ≤ d ∧ d ≤ 126) (henc : ∀ c ∈ cs, c.Encodes) (htame : ∀ c ∈ cs, Tame c)
    (hreads : ∀ record ∈ records M n cs prev, (Json.obj record).isShort = true →
      M.loads (lineOf record) = .ok (.obj record))
    (hls : ∀ l ∈ ls, ∀ d ∈ l, isLineBreak d = false)
    (hfile : file.getD [] = fileText ls) (hlast : previousHash M file = .ok (.str prev)) :
    ∃ file', auditAll M n cs file = .ok file'
      ∧ file'.getD [] = fileText (ls ++ (records M n cs prev).map lineOf) := by
  induction cs generalizing n prev ls file with
  | nil => exact ⟨file, rfl, by rw [hfile, records, List.map_nil, List.append_nil]⟩
  | cons c cs ih =>
    obtain ⟨henc, hencs⟩ := List.forall_mem_cons.mp henc
    obtain ⟨htame, htames⟩ := List.forall_mem_cons.mp htame
    rw [records] at hreads
    obtain ⟨hread, hreads⟩ := List.forall_mem_cons.mp hreads
    have hstep := audit_ok hM hprev (n := n) hlast henc htame.short
    rw [hfile, ← fileText_append] at hstep
    have hmore : ∀ l ∈ ls ++ [lineOf (recordOf M n c (.str prev) (hashOf M n c prev))],
        ∀ d ∈ l, isLineBreak d = false := by
      intro l hl
      rcases List.mem_append.mp hl with hl | hl
      · exact hls l hl
      · rw [List.mem_singleton.mp hl]
        exact tame_line hM hprev htame
    have hnext := previousHash_line hmore (hread (isShort_recordOf.mpr ⟨htame.short, rfl⟩)) rfl
    obtain ⟨file', hrun, htext⟩ := ih (hashOf_printable hM) hencs htames hreads hmore rfl hnext
    refine ⟨file', ?_, ?_⟩
    · rw [auditAll, hstep, bind_ok_eq, hrun]
    · rw [htext, records, List.map_cons, List.append_assoc, List.singleton_append]

theorem verifyLines_records (hM : M.Printable) {n : Nat} {prev : PyStr}
    (hprev : ∀ d ∈ prev, 32 ≤ d ∧ d ≤ 126) (henc : ∀ c ∈ cs, c.Encodes) (htame : ∀ c ∈ cs, Tame c)
    (hreads : ∀ record ∈ records M n cs prev, (Json.obj record).isShort = true →
      M.loads (lineOf record) = .ok (.obj record)) :
    verifyLines M prev ((records M n cs prev).map lineOf) = .ok true := by
  induction cs generalizing n prev with
  | nil => rfl
  | cons c cs ih =>
    obtain ⟨henc, hencs⟩ := List.forall_mem_cons.mp henc
    obtain ⟨htame, htames⟩ := List.forall_mem_cons.mp htame
    rw [records] at hreads ⊢
    obtain ⟨hread, hreads⟩ := List.forall_mem_cons.mp hreads
    have hrow : (recordOf M n c (.str prev) (hashOf M n c prev)).filter
        (fun m => decide (m.1 ≠ py "hash")) = bodyOf M n c (.str prev) := by
      unfold recordOf bodyOf
      simp only [List.filter_cons, List.filter_nil, decide_not]
      rfl
    have hfound : getItem? (recordOf M n c (.str prev) (hashOf M n c prev)) (py "hash")
        = some (.str (hashOf M n c prev)) := rfl
    have hprevious : item (.obj (bodyOf M n c (.str prev))) "previous_hash" = .ok (.str prev) := rfl
    rw [List.map_cons, verifyLines, hread (isShort_recordOf.mpr ⟨htame.short, rfl⟩)]
    simp only [hfound, hrow, hprevious, sha256Obj_body hM hprev henc htame.short, Json.isStr_str,
      decide_true, if_true]
    exact ih (hashOf_printable hM) hencs htames hreads

end Run

/-- The log is unbroken just if every call is tame: `json.dumps` leaves U+0085, U+2028 and U+2029
in a line, and `str.splitlines` ends it there. -/
theorem unbroken_iff {M : Machine} (hM : M.Printable) {calls : List Call} (hreads : M.Reads calls)
    (henc : ∀ c ∈ calls, c.Encodes) : Unbroken M calls ↔ ∀ c ∈ calls, Tame c := by
  constructor
  · rintro ⟨file, hrun, -, hlen⟩
    obtain ⟨ls, htext, hall⟩ := auditAll_writes hrun
    rw [Option.getD_none, List.nil_append] at htext
    have hcontrol : ∀ l ∈ ls, ∀ d ∈ l, 32 ≤ d := by
      intro l hl d hd
      obtain ⟨c, -, -, n, prev, hash, rfl⟩ := (forall₂_mem hall).2 l hl
      exact (text_seen _ hd).1
    rw [htext, hall.length_eq, length_fileText hcontrol] at hlen
    intro c hc
    obtain ⟨l, hl, hshort, n, prev, hash, rfl⟩ := (forall₂_mem hall).1 c hc
    exact ⟨fun d hd => hlen _ hl d (lineOf_mem (Or.inl hd)),
      fun d hd => hlen _ hl d (lineOf_mem (Or.inr hd)), hshort⟩
  · intro htame
    obtain ⟨file, hrun, htext⟩ := auditAll_ok hM zeros_printable henc htame hreads
      (fun l hl => absurd hl List.not_mem_nil) (rfl : (none : Option PyStr).getD [] = fileText [])
      rfl
    rw [List.nil_append] at htext
    have hsplit : splitlines (file.getD []) = (records M 0 calls zeros).map lineOf := by
      rw [htext, splitlines_fileText (records_lines hM zeros_printable htame)]
    refine ⟨file, hrun, ?_, ?_⟩
    · have hverify := verifyLines_records hM zeros_printable henc htame hreads
      cases file with
      | none => rfl
      | some t =>
        rw [← hsplit] at hverify
        exact hverify
    · rw [hsplit, List.length_map, length_records]

def capability (name : PyStr) : Call where
  event := py "GRANT"
  payload := ⟨[(py "capability", .str name)], rfl⟩

def clock : PyStr := py "2026-01-01T00:00:00+00:00"

def capabilityRecord (name : PyStr) : Members :=
  [(py "event", .str (py "GRANT")), (py "hash", .str zeros),
    (py "payload", .obj [(py "capability", .str name)]), (py "previous_hash", .str zeros),
    (py "timestamp", .str clock)]

/-- A machine whose hash is the same for all texts, and which reads that line. -/
def still (name : PyStr) : Machine where
  sha256 := fun _ => zeros
  nowIso := fun _ => clock
  loads := fun line =>
    if line = lineOf (capabilityRecord name) then .ok (.obj (capabilityRecord name))
    else .error (.valueError "Expecting value")

theorem still_printable (name : PyStr) : (still name).Printable :=
  ⟨fun _ => zeros_printable, fun _ => (by decide : ∀ c ∈ clock, 32 ≤ c ∧ c ≤ 126)⟩

theorem still_reads {name : PyStr} (hhash : hashOf (still name) 0 (capability name) zeros = zeros) :
    (still name).Reads [capability name] := by
  unfold Machine.Reads
  rw [records, hhash, records]
  intro record hrecord _
  rw [List.mem_singleton.mp hrecord]
  exact if_pos rfl

theorem unbroken_echo : Unbroken (still (py "echo")) [capability (py "echo")]
    ↔ ∀ c ∈ [capability (py "echo")], Tame c :=
  unbroken_iff (still_printable _) (still_reads (by decide +kernel)) fun c hc => by
    rw [List.mem_singleton.mp hc]
    exact ⟨by decide, by decide⟩

/-- A line separator in the name of a capability cuts its record in two. -/
theorem unbroken_separator : (still [0x2028]).Printable
    ∧ (still [0x2028]).Reads [capability [0x2028]] ∧ (capability [0x2028]).Encodes
    ∧ ¬ Unbroken (still [0x2028]) [capability [0x2028]] := by
  have hreads : (still [0x2028]).Reads [capability [0x2028]] := still_reads (by decide +kernel)
  refine ⟨still_printable _, hreads, ⟨by decide, by decide⟩, ?_⟩
  rintro ⟨file, hrun, hverify, -⟩
  have hfile : auditAll (still [0x2028]) 0 [capability [0x2028]] none
      = .ok (some (lineOf (capabilityRecord [0x2028]) ++ [10])) := by decide +kernel
  rw [hfile] at hrun
  cases hrun
  exact absurd hverify (by decide +kernel)

end Centinal26.Hermes.Log
