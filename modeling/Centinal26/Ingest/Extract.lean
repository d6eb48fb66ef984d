/-
What a source says: the records and dependencies of a document, which is
either structured (`.json`) or lines of text.
-/
import Centinal26.Py.Dict
import Centinal26.Py.Host
import Centinal26.Py.Regex

namespace Centinal26.Ingest

open Py

/-- What the machine makes of a document's bytes. -/
structure Formats where
  /-- the hex digest of some bytes -/
  sha256 : List UInt8 → Text
  jsonLoads : PyStr → Except PyErr Doc
  /-- `str` of an array or an object -/
  containerStr : Json → PyStr

-- == strings

/-- `s.strip()`, of the characters of a class. -/
def stripBy (p : Nat → Bool) (s : PyStr) : PyStr :=
  ((s.dropWhile p).reverse.dropWhile p).reverse

def strip (s : PyStr) : PyStr := stripBy isSpace s

/-- `[A-Za-z0-9_.-]`. -/
def isTokenChar (c : Nat) : Bool :=
  (65 ≤ c && c ≤ 90) || (97 ≤ c && c ≤ 122) || (48 ≤ c && c ≤ 57) || c == 95 || c == 46 || c == 45

/-- `re.sub(r"[^A-Za-z0-9_.-]+", "-", s)`, after a character of such a run or
not. -/
def dashRuns : Bool → PyStr → PyStr
  | _, [] => []
  | inRun, c :: cs =>
    if isTokenChar c then c :: dashRuns false cs
    else if inRun then dashRuns true cs
    else 45 :: dashRuns true cs

def safeToken (value : PyStr) : PyStr :=
  let token := (stripBy (· == 45) (dashRuns false (strip value))).take 80
  if token.isEmpty then py "item" else token

def entityId (kind digest externalId : PyStr) : PyStr :=
  kind ++ py ":" ++ digest.take 16 ++ py ":" ++ safeToken externalId

/-- A character at which `str.splitlines` cuts. -/
def isLineBreak (c : Nat) : Bool :=
  (10 ≤ c && c ≤ 13) || (28 ≤ c && c ≤ 30) || c == 0x85 || c == 0x2028 || c == 0x2029

/-- `s.splitlines()`, behind the start of a line. -/
def linesFrom (line : PyStr) : PyStr → List PyStr
  | [] => if line.isEmpty then [] else [line.reverse]
  | 13 :: 10 :: cs => line.reverse :: linesFrom [] cs
  | c :: cs =>
    if isLineBreak c then line.reverse :: linesFrom [] cs
    else linesFrom (c :: line) cs

def splitlines (s : PyStr) : List PyStr := linesFrom [] s

def utf8Next (n lo hi : Nat) (b : UInt8) : Option Nat :=
  if lo ≤ b.toNat ∧ b.toNat ≤ hi then some (n * 64 + (b.toNat - 128)) else none

/-- `b.decode("utf-8")`. -/
def utf8 : List UInt8 → Option PyStr
  | [] => some []
  | b :: rest =>
    let lead := b.toNat
    if lead < 0x80 then do some (lead :: (← utf8 rest))
    else if 0xC2 ≤ lead ∧ lead ≤ 0xDF then
      match rest with
      | b1 :: rest => do
        let c ← utf8Next (lead - 0xC0) 0x80 0xBF b1
        some (c :: (← utf8 rest))
      | _ => none
    else if 0xE0 ≤ lead ∧ lead ≤ 0xEF then
      match rest with
      | b1 :: b2 :: rest => do
        let c ← utf8Next (lead - 0xE0) (if lead = 0xE0 then 0xA0 else 0x80)
          (if lead = 0xED then 0x9F else 0xBF) b1
        let c ← utf8Next c 0x80 0xBF b2
        some (c :: (← utf8 rest))
      | _ => none
    else if 0xF0 ≤ lead ∧ lead ≤ 0xF4 then
      match rest with
      | b1 :: b2 :: b3 :: rest => do
        let c ← utf8Next (lead - 0xF0) (if lead = 0xF0 then 0x90 else 0x80)
          (if lead = 0xF4 then 0x8F else 0xBF) b1
        let c ← utf8Next c 0x80 0xBF b2
        let c ← utf8Next c 0x80 0xBF b3
        some (c :: (← utf8 rest))
      | _ => none
    else none

def decode (content : List UInt8) : Except PyErr PyStr :=
  match utf8 content with
  | some s => .ok s
  | none => .error .unicodeDecodeError

-- == records

structure PendingRecord where
  kind : PyStr
  externalId : PyStr
  text : PyStr
  payload : List (PyStr × Json)

/-- A dependency of a task on another, by the authors' identifiers. -/
abbrev Dependency := PyStr × PyStr

def pyStr (F : Formats) : Json → PyStr
  | .null => py "None"
  | .bool b => py (if b then "True" else "False")
  | .int n => intRepr n
  | .float .nan => py "nan"
  | .float .infinity => py "inf"
  | .float .negInfinity => py "-inf"
  | .float (.finite lit) => lit.repr.map Fin.val
  | .str s => s
  | d => F.containerStr d

def getOr (d : List (PyStr × Json)) : List String → Option Json
  | [] => none
  | [k] => getItem? d (py k)
  | k :: ks => ((getItem? d (py k)).filter Json.truthy).or (getOr d ks)

def recordFromItem (F : Formats) (kind : PyStr) (item : Json) (index : Nat) :
    Except PyErr PendingRecord :=
  match item with
  | .str s =>
    if (strip s).isEmpty then .error (.valueError "empty entry")
    else .ok ⟨kind, intRepr (index + 1), strip s, []⟩
  | .obj members =>
    let externalId := match getItem? members (py "id") with
      | some v => pyStr F v
      | none => intRepr (index + 1)
    match getOr members ["text", "objective", "title", "description"] with
    | some (.str s) =>
      if (strip s).isEmpty then
        .error (.valueError "entry has no text/objective/title/description")
      else .ok ⟨kind, externalId, strip s, members.filter fun m => decide (m.1 ≠ py "id")⟩
    | _ => .error (.valueError "entry has no text/objective/title/description")
  | _ => .error .typeError

/-- `[v for v in values]`, if all are strings. -/
def strings? (values : List Json) : Option (List PyStr) := values.mapM Json.str?

def dependsOn (item : Json) : Except PyErr (List PyStr) :=
  match item with
  | .obj members =>
    match getItem? members (py "depends_on") with
    | none => .ok []
    | some (.str s) => .ok [s]
    | some (.arr values) =>
      match strings? values with
      | some ids => .ok ids
      | none => .error .typeError
    | some _ => .error .typeError
  | _ => .ok []

/-- The records of a collection, and what its tasks depend on. -/
def itemRecords (F : Formats) (kind : PyStr) :
    Nat → List Json → Except PyErr (List PendingRecord × List Dependency)
  | _, [] => .ok ([], [])
  | index, item :: items => do
    let record ← recordFromItem F kind item index
    let ids ← if kind = py "task" then dependsOn item else .ok []
    let (records, dependencies) ← itemRecords F kind (index + 1) items
    .ok (record :: records, ids.map (fun id => (record.externalId, id)) ++ dependencies)

/-- The collections of a document and what their entries are. -/
def singular : List (String × String) :=
  [("goals", "goal"), ("tasks", "task"), ("decisions", "decision"),
    ("blockers", "blocker"), ("artifacts", "artifact")]

def collectionRecords (F : Formats) (data : Fields) :
    List (String × String) → Except PyErr (List PendingRecord × List Dependency)
  | [] => .ok ([], [])
  | (collection, kind) :: rest => do
    let (records, dependencies) ←
      match data.get? (py collection) with
      | none => .ok ([], [])
      | some .null => .ok ([], [])
      | some (.arr items) => itemRecords F (py kind) 0 items
      | some _ => .error .typeError
    let (records', dependencies') ← collectionRecords F data rest
    .ok (records ++ records', dependencies ++ dependencies')

def dependencyFromItem (item : Json) : Except PyErr Dependency :=
  match item with
  | .obj members =>
    match (getOr members ["task_id", "task"]).bind Json.str?,
        (getItem? members (py "depends_on")).bind Json.str? with
    | some id, some dependency => .ok (id, dependency)
    | _, _ => .error .typeError
  | _ => .error .typeError

def extractJson (F : Formats) (data : Doc) : Except PyErr (List PendingRecord × List Dependency) :=
  match data.fields? with
  | none => .error .typeError
  | some data => do
    let (records, dependencies) ← collectionRecords F data singular
    match data.get? (py "dependencies") with
    | none => .ok (records, dependencies)
    | some .null => .ok (records, dependencies)
    | some (.arr items) => do
      let more ← items.mapM dependencyFromItem
      .ok (records, dependencies ++ more)
    | some _ => .error .typeError

-- == text

section Patterns

open Regex

def textPattern : Regex :=
  all [group 1 (alt (word "GOAL") (alt (word "TASK") (alt (word "DECISION")
      (alt (word "BLOCKER") (word "ARTIFACT"))))),
    opt (all [many space, char '[', group 2 (plus (· != 93)), char ']']),
    many space, char ':', many space, group 3 (plusFew (· != 10)), many space,
    ends]

def dependsPattern : Regex :=
  all [word "DEPENDS", many space, char ':', many space,
    group 1 (plus (!space ·)), many space, char '-', char '>', many space,
    group 2 (plus (!space ·)), many space, ends]

end Patterns

def lowerLetter (c : Nat) : PyStr :=
  if 65 ≤ c ∧ c ≤ 90 then [c + 32]
  else if c = 0x130 then [105, 0x307]
  else if c = 0x212A then [107]
  else [c]

/-- `s.lower()` of letters `word` matches. -/
def lower (s : PyStr) : PyStr := s.flatMap lowerLetter

/-- `match.group(n)`, empty if the group took no part. -/
def groupText (g : Groups) (n : Nat) : PyStr := (g.get? n).getD []

/-- The loop of `_extract_text`. -/
def extractLines : Nat → List (PyStr × Nat) → List PyStr → List PendingRecord × List Dependency
  | _, _, [] => ([], [])
  | number, counters, raw :: rest =>
    let line := strip raw
    match dependsPattern.match? line with
    | some g =>
      let (records, dependencies) := extractLines (number + 1) counters rest
      (records, (groupText g 1, groupText g 2) :: dependencies)
    | none =>
      match textPattern.match? line with
      | none => extractLines (number + 1) counters rest
      | some g =>
        let kind := lower (groupText g 1)
        let count := (getItem? counters kind).getD 0 + 1
        let externalId := (g.get? 2).getD (py "line-" ++ intRepr number ++ py "-" ++ intRepr count)
        let (records, dependencies) :=
          extractLines (number + 1) (setItem counters kind count) rest
        (⟨kind, externalId, strip (groupText g 3), []⟩ :: records, dependencies)

def extractText (text : PyStr) : List PendingRecord × List Dependency :=
  extractLines 1 [] (splitlines text)

-- == files

/-- The last component of a path, `.` aside. -/
def fileName (path : PyStr) : PyStr :=
  (((path.splitOn 47).filter fun part => decide (part ≠ [] ∧ part ≠ [46])).getLast?).getD []

def suffix (path : PyStr) : PyStr :=
  let name := fileName path
  let ending := (name.reverse.takeWhile (· != 46)).reverse
  if 1 ≤ ending.length ∧ ending.length + 1 < name.length then 46 :: ending else []

/-- `Path(name).suffix.lower() == ".json"`. -/
def isJsonName (name : PyStr) : Bool :=
  decide ((suffix name).map (fun c => if 65 ≤ c ∧ c ≤ 90 then c + 32 else c) = py ".json")

def extract (F : Formats) (content : List UInt8) (name : PyStr) :
    Except PyErr (List PendingRecord × List Dependency × PyStr) := do
  let text ← decode content
  if isJsonName name then do
    let (records, dependencies) ← extractJson F (← F.jsonLoads text)
    .ok (records, dependencies, py "application/json")
  else
    let (records, dependencies) := extractText text
    .ok (records, dependencies, py "text/plain")

end Centinal26.Ingest
