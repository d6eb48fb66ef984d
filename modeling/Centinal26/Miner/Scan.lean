/-
The provenance miner: a search of files, and of the archives in them, within bounds on the depth,
on the number and the size of members, and on the bytes that are read.
-/
import Centinal26.Py.Dict
import Mathlib.Data.List.Sort

namespace Centinal26.Miner

open Py

-- == files

/-- What the directory of an archive says of a member, and why it cannot be read, if it cannot. -/
structure Info where
  filename : PyStr
  fileSize : Nat
  error : Option PyStr

mutual

/-- The bytes of a file: `zipfile` reads no archive of them, or one with these members. -/
inductive Content : Type
  | plain (data : PyStr)
  | archive (data : PyStr) (members : Members)

inductive Members : Type
  | nil
  | cons (info : Info) (content : Content) (rest : Members)

end

def Content.data : Content → PyStr
  | .plain data => data
  | .archive data _ => data

/-- `len(infos)`. -/
def Members.length : Members → Nat
  | .nil => 0
  | .cons _ _ rest => rest.length + 1

/-- A regular file under a root, and why it cannot be read, if it cannot. -/
structure PathFile where
  path : PyStr
  name : PyStr
  statError : Option PyStr
  readError : Option PyStr
  content : Content

inductive Root : Type
  | file (f : PathFile)
  | dir (files : List PathFile)
  | missing (path : PyStr)

-- == settings

structure Bounds where
  maxDepth : Nat
  maxMembers : Nat
  maxMemberBytes : Nat
  maxTotalBytes : Nat

/-- `MinerQuery`, with what the library does to texts and bytes. -/
structure Query where
  expectedSha256 : List PyStr
  filenameTerms : List PyStr
  textTerms : List PyStr
  /-- `hashlib.sha256(data).hexdigest()` -/
  sha256 : PyStr → PyStr
  /-- `s.lower()` -/
  lower : PyStr → PyStr
  /-- `data.decode("utf-8", errors="ignore")` -/
  decode : PyStr → PyStr

inductive Strength : Type
  | notFound
  | weakLead
  | foundCandidate
  | hashMatch
deriving DecidableEq

structure Finding where
  source : PyStr
  member : Option PyStr
  sha256 : PyStr
  size : Nat
  strength : Strength
  reasons : List PyStr

/-- A file or a member that has been classified. -/
structure Item where
  source : PyStr
  member : Option PyStr
  data : PyStr
deriving DecidableEq

/-- `_Counters`, with what has been classified. -/
structure Counters where
  classified : List Item := []
  archives : Nat := 0
  skipped : Nat := 0
  bytesRead : Nat := 0
  truncated : Bool := false
  warnings : List PyStr := []

def Counters.files (c : Counters) : Nat := c.classified.length

/-- `counters.warnings.append(…)`. -/
def Counters.warn (c : Counters) (warning : PyStr) : Counters :=
  { c with warnings := c.warnings ++ [warning] }

-- == predicates

def includes (part : PyStr) : PyStr → Bool
  | [] => part.isEmpty
  | c :: rest => part.isPrefixOf (c :: rest) || includes part rest

def looksLikeZip (Q : Query) (name data : PyStr) : Bool :=
  (py ".zip").isSuffixOf (Q.lower name) || data.take 4 == [80, 75, 3, 4]
    || data.take 4 == [80, 75, 5, 6]

def partsFrom (part : PyStr) : PyStr → List PyStr
  | [] => [part.reverse]
  | c :: rest => if c = 47 then part.reverse :: partsFrom [] rest else partsFrom (c :: part) rest

def safeMemberName (name : PyStr) : Bool :=
  !(name.head? == some 47) && !(partsFrom [] name).contains (py "..") && !(match name with
      | c :: 58 :: _ => (65 ≤ c && c ≤ 90) || (97 ≤ c && c ≤ 122)
      | _ => false)

def Info.isDir (info : Info) : Bool := info.filename.getLast? == some 47

-- == scans

variable (B : Bounds) (Q : Query)

def consume (amount : Nat) (c : Counters) : Bool × Counters :=
  if B.maxTotalBytes < c.bytesRead + amount then
    (false, { c with truncated := true }.warn (py "max_total_bytes_reached"))
  else (true, { c with bytesRead := c.bytesRead + amount })

/-- `_classify` of what has been read. -/
def Counters.classify (c : Counters) (item : Item) : Counters :=
  { c with classified := c.classified ++ [item] }

/-- What is done with a member before it is looked into: whether it is read, and whether the next
one is looked at. -/
inductive Verdict : Type
  | skip (c : Counters)
  | stop (c : Counters)
  | read (c : Counters)

def examine (source : PyStr) (info : Info) (data : PyStr) (c : Counters) : Verdict :=
  if c.truncated ∧ B.maxTotalBytes ≤ c.bytesRead then .stop c
  else if info.isDir then .skip c
  else if safeMemberName info.filename = false then .skip { c with skipped := c.skipped + 1 }
  else if B.maxMemberBytes < info.fileSize then
    .skip (c.warn (py "oversize_member_skipped:" ++ source ++ py "!" ++ info.filename ++ py ":"
      ++ py (toString info.fileSize)))
  else match info.error with
    | some e => .skip (c.warn
        (py "member_read_failed:" ++ source ++ py "!" ++ info.filename ++ py ":" ++ e))
    | none => match consume B data.length c with
      | (false, c) => .stop c
      | (true, c) => .read (c.classify ⟨source, some info.filename, data⟩)

mutual

/-- `_scan_zip_bytes(source, data, depth, …)`, of what may be an archive. -/
def scanZip (source : PyStr) (depth : Nat) (c : Counters) : Content → Counters
  | .plain _ =>
    if B.maxDepth < depth ∨ c.truncated then c else c.warn (py "invalid_zip:" ++ source)
  | .archive _ members =>
    if B.maxDepth < depth ∨ c.truncated then c
    else
      let c := { c with archives := c.archives + 1 }
      let c := if B.maxMembers < members.length then
          { c with truncated := true }.warn (py "archive_member_limit:" ++ source ++ py ":"
            ++ py (toString members.length)) else c
      scanMembers source depth c B.maxMembers members

/-- The loop over the first of the members. -/
def scanMembers (source : PyStr) (depth : Nat) (c : Counters) : Nat → Members → Counters
  | 0, _ => c
  | _, .nil => c
  | n + 1, .cons info content rest =>
    match examine B source info content.data c with
    | .stop c => c
    | .skip c => scanMembers source depth c n rest
    | .read c =>
      let c := if looksLikeZip Q info.filename content.data then
          scanZip (source ++ py "!" ++ info.filename) (depth + 1) c content else c
      scanMembers source depth c n rest

end

def scanPath (f : PathFile) (c : Counters) : Counters :=
  match f.statError, f.readError with
  | some e, _ => c.warn (py "stat_failed:" ++ f.path ++ py ":" ++ e)
  | none, readError =>
    if B.maxMemberBytes < f.content.data.length then
      c.warn (py "oversize_file_skipped:" ++ f.path ++ py ":"
        ++ py (toString f.content.data.length))
    else match readError with
      | some e => c.warn (py "read_failed:" ++ f.path ++ py ":" ++ e)
      | none => match consume B f.content.data.length c with
        | (false, c) => c
        | (true, c) =>
          let c := c.classify ⟨f.path, none, f.content.data⟩
          if looksLikeZip Q f.name f.content.data then scanZip B Q f.path 1 c f.content else c

def scanFiles : List PathFile → Counters → Counters
  | [], c => c
  | f :: rest, c => if c.truncated then c else scanFiles rest (scanPath B Q f c)

def scanRoots : List Root → Counters → Counters
  | [], c => c
  | root :: rest, c =>
    if c.truncated then c
    else scanRoots rest (match root with
      | .file f => scanPath B Q f c
      | .dir files => scanFiles B Q files c
      | .missing path => c.warn (py "unreadable_or_missing:" ++ path))

-- == report

def probablyText (data : PyStr) : Bool := !(data.take 4096).contains 0

/-- The digest of the data is one that is expected. -/
def Expected (item : Item) : Prop :=
  Q.lower (Q.sha256 item.data) ∈ Q.expectedSha256.map Q.lower

instance (item : Item) : Decidable (Expected Q item) :=
  inferInstanceAs (Decidable (Q.lower (Q.sha256 item.data) ∈ Q.expectedSha256.map Q.lower))

/-- The reasons of a classification that are terms in a text. -/
def matchedTerms (label : String) (terms : List PyStr) (text : PyStr) : List PyStr :=
  (terms.filter fun term => includes (Q.lower term) text).map fun term => py label ++ term

/-- `_classify(source, member, data, query)`. -/
def classify (item : Item) : Option Finding :=
  let names := matchedTerms Q "filename:" Q.filenameTerms (Q.lower (match item.member with
    | some member => if member.isEmpty then item.source else member
    | none => item.source))
  let texts := if probablyText item.data then
      matchedTerms Q "text:" Q.textTerms (Q.lower (Q.decode item.data)) else []
  let digest := if Expected Q item then [py "exact_sha256"] else []
  let strength := if Expected Q item then Strength.hashMatch
    else if !names.isEmpty then .foundCandidate
    else if !texts.isEmpty then .weakLead
    else .notFound
  let reasons := digest ++ names ++ texts
  if reasons.isEmpty then none
  else some ⟨item.source, item.member, Q.sha256 item.data, item.data.length, strength, reasons⟩

def Strength.rank : Strength → Nat
  | .notFound => 0
  | .weakLead => 1
  | .foundCandidate => 2
  | .hashMatch => 3

/-- One finding is not before the other in the report. -/
def Finding.NotBefore (f g : Finding) : Prop :=
  g.strength.rank < f.strength.rank ∨ g.strength.rank = f.strength.rank ∧ g.source ≤ f.source

instance : DecidableRel Finding.NotBefore := fun f g =>
  inferInstanceAs (Decidable (g.strength.rank < f.strength.rank
    ∨ g.strength.rank = f.strength.rank ∧ g.source ≤ f.source))

structure Report where
  findings : List Finding
  searchedFiles : Nat
  searchedArchives : Nat
  skippedUnsafeMembers : Nat
  truncated : Bool
  warnings : List PyStr

def scan (roots : List Root) : Report × Counters :=
  let c := scanRoots B Q roots {}
  (⟨(c.classified.filterMap (classify Q)).insertionSort Finding.NotBefore, c.files, c.archives,
    c.skipped, c.truncated, c.warnings⟩, c)

end Centinal26.Miner
