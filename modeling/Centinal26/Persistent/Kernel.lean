/-
The security policy of the persistent automation: what it makes of a context it is given, which
may be any value that was read from JSON.
-/
import Centinal26.Lib.Cut
import Centinal26.Py.Typed

namespace Centinal26.Persistent

open Py

-- == libraries

/-- What the policy and the kernel call. -/
structure Libraries where
  /-- `hashlib.sha256(text.encode()).hexdigest()` -/
  sha : Text → PyStr
  ascii_sha : ∀ t, Ascii (sha t)
  upper : PyVal → PyStr
  lower : PyVal → PyStr
  /-- `json.dumps(value, indent=2, sort_keys=True)`, of a document -/
  indented : Json → Text

-- == containers

def keyVal : PyKey → PyVal
  | .none => .none
  | .bool b => .bool b
  | .int n => .int n
  | .float x => .float x
  | .str s => .str s
  | .object => .object

/-- `iter(value)`, to its end. -/
def iterate : PyVal → Except PyErr (List PyVal)
  | .list xs => .ok xs
  | .tuple xs => .ok xs
  | .str s => .ok (s.map fun c => .str [c])
  | .dict items => .ok (items.map fun m => keyVal m.1)
  | _ => .error .typeError

/-- A value as a key: a list or a dictionary has no hash. -/
def hashed : PyVal → Except PyErr PyKey
  | .none => .ok .none
  | .bool b => .ok (.bool b)
  | .int n => .ok (.int n)
  | .float x => .ok (.float x)
  | .str s => .ok (.str s)
  | _ => .error .typeError

def pairOf (v : PyVal) : Except PyErr (PyKey × PyVal) := do
  match ← iterate v with
  | [k, x] => .ok (← hashed k, x)
  | _ => .error (.valueError "dictionary update sequence element has length other than 2")

/-- `d[k] = v`, where `1`, `1.0` and `True` are one key. -/
def putItem (d : Items) (m : PyKey × PyVal) : Items :=
  match d with
  | [] => [m]
  | n :: rest => if n.1.eq m.1 then (n.1, m.2) :: rest else n :: putItem rest m

def dictFrom : PyVal → Except PyErr Items
  | .dict items => .ok items
  | v => do
    let pairs ← (← iterate v).mapM pairOf
    .ok (pairs.foldl putItem [])

def itemOr (d : Items) (key : String) (default : PyVal) : PyVal :=
  (getItem? d (.str (py key))).getD default

/-- `value in names`, for a set of strings. -/
def isAmong (names : List String) (v : PyVal) : Except PyErr Bool := do
  let key ← hashed v
  .ok (names.any fun name => decide (key = .str (py name)))

-- == policy

def trustedBaselineSources : List String :=
  ["trusted_git", "package_manifest", "vendor_hash", "known_good_backup"]

def forbiddenCapabilities : List String :=
  ["unrestricted_shell", "credential_export", "disable_verification", "bypass_authorization"]

structure SecurityDecision where
  checks : List (String × Bool)
  nodup : (checks.map Prod.fst).Nodup
  contextHash : PyStr

def SecurityDecision.allowed (s : SecurityDecision) : Bool := s.checks.all fun c => c.2

def SecurityDecision.reasons (s : SecurityDecision) : List String :=
  (s.checks.filter fun c => !c.2).map Prod.fst

variable (L : Libraries)

def trustedProvenance (baseline : Items) : Except PyErr Bool := do
  let isTrusted ← isAmong trustedBaselineSources (itemOf baseline "source")
  .ok (isTrusted && (itemOf baseline "expected_sha256").truthy
    && (itemOf baseline "expected_sha256").eq (itemOf baseline "actual_sha256"))

def deviceClaimValid (device : Items) : Bool :=
  let origin := L.upper (itemOr device "origin" (.str []))
  !(itemOf device "claimed").truthy
    || ((decide (py "ANDROID" <:+: origin) || decide (py "TERMUX" <:+: origin))
      && (itemOf device "report_sha256").truthy && (itemOf device "origin_verified").truthy)

def epistemicValid (claim : Items) : Bool :=
  !(decide (L.upper (itemOr claim "status" (.str (py "UNKNOWN"))) = py "OBSERVED")
    && ["model", "ai", "llm", "inference"].any fun source =>
      decide (L.lower (itemOr claim "source" (.str (py "unknown"))) = py source))

def evaluate (context : PyVal) : Except PyErr SecurityDecision := do
  let context ← dictFrom context.orEmpty
  let capabilities ← (← iterate (itemOr context "capabilities" (.list []))).mapM hashed
  let baseline ← dictFrom (itemOr context "baseline" (.dict []))
  let device ← dictFrom (itemOr context "device" (.dict []))
  let claim ← dictFrom (itemOr context "claim" (.dict []))
  let isTrusted ← trustedProvenance baseline
  let given (key : String) := (itemOf context key).truthy
  let canonical ← dumps (.dict context)
  .ok {
    checks := [("authority_verified", given "authority_verified"),
      ("capability_authorized", given "capability_authorized"),
      ("bounded_execution", given "bounded_execution"),
      ("independent_verification", given "independent_verification"),
      ("evidence_chain_valid", given "evidence_chain_valid"),
      ("trusted_provenance", isTrusted),
      ("device_claim_valid", deviceClaimValid L device),
      ("epistemic_claim_valid", epistemicValid L claim),
      ("no_forbidden_capability", !capabilities.any fun c =>
        forbiddenCapabilities.any fun f => decide (c = .str (py f))),
      ("no_secret_exposure", !given "secret_exposure"),
      ("destructive_action_authorized",
        !given "destructive_action" || given "destructive_authorized")]
    nodup := by
      simp only [List.map_cons, List.map_nil]
      decide
    contextHash := L.sha canonical.compactText }

end Centinal26.Persistent

/-
The kernel of the persistent automation: a ledger of events, a record of the project with its
hash beside it, and a marker that says the goal is reached.

A commit reads the record and the end of the ledger, and then writes the four files one after
the other. The files written with `atomic_write` change at once; of the line that is appended
to the ledger, any number of characters may have reached the file when the process is killed.

# The ledger

A line is modelled by the event it is the document of. Text after the last line end is a `Tail`:
no strict part of the text of an object is a JSON text, nor are two such texts one after the
other.
-/

namespace Centinal26.Persistent

open Py Steps

-- == flags

/-- A dictionary from distinct names to booleans. -/
structure Flags where
  items : List (String × Bool)
  nodup : (items.map Prod.fst).Nodup

def Flags.all (d : Flags) : Bool := d.items.all fun m => m.2

def Flags.get (d : Flags) (key : String) : Bool := (d.items.lookup key).getD false

def Flags.json (d : Flags) : Json :=
  .obj (sortByName (d.items.map fun m => (py m.1, .bool m.2)))

def qualified : List String :=
  ["repo_sync", "repo_clean", "pair_ok", "skynet_ok", "device_boot_ok", "device_restart_ok",
    "device_exec_ok", "device_audit_ok", "state_integrity_ok", "recovery_ok",
    "security_policy_ok"]

theorem qualified_nodup : qualified.Nodup := by decide

/-- `{key: value(key) for key in QUALIFIED}`. -/
def Flags.qualified (value : String → Bool) : Flags where
  items := Persistent.qualified.map fun key => (key, value key)
  nodup := by
    rw [List.map_map]
    exact qualified_nodup.map fun _ _ h => h

-- == events

def securityJson (s : SecurityDecision) : Json :=
  .obj [(py "allowed", .bool s.allowed), (py "checks", (Flags.mk s.checks s.nodup).json),
    (py "context_hash", .str s.contextHash),
    (py "reasons", .arr (s.reasons.map fun r => .str (py r)))]

/-- What `append_event` is given, and what it adds but for the hash. -/
structure Body where
  prev : Option PyStr
  eventId : PyStr
  time : PyStr
  release : PyStr
  worker : PyStr
  inputs : Doc
  checks : Flags
  security : SecurityDecision
  status : String
  detail : PyStr

def Body.members (b : Body) : List (PyStr × Json) := [
  (py "checks", b.checks.json), (py "detail", .str b.detail), (py "event_id", .str b.eventId),
  (py "inputs", b.inputs.json), (py "prev_event_hash", b.prev.elim .null .str),
  (py "release", .str b.release), (py "schema", .int 4), (py "security", securityJson b.security),
  (py "status", .str (py b.status)), (py "time_utc", .str b.time),
  (py "type", .str (py "qualification")), (py "worker", .str b.worker)]

/-- A line of the ledger. -/
structure Event where
  body : Body
  /-- `event_hash` -/
  hash : PyStr

/-- How long the line is, without its end. -/
def Event.length (e : Event) : Nat :=
  ((Json.obj (sortByName ((py "event_hash", .str e.hash) :: e.body.members))).text .default).length

-- == ledger

/-- What comes after the last line end. -/
inductive Tail : Type
  | nothing
  | whole (e : Event)
  | torn

/-- `evidence.jsonl`. -/
structure Ledger where
  /-- nothing for a line that is no JSON -/
  lines : List (Option Event)
  tail : Tail

namespace Ledger

def empty : Ledger := ⟨[], .nothing⟩

/-- `read_text().splitlines()`, each line as `json.loads` reads it. -/
def read (l : Ledger) : List (Option Event) :=
  match l.tail with
  | .nothing => l.lines
  | .whole e => l.lines ++ [some e]
  | .torn => l.lines ++ [none]

def append (l : Ledger) (e : Event) : Ledger :=
  match l.tail with
  | .nothing => ⟨l.lines ++ [some e], .nothing⟩
  | _ => ⟨l.lines ++ [none], .nothing⟩

/-- The ledger with the first characters of a line appended, or with all of them. -/
def put (l : Ledger) (e : Event) : Option Nat → Ledger
  | none => l.append e
  | some n =>
    if n = 0 then l
    else if e.length < n then l.append e
    else match l.tail with
      | .nothing => if n = e.length then { l with tail := .whole e } else { l with tail := .torn }
      | _ => { l with tail := .torn }

end Ledger

-- == files

structure Metrics where
  cycles : Nat
  recoveries : Nat
  demotions : Nat

/-- `project_state.json`. -/
structure Project where
  release : PyStr
  status : String
  goalReached : Bool
  generation : Nat
  updatedAt : PyStr
  checks : Flags
  security : SecurityDecision
  metrics : Metrics
  lastEventHash : PyStr

def Project.json (p : Project) : Json :=
  .obj [(py "checks", p.checks.json), (py "generation", .int p.generation),
    (py "goal_reached", .bool p.goalReached), (py "last_event_hash", .str p.lastEventHash),
    (py "metrics", .obj [(py "cycles", .int p.metrics.cycles),
      (py "demotions", .int p.metrics.demotions), (py "recoveries", .int p.metrics.recoveries)]),
    (py "release", .str p.release), (py "schema", .int 4),
    (py "security", securityJson p.security), (py "status", .str (py p.status)),
    (py "updated_at_utc", .str p.updatedAt)]

/-- The directory of the kernel. -/
structure Files where
  ledger : Option Ledger
  /-- without the file, `load` gives the record of a project nothing is known of -/
  state : Option Project
  /-- the hash in `project_state.json.sha256` -/
  side : Option PyStr
  /-- `PROJECT_GOAL_REACHED` -/
  marker : Option Text

def Files.empty : Files := ⟨none, none, none, none⟩

/-- What ends a commit early. -/
inductive Failure : Type
  | python (e : PyErr)
  | attributeError
  | jsonDecodeError
deriving DecidableEq

/-- `prev`, for the next line. -/
def Ledger.head (l : Ledger) : Except Failure (Option PyStr) :=
  match l.read.getLast? with
  | none => .ok none
  | some (some e) => .ok (some e.hash)
  | some none => .error .jsonDecodeError

-- == commit

/-- The arguments of `commit`, and what the commit gets from the machine. -/
structure Call where
  release : PyStr
  checks : Doc
  detail : PyStr
  worker : PyStr
  inputs : Doc
  context : PyVal
  /-- `uuid.uuid4()` -/
  eventId : PyStr
  /-- `now()`, for the event and for the record -/
  eventTime : PyStr
  stateTime : Text

/-- What a commit makes of its arguments. -/
structure Judgement where
  security : SecurityDecision
  /-- `normalized` -/
  checks : Flags

def Judgement.goal (j : Judgement) : Bool := j.checks.all

variable (L : Libraries)

/-- `security` and `normalized`. -/
def judge (c : Call) : Except Failure Judgement := do
  let security ← (evaluate L c.context).mapError .python
  match c.checks.fields? with
  | none => .error .attributeError
  | some checks =>
    .ok ⟨security, .qualified fun key =>
      if key = "security_policy_ok" then security.allowed
      else ((checks.get? (py key)).getD (.bool false)).truthy⟩

def wasGoal (old : Option Project) : Bool :=
  old.any fun p => decide (p.status = "PROJECT_GOAL_REACHED")

def statusOf (old : Option Project) (goal : Bool) : String :=
  if goal then "PROJECT_GOAL_REACHED" else if wasGoal old then "DEMOTED" else "UNQUALIFIED"

def metricsOf (old : Option Project) (goal : Bool) (detail : PyStr) : Metrics :=
  let m := old.elim ⟨0, 0, 0⟩ Project.metrics
  { cycles := m.cycles + 1
    recoveries := if py "recovered:" <+: detail then m.recoveries + 1 else m.recoveries
    demotions := if wasGoal old && !goal then m.demotions + 1 else m.demotions }

def eventOf (c : Call) (j : Judgement) (status : String) (prev : Option PyStr) : Event :=
  let body : Body := {
    prev
    eventId := c.eventId
    time := c.eventTime
    release := c.release
    worker := c.worker
    inputs := if c.inputs.json.truthy then c.inputs else Fields.empty.doc
    checks := j.checks
    security := j.security
    status
    detail := c.detail }
  ⟨body, L.sha (Json.obj body.members).compactText⟩

def projectOf (c : Call) (j : Judgement) (old : Option Project) (hash : PyStr) : Project where
  release := c.release
  status := statusOf old j.goal
  goalReached := j.goal
  generation := old.elim 0 Project.generation + 1
  updatedAt := c.stateTime.str
  checks := j.checks
  security := j.security
  metrics := metricsOf old j.goal c.detail
  lastEventHash := hash

def Project.sha (p : Project) : PyStr := L.sha (L.indented p.json)

def markerText (p : Project) : Except Failure Text :=
  (encode (p.release ++ [32] ++ p.updatedAt ++ [32] ++ p.lastEventHash ++ [10])).mapError .python

/-- The files a step of a commit is about. -/
inductive Op : Type
  | read
  | ledger
  | state
  | side
  | marker

def look {α : Type} (r : Files → Except Failure α) : Prog Op Failure Files α :=
  .block .read fun f => (r f, f)

def write (op : Op) (u : Files → Files) : Prog Op Failure Files Unit :=
  .atomic op u fun _ => .ret ()

def mark (p : Project) : Prog Op Failure Files Project :=
  if p.goalReached then do
    let text ← Prog.ofExcept (markerText p)
    write .marker fun f => { f with marker := some text }
    return p
  else do
    write .marker fun f => { f with marker := none }
    return p

/-- The four files of a commit: while it appends, so many characters of the line are in the
file. -/
def record (n : Option Nat) (l : Ledger) (e : Event) (p : Project) : Prog Op Failure Files Project := do
  write .ledger fun f => { f with ledger := some (l.put e n) }
  write .ledger fun f => { f with ledger := some (l.append e) }
  write .state fun f => { f with state := some p }
  write .side fun f => { f with side := some (p.sha L) }
  mark p

def commit (n : Option Nat) (c : Call) : Prog Op Failure Files Project := do
  let old ← look fun f => .ok f.state
  let j ← Prog.ofExcept (judge L c)
  let l ← look fun f => .ok (f.ledger.getD .empty)
  let prev ← Prog.ofExcept l.head
  let e := eventOf L c j (statusOf old j.goal) prev
  record L n l e (projectOf c j old e.hash)

-- == verify

def problem (wrong : Bool) (name : String) : List String := if wrong then [name] else []

/-- The lines of the ledger, from the line of that number on. -/
def verifyLines : Nat → Option PyStr → List (Option Event) →
    Except Failure (List String × Option PyStr)
  | _, prev, [] => .ok ([], prev)
  | _, _, none :: _ => .error .jsonDecodeError
  | number, prev, some e :: rest => do
    let (problems, last) ← verifyLines (number + 1) (some e.hash) rest
    .ok (problem (decide (e.body.prev ≠ prev)) ("ledger_chain:" ++ toString number)
      ++ problem (decide (L.sha (Json.obj e.body.members).normalise.compactText ≠ e.hash))
        ("ledger_hash:" ++ toString number)
      ++ problems, last)

def verify (f : Files) : Except Failure (List String) := do
  let (lines, prev) ← verifyLines L 1 none (f.ledger.getD .empty).read
  let goal := f.state.map Project.goalReached
  let check (key : String) := f.state.elim false fun p => p.checks.get key
  .ok (problem (f.state.any fun p => decide (f.side ≠ some (p.sha L))) "state_hash" ++ lines
    ++ problem (decide (f.state.map Project.lastEventHash ≠ prev) && f.ledger.isSome)
      "state_ledger_head"
    ++ problem (decide (goal ≠ some (qualified.all check))) "goal_logic"
    ++ problem (decide (goal ≠ some f.marker.isSome)) "goal_marker"
    ++ problem (decide (check "security_policy_ok" ≠ f.state.any fun p => p.security.allowed))
      "security_logic")

end Centinal26.Persistent
