/-
The scientific cycle: a candidate is inspected, executed and revised, until it meets its goal, is
rejected, is not revised any more, or the iterations are used.
-/
import Centinal26.Lib.Chain
import Centinal26.Py.Typed

namespace Centinal26.Device.Cycle

open Py

-- == goals

def defaultPerspectives : List String :=
  ["engineering", "empirical", "causal", "falsification", "information_value", "discovery",
    "resource", "epistemic"]

/-- What `validate_meta` leaves of a goal. -/
structure Meta where
  goal : PyStr
  exitCode : Int
  requiredText : List PyStr
  forbiddenText : List PyStr
  maxIterations : Nat
  timeout : Nat
  perspectives : List String
  agentProviders : List PyStr
  origin : Json
  capabilities : Json
  notes : Json

inductive MetaError : Type
  | valueError (message : String)
  | typeError (message : String)
  | attributeError
deriving DecidableEq

def getDefault (d : Members) (key : String) (default : Json) : Json :=
  (getItem? d (py key)).getD default

def asInt : Json → Option Int
  | .int n => some n
  | .bool b => some (if b then 1 else 0)
  | _ => none

def asStr : Json → Option PyStr
  | .str s => some s
  | _ => none

def asStrings : Json → Option (List PyStr)
  | .arr xs => xs.mapM asStr
  | _ => none

def asBetween (low high : Int) (value : Json) : Option Nat :=
  match asInt value with
  | some n => if low ≤ n ∧ n ≤ high then some n.toNat else none
  | none => none

def asPerspective (value : Json) : Option String :=
  defaultPerspectives.find? fun name => value.isStr (py name)

def orRaise {α : Type} (o : Option α) (e : MetaError) : Except MetaError α :=
  match o with
  | some a => .ok a
  | none => .error e

def validateMeta (value : Members) : Except MetaError Meta := do
  match getItem? value (py "goal"), getItem? value (py "success") with
  | some (.str goal), some (.obj success) =>
    if (strStrip goal).isEmpty then
      .error (.valueError "goal must be non-empty and success must be an object")
    else do
      let exitCode ← orRaise (asInt (getDefault success "exit_code" (.int 0)))
        (.typeError "success.exit_code must be an integer")
      let requiredText ← orRaise (asStrings (getDefault success "required_text" (.arr [])))
        (.valueError "success.required_text must be a list of strings")
      let forbiddenText ← orRaise (asStrings (getDefault success "forbidden_text" (.arr [])))
        (.valueError "success.forbidden_text must be a list of strings")
      match getDefault value "limits" (.obj []) with
      | .obj limits => do
        let maxIterations ← orRaise
          (asBetween 1 100 (getDefault limits "max_iterations" (.int 8)))
          (.valueError "max_iterations must be 1..100")
        let timeout ← orRaise
          (asBetween 1 3600 (getDefault limits "episode_timeout_seconds" (.int 120)))
          (.valueError "episode_timeout_seconds must be 1..3600")
        let perspectives ← orRaise
          (match getDefault value "perspectives"
              (.arr (defaultPerspectives.map fun name => .str (py name))) with
            | .arr (x :: xs) => (x :: xs).mapM asPerspective
            | _ => none)
          (.valueError "unsupported perspectives")
        let agentProviders ← orRaise
          (asStrings (getDefault value "agent_providers" (.arr [.str (py "deterministic")])))
          (.valueError "agent_providers must be strings")
        .ok {
          goal := strStrip goal, exitCode, requiredText, forbiddenText, maxIterations, timeout,
          perspectives, agentProviders, origin := getDefault value "origin" (.obj [])
          capabilities := getDefault value "capabilities" (.obj [])
          notes := getDefault value "notes" (.str []) }
      | _ => .error .attributeError
  | _, _ => .error (.valueError "goal must be non-empty and success must be an object")

-- == the guardian

inductive Language : Type
  | python
  | bash
deriving DecidableEq

/-- What came of a script: it completed, or was stopped at its timeout. -/
inductive Ran : Type
  | completed (returncode : Int) (stdout stderr : PyStr)
  | timedOut (stdout stderr : Option PyStr)

/-- What is outside of the cycle: the scripts and agents of each iteration, and the libraries. -/
structure Surroundings where
  sha256 : Text → PyStr
  /-- `re.search(pattern, text, re.IGNORECASE)` -/
  search : String → Text → Bool
  /-- the message of a `SyntaxError` of `ast.parse` -/
  parse : Text → Option PyStr
  /-- what `bash -n` writes of a script it refuses, where there is a `bash` -/
  bash : Option (Text → Option PyStr)
  run : Nat → Text → Ran
  /-- what an agent other than the built-in one leaves in its working file, where it edits -/
  agent : Nat → PyStr → Text → Option Text

def dangerous : List (String × String) := [
  ("\\brm\\s+-[^\\n]*r[^\\n]*f\\b", "recursive_force_delete"),
  ("\\bmkfs(?:\\.|\\s)", "filesystem_format"),
  ("\\bdd\\b[^\\n]*\\bof=/dev/", "raw_device_write"),
  ("\\b(?:curl|wget)\\b[^\\n|;]*\\|\\s*(?:bash|sh)\\b", "remote_pipe_to_shell"),
  ("\\beval\\s+", "dynamic_shell_eval"),
  ("\\bchmod\\s+(?:-R\\s+)?777\\b", "world_writable_permissions"),
  ("\\b(?:sudo|su)\\b", "privilege_escalation_request")]

def vibeware : List (String × String) := [("\\bTODO\\b|\\bFIXME\\b", "unfinished_placeholder"),
  ("NotImplementedError", "not_implemented_path"),
  ("\\b(?:pretend|fake|simulated)_pass\\b", "synthetic_pass_marker"),
  ("\\bassert\\s+True\\b", "non_test_assertion")]

inductive Verdict : Type
  | pass
  | review
  | reject
deriving DecidableEq

/-- `GuardianFinding`; the severity is that of a verdict. -/
structure GuardianFinding where
  category : String
  severity : Verdict
  detail : PyStr
deriving DecidableEq

structure GuardianReport where
  verdict : Verdict
  findings : List GuardianFinding
  scriptSha256 : PyStr
  language : Language
deriving DecidableEq

variable (S : Surroundings)

def syntaxFindings (language : Language) (text : Text) : List GuardianFinding :=
  match language with
  | .python =>
    match S.parse text with
    | some msg => [⟨"syntax", .reject, py "python syntax: " ++ msg⟩]
    | none => []
  | .bash =>
    match S.bash.bind fun check => check text with
    | some stderr =>
      [⟨"syntax", .reject,
        if (strStrip stderr).isEmpty then py "bash syntax failed" else strStrip stderr⟩]
    | none => []

def patternFindings (patterns : List (String × String)) (category : String) (severity : Verdict)
    (text : Text) : List GuardianFinding :=
  (patterns.filter fun p => S.search p.1 text).map fun p => ⟨category, severity, py p.2⟩

def inspectCandidate (language : Language) (text : Text) : GuardianReport :=
  let findings := syntaxFindings S language text
    ++ patternFindings S dangerous "dangerous_effect" .reject text
    ++ patternFindings S vibeware "vibeware" .review text
  let verdict := if findings.any fun x => decide (x.severity = .reject) then .reject
    else if findings.isEmpty then .pass else .review
  ⟨verdict, findings, S.sha256 text, language⟩

-- == episodes

structure Episode where
  exitCode : Int
  stdout : PyStr
  stderr : PyStr
  timedOut : Bool
deriving DecidableEq

def Episode.output (e : Episode) : PyStr := e.stdout ++ e.stderr

/-- `execute_candidate`: a run that is timed out exits with 124. -/
def executeCandidate (i : Nat) (text : Text) : Episode :=
  match S.run i text with
  | .completed code stdout stderr => ⟨code, stdout, stderr, false⟩
  | .timedOut stdout stderr => ⟨124, stdout.getD [], stderr.getD [], true⟩

def goalSatisfied (goal : Meta) (exitCode : Int) (output : PyStr) : Bool :=
  decide (exitCode = goal.exitCode) && goal.requiredText.all (fun x => decide (x <:+: output))
    && goal.forbiddenText.all fun x => !decide (x <:+: output)

/-- `run_external_agent`: the built-in agent revises nothing. -/
def runExternalAgent (i : Nat) (provider : PyStr) (text : Text) : Option Text :=
  if provider = py "deterministic" then none else S.agent i provider text

/-- The first revision that is not the text itself. -/
def proposed (goal : Meta) (i : Nat) (text : Text) : Option Text :=
  goal.agentProviders.findSome? fun provider =>
    (runExternalAgent S i provider text).filter fun revision => decide (revision.str ≠ text.str)

-- == the cycle

inductive Status : Type
  | noImprovingRevision
  | goalVerified
  | policyBlocked
  | resourceLimitReached
deriving DecidableEq

structure Revision where
  sha256 : PyStr
  parentSha256 : Option PyStr
  guardian : GuardianReport
  /-- the execution, where there was one -/
  episode : Option Episode
  /-- what an agent made of it, where one was asked -/
  proposal : Option Text

structure Report where
  status : Status
  finalCandidateSha256 : PyStr
  revisions : List Revision

def iterations (goal : Meta) (language : Language) :
    Nat → Nat → Option PyStr → Text → Status → List Revision → Report
  | 0, _, _, text, _, past => ⟨.resourceLimitReached, S.sha256 text, past⟩
  | left + 1, i, parent, text, status, past =>
    let sha := S.sha256 text
    let guardian := inspectCandidate S language text
    -- where the guardian wants a review, there is an episode that nothing was executed for
    let episode := match guardian.verdict with
      | .pass => some (executeCandidate S i text)
      | _ => none
    let met := episode.any fun e => goalSatisfied goal e.exitCode e.output
    if guardian.verdict = .reject then
      ⟨.policyBlocked, sha, past ++ [⟨sha, parent, guardian, none, none⟩]⟩
    else if met then
      ⟨.goalVerified, sha, past ++ [⟨sha, parent, guardian, episode, none⟩]⟩
    else
      let status := if episode.any Episode.timedOut then .resourceLimitReached else status
      let revision := ⟨sha, parent, guardian, episode, proposed S goal i text⟩
      match proposed S goal i text with
      | none => ⟨status, sha, past ++ [revision]⟩
      | some next =>
        iterations goal language left (i + 1) (some sha) next status (past ++ [revision])

def runCycle (goal : Meta) (language : Language) (candidate : Text) : Report :=
  iterations S goal language goal.maxIterations 1 none candidate .noImprovingRevision []

-- == verdicts

def executed (revisions : List Revision) : List Episode := revisions.filterMap Revision.episode

def LastTimedOut (revisions : List Revision) : Prop :=
  ∃ e, (executed revisions).getLast? = some e ∧ e.timedOut = true

/-- What a revision was executed to, meets the goal. -/
def Revision.met (goal : Meta) (v : Revision) : Bool :=
  v.episode.any fun e => goalSatisfied goal e.exitCode e.output

/-- The verdict is earned by the revision that is reported. -/
structure Earned (goal : Meta) (r : Report) : Prop where
  bounded : (executed r.revisions).length ≤ goal.maxIterations
  passed : ∀ v ∈ r.revisions, v.episode.isSome = true → v.guardian.verdict = .pass
  goalVerified : r.status = .goalVerified → ∃ v ∈ r.revisions,
    v.sha256 = r.finalCandidateSha256 ∧ ∃ e, v.episode = some e ∧ e.timedOut = false
      ∧ goalSatisfied goal e.exitCode e.output = true
  policyBlocked : r.status = .policyBlocked →
    ∃ v, r.revisions.getLast? = some v ∧ v.guardian.verdict = .reject
  resourceLimit : r.status = .resourceLimitReached →
    LastTimedOut r.revisions ∨ r.revisions.length = goal.maxIterations

/-- The cycle ended here, as nobody had a proposal. -/
structure Revision.Unimproved (goal : Meta) (v : Revision) : Prop where
  accepted : v.guardian.verdict ≠ .reject
  unmet : v.met goal = false
  unrevised : v.proposal = none

/-- No run that was timed out meets the goal, and where the cycle ends for want of a proposal
with iterations left, a time-out is that of the last run. -/
structure Current (goal : Meta) (revisions : List Revision) : Prop where
  timeouts : ∀ e ∈ executed revisions, e.timedOut = true →
    goalSatisfied goal e.exitCode e.output = false
  latest : ∀ v, revisions.getLast? = some v → v.Unimproved goal →
    revisions.length < goal.maxIterations → (∃ e ∈ executed revisions, e.timedOut = true) →
    LastTimedOut revisions

-- == how a cycle ends

/-- A revision that another one follows. -/
structure Revision.Continued (goal : Meta) (v : Revision) : Prop where
  passed : v.episode.isSome = true → v.guardian.verdict = .pass
  unmet : v.met goal = false

def statusOf (past : List Revision) : Status :=
  if (executed past).any Episode.timedOut then .resourceLimitReached else .noImprovingRevision

/-- The last revision of a cycle that did not use all its iterations. -/
structure Last (goal : Meta) (past : List Revision) (v : Revision) (r : Report) : Prop where
  revisions : r.revisions = past ++ [v]
  final : v.sha256 = r.finalCandidateSha256
  passed : v.episode.isSome = true → v.guardian.verdict = .pass
  ending : (r.status = .policyBlocked ∧ v.guardian.verdict = .reject ∧ v.episode = none)
    ∨ (r.status = .goalVerified ∧ v.guardian.verdict ≠ .reject ∧ v.met goal = true)
    ∨ (v.Unimproved goal ∧ r.status = statusOf (past ++ [v]))

def Ends (goal : Meta) (n : Nat) (r : Report) : Prop :=
  ∃ past : List Revision, (∀ v ∈ past, v.Continued goal)
    ∧ ((r.status = .resourceLimitReached ∧ r.revisions = past ∧ past.length = n)
      ∨ past.length < n ∧ ∃ v, Last goal past v r)

theorem executed_concat (past : List Revision) (v : Revision) :
    executed (past ++ [v]) = executed past ++ v.episode.toList := by
  unfold executed
  rw [List.filterMap_append]
  cases h : v.episode <;> simp [h]

theorem statusOf_concat (past : List Revision) (v : Revision) : statusOf (past ++ [v])
      = if v.episode.any Episode.timedOut then .resourceLimitReached else statusOf past := by
  unfold statusOf
  rw [executed_concat, List.any_append]
  cases v.episode with
  | none => simp
  | some e => cases he : e.timedOut <;> simp [he]

theorem iterations_ends (goal : Meta) (language : Language) (left : Nat) :
    ∀ (i : Nat) (parent : Option PyStr) (text : Text) (past : List Revision),
      (∀ v ∈ past, v.Continued goal) → Ends goal (past.length + left)
          (iterations S goal language left i parent text (statusOf past) past) := by
  induction left with
  | zero => exact fun i parent text past hpast => ⟨past, hpast, Or.inl ⟨rfl, rfl, rfl⟩⟩
  | succ left ih =>
    intro i parent text past hpast
    rw [iterations]
    set guardian := inspectCandidate S language text with hguardian
    set episode := (match guardian.verdict with
      | .pass => some (executeCandidate S i text)
      | _ => none) with hepisode
    have hpassed : episode.isSome = true → guardian.verdict = .pass := by
      intro h
      rw [hepisode] at h
      cases hv : guardian.verdict with
      | pass => rfl
      | review =>
        rw [hv] at h
        cases h
      | reject =>
        rw [hv] at h
        cases h
    have hlt : past.length < past.length + (left + 1) := by omega
    dsimp only
    split
    · next hreject =>
      exact ⟨past, hpast, Or.inr ⟨hlt, _, rfl, rfl, nofun, Or.inl ⟨rfl, hreject, rfl⟩⟩⟩
    · next haccept =>
      split
      · next hmet =>
        exact ⟨past, hpast, Or.inr ⟨hlt, _, rfl, rfl, hpassed,
          Or.inr (Or.inl ⟨rfl, haccept, hmet⟩)⟩⟩
      · next hunmet =>
        have hunmet := Bool.eq_false_iff.mpr hunmet
        split
        · next hnone =>
          refine ⟨past, hpast, Or.inr ⟨hlt, _, rfl, rfl, hpassed,
            Or.inr (Or.inr ⟨⟨haccept, hunmet, hnone⟩, ?_⟩)⟩⟩
          rw [statusOf_concat]
        · next next hnext =>
          have hmore : ∀ v ∈ past ++ [⟨S.sha256 text, parent, guardian, episode,
              proposed S goal i text⟩], v.Continued goal := by
            intro v hv
            rcases List.mem_append.mp hv with hv | hv
            · exact hpast v hv
            · rw [List.mem_singleton.mp hv]
              exact ⟨hpassed, hunmet⟩
          have hrest := ih (i + 1) (some (S.sha256 text)) next _ hmore
          rw [statusOf_concat, List.length_append, List.length_singleton,
            Nat.add_right_comm, Nat.add_assoc] at hrest
          exact hrest

theorem runCycle_ends (goal : Meta) (language : Language) (candidate : Text) :
    Ends goal goal.maxIterations (runCycle S goal language candidate) := by
  have h := iterations_ends S goal language goal.maxIterations 1 none candidate []
    (fun v hv => absurd hv List.not_mem_nil)
  rwa [List.length_nil, Nat.zero_add] at h

-- == the lineage of the revisions

section Lineage

variable (goal : Meta) (language : Language)

/-- An iteration, with the text that its revision is a record of. -/
structure Turn where
  iteration : Nat
  text : Text
  revision : Revision

abbrev Turn.before (t : Turn) : Nat × Option PyStr × Text :=
  (t.iteration, t.revision.parentSha256, t.text)

abbrev Turn.after (t : Turn) : Nat × Option PyStr × Text :=
  (t.iteration + 1, some t.revision.sha256, t.revision.proposal.getD t.text)

/-- The record of a turn says what was inspected, executed and proposed. -/
structure Turn.Faithful (t : Turn) : Prop where
  sha256 : t.revision.sha256 = S.sha256 t.text
  guardian : t.revision.guardian = inspectCandidate S language t.text
  episode : t.revision.episode = if t.revision.guardian.verdict = .pass then
    some (executeCandidate S t.iteration t.text) else none
  proposal : ∀ next, t.revision.proposal = some next → next.str ≠ t.text.str
    ∧ ∃ provider ∈ goal.agentProviders, runExternalAgent S t.iteration provider t.text = some next

/-- The revisions descend from the candidate, and the final candidate is the text of the last one
or, once the iterations are used, what was proposed for it. -/
def Descends (candidate : Text) (r : Report) : Prop :=
  ∃ turns : List Turn, turns.map Turn.revision = r.revisions
    ∧ (∀ t ∈ turns, t.Faithful S goal language) ∧ turns.length ≤ goal.maxIterations
    ∧ (∀ t ∈ turns.dropLast, t.revision.proposal ≠ none)
    ∧ (∀ t, turns.getLast? = some t → t.revision.proposal ≠ none →
      turns.length = goal.maxIterations ∧ r.status = .resourceLimitReached)
    ∧ ∃ n parent text, List.Walk Turn.before Turn.after (1, none, candidate) turns (n, parent, text)
      ∧ r.finalCandidateSha256 = S.sha256 text

variable {goal}

theorem proposed_some {i : Nat} {text next : Text} (h : proposed S goal i text = some next) :
    next.str ≠ text.str
      ∧ ∃ provider ∈ goal.agentProviders, runExternalAgent S i provider text = some next := by
  obtain ⟨provider, hprovider, h⟩ := List.exists_of_findSome?_eq_some h
  obtain ⟨hagent, hne⟩ := Option.filter_eq_some_iff.mp h
  exact ⟨of_decide_eq_true hne, provider, hprovider, hagent⟩

theorem iterations_descends {candidate : Text} (left : Nat) :
    ∀ (turns : List Turn) {i : Nat} {parent : Option PyStr} {text : Text} (status : Status),
      List.Walk Turn.before Turn.after (1, none, candidate) turns (i, parent, text) →
      (∀ t ∈ turns, t.Faithful S goal language) → (∀ t ∈ turns, t.revision.proposal ≠ none) →
      turns.length + left = goal.maxIterations → Descends S goal language candidate
        (iterations S goal language left i parent text status (turns.map Turn.revision)) := by
  induction left with
  | zero =>
    intro turns i parent text status hwalk hfaithful hproposed hlen
    exact ⟨turns, rfl, hfaithful, Nat.le_of_eq hlen,
      fun t ht => hproposed t (List.mem_of_mem_dropLast ht), fun _ _ _ => ⟨hlen, rfl⟩,
      i, parent, text, hwalk, rfl⟩
  | succ left ih =>
    intro turns i parent text status hwalk hfaithful hproposed hlen
    have hmore {t : Turn} {p : Turn → Prop} (hall : ∀ t ∈ turns, p t) (ht : p t) :
        ∀ u ∈ turns ++ [t], p u :=
      List.forall_mem_append.mpr ⟨hall, List.forall_mem_singleton.mpr ht⟩
    -- where no proposal is recorded, the cycle ends with this revision
    have hend {v : Revision} (status : Status) (hparent : v.parentSha256 = parent)
        (hv : (⟨i, text, v⟩ : Turn).Faithful S goal language) (hnone : v.proposal = none) :
        Descends S goal language candidate
          ⟨status, S.sha256 text, turns.map Turn.revision ++ [v]⟩ := by
      refine ⟨turns ++ [⟨i, text, v⟩], List.map_append, hmore hfaithful hv, ?_, ?_, ?_, _, _, _,
        hwalk.concat (congrArg (i, ·, text) hparent), ?_⟩
      · rw [List.length_append, List.length_singleton]
        omega
      · rw [List.dropLast_concat]
        exact hproposed
      · intro t ht hne
        rw [List.getLast?_concat] at ht
        cases ht
        exact absurd hnone hne
      · rw [hnone, Option.getD_none]
    rw [iterations]
    set guardian := inspectCandidate S language text with hguardian
    set episode := (match guardian.verdict with
      | .pass => some (executeCandidate S i text)
      | _ => none) with hepisode
    have hexecuted : episode = if guardian.verdict = .pass then
        some (executeCandidate S i text) else none := by
      rw [hepisode]
      cases guardian.verdict <;> rfl
    have hnothing : ∀ next : Text, (none : Option Text) = some next → next.str ≠ text.str
        ∧ ∃ provider ∈ goal.agentProviders, runExternalAgent S i provider text = some next :=
      fun next h => by cases h
    dsimp only
    split
    · next hreject =>
      have hskipped : none = if guardian.verdict = .pass then
          some (executeCandidate S i text) else none := by rw [hreject]; rfl
      exact hend _ rfl ⟨rfl, rfl, hskipped, hnothing⟩ rfl
    · split
      · exact hend _ rfl ⟨rfl, rfl, hexecuted, hnothing⟩ rfl
      · split
        · next hnone =>
          rw [hnone]
          exact hend _ rfl ⟨rfl, rfl, hexecuted, hnothing⟩ rfl
        · next next hnext =>
          let t : Turn := ⟨i, text, S.sha256 text, parent, guardian, episode, some next⟩
          have ht : t.Faithful S goal language :=
            ⟨rfl, rfl, hexecuted, fun _ h => proposed_some S (hnext.trans h)⟩
          have hrest := ih (turns ++ [t]) (if episode.any Episode.timedOut then
            .resourceLimitReached else status) (hwalk.concat rfl) (hmore hfaithful ht)
            (hmore hproposed (Option.some_ne_none next)) (by
              rw [List.length_append, List.length_singleton]
              omega)
          rw [List.map_append, List.map_singleton] at hrest
          rw [hnext]
          exact hrest

/-- Every revision is of the text that was proposed for the one before it, under its hash. -/
theorem runCycle_descends (goal : Meta) (language : Language) (candidate : Text) :
    Descends S goal language candidate (runCycle S goal language candidate) :=
  iterations_descends S language goal.maxIterations [] .noImprovingRevision rfl
    (fun _ ht => absurd ht List.not_mem_nil) (fun _ ht => absurd ht List.not_mem_nil)
    (Nat.zero_add _)

end Lineage

-- == what is earned

section Earned

variable {goal : Meta}

theorem length_executed_le (revisions : List Revision) :
    (executed revisions).length ≤ revisions.length := List.length_filterMap_le ..

theorem mem_executed {revisions : List Revision} {e : Episode} :
    e ∈ executed revisions ↔ ∃ v ∈ revisions, v.episode = some e := List.mem_filterMap

variable {v : Revision} {past : List Revision} {r : Report}

theorem Revision.met_iff : v.met goal = true
    ↔ ∃ e, v.episode = some e ∧ goalSatisfied goal e.exitCode e.output = true := by
  unfold Revision.met
  rw [Option.any_eq_true]

theorem statusOf_eq (past : List Revision) : statusOf past = .resourceLimitReached
    ↔ ∃ e ∈ executed past, e.timedOut = true := by
  unfold statusOf
  rw [← List.any_eq_true]
  cases (executed past).any Episode.timedOut <;> simp

theorem statusOf_ne : statusOf past ≠ .goalVerified ∧ statusOf past ≠ .policyBlocked := by
  unfold statusOf
  split <;> exact ⟨nofun, nofun⟩

/-- Where all iterations are used, or the cycle goes no further, no revision met the goal. -/
theorem unmet_timeouts {revisions : List Revision} (h : ∀ v ∈ revisions, v.met goal = false) :
    ∀ e ∈ executed revisions, e.timedOut = true →
      goalSatisfied goal e.exitCode e.output = false := by
  intro e he _
  obtain ⟨v, hv, hepisode⟩ := mem_executed.mp he
  cases hmet : goalSatisfied goal e.exitCode e.output with
  | false => rfl
  | true =>
    have htrue := Revision.met_iff.mpr ⟨e, hepisode, hmet⟩
    rw [h v hv] at htrue
    cases htrue

theorem exhausted_earned (hstatus : r.status = .resourceLimitReached)
    (hall : ∀ v ∈ r.revisions, v.Continued goal) (hlen : r.revisions.length = goal.maxIterations) :
    Earned goal r ∧ Current goal r.revisions := by
  refine ⟨⟨hlen ▸ length_executed_le _, fun v hv => (hall v hv).passed, ?_, ?_,
    fun _ => Or.inr hlen⟩, unmet_timeouts fun v hv => (hall v hv).unmet, ?_⟩
  · rw [hstatus]
    exact nofun
  · rw [hstatus]
    exact nofun
  · intro v _ _ hlt
    omega

theorem last_earned_iff
    (hpast : ∀ v ∈ past, v.Continued goal) (hlt : past.length < goal.maxIterations)
    (hlast : Last goal past v r) : Earned goal r ↔ Current goal r.revisions := by
  have hlen : r.revisions.length = past.length + 1 := by
    rw [hlast.revisions, List.length_append, List.length_singleton]
  have hbounded : (executed r.revisions).length ≤ goal.maxIterations :=
    (length_executed_le _).trans (by omega)
  have hpassed : ∀ w ∈ r.revisions, w.episode.isSome = true → w.guardian.verdict = .pass := by
    intro w hw
    rw [hlast.revisions] at hw
    rcases List.mem_append.mp hw with hw | hw
    · exact (hpast w hw).passed
    · rw [List.mem_singleton.mp hw]
      exact hlast.passed
  have hget : r.revisions.getLast? = some v := by
    rw [hlast.revisions, List.getLast?_concat]
  have hunmet : v.met goal = false → ∀ w ∈ r.revisions, w.met goal = false := by
    intro hv w hw
    rw [hlast.revisions] at hw
    rcases List.mem_append.mp hw with hw | hw
    · exact (hpast w hw).unmet
    · rw [List.mem_singleton.mp hw]
      exact hv
  rcases hlast.ending with ⟨hstatus, hreject, hnone⟩ | ⟨hstatus, haccept, hmet⟩ | ⟨hun, hstatus⟩
  · -- rejected
    have hv : v.met goal = false := by
      unfold Revision.met
      rw [hnone]
      rfl
    refine iff_of_true ⟨hbounded, hpassed, ?_, fun _ => ⟨v, hget, hreject⟩, ?_⟩
      ⟨unmet_timeouts (hunmet hv), fun w hw hunimproved => ?_⟩
    · rw [hstatus]
      exact nofun
    · rw [hstatus]
      exact nofun
    · rw [hget] at hw
      cases hw
      exact absurd hreject hunimproved.accepted
  · -- the goal is met, by a run that completed or by one that was timed out
    obtain ⟨e, hepisode, hgoal⟩ := Revision.met_iff.mp hmet
    constructor
    · intro h
      refine ⟨fun e' he' htimed => ?_, fun w hw hunimproved => ?_⟩
      · obtain ⟨w, hw, hwe⟩ := mem_executed.mp he'
        obtain ⟨u, hu, -, e'', hue, hcompleted, hgoal'⟩ := h.goalVerified hstatus
        -- only the last revision meets the goal
        have honly : ∀ x ∈ r.revisions, x.met goal = true → x = v := by
          intro x hx hxmet
          rw [hlast.revisions] at hx
          rcases List.mem_append.mp hx with hx | hx
          · rw [(hpast x hx).unmet] at hxmet
            cases hxmet
          · exact List.mem_singleton.mp hx
        have huv := honly u hu (Revision.met_iff.mpr ⟨e'', hue, hgoal'⟩)
        cases hgoal'' : goalSatisfied goal e'.exitCode e'.output with
        | false => rfl
        | true =>
          have hwv := honly w hw (Revision.met_iff.mpr ⟨e', hwe, hgoal''⟩)
          rw [hwv, ← huv, hue] at hwe
          cases hwe
          rw [hcompleted] at htimed
          cases htimed
      · rw [hget] at hw
        cases hw
        rw [hunimproved.unmet] at hmet
        cases hmet
    · intro h
      refine ⟨hbounded, hpassed, fun _ => ⟨v, List.mem_of_getLast? hget, hlast.final, e, hepisode, ?_,
        hgoal⟩, ?_, ?_⟩
      · cases htimed : e.timedOut with
        | false => rfl
        | true =>
          have hno := h.timeouts e (mem_executed.mpr
            ⟨v, List.mem_of_getLast? hget, hepisode⟩) htimed
          rw [hgoal] at hno
          cases hno
      · rw [hstatus]
        exact nofun
      · rw [hstatus]
        exact nofun
  · -- nobody had a proposal
    rw [← hlast.revisions] at hstatus
    constructor
    · intro h
      refine ⟨unmet_timeouts (hunmet hun.unmet), fun w _ _ hless htimed => ?_⟩
      rcases h.resourceLimit (hstatus.trans ((statusOf_eq _).mpr htimed)) with hlate | hused
      · exact hlate
      · omega
    · intro h
      refine ⟨hbounded, hpassed, fun hs => absurd (hstatus.symm.trans hs) statusOf_ne.1,
        fun hs => absurd (hstatus.symm.trans hs) statusOf_ne.2, fun hs => ?_⟩
      by_cases hless : r.revisions.length < goal.maxIterations
      · exact Or.inl (h.latest v hget hun hless ((statusOf_eq _).mp (hstatus.symm.trans hs)))
      · exact Or.inr (by omega)

end Earned

/-- The verdict is earned just if the status is still that of the last run: no run that was timed
out meets the goal, and none is followed by one that completes and that nobody improves. -/
theorem earned_iff (goal : Meta) (language : Language) (candidate : Text) :
    Earned goal (runCycle S goal language candidate)
      ↔ Current goal (runCycle S goal language candidate).revisions := by
  obtain ⟨past, hpast, ⟨hstatus, hall, hlen⟩ | ⟨hlt, v, hlast⟩⟩ :=
    runCycle_ends S goal language candidate
  · obtain ⟨h, h'⟩ := exhausted_earned hstatus (hall ▸ hpast) (hall ▸ hlen)
    exact iff_of_true h h'
  · exact last_earned_iff hpast hlt hlast

namespace Sample

def accepted : Members := [(py "goal", .str (py "g")), (py "success", .obj [
  (py "exit_code", .int 124)])]

def goal : Meta where
  goal := py "g"
  exitCode := 124
  requiredText := []
  forbiddenText := []
  maxIterations := 8
  timeout := 120
  perspectives := defaultPerspectives
  agentProviders := [py "deterministic"]
  origin := .obj []
  capabilities := .obj []
  notes := .str []

def text : Text := ⟨py "sleep", by decide⟩

def surroundings : Surroundings where
  sha256 t := t.str
  search _ _ := false
  parse _ := none
  bash := none
  run _ _ := .timedOut none none
  agent _ _ _ := none

end Sample

/-- A run that is timed out meets a goal with the exit code of a time-out. -/
theorem earned_timedOut : validateMeta Sample.accepted = .ok Sample.goal
    ∧ ¬ Earned Sample.goal (runCycle Sample.surroundings Sample.goal .bash Sample.text) := by
  refine ⟨rfl, fun h => ?_⟩
  have hall : ∀ v ∈ (runCycle Sample.surroundings Sample.goal .bash Sample.text).revisions,
      v.episode.all Episode.timedOut = true := by decide +kernel
  obtain ⟨v, hv, -, e, he, hcompleted, -⟩ := h.goalVerified (by decide +kernel)
  have htimed := hall v hv
  rw [he, Option.all_some, hcompleted] at htimed
  cases htimed

end Centinal26.Device.Cycle
