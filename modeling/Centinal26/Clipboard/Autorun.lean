/-
The clipboard autorun: a marked text is staged in a script, the script is run once, and the state
between the runs is in files.
-/
import Centinal26.Clipboard.Input

namespace Centinal26.Clipboard

open Py
open Ingest (strip)

-- == state

structure Config where
  /-- `sha256_text(text)` -/
  sha256 : PyStr → PyStr
  maxBytes : Nat
  replayWindow : Rat

structure Pending where
  sha256 : PyStr
  shell : PyStr
  /-- the name of the script in the inbox -/
  script : PyStr

/-- The files in the state root. -/
structure State where
  /-- `last_event.json`: a hash and a time -/
  lastEvent : Option (PyStr × Rat)
  pending : Option Pending
  /-- the scripts in the inbox -/
  inbox : PyStr → Option PyStr

def State.empty : State := ⟨none, none, fun _ => none⟩

/-- What the clocks and the system say to a run. -/
structure Env where
  now : Rat
  stamp : PyStr
  bash : Bool

/-- What a run comes to: the interpreter and the body that are staged, those that are executed, and
whether an exception ended it. -/
structure Outcome where
  staged : Option (PyStr × PyStr) := none
  executed : Option (PyStr × PyStr) := none
  raised : Bool := false

-- == staging

def utf8Size (c : Nat) : Nat :=
  if c < 0x80 then 1 else if c < 0x800 then 2 else if c < 0x10000 then 3 else 4

def isReplay (C : Config) (env : Env) (s : State) (digest : PyStr) : Bool :=
  s.lastEvent.any fun m => m.1 == digest && decide (env.now - m.2 < C.replayWindow)

def scriptName (C : Config) (env : Env) (shell body : PyStr) : PyStr :=
  env.stamp ++ py "-" ++ (C.sha256 body).take 16
    ++ (if shell = py "python" then py ".py" else py ".sh")

/-- The files after a text has been staged. -/
def State.stage (C : Config) (env : Env) (s : State) (shell body : PyStr) : State where
  lastEvent := some (C.sha256 body, env.now)
  pending := some ⟨C.sha256 body, shell, scriptName C env shell body⟩
  inbox := Function.update s.inbox (scriptName C env shell body) (some body)

/-- What a text is staged as, unless it is ignored. -/
def accepted (C : Config) (env : Env) (raw : PyStr) (s : State) : Option (PyStr × PyStr) :=
  if C.maxBytes < (raw.map utf8Size).sum then none
  else match canonicalInput raw with
    | .error _ => none
    | .ok (shell, body) => if isReplay C env s (C.sha256 body) then none else some (shell, body)

def stage (C : Config) (env : Env) (raw : PyStr) (s : State) : Outcome × State :=
  if raw.all isScalar then
    match accepted C env raw s with
    | none => ({}, s)
    | some (shell, body) => ({ staged := some (shell, body) }, s.stage C env shell body)
  else ({ raised := true }, s)

-- == running

/-- `_resolve_pending_script(root, pending)`: the interpreter and the text of the script. -/
def resolvePending (C : Config) (s : State) (p : Pending) : Option (PyStr × PyStr) :=
  match s.inbox p.script with
  | none => none
  | some text =>
    if (p.shell = py "bash" ∨ p.shell = py "python") ∧ p.sha256.length = 64
        ∧ C.sha256 text = p.sha256 then some (p.shell, text)
    else none

def runPending (C : Config) (env : Env) (s : State) : Outcome × State :=
  match s.pending with
  | none => ({}, s)
  | some p =>
    let s := { s with pending := none }
    match resolvePending C s p with
    | none => ({}, s)
    | some (shell, text) =>
      if shell = py "python" ∨ env.bash = true then ({ executed := some (shell, text) }, s)
      else ({ raised := true }, s)

/-- A run of the program. -/
inductive Op : Type
  | stage (env : Env) (raw : PyStr)
  | runPending (env : Env)
  | direct (env : Env) (raw : PyStr)

def Op.input : Op → Option PyStr
  | .stage _ raw => some raw
  | .runPending _ => none
  | .direct _ raw => some raw

/-- `main()`. -/
def Op.run (C : Config) (op : Op) (s : State) : Outcome × State :=
  match op with
  | .stage env raw => Clipboard.stage C env raw s
  | .runPending env => Clipboard.runPending C env s
  | .direct env raw =>
    let (staged, s) := Clipboard.stage C env raw s
    if staged.raised then (staged, s)
    else
      let (ran, s) := Clipboard.runPending C env s
      ({ ran with staged := staged.staged }, s)

/-- A run with the files before it and what it came to. -/
structure Entry where
  op : Op
  before : State
  outcome : Outcome

def runs (C : Config) : List Op → State → List Entry
  | [], _ => []
  | op :: rest, s => ⟨op, s, (op.run C s).1⟩ :: runs C rest (op.run C s).2

-- == steps

variable {C : Config}

variable {env : Env} {s : State} {text : PyStr}

theorem accepted_canonical {raw shell body : PyStr}
    (h : accepted C env raw s = some (shell, body)) : canonicalInput raw = .ok (shell, body) := by
  unfold accepted at h
  split at h
  · cases h
  · split at h
    · cases h
    · next hok =>
      split at h
      · cases h
      · cases h
        exact hok

theorem stage_cases (C : Config) (env : Env) (raw : PyStr) (s : State) :
    ((stage C env raw s).2 = s ∧ (stage C env raw s).1.staged = none
      ∧ (stage C env raw s).1.executed = none
      ∧ ((stage C env raw s).1.raised = true ∨ raw.all isScalar = true ∧ accepted C env raw s = none))
    ∨ ∃ shell body, canonicalInput raw = .ok (shell, body)
      ∧ stage C env raw s = ({ staged := some (shell, body) }, s.stage C env shell body) := by
  unfold stage
  split
  · next hscalar =>
    cases h : accepted C env raw s with
    | none => exact .inl ⟨rfl, rfl, rfl, .inr ⟨hscalar, rfl⟩⟩
    | some m => exact .inr ⟨m.1, m.2, accepted_canonical h, rfl⟩
  · exact .inl ⟨rfl, rfl, rfl, .inl rfl⟩

theorem runPending_pending (C : Config) (env : Env) (s : State) :
    (runPending C env s).2.pending = none := by
  unfold runPending
  split
  · next h => exact h
  · dsimp only
    split
    · rfl
    · split <;> rfl

theorem resolvePending_some {p : Pending} {shell : PyStr}
    (h : resolvePending C s p = some (shell, text)) :
    p.shell = shell ∧ s.inbox p.script = some text := by
  unfold resolvePending at h
  split at h
  · cases h
  · next hinbox =>
    split at h
    · cases h
      exact ⟨rfl, hinbox⟩
    · cases h

theorem runPending_executed {shell : PyStr}
    (h : (runPending C env s).1.executed = some (shell, text)) :
    ∃ p, s.pending = some p ∧ p.shell = shell ∧ s.inbox p.script = some text := by
  unfold runPending at h
  split at h
  · cases h
  · next p hp =>
    dsimp only at h
    split at h
    · cases h
    · next shell' text' hresolve =>
      split at h
      · cases h
        exact ⟨p, hp, resolvePending_some hresolve⟩
      · cases h

-- == origins

/-- The run before which a script was staged last: nothing has been executed since. -/
def Origin (before : List Entry) (e m : Entry) : Prop :=
  m = e ∨ ∃ a b, before = a ++ m :: b ∧ m.outcome.executed = none
    ∧ ∀ e' ∈ b, e'.outcome.executed = none

/-- What is executed is the body of a marked text that was staged, and has not been executed
since; a direct run executes its own. -/
def Exact (entries : List Entry) : Prop :=
  ∀ before e after, entries = before ++ e :: after → ∀ shell text,
    e.outcome.executed = some (shell, text) → ∃ m raw, Origin before e m ∧ m.op.input = some raw
        ∧ m.outcome.staged = some (shell, text) ∧ Cleaned raw text
        ∧ ((∃ env own, e.op = .direct env own) → m = e)

/-- The texts have no line breaks besides the ends of lines, and no text of a direct run is ignored
while a script is staged. -/
def Careful (C : Config) (entries : List Entry) : Prop :=
  ∀ e ∈ entries, (∀ raw, e.op.input = some raw → OnlyNewlines (newlines raw))
    ∧ ∀ env raw, e.op = .direct env raw → raw.all isScalar = true → accepted C env raw e.before = none →
      e.before.pending = none

-- == runs

/-- The pending script is the body of the text that was staged last, and nothing has been executed
since. -/
def Ready (before : List Entry) (s : State) : Prop :=
  ∀ p, s.pending = some p → ∃ a m b text raw, before = a ++ m :: b ∧ m.outcome.executed = none
    ∧ (∀ e ∈ b, e.outcome.executed = none) ∧ m.outcome.staged = some (p.shell, text)
    ∧ m.op.input = some raw ∧ canonicalInput raw = .ok (p.shell, text)
    ∧ s.inbox p.script = some text

/-- A run of the program, from these files. -/
def entryOf (C : Config) (op : Op) (s : State) : Entry := ⟨op, s, (op.run C s).1⟩

theorem Ready.extend {before : List Entry} {e : Entry} (h : Ready before s)
    (he : e.outcome.executed = none) : Ready (before ++ [e]) s := by
  intro p hp
  obtain ⟨a, m, b, text, raw, rfl, hm, hb, hstaged, hinput, hcanonical, hinbox⟩ := h p hp
  refine ⟨a, m, b ++ [e], text, raw, by simp, hm, fun e' he' => ?_, hstaged, hinput, hcanonical,
    hinbox⟩
  rcases List.mem_append.mp he' with he' | he'
  · exact hb e' he'
  · rw [List.mem_singleton.mp he']
    exact he

theorem direct_run (env : Env) (raw : PyStr) (s : State) : (Op.direct env raw).run C s
    = if (stage C env raw s).1.raised then stage C env raw s
      else ({ (runPending C env (stage C env raw s).2).1 with
        staged := (stage C env raw s).1.staged }, (runPending C env (stage C env raw s).2).2) :=
  rfl

theorem inbox_stage (C : Config) (env : Env) (s : State) (shell body : PyStr) :
    (s.stage C env shell body).inbox (scriptName C env shell body) = some body :=
  Function.update_self ..

theorem Ready.step {before : List Entry} (h : Ready before s) (op : Op) :
    Ready (before ++ [entryOf C op s]) (op.run C s).2 := by
  cases op with
  | stage env raw =>
    rcases stage_cases C env raw s with ⟨hstate, -, hexecuted, -⟩ | ⟨shell, body, hcanonical, heq⟩
    · show Ready _ (stage C env raw s).2
      rw [hstate]
      exact h.extend hexecuted
    · intro p hp
      have hrun : (Op.stage env raw).run C s
          = ({ staged := some (shell, body) }, s.stage C env shell body) := heq
      rw [hrun] at hp ⊢
      cases hp
      refine ⟨before, entryOf C (.stage env raw) s, [], body, raw, rfl, ?_,
        fun _ he => (List.not_mem_nil he).elim, ?_, rfl, hcanonical, inbox_stage ..⟩
      · rw [entryOf, hrun]
      · rw [entryOf, hrun]
  | runPending env =>
    intro p hp
    rw [show (Op.runPending env).run C s = runPending C env s from rfl, runPending_pending] at hp
    cases hp
  | direct env raw =>
    by_cases hraised : (stage C env raw s).1.raised = true
    · have hrun : (Op.direct env raw).run C s = stage C env raw s := by
        rw [direct_run, if_pos hraised]
      rcases stage_cases C env raw s with ⟨hstate, -, hexecuted, -⟩ | ⟨shell, body, -, heq⟩
      · rw [hrun, hstate]
        refine h.extend ?_
        rw [entryOf, hrun]
        exact hexecuted
      · rw [heq] at hraised
        cases hraised
    · intro p hp
      rw [direct_run, if_neg hraised] at hp
      exact absurd (runPending_pending ..) (by rw [hp]; exact Option.some_ne_none p)

theorem Ready.executed {before : List Entry} (h : Ready before s) {op : Op}
    (hcareful : ∀ env raw, op = .direct env raw → raw.all isScalar = true →
      accepted C env raw s = none → s.pending = none)
    {shell : PyStr} (hexecuted : (op.run C s).1.executed = some (shell, text)) :
    ∃ m raw, Origin before (entryOf C op s) m ∧ m.op.input = some raw
      ∧ m.outcome.staged = some (shell, text) ∧ canonicalInput raw = .ok (shell, text)
      ∧ ((∃ env own, op = .direct env own) → m = entryOf C op s) := by
  have hpending : ∀ p, s.pending = some p → p.shell = shell → s.inbox p.script = some text →
      ∃ m raw, Origin before (entryOf C op s) m ∧ m.op.input = some raw
        ∧ m.outcome.staged = some (shell, text) ∧ canonicalInput raw = .ok (shell, text) := by
    intro p hp hshell hinbox
    obtain ⟨a, m, b, text', raw, hsplit, hm, hb, hstaged, hinput, hcanonical, hinbox'⟩ := h p hp
    rw [hinbox, Option.some_inj] at hinbox'
    rw [hshell, ← hinbox'] at hstaged hcanonical
    exact ⟨m, raw, .inr ⟨a, b, hsplit, hm, hb⟩, hinput, hstaged, hcanonical⟩
  cases op with
  | stage env raw =>
    have hnone : (stage C env raw s).1.executed = none := by
      rcases stage_cases C env raw s with ⟨-, -, hnone, -⟩ | ⟨_, _, -, heq⟩
      · exact hnone
      · rw [heq]
    have hsome : (stage C env raw s).1.executed = some (shell, text) := hexecuted
    rw [hnone] at hsome
    cases hsome
  | runPending env =>
    obtain ⟨p, hp, hshell, hinbox⟩ := runPending_executed hexecuted
    obtain ⟨m, raw, horigin, hinput, hstaged, hcanonical⟩ := hpending p hp hshell hinbox
    exact ⟨m, raw, horigin, hinput, hstaged, hcanonical, fun ⟨_, _, h⟩ => by cases h⟩
  | direct env raw =>
    have hcases := stage_cases C env raw s
    by_cases hraised : (stage C env raw s).1.raised = true
    · rw [direct_run, if_pos hraised] at hexecuted
      rcases hcases with ⟨-, -, hnone, -⟩ | ⟨_, _, -, heq⟩
      · rw [hnone] at hexecuted
        cases hexecuted
      · rw [heq] at hraised
        cases hraised
    · rw [direct_run, if_neg hraised] at hexecuted
      obtain ⟨p, hp, hshell, hinbox⟩ := runPending_executed hexecuted
      rcases hcases with ⟨hstate, -, -, hignored⟩ | ⟨shell', body, hcanonical, heq⟩
      · obtain ⟨hscalar, hnone⟩ := hignored.resolve_left hraised
        rw [hstate, hcareful env raw rfl hscalar hnone] at hp
        cases hp
      · rw [heq] at hp hinbox
        cases hp
        have hbody : some body = some text := (inbox_stage C env s shell' body).symm.trans hinbox
        cases hbody
        cases hshell
        refine ⟨_, raw, .inl rfl, rfl, ?_, hcanonical, fun _ => rfl⟩
        rw [entryOf, direct_run, if_neg hraised, heq]

theorem exact_runs {ops : List Op} {before : List Entry} (h : Ready before s)
    (hcareful : Careful C (runs C ops s)) : ∀ middle e rest, runs C ops s = middle ++ e :: rest →
      ∀ shell text, e.outcome.executed = some (shell, text) →
        ∃ m raw, Origin (before ++ middle) e m ∧ m.op.input = some raw
          ∧ m.outcome.staged = some (shell, text) ∧ canonicalInput raw = .ok (shell, text)
          ∧ ((∃ env own, e.op = .direct env own) → m = e) := by
  induction ops generalizing s before with
  | nil =>
    intro middle e rest heq
    exact absurd heq.symm (by simp [runs])
  | cons op ops ih =>
    intro middle e rest heq shell text hexecuted
    have hruns : runs C (op :: ops) s = entryOf C op s :: runs C ops (op.run C s).2 := rfl
    rw [hruns] at heq hcareful
    cases middle with
    | nil =>
      obtain ⟨hhead, -⟩ := List.cons.inj heq
      subst hhead
      rw [List.append_nil]
      exact h.executed (hcareful _ List.mem_cons_self).2 hexecuted
    | cons first middle =>
      obtain ⟨hhead, htail⟩ := List.cons.inj heq
      subst hhead
      rw [← List.singleton_append, ← List.append_assoc]
      exact ih (h.step op) (fun e he => hcareful e (List.mem_cons_of_mem _ he)) middle e rest
        htail shell text hexecuted

/-- In every sequence of runs that take care, what is executed is the body of a marked text that
was staged and not executed since, and a direct run executes its own. -/
theorem executes_staged (C : Config) (ops : List Op)
    (h : Careful C (runs C ops State.empty)) : Exact (runs C ops State.empty) := by
  intro before e rest heq shell text hexecuted
  have hempty : Ready [] State.empty := fun p hp => by cases hp
  obtain ⟨m, raw, horigin, hinput, hstaged, hcanonical, hdirect⟩ :=
    exact_runs hempty h before e rest heq shell text hexecuted
  refine ⟨m, raw, horigin, hinput, hstaged, canonicalInput_cleaned ?_ hcanonical, hdirect⟩
  have hmem : m ∈ runs C ops State.empty := by
    rw [heq]
    rcases horigin with rfl | ⟨a, b, hsplit, -, -⟩
    · exact List.mem_append_right _ List.mem_cons_self
    · rw [List.nil_append] at hsplit
      rw [hsplit]
      simp
  exact (h m hmem).1 raw hinput

-- == an example

namespace Sample

def config : Config where
  sha256 _ := List.replicate 64 48
  maxBytes := 262144
  replayWindow := 2

def environment (now : Rat) : Env := ⟨now, py "20260101T000000.000000Z", true⟩

def marked : PyStr := py "# FROST-AUTORUN:1\necho a"

def unmarked : PyStr := py "echo b"

/-- A text is staged and run, and another one is not. -/
def careful : List Op :=
  [.stage (environment 0) marked, .runPending (environment 1), .direct (environment 9) unmarked]

theorem careful_runs : Careful config (runs config careful State.empty) := by
  have honly : OnlyNewlines (newlines marked) ∧ OnlyNewlines (newlines unmarked) := by
    constructor
    · unfold OnlyNewlines
      decide +kernel
    · unfold OnlyNewlines
      decide +kernel
  intro e he
  simp only [careful, runs, List.mem_cons, List.not_mem_nil, or_false] at he
  rcases he with rfl | rfl | rfl
  · refine ⟨fun raw h => ?_, nofun⟩
    cases h
    exact honly.1
  · exact ⟨nofun, nofun⟩
  · refine ⟨fun raw h => ?_, fun _ _ _ _ _ => runPending_pending ..⟩
    cases h
    exact honly.2

/-- A text is staged, and a direct run of another one that is ignored. -/
def ignored : List Op := [.stage (environment 0) marked, .direct (environment 9) unmarked]

def between : State := ((Op.stage (environment 0) marked).run config State.empty).2

theorem ignored_executes : ((Op.direct (environment 9) unmarked).run config between).1.executed
    = some (py "bash", py "echo a\n") := by decide +kernel

theorem ignored_staged : ((Op.direct (environment 9) unmarked).run config between).1.staged
    = none := by decide +kernel

end Sample

theorem executes_staged_sample : Exact (runs Sample.config Sample.careful State.empty) :=
  executes_staged Sample.config Sample.careful Sample.careful_runs

/-- A direct run whose text is ignored executes the script that was staged before it. -/
theorem ignored_executed : ¬ Exact (runs Sample.config Sample.ignored State.empty) := by
  intro hexact
  obtain ⟨m, raw, -, -, hstaged, -, hdirect⟩ := hexact
    [entryOf Sample.config (.stage (Sample.environment 0) Sample.marked) State.empty]
    (entryOf Sample.config (.direct (Sample.environment 9) Sample.unmarked) Sample.between) [] rfl
    _ _ Sample.ignored_executes
  rw [hdirect ⟨_, _, rfl⟩] at hstaged
  have hnone := Sample.ignored_staged
  rw [show ((Op.direct (Sample.environment 9) Sample.unmarked).run Sample.config
    Sample.between).1.staged = some _ from hstaged] at hnone
  cases hnone

end Centinal26.Clipboard
