/-
The module manager: modules are downloaded to a cache, checked against the registry's blob hash,
run, and recorded as installed.
-/
import Centinal26.Py.Value

namespace Centinal26.Automation

open Py

-- == registry

abbrev Bytes := List UInt8

structure Source where
  kind : PyStr
  repository : PyStr
  commit : PyStr
  path : PyStr
  gitBlobSha1 : PyStr

structure Spec where
  source : Source
  installType : PyStr
  requiresTermux : Bool
  dependsOn : List PyStr

/-- A registry: the modules and the profiles. -/
structure Registry where
  modules : PyStr → Option Spec
  profiles : PyStr → Option (List PyStr)

-- == disk

inductive Status : Type
  | installed
  | staged
  | failed
deriving DecidableEq

/-- A record of `value["modules"]`. -/
structure Record where
  status : Status
  artifact : PyStr

/-- The files, and of each module the last installer that came to its end: the blob it was and
its exit code. -/
structure Disk where
  files : PyStr → Option Bytes
  records : PyStr → Option Record
  lastRun : PyStr → Option (PyStr × Nat)

def Disk.empty : Disk := ⟨fun _ => none, fun _ => none, fun _ => none⟩

def put {β : Type} (f : PyStr → Option β) (k : PyStr) (v : β) : PyStr → Option β :=
  fun j => if j = k then some v else f j

theorem put_self {β : Type} (f : PyStr → Option β) (k : PyStr) (v : β) : put f k v k = some v :=
  if_pos rfl

theorem put_of_ne {β : Type} {f : PyStr → Option β} {k j : PyStr} {v : β} (h : j ≠ k) :
    put f k v j = f j :=
  if_neg h

def Disk.write (d : Disk) (path : PyStr) (data : Bytes) : Disk :=
  { d with files := put d.files path data }

def Disk.ran (d : Disk) (name hash : PyStr) (exit : Nat) : Disk :=
  { d with lastRun := put d.lastRun name (hash, exit) }

def Disk.record (d : Disk) (name : PyStr) (status : Status) (artifact : PyStr) : Disk :=
  { d with records := put d.records name ⟨status, artifact⟩ }

-- == environment

/-- Where the program is cut off: when the artifact is written, or before the record is. -/
inductive Cut : Type
  | written
  | unrecorded
deriving DecidableEq

/-- What a module's installation meets. -/
structure Env where
  /-- `require_termux` passes -/
  termux : Bool
  /-- what is downloaded -/
  response : Option Bytes
  /-- `bash -n` passes -/
  parses : Bool
  /-- the exit code of the installer, if it can be run -/
  exit : Option Nat
  cut : Option Cut

/-- How an installation ends. -/
inductive Answer : Type
  /-- `ALREADY_INSTALLED_VERIFIED` -/
  | skipped
  | recorded (status : Status)
  | planned
  | raised
  | cutOff
deriving DecidableEq

/-- What the manager rests on. -/
structure Platform where
  gitBlobSha1 : Bytes → PyStr
  /-- `pathlib.Path(path).name` -/
  basename : PyStr → PyStr
  /-- the file a path under `CACHE` leads to -/
  file : PyStr → PyStr

section Install

variable (P : Platform)

/-- `CACHE / f"{name}--{pathlib.Path(source['path']).name}"`. -/
def dest (name : PyStr) (source : Source) : PyStr :=
  P.file (name ++ py "--" ++ P.basename source.path)

def installedIdentityOk (name : PyStr) (spec : Spec) (d : Disk) : Bool :=
  match d.records name with
  | some ⟨.installed, artifact⟩ =>
    match d.files artifact with
    | some data => decide (P.gitBlobSha1 data = spec.source.gitBlobSha1)
    | none => false
  | _ => false

/-- `download_module`, up to the file: the bytes that are written. -/
def download (spec : Spec) (env : Env) : Option Bytes :=
  if spec.source.kind = py "github_raw_git_blob" then
    env.response.filter fun data => decide (P.gitBlobSha1 data = spec.source.gitBlobSha1)
  else none

/-- The rest of `install_module`, once the artifact is written. -/
def finish (name : PyStr) (spec : Spec) (execute : Bool) (env : Env) (data : Bytes) (d : Disk) :
    Answer × Disk :=
  let path := dest P name spec.source
  if env.cut = some .written then (.cutOff, d)
  else if spec.installType ≠ py "shell" || !env.parses then (.raised, d)
  else if execute then
    match env.exit with
    | some exit =>
      let d := d.ran name (P.gitBlobSha1 data) exit
      if env.cut = some .unrecorded then (.cutOff, d)
      else if exit = 0 then (.recorded .installed, d.record name .installed path)
      else (.raised, d.record name .failed path)
    | none =>
      if env.cut = some .unrecorded then (.cutOff, d)
      else (.raised, d.record name .failed path)
  else if env.cut = some .unrecorded then (.cutOff, d)
  else (.recorded .staged, d.record name .staged path)

/-- `install_module`, once the dependencies are installed. -/
def installSelf (name : PyStr) (spec : Spec) (execute : Bool) (env : Env) (d : Disk) :
    Answer × Disk :=
  if spec.requiresTermux && !env.termux then (.raised, d)
  else if execute && installedIdentityOk P name spec d then (.skipped, d)
  else
    match download P spec env with
    | none => (.raised, d)
    | some data =>
      finish P name spec execute env data (d.write (dest P name spec.source) data)

/-- One module's turn: what it was given, and the disk it found. -/
structure Turn where
  name : PyStr
  spec : Spec
  execute : Bool
  env : Env
  before : Disk

/-- The disk, and the turns there were. -/
structure Session where
  disk : Disk
  turns : List Turn

def Answer.goesOn : Answer → Bool
  | .raised | .cutOff => false
  | _ => true

/-- One module after the other, until one raises or the program is cut off. -/
def installEach (install : PyStr → Session → Answer × Session) :
    List PyStr → Session → Answer × Session
  | [], s => (.planned, s)
  | name :: rest, s =>
    let first := install name s
    if first.1.goesOn then installEach install rest first.2 else first

/-- `install_module`; the environment of each turn is that of its number. -/
def installModule (registry : Registry) (execute dryRun : Bool) (envs : Nat → Env) :
    Nat → List PyStr → PyStr → Session → Answer × Session
  | 0, _, _, s => (.raised, s)
  | depth + 1, stack, name, s =>
    if name ∈ stack then (.raised, s)
    else
      match registry.modules name with
      | none => (.raised, s)
      | some spec =>
        let dependencies := installEach
          (installModule registry execute dryRun envs depth (name :: stack)) spec.dependsOn s
        if dependencies.1.goesOn then
          let s := dependencies.2
          let env := envs s.turns.length
          if dryRun then
            (if spec.requiresTermux && !env.termux then .raised else .planned, s)
          else
            let answer := installSelf P name spec execute env s.disk
            (answer.1, ⟨answer.2, s.turns ++ [⟨name, spec, execute, env, s.disk⟩]⟩)
        else dependencies

def installProfile (registry : Registry) (execute dryRun : Bool) (envs : Nat → Env) (depth : Nat)
    (profile : PyStr) (s : Session) : Answer × Session :=
  match registry.profiles profile with
  | none => (.raised, s)
  | some names => installEach (installModule P registry execute dryRun envs depth []) names s

def itemOk (registry : Registry) (name : PyStr) (d : Disk) : Bool :=
  match d.records name, registry.modules name with
  | some record, some spec =>
    match d.files record.artifact with
    | some data =>
      decide (spec.source.kind = py "github_raw_git_blob")
        && decide (P.gitBlobSha1 data = spec.source.gitBlobSha1)
        && decide (record.status = .installed)
    | none => false
  | _, _ => false

-- == condition

/-- The installation comes to the record. -/
def records (spec : Spec) (env : Env) : Prop :=
  env.cut = none ∧ spec.installType = py "shell" ∧ env.parses = true

/-- The artifact there has the blob hash. -/
def Holds (d : Disk) (path hash : PyStr) : Prop :=
  ∃ old, d.files path = some old ∧ P.gitBlobSha1 old = hash

/-- A turn that leaves no record of an installed module with other bytes than were run: where it
writes over the artifact of an installed module, the module is its own and the record is written
after it, or the artifact has the same hash; and an installer that came to its end without a
record ran what the artifact of its module is, and exited with 0. -/
def Harmless (t : Turn) : Prop :=
  ∀ data, download P t.spec t.env = some data →
    (∀ n artifact, t.before.records n = some ⟨.installed, artifact⟩ →
      artifact = dest P t.name t.spec.source → (n = t.name ∧ records t.spec t.env)
          ∨ Holds P t.before artifact (P.gitBlobSha1 data))
    ∧ ∀ artifact exit, t.before.records t.name = some ⟨.installed, artifact⟩ →
      t.execute = true → t.env.cut = some .unrecorded → t.env.exit = some exit →
        t.spec.installType = py "shell" → t.env.parses = true →
          exit = 0 ∧ Holds P t.before artifact (P.gitBlobSha1 data)

/-- An artifact that an installed module's record names is what was run last, with success. -/
def Kept (d : Disk) : Prop :=
  ∀ n artifact data, d.records n = some ⟨.installed, artifact⟩ → d.files artifact = some data →
    d.lastRun n = some (P.gitBlobSha1 data, 0)

end Install

-- == turns

section Turns

variable {P : Platform} {name : PyStr} {spec : Spec} {execute : Bool} {env : Env} {d : Disk}

theorem installedIdentityOk_spec (h : installedIdentityOk P name spec d = true) :
    ∃ artifact data, d.records name = some ⟨.installed, artifact⟩ ∧ d.files artifact = some data
      ∧ P.gitBlobSha1 data = spec.source.gitBlobSha1 := by
  unfold installedIdentityOk at h
  split at h
  · next artifact hrecord =>
    split at h
    · next data hdata => exact ⟨artifact, data, hrecord, hdata, of_decide_eq_true h⟩
    · cases h
  · cases h

theorem Kept.write {path : PyStr} {data : Bytes} (h : Kept P d)
    (hholds : ∀ n, d.records n = some ⟨.installed, path⟩ → Holds P d path (P.gitBlobSha1 data)) :
    Kept P (d.write path data) := by
  intro n artifact data' hrecord hfile
  by_cases hpath : artifact = path
  · subst hpath
    obtain ⟨old, hold, hhash⟩ := hholds n hrecord
    have hdata : data = data' := Option.some.inj ((put_self ..).symm.trans hfile)
    rw [← hdata, ← hhash]
    exact h n artifact old hrecord hold
  · exact h n artifact data' hrecord ((put_of_ne hpath).symm.trans hfile)

theorem Kept.record {status : Status} {path : PyStr} (h : ∀ n artifact data, n ≠ name →
      d.records n = some ⟨.installed, artifact⟩ → d.files artifact = some data →
        d.lastRun n = some (P.gitBlobSha1 data, 0))
    (hown : status = .installed → ∀ data, d.files path = some data →
      d.lastRun name = some (P.gitBlobSha1 data, 0)) : Kept P (d.record name status path) := by
  intro n artifact data hrecord hfile
  by_cases hn : n = name
  · subst hn
    have heq := Option.some.inj ((put_self ..).symm.trans hrecord)
    obtain ⟨hstatus, rfl⟩ := Record.mk.inj heq
    exact hown hstatus data hfile
  · exact h n artifact data hn ((put_of_ne hn).symm.trans hrecord) hfile

theorem Kept.others (h : Kept P d) {data : Bytes} (hdownload : download P spec env = some data)
    (hharmless : Harmless P ⟨name, spec, execute, env, d⟩) : ∀ n artifact data', n ≠ name →
      (d.write (dest P name spec.source) data).records n = some ⟨.installed, artifact⟩ →
        (d.write (dest P name spec.source) data).files artifact = some data' →
          d.lastRun n = some (P.gitBlobSha1 data', 0) := by
  intro n artifact data' hn hrecord hfile
  by_cases hpath : artifact = dest P name spec.source
  · subst hpath
    obtain ⟨old, hold, hhash⟩ := ((hharmless data hdownload).1 n _ hrecord rfl).resolve_left
      fun hown => hn hown.1
    have hdata : data = data' := Option.some.inj ((put_self ..).symm.trans hfile)
    rw [← hdata, ← hhash]
    exact h n _ old hrecord hold
  · exact h n artifact data' hrecord ((put_of_ne hpath).symm.trans hfile)

theorem Kept.turn (h : Kept P d) (hharmless : Harmless P ⟨name, spec, execute, env, d⟩) :
    Kept P (installSelf P name spec execute env d).2 := by
  unfold installSelf
  split
  · exact h
  split
  · exact h
  split
  · exact h
  next data hdownload =>
  have hothers := h.others hdownload hharmless
  have hunrecorded : ¬ records spec env → Kept P (d.write (dest P name spec.source) data) := by
    intro hno
    refine h.write fun n hn => ?_
    exact ((hharmless data hdownload).1 n _ hn rfl).resolve_left fun hown => hno hown.2
  unfold finish
  split
  · next hcut => exact hunrecorded fun hr => by rw [hr.1] at hcut; cases hcut
  split
  · next hchecks =>
    refine hunrecorded fun hr => ?_
    rw [hr.2.1, hr.2.2] at hchecks
    simp at hchecks
  next hchecks =>
  rw [Bool.or_eq_true, decide_eq_true_eq, not_or, Decidable.not_not, Bool.not_eq_true',
    Bool.not_eq_false] at hchecks
  split
  · next hexecute =>
    split
    · next exit hexit =>
      -- the installer came to its end
      have hothers' : ∀ n artifact data', n ≠ name →
          (d.write (dest P name spec.source) data).records n = some ⟨.installed, artifact⟩ →
            (d.write (dest P name spec.source) data).files artifact = some data' →
              ((d.write (dest P name spec.source) data).ran name (P.gitBlobSha1 data)
                exit).lastRun n = some (P.gitBlobSha1 data', 0) := by
        intro n artifact data' hn hrecord hfile
        exact (put_of_ne hn).trans (hothers n artifact data' hn hrecord hfile)
      split
      · next hcut =>
        intro n artifact data' hrecord hfile
        by_cases hn : n = name
        · subst hn
          obtain ⟨rfl, old, hold, hhash⟩ := (hharmless data hdownload).2 artifact exit hrecord
            hexecute hcut hexit hchecks.1 hchecks.2
          refine (put_self ..).trans ?_
          by_cases hpath : artifact = dest P n spec.source
          · subst hpath
            rw [Option.some.inj ((put_self ..).symm.trans hfile)]
          · rw [← hhash, Option.some.inj (hold.symm.trans ((put_of_ne hpath).symm.trans hfile))]
        · exact hothers' n artifact data' hn hrecord hfile
      split
      · next hzero =>
        refine Kept.record hothers' fun _ data' hfile => ?_
        rw [← Option.some.inj ((put_self ..).symm.trans hfile), hzero]
        exact put_self ..
      · exact Kept.record hothers' nofun
    · split
      · next hcut => exact hunrecorded fun hr => by rw [hr.1] at hcut; cases hcut
      · exact Kept.record hothers nofun
  · split
    · next hcut => exact hunrecorded fun hr => by rw [hr.1] at hcut; cases hcut
    · exact Kept.record hothers nofun

end Turns

-- == runs

section Runs

variable {P : Platform}

/-- The turns that were added, and what they keep. -/
def Through (P : Platform) (s s' : Session) : Prop :=
  ∃ new, s'.turns = s.turns ++ new ∧ ((∀ t ∈ new, Harmless P t) → Kept P s.disk → Kept P s'.disk)

theorem Through.refl (s : Session) : Through P s s :=
  ⟨[], (List.append_nil _).symm, fun _ h => h⟩

theorem Through.trans {s s' s'' : Session} (h : Through P s s') (h' : Through P s' s'') :
    Through P s s'' := by
  obtain ⟨new, hnew, hkept⟩ := h
  obtain ⟨new', hnew', hkept'⟩ := h'
  refine ⟨new ++ new', by rw [hnew', hnew, List.append_assoc], fun hharmless hs => ?_⟩
  rw [List.forall_mem_append] at hharmless
  exact hkept' hharmless.2 (hkept hharmless.1 hs)

theorem Through.turn (s : Session) (name : PyStr) (spec : Spec) (execute : Bool) (env : Env) :
    Through P s ⟨(installSelf P name spec execute env s.disk).2,
      s.turns ++ [⟨name, spec, execute, env, s.disk⟩]⟩ :=
  ⟨_, rfl, fun hharmless hs => hs.turn (hharmless _ (List.mem_singleton_self _))⟩

theorem through_installEach {install : PyStr → Session → Answer × Session}
    (h : ∀ name s, Through P s (install name s).2) (names : List PyStr) (s : Session) :
    Through P s (installEach install names s).2 := by
  induction names generalizing s with
  | nil => exact Through.refl s
  | cons name rest ih =>
    rw [installEach]
    split
    · exact (h name s).trans (ih _)
    · exact h name s

theorem through_installModule (registry : Registry) (execute dryRun : Bool) (envs : Nat → Env)
    (depth : Nat) (stack : List PyStr) (name : PyStr) (s : Session) :
    Through P s (installModule P registry execute dryRun envs depth stack name s).2 := by
  induction depth generalizing stack name s with
  | zero => exact Through.refl s
  | succ depth ih =>
    rw [installModule]
    split
    · exact Through.refl s
    split
    · exact Through.refl s
    next spec _ =>
    have hdependencies := through_installEach (P := P)
      (fun name' s' => ih (name :: stack) name' s') spec.dependsOn s
    dsimp only
    split
    · split
      · exact hdependencies
      · exact hdependencies.trans (Through.turn _ _ _ _ _)
    · exact hdependencies

theorem through_installProfile (registry : Registry) (execute dryRun : Bool) (envs : Nat → Env)
    (depth : Nat) (profile : PyStr) (s : Session) :
    Through P s (installProfile P registry execute dryRun envs depth profile s).2 := by
  unfold installProfile
  split
  · exact Through.refl s
  · exact through_installEach (fun name s => through_installModule ..) _ s

/-- A store that calls of `install_module` and `install_profile` come to, with any registries,
environments and failures. -/
inductive Reaches (P : Platform) : Session → Prop
  | start : Reaches P ⟨.empty, []⟩
  | module {s} (registry : Registry) (execute dryRun : Bool) (envs : Nat → Env) (depth : Nat)
      (name : PyStr) (h : Reaches P s) :
      Reaches P (installModule P registry execute dryRun envs depth [] name s).2
  | profile {s} (registry : Registry) (execute dryRun : Bool) (envs : Nat → Env) (depth : Nat)
      (profile : PyStr) (h : Reaches P s) :
      Reaches P (installProfile P registry execute dryRun envs depth profile s).2

theorem Reaches.kept {s : Session} (h : Reaches P s) (hharmless : ∀ t ∈ s.turns, Harmless P t) :
    Kept P s.disk := by
  have hthrough : ∀ {s s' : Session}, Through P s s' →
      ((∀ t ∈ s.turns, Harmless P t) → Kept P s.disk) →
        (∀ t ∈ s'.turns, Harmless P t) → Kept P s'.disk := by
    intro s s' hs' hs hall
    obtain ⟨new, hnew, hkept⟩ := hs'
    rw [hnew, List.forall_mem_append] at hall
    exact hkept hall.2 (hs hall.1)
  induction h with
  | start => exact nofun
  | module registry execute dryRun envs depth name _ ih =>
    exact hthrough (through_installModule ..) ih hharmless
  | profile registry execute dryRun envs depth profile _ ih =>
    exact hthrough (through_installProfile ..) ih hharmless

/-- The installer that came to its end last exited with 0, and was the blob the registry names. -/
def Installed (d : Disk) (registry : Registry) (name : PyStr) : Prop :=
  ∃ spec, registry.modules name = some spec ∧ d.lastRun name = some (spec.source.gitBlobSha1, 0)

theorem finish_skipped {name : PyStr} {spec : Spec} {execute : Bool} {env : Env} {data : Bytes}
    {d : Disk} : (finish P name spec execute env data d).1 ≠ .skipped := by
  unfold finish
  dsimp only
  repeat' split
  all_goals exact nofun

theorem installSelf_skipped {name : PyStr} {spec : Spec} {execute : Bool} {env : Env} {d : Disk}
    (h : (installSelf P name spec execute env d).1 = .skipped) :
    installedIdentityOk P name spec d = true ∧ (installSelf P name spec execute env d).2 = d := by
  unfold installSelf at h ⊢
  split at h
  · cases h
  next htermux =>
  rw [if_neg htermux]
  split at h
  · next hidentity =>
    rw [if_pos hidentity]
    exact ⟨(Bool.and_eq_true _ _ ▸ hidentity).2, rfl⟩
  split at h
  · cases h
  · exact absurd h finish_skipped

theorem installModule_skipped {registry : Registry} {execute dryRun : Bool} {envs : Nat → Env}
    {depth : Nat} {stack : List PyStr} {name : PyStr} {s : Session}
    (h : (installModule P registry execute dryRun envs depth stack name s).1 = .skipped) :
    ∃ spec, registry.modules name = some spec ∧ installedIdentityOk P name spec
      (installModule P registry execute dryRun envs depth stack name s).2.disk = true := by
  cases depth with
  | zero => cases h
  | succ depth =>
    rw [installModule] at h ⊢
    split at h
    · cases h
    next hstack =>
    rw [if_neg hstack]
    split at h
    · cases h
    next spec hspec =>
    refine ⟨spec, hspec, ?_⟩
    dsimp only at h ⊢
    split at h
    · next hgoes =>
      rw [if_pos hgoes]
      split at h
      · split at h <;> cases h
      · next hreal =>
        rw [if_neg hreal]
        obtain ⟨hidentity, hdisk⟩ := installSelf_skipped h
        rw [hdisk]
        exact hidentity
    · next hstops =>
      rw [h] at hstops
      exact absurd rfl hstops

theorem Kept.installed {d : Disk} {registry : Registry} {name : PyStr} {spec : Spec}
    (h : Kept P d) (hspec : registry.modules name = some spec)
    (hidentity : installedIdentityOk P name spec d = true) : Installed d registry name := by
  obtain ⟨artifact, data, hrecord, hfile, hhash⟩ := installedIdentityOk_spec hidentity
  exact ⟨spec, hspec, hhash ▸ h name artifact data hrecord hfile⟩

theorem identity_of_itemOk {d : Disk} {registry : Registry} {name : PyStr}
    (h : itemOk P registry name d = true) :
    ∃ spec, registry.modules name = some spec ∧ installedIdentityOk P name spec d = true := by
  unfold itemOk at h
  split at h
  · next record spec hrecord hspec =>
    split at h
    · next data hfile =>
      rw [Bool.and_eq_true, Bool.and_eq_true, decide_eq_true_eq, decide_eq_true_eq,
        decide_eq_true_eq] at h
      obtain ⟨⟨-, hhash⟩, hstatus⟩ := h
      obtain ⟨status, artifact⟩ := record
      subst hstatus
      refine ⟨spec, hspec, ?_⟩
      unfold installedIdentityOk
      simp only [hrecord, hfile, hhash, decide_true]
    · cases h
  · cases h

/-- After harmless turns, what is said to be installed is. -/
theorem verified_installed {s : Session} (h : Reaches P s) :
    (∀ registry execute dryRun envs depth name,
      let r := installModule P registry execute dryRun envs depth [] name s
      (∀ t ∈ r.2.turns, Harmless P t) → r.1 = .skipped → Installed r.2.disk registry name)
    ∧ ((∀ t ∈ s.turns, Harmless P t) → ∀ registry name, itemOk P registry name s.disk = true →
      Installed s.disk registry name) := by
  refine ⟨fun registry execute dryRun envs depth name hharmless hskipped => ?_,
    fun hharmless registry name hok => ?_⟩
  · obtain ⟨spec, hspec, hidentity⟩ := installModule_skipped hskipped
    exact ((Reaches.module registry execute dryRun envs depth name h).kept hharmless).installed
      hspec hidentity
  · obtain ⟨spec, hspec, hidentity⟩ := identity_of_itemOk hok
    exact (h.kept hharmless).installed hspec hidentity

end Runs

namespace Sample

private def platform : Platform := ⟨fun data => data.map UInt8.toNat, id, id⟩

/-- A registry whose one module is the blob with one byte. -/
private def naming (b : UInt8) : Registry :=
  ⟨fun _ => some ⟨⟨py "github_raw_git_blob", [], [], py "m.sh", [b.toNat]⟩, py "shell", false, []⟩,
    fun _ => none⟩

private def meets (b : UInt8) (parses : Bool) : Nat → Env :=
  fun _ => ⟨true, some [b], parses, some 0, none⟩

private def first : Answer × Session :=
  installModule platform (naming 1) true false (meets 1 true) 1 [] (py "m") ⟨.empty, []⟩

/-- The registry moves on, and the new blob does not parse. -/
private def second : Answer × Session :=
  installModule platform (naming 2) true false (meets 2 false) 1 [] (py "m") first.2

/-- What was never run is reported as installed. -/
theorem unrun_verified : second.1 = .raised
      ∧ (installModule platform (naming 2) true false (meets 2 false) 1 [] (py "m") second.2).1
        = .skipped
      ∧ itemOk platform (naming 2) (py "m") second.2.disk = true
      ∧ second.2.disk.lastRun (py "m") = some ([1], 0) := by
  decide +kernel

theorem first_installed : Installed first.2.disk (naming 1) (py "m") := by
  have hreaches : Reaches platform first.2 := .module (naming 1) true false (meets 1 true) 1
    (py "m") .start
  refine (verified_installed hreaches).2 (fun t ht data hdata => ?_) (naming 1) (py "m")
    (by decide +kernel)
  have hturn : t = ⟨py "m", ⟨⟨py "github_raw_git_blob", [], [], py "m.sh", [1]⟩, py "shell",
      false, []⟩, true, meets 1 true 0, .empty⟩ := List.mem_singleton.mp ht
  subst hturn
  exact ⟨nofun, nofun⟩

end Sample

end Centinal26.Automation
