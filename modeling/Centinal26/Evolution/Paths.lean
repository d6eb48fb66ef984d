/-
The paths of a goal: which files a candidate may change, and which are protected.
-/
import Centinal26.Py.Dict

namespace Centinal26.Evolution

open Py

-- == paths

def backslashes (value : PyStr) : PyStr := value.map fun c => if c = 92 then 47 else c

/-- `PurePosixPath(s).parts`, of a relative path. -/
def components (s : PyStr) : List PyStr :=
  (s.splitOn 47).filter fun part => decide (part ≠ [] ∧ part ≠ [46])

def asPosix (parts : List PyStr) : PyStr := if parts = [] then [46] else [47].intercalate parts

def safeRelativePath (value : PyStr) : Except PyErr PyStr :=
  let normalized := backslashes value
  let parts := components normalized
  if normalized = [] ∨ normalized.head? = some 47 ∨ py ".." ∈ parts then
    .error (.valueError "unsafe repository path")
  else .ok (asPosix parts)

def rstripSlash (s : PyStr) : PyStr := (s.reverse.dropWhile (· == 47)).reverse

/-- `normalized == clean or normalized.startswith(clean + "/")`. -/
def isUnder (normalized pathPrefix : PyStr) : Bool :=
  let clean := rstripSlash pathPrefix
  decide (normalized = clean) || (clean ++ [47]).isPrefixOf normalized

-- == goals

def defaultProtectedPrefixes : List PyStr :=
  [".github/", ".git/", "goals/", "tests/", "schemas/", "provenance/", "releases/", "security/",
    "termux/", "SECURITY.md", "pyproject.toml", "src/centinal26/core.py",
    "src/centinal26/evolution.py", "scripts/audit_untrusted_candidate.py",
    "scripts/controlled_evolution_loop.py", "scripts/run-controlled-evolution.sh"].map py

structure GoalSpec where
  goalId : PyStr
  objective : PyStr
  includePaths : List PyStr
  goalTests : List PyStr
  allowedChangePrefixes : List PyStr
  protectedPrefixes : List PyStr
  maxCycles : Int
  candidatesPerCycle : Int
  maxAgentTurns : Int
  maxContextBytes : Int
  maxPatchBytes : Int

/-- What the reading of a goal takes from Python. -/
structure Readers where
  /-- `str(value)` -/
  str : Json → PyStr
  /-- `s.lower()` -/
  lower : PyStr → PyStr
  /-- `int(value)` -/
  int : Json → Except PyErr Int

variable (R : Readers)

/-- `[a-z0-9]`. -/
def isSlugChar (c : Nat) : Bool := (97 ≤ c && c ≤ 122) || (48 ≤ c && c ≤ 57)

/-- `re.sub(r"[^a-z0-9]+", "-", s)`, inside such a stretch or not. -/
def dashRuns : Bool → PyStr → PyStr
  | _, [] => []
  | inside, c :: rest =>
    if isSlugChar c then c :: dashRuns false rest
    else if inside then dashRuns true rest
    else 45 :: dashRuns true rest

def slug (value : PyStr) : Except PyErr PyStr :=
  let dashes := (dashRuns false (R.lower value)).dropWhile (· == 45)
  let rendered := (dashes.reverse.dropWhile (· == 45)).reverse
  if rendered = [] then .error (.valueError "goal_id must contain an alphanumeric character")
  else .ok (rendered.take 64)

def paths (value : Members) (name : String) : Except PyErr (List PyStr) :=
  match (getItem? value (py name)).getD (.arr []) with
  | .arr raw =>
    match raw.mapM Json.str? with
    | some items => items.mapM safeRelativePath
    | none => .error (.valueError (name ++ " must be a list of repository paths"))
  | _ => .error (.valueError (name ++ " must be a list of repository paths"))

def isProtectedTest (protectedPrefixes : List PyStr) (testPath : PyStr) : Bool :=
  protectedPrefixes.any fun p => decide (testPath = rstripSlash p) || p.isPrefixOf testPath

/-- The checks `from_dict` makes of the paths. -/
def checkPaths (includePaths goalTests allowed protectedPrefixes : List PyStr) :
    Except PyErr Unit :=
  if includePaths = [] then .error (.valueError "include_paths may not be empty")
  else if goalTests = [] then .error (.valueError "goal_tests may not be empty")
  else if allowed = [] then .error (.valueError "allowed_change_prefixes may not be empty")
  else if ¬ goalTests.all fun item => (py "tests/").isPrefixOf item then
    .error (.valueError "goal_tests must live under tests/")
  else if ¬ goalTests.all (isProtectedTest protectedPrefixes) then
    .error (.valueError "goal tests must be protected from candidate edits")
  else .ok ()

/-- The numbers of a goal. -/
structure Limits where
  maxCycles : Int
  candidates : Int
  maxTurns : Int
  contextBytes : Int
  patchBytes : Int

def intOf (value : Members) (name : String) (default : Int) : Except PyErr Int :=
  R.int ((getItem? value (py name)).getD (.int default))

def checkLimits (n : Limits) : Except PyErr Unit :=
  if ¬ (1 ≤ n.maxCycles ∧ n.maxCycles ≤ 50) then
    .error (.valueError "max_cycles must be between 1 and 50")
  else if ¬ (1 ≤ n.candidates ∧ n.candidates ≤ 8) then
    .error (.valueError "candidates_per_cycle must be between 1 and 8")
  else if ¬ (1 ≤ n.maxTurns ∧ n.maxTurns ≤ 100) then
    .error (.valueError "max_agent_turns must be between 1 and 100")
  else if ¬ (10000 ≤ n.contextBytes ∧ n.contextBytes ≤ 1000000) then
    .error (.valueError "max_context_bytes out of range")
  else if ¬ (1000 ≤ n.patchBytes ∧ n.patchBytes ≤ 500000) then
    .error (.valueError "max_patch_bytes out of range")
  else .ok ()

/-- The numbers are all read before any of them is checked. -/
def limitsOf (value : Members) : Except PyErr Limits := do
  let maxCycles ← intOf R value "max_cycles" 6
  let candidates ← intOf R value "candidates_per_cycle" 3
  let maxTurns ← intOf R value "max_agent_turns" 24
  let contextBytes ← intOf R value "max_context_bytes" 180000
  let patchBytes ← intOf R value "max_patch_bytes" 120000
  checkLimits ⟨maxCycles, candidates, maxTurns, contextBytes, patchBytes⟩
  .ok ⟨maxCycles, candidates, maxTurns, contextBytes, patchBytes⟩

def objectiveOf (value : Members) : Except PyErr PyStr :=
  match field value "objective" with
  | .str objective =>
    if isBlank objective then .error (.valueError "objective must be non-empty text")
    else .ok objective
  | _ => .error (.valueError "objective must be non-empty text")

def fromDict (value : Members) : Except PyErr GoalSpec :=
  if ¬ (field value "schema").isStr (py "centinal26-goal-v1") then
    .error (.valueError "goal schema must be centinal26-goal-v1")
  else do
    let objective ← objectiveOf value
    let goalId ← slug R (R.str ((getItem? value (py "goal_id")).getD (.str [])))
    let includePaths ← paths value "include_paths"
    let goalTests ← paths value "goal_tests"
    let allowed ← paths value "allowed_change_prefixes"
    let additional ← paths value "additional_protected_prefixes"
    let protectedPrefixes := defaultProtectedPrefixes ++ additional
    checkPaths includePaths goalTests allowed protectedPrefixes
    let n ← limitsOf R value
    .ok ⟨goalId, strStrip objective, includePaths, goalTests, allowed, protectedPrefixes,
      n.maxCycles, n.candidates, n.maxTurns, n.contextBytes, n.patchBytes⟩

def GoalSpec.permitsChangedPath (g : GoalSpec) (path : PyStr) : Except PyErr (Bool × PyStr) := do
  let normalized ← safeRelativePath path
  match g.protectedPrefixes.find? fun p => isUnder normalized p with
  | some p => .ok (false, py "protected:" ++ p)
  | none =>
    if !(g.allowedChangePrefixes.any fun p => isUnder normalized p) then
      .ok (false, py "outside_allowed_change_prefixes")
    else .ok (true, py "allowed")

-- == components

/-- Names of files and directories: not empty, no dot, and no slash in them. -/
def Names (parts : List PyStr) : Prop := ∀ c ∈ parts, c ≠ [] ∧ c ≠ [46] ∧ 47 ∉ c

theorem not_mem_splitOn {s part : PyStr} (h : part ∈ s.splitOn 47) : 47 ∉ part := by
  induction s generalizing part with
  | nil =>
    rw [List.splitOn_nil, List.mem_singleton] at h
    rw [h]
    exact List.not_mem_nil
  | cons c rest ih =>
    rw [List.splitOn_cons_eq_if_modifyHead] at h
    split at h
    · rcases List.mem_cons.mp h with rfl | h
      · exact List.not_mem_nil
      · exact ih h
    · next hc =>
      obtain ⟨first, more, hsplit⟩ := List.exists_cons_of_ne_nil (List.splitOn_ne_nil 47 rest)
      rw [hsplit, List.modifyHead_cons] at h
      rw [hsplit] at ih
      rcases List.mem_cons.mp h with rfl | h
      · rw [List.mem_cons, not_or]
        exact ⟨fun heq => hc (beq_iff_eq.mpr heq.symm), ih List.mem_cons_self⟩
      · exact ih (List.mem_cons_of_mem _ h)

theorem names_components (s : PyStr) : Names (components s) := by
  intro c hc
  obtain ⟨hmem, hc⟩ := List.mem_filter.mp hc
  obtain ⟨hne, hdot⟩ := of_decide_eq_true hc
  exact ⟨hne, hdot, not_mem_splitOn hmem⟩

/-- The components as they are written: the root is a dot. -/
def written (parts : List PyStr) : List PyStr := if parts = [] then [[46]] else parts

theorem asPosix_eq (parts : List PyStr) : asPosix parts = [47].intercalate (written parts) := by
  unfold asPosix written
  split
  · rfl
  · rfl

variable {parts prefixes : List PyStr} {x path : PyStr}

theorem splitOn_asPosix (h : Names parts) : (asPosix parts).splitOn 47 = written parts := by
  rw [asPosix_eq]
  refine List.splitOn_intercalate 47 (fun c hc => ?_) ?_
  · unfold written at hc
    split at hc
    · rw [List.mem_singleton.mp hc]
      decide
    · exact (h c hc).2.2
  · unfold written
    split
    · exact List.cons_ne_nil _ _
    · assumption

theorem components_asPosix (h : Names parts) : components (asPosix parts) = parts := by
  unfold components
  rw [splitOn_asPosix h]
  unfold written
  split
  · next hnil =>
    rw [hnil]
    rfl
  · exact List.filter_eq_self.mpr fun c hc => decide_eq_true ⟨(h c hc).1, (h c hc).2.1⟩

theorem rstripSlash_asPosix (h : Names parts) : rstripSlash (asPosix parts) = asPosix parts := by
  unfold rstripSlash
  have hlast : ∀ t, asPosix parts ≠ t ++ [47] := by
    intro t ht
    have hsplit := splitOn_asPosix h
    rw [ht, List.splitOn_append_cons_self, List.splitOn_nil] at hsplit
    have hnil : [] ∈ written parts := hsplit ▸ List.mem_append_right _ (List.mem_singleton_self _)
    unfold written at hnil
    split at hnil
    · cases List.mem_singleton.mp hnil
    · exact (h [] hnil).1 rfl
  cases hreverse : (asPosix parts).reverse with
  | nil => exact (List.reverse_eq_nil_iff.mp hreverse).symm
  | cons c rest =>
    have hc : (c == 47) = false := by
      rw [beq_eq_false_iff_ne]
      rintro rfl
      refine hlast rest.reverse ?_
      rw [← List.reverse_cons, ← hreverse, List.reverse_reverse]
    rw [List.dropWhile_cons, hc, if_neg Bool.false_ne_true, ← hreverse, List.reverse_reverse]

theorem splitOn_prefix {s t : PyStr} :
    s = t ∨ (t ++ [47]) <+: s ↔ t.splitOn 47 <+: s.splitOn 47 := by
  constructor
  · rintro (rfl | ⟨u, rfl⟩)
    · exact List.prefix_refl _
    · rw [List.append_assoc, List.singleton_append, List.splitOn_append_cons_self]
      exact List.prefix_append _ _
  · rintro ⟨more, hmore⟩
    have hs : [47].intercalate (t.splitOn 47 ++ more) = s := by
      rw [hmore, List.intercalate_splitOn]
    cases more with
    | nil =>
      rw [List.append_nil, List.intercalate_splitOn] at hs
      exact Or.inl hs.symm
    | cons first more =>
      right
      refine ⟨[47].intercalate (first :: more), ?_⟩
      have happend : ∀ xs : List PyStr, xs ≠ [] → [47].intercalate (xs ++ first :: more)
            = [47].intercalate xs ++ [47] ++ [47].intercalate (first :: more) := by
        intro xs hne
        induction xs with
        | nil => exact absurd rfl hne
        | cons x xs ih =>
          cases xs with
          | nil => simp
          | cons y ys =>
            rw [List.cons_append, List.cons_append, List.intercalate_cons_cons,
              ← List.cons_append, ih (List.cons_ne_nil _ _), List.intercalate_cons_cons]
            simp
      rw [← hs, happend _ (List.splitOn_ne_nil 47 t), List.intercalate_splitOn]

theorem written_prefix {above : List PyStr} (h : Names parts) (habove : Names above) :
    written above <+: written parts ↔ above <+: parts ∧ (above ≠ [] ∨ parts = []) := by
  unfold written
  by_cases hroot : above = []
  · subst hroot
    rw [if_pos rfl]
    by_cases hparts : parts = []
    · subst hparts
      rw [if_pos rfl]
      exact iff_of_true (List.prefix_refl _) ⟨List.prefix_refl _, Or.inr rfl⟩
    · rw [if_neg hparts]
      refine iff_of_false (fun hle => ?_) fun hle => hparts (hle.2.resolve_left fun h => h rfl)
      exact (h [46] (hle.subset (List.mem_singleton_self _))).2.1 rfl
  · rw [if_neg hroot]
    by_cases hparts : parts = []
    · subst hparts
      rw [if_pos rfl]
      refine iff_of_false (fun hle => ?_) fun hle => hroot (List.prefix_nil.mp hle.1)
      obtain ⟨c, more, rfl⟩ := List.exists_cons_of_ne_nil hroot
      have hc : c ∈ [[46]] := hle.subset List.mem_cons_self
      exact (habove c List.mem_cons_self).2.1 (List.mem_singleton.mp hc)
    · rw [if_neg hparts]
      exact ⟨fun hle => ⟨hle, Or.inl hroot⟩, fun hle => hle.1⟩

-- == prefixes

/-- A prefix that is its own components, apart from a slash at the end. -/
def IsWritten (pathPrefix : PyStr) : Prop :=
  rstripSlash pathPrefix = asPosix (components pathPrefix)

theorem isUnder_iff (h : Names parts) {pathPrefix : PyStr}
    (hwritten : IsWritten pathPrefix) : isUnder (asPosix parts) pathPrefix = true
      ↔ components pathPrefix <+: parts ∧ (components pathPrefix ≠ [] ∨ parts = []) := by
  unfold isUnder
  rw [hwritten, Bool.or_eq_true, decide_eq_true_eq, List.isPrefixOf_iff_prefix, splitOn_prefix,
    splitOn_asPosix h, splitOn_asPosix (names_components pathPrefix),
    written_prefix h (names_components pathPrefix)]

theorem isWritten_safe {value : PyStr} (h : safeRelativePath value = .ok x) :
    x = asPosix (components (backslashes value)) ∧ IsWritten x := by
  unfold safeRelativePath at h
  dsimp only at h
  split at h
  · cases h
  · cases h
    refine ⟨rfl, ?_⟩
    unfold IsWritten
    rw [components_asPosix (names_components _), rstripSlash_asPosix (names_components _)]

theorem isWritten_default : ∀ p ∈ defaultProtectedPrefixes, IsWritten p ∧ components p ≠ [] := by
  unfold IsWritten
  decide +kernel

theorem safe_error {value : PyStr} {e : PyErr} (h : safeRelativePath value = .error e) :
    ∃ message, e = .valueError message := by
  unfold safeRelativePath at h
  dsimp only at h
  split at h
  · cases h
    exact ⟨_, rfl⟩
  · cases h

-- == accepted goals

theorem mapM_safe {items found : List PyStr} (h : items.mapM safeRelativePath = .ok found) :
    ∀ x ∈ found, IsWritten x := by
  induction items generalizing found with
  | nil =>
    cases h
    intro x hx
    cases hx
  | cons item rest ih =>
    rw [List.mapM_cons] at h
    obtain ⟨first, hfirst, h⟩ := of_bind_ok h
    obtain ⟨more, hmore, h⟩ := of_bind_ok h
    cases h
    exact List.forall_mem_cons.mpr ⟨(isWritten_safe hfirst).2, ih hmore⟩

theorem paths_ok {value : Members} {name : String} {found : List PyStr}
    (h : paths value name = .ok found) : ∀ x ∈ found, IsWritten x := by
  unfold paths at h
  split at h
  · split at h
    · exact mapM_safe h
    · cases h
  · cases h

structure Accepted (g : GoalSpec) : Prop where
  guarded : ∃ additional, g.protectedPrefixes = defaultProtectedPrefixes ++ additional
    ∧ ∀ p ∈ additional, IsWritten p
  allowed : ∀ p ∈ g.allowedChangePrefixes, IsWritten p
  tests : ∀ t ∈ g.goalTests, IsWritten t ∧ py "tests/" <+: t

variable {R : Readers} {value : Members} {g : GoalSpec}

theorem checkPaths_ok {includePaths goalTests allowed protectedPrefixes : List PyStr} {u : Unit}
    (h : checkPaths includePaths goalTests allowed protectedPrefixes = .ok u) :
    ∀ t ∈ goalTests, py "tests/" <+: t := by
  unfold checkPaths at h
  split at h
  · cases h
  split at h
  · cases h
  split at h
  · cases h
  split at h
  · cases h
  next hunder =>
  intro t ht
  exact List.isPrefixOf_iff_prefix.mp (List.all_eq_true.mp (not_not.mp hunder) t ht)

theorem fromDict_ok (h : fromDict R value = .ok g) : Accepted g := by
  unfold fromDict at h
  split at h
  · cases h
  obtain ⟨objective, -, h⟩ := of_bind_ok h
  obtain ⟨goalId, -, h⟩ := of_bind_ok h
  obtain ⟨includePaths, -, h⟩ := of_bind_ok h
  obtain ⟨goalTests, htests, h⟩ := of_bind_ok h
  obtain ⟨allowed, hallowed, h⟩ := of_bind_ok h
  obtain ⟨additional, hadditional, h⟩ := of_bind_ok h
  obtain ⟨_, hcheck, h⟩ := of_bind_ok h
  obtain ⟨n, -, h⟩ := of_bind_ok h
  cases h
  exact ⟨⟨additional, rfl, paths_ok hadditional⟩, paths_ok hallowed,
    fun t ht => ⟨paths_ok htests t ht, checkPaths_ok hcheck t ht⟩⟩

theorem Accepted.isWritten (h : Accepted g) : ∀ p ∈ g.protectedPrefixes, IsWritten p := by
  obtain ⟨additional, heq, hwritten⟩ := h.guarded
  intro p hp
  rw [heq] at hp
  rcases List.mem_append.mp hp with hp | hp
  · exact (isWritten_default p hp).1
  · exact hwritten p hp

theorem Accepted.default (h : Accepted g) :
    ∀ p ∈ defaultProtectedPrefixes, p ∈ g.protectedPrefixes := by
  obtain ⟨additional, heq, -⟩ := h.guarded
  intro p hp
  rw [heq]
  exact List.mem_append_left _ hp

-- == permission

/-- The components of a path, however it is spelled. -/
def pathParts (path : PyStr) : List PyStr := components (backslashes path)

/-- Some prefix is one of the path, component by component. -/
def Covered (prefixes : List PyStr) (path : PyStr) : Prop :=
  ∃ p ∈ prefixes, components p <+: pathParts path

def CoveredBelow (prefixes : List PyStr) (path : PyStr) : Prop :=
  ∃ p ∈ prefixes, components p ≠ [] ∧ components p <+: pathParts path

def HasRoot (prefixes : List PyStr) : Prop := ∃ p ∈ prefixes, components p = []

def Permitted (g : GoalSpec) (path : PyStr) : Prop :=
  ∃ reason, g.permitsChangedPath path = .ok (true, reason)

theorem covered_iff : Covered prefixes path ↔ CoveredBelow prefixes path ∨ HasRoot prefixes := by
  constructor
  · rintro ⟨p, hp, hle⟩
    by_cases hroot : components p = []
    · exact Or.inr ⟨p, hp, hroot⟩
    · exact Or.inl ⟨p, hp, hroot, hle⟩
  · rintro (⟨p, hp, -, hle⟩ | ⟨p, hp, hroot⟩)
    · exact ⟨p, hp, hle⟩
    · exact ⟨p, hp, hroot ▸ List.nil_prefix⟩

theorem coveredBelow_root (h : pathParts path = []) : ¬ CoveredBelow prefixes path := by
  rintro ⟨p, -, hroot, hle⟩
  rw [h] at hle
  exact hroot (List.prefix_nil.mp hle)

theorem any_isUnder (hwritten : ∀ p ∈ prefixes, IsWritten p)
    (hx : safeRelativePath path = .ok x) : (∃ p ∈ prefixes, isUnder x p = true)
      ↔ CoveredBelow prefixes path ∨ pathParts path = [] ∧ HasRoot prefixes := by
  rw [(isWritten_safe hx).1]
  constructor
  · rintro ⟨p, hp, hunder⟩
    obtain ⟨hle, hroot | hnil⟩ :=
      (isUnder_iff (names_components _) (hwritten p hp)).mp hunder
    · exact Or.inl ⟨p, hp, hroot, hle⟩
    · have hle' : components p <+: [] := hnil ▸ hle
      exact Or.inr ⟨hnil, p, hp, List.prefix_nil.mp hle'⟩
  · rintro (⟨p, hp, hroot, hle⟩ | ⟨hnil, p, hp, hroot⟩)
    · exact ⟨p, hp, (isUnder_iff (names_components _) (hwritten p hp)).mpr ⟨hle, Or.inl hroot⟩⟩
    · refine ⟨p, hp, (isUnder_iff (names_components _) (hwritten p hp)).mpr ⟨?_, Or.inr hnil⟩⟩
      rw [hroot]
      exact List.nil_prefix

theorem permitted_iff_under : Permitted g path ↔ ∃ x, safeRelativePath path = .ok x
      ∧ (¬ ∃ p ∈ g.protectedPrefixes, isUnder x p = true)
      ∧ ∃ p ∈ g.allowedChangePrefixes, isUnder x p = true := by
  unfold Permitted GoalSpec.permitsChangedPath
  cases hx : safeRelativePath path with
  | error e =>
    refine iff_of_false ?_ ?_
    · rintro ⟨reason, h⟩
      cases h
    · rintro ⟨x, h, -⟩
      cases h
  | ok x =>
    simp only [Except.ok.injEq, exists_eq_left']
    rw [bind_ok_eq]
    cases hfind : g.protectedPrefixes.find? fun p => isUnder x p with
    | some p =>
      refine iff_of_false ?_ fun h => h.1 ⟨p, List.mem_of_find?_eq_some hfind,
        List.find?_some hfind⟩
      rintro ⟨reason, h⟩
      cases h
    | none =>
      have hnone : ¬ ∃ p ∈ g.protectedPrefixes, isUnder x p = true := by
        rintro ⟨p, hp, hunder⟩
        exact List.find?_eq_none.mp hfind p hp hunder
      rw [and_iff_right hnone, ← List.any_eq_true]
      cases g.allowedChangePrefixes.any fun p => isUnder x p with
      | false =>
        refine iff_of_false ?_ Bool.false_ne_true
        rintro ⟨reason, h⟩
        cases h
      | true => exact iff_of_true ⟨_, rfl⟩ rfl

theorem permitted_iff (h : Accepted g) (hx : safeRelativePath path = .ok x) :
    Permitted g path ↔ ¬ (CoveredBelow g.protectedPrefixes path
          ∨ pathParts path = [] ∧ HasRoot g.protectedPrefixes)
        ∧ (CoveredBelow g.allowedChangePrefixes path
          ∨ pathParts path = [] ∧ HasRoot g.allowedChangePrefixes) := by
  rw [permitted_iff_under, ← any_isUnder h.isWritten hx, ← any_isUnder h.allowed hx]
  constructor
  · rintro ⟨y, hy, hpermitted⟩
    rw [hx] at hy
    cases hy
    exact hpermitted
  · exact fun hpermitted => ⟨x, hx, hpermitted⟩

theorem not_permitted_default (h : Accepted g) (hpermitted : Permitted g path) :
    (∀ p ∈ defaultProtectedPrefixes, ¬ components p <+: pathParts path)
      ∧ ∀ t ∈ g.goalTests, pathParts path ≠ components t := by
  obtain ⟨x, hx, -⟩ := permitted_iff_under.mp hpermitted
  have hnot := ((permitted_iff h hx).mp hpermitted).1
  have hdefault : ∀ p ∈ defaultProtectedPrefixes, ¬ components p <+: pathParts path :=
    fun p hp hle => hnot (Or.inl ⟨p, h.default p hp, (isWritten_default p hp).2, hle⟩)
  refine ⟨hdefault, fun t ht heq => ?_⟩
  obtain ⟨rest, rfl⟩ := (h.tests t ht).2
  refine hdefault (py "tests/") ?_ ?_
  · unfold defaultProtectedPrefixes
    simp
  · -- what comes after the slash does not change what is before it
    have hsplit : components (py "tests/" ++ rest) = [py "tests"] ++ components rest := by
      have htext : py "tests/" ++ rest = py "tests" ++ 47 :: rest := rfl
      have htests : (py "tests").splitOn 47 = [py "tests"] :=
        List.splitOn_eq_singleton (by decide)
      unfold components
      rw [htext, List.splitOn_append_cons_self, List.filter_append, htests]
      rfl
    have htests : components (py "tests/") = [py "tests"] := by decide +kernel
    rw [heq, hsplit, htests]
    exact List.prefix_append _ _

theorem permitted_of_more {more : List PyStr}
    (h : Permitted { g with protectedPrefixes := g.protectedPrefixes ++ more } path) :
    Permitted g path := by
  obtain ⟨x, hx, hnone, hallowed⟩ := permitted_iff_under.mp h
  refine permitted_iff_under.mpr ⟨x, hx, ?_, hallowed⟩
  rintro ⟨p, hp, hunder⟩
  exact hnone ⟨p, List.mem_append_left _ hp, hunder⟩

/-- No prefix that is the root makes a difference for the path. -/
def RootAside (g : GoalSpec) (path : PyStr) : Prop :=
  (∃ e, safeRelativePath path = .error e) ∨ pathParts path = []
    ∨ CoveredBelow g.protectedPrefixes path
    ∨ CoveredBelow g.allowedChangePrefixes path ∧ ¬ HasRoot g.protectedPrefixes
    ∨ ¬ CoveredBelow g.allowedChangePrefixes path
      ∧ (HasRoot g.allowedChangePrefixes → HasRoot g.protectedPrefixes)

theorem agrees_iff (h : Accepted g) (hx : safeRelativePath path = .ok x) :
    (Permitted g path ↔ Covered g.allowedChangePrefixes path ∧ ¬ Covered g.protectedPrefixes path)
      ↔ RootAside g path := by
  have hsafe : ¬ ∃ e, safeRelativePath path = .error e := by
    rintro ⟨e, he⟩
    rw [hx] at he
    cases he
  unfold RootAside
  rw [permitted_iff h hx, covered_iff, covered_iff, or_iff_right hsafe]
  by_cases hnil : pathParts path = []
  · have hallowed : ¬ CoveredBelow g.allowedChangePrefixes path := coveredBelow_root hnil
    have hprotected : ¬ CoveredBelow g.protectedPrefixes path := coveredBelow_root hnil
    simp only [hnil, hallowed, hprotected, false_or, true_and, true_or, iff_true]
    exact and_comm
  · simp only [hnil, false_and, or_false, false_or]
    by_cases hprotected : CoveredBelow g.protectedPrefixes path
    · simp [hprotected]
    · by_cases hallowed : CoveredBelow g.allowedChangePrefixes path
      · simp [hprotected, hallowed]
      · by_cases hroot : HasRoot g.protectedPrefixes
        · simp [hprotected, hallowed, hroot]
        · simp [hprotected, hallowed, hroot]

/-- A change is refused as unsafe or permitted as its components say, and no protection is
undone, exactly if no prefix is the root where that matters. -/
theorem permits_iff (R : Readers) (value : Members) (g : GoalSpec)
    (h : fromDict R value = .ok g) (path : PyStr) :
    ((∃ message, g.permitsChangedPath path = .error (.valueError message))
          ∨ ∃ b reason, g.permitsChangedPath path = .ok (b, reason)
            ∧ (b = true ↔ Covered g.allowedChangePrefixes path
              ∧ ¬ Covered g.protectedPrefixes path))
        ∧ (Permitted g path → (∀ p ∈ defaultProtectedPrefixes, ¬ components p <+: pathParts path)
            ∧ ∀ t ∈ g.goalTests, pathParts path ≠ components t)
        ∧ (∀ more, Permitted { g with protectedPrefixes := g.protectedPrefixes ++ more } path →
          Permitted g path)
      ↔ RootAside g path := by
  have haccepted := fromDict_ok h
  rw [and_iff_left ⟨not_permitted_default haccepted, fun _ => permitted_of_more⟩]
  cases hx : safeRelativePath path with
  | error e =>
    obtain ⟨message, rfl⟩ := safe_error hx
    refine iff_of_true (Or.inl ⟨message, ?_⟩) (Or.inl ⟨_, hx⟩)
    rw [GoalSpec.permitsChangedPath, hx]
    rfl
  | ok x =>
    obtain ⟨b, reason, hpermits⟩ : ∃ b reason, g.permitsChangedPath path = .ok (b, reason) := by
      unfold GoalSpec.permitsChangedPath
      rw [hx, bind_ok_eq]
      split
      · exact ⟨_, _, rfl⟩
      · split
        · exact ⟨_, _, rfl⟩
        · exact ⟨_, _, rfl⟩
    have hpermitted : Permitted g path ↔ b = true := by
      unfold Permitted
      rw [hpermits]
      constructor
      · rintro ⟨_, heq⟩
        cases heq
        rfl
      · rintro rfl
        exact ⟨_, rfl⟩
    rw [← agrees_iff haccepted hx, hpermitted, hpermits]
    constructor
    · rintro (⟨message, heq⟩ | ⟨_, _, heq, hagrees⟩)
      · cases heq
      · cases heq
        exact hagrees
    · exact fun hagrees => Or.inr ⟨b, reason, rfl, hagrees⟩

namespace Sample

/-- Strings and integers as they are, and nothing else. -/
def readers : Readers where
  str v := (Json.str? v).getD []
  lower s := s
  int
    | .int n => .ok n
    | _ => .error .typeError

def list (items : List String) : Json := .arr (items.map fun s => .str (py s))

/-- A goal with the root of the repository protected. -/
def rooted : Members :=
  [(py "schema", .str (py "centinal26-goal-v1")), (py "objective", .str (py "o")),
    (py "goal_id", .str (py "g")), (py "include_paths", list ["a"]),
    (py "goal_tests", list ["tests/a"]), (py "allowed_change_prefixes", list ["a"]),
    (py "additional_protected_prefixes", list ["."])]

theorem rooted_accepted : ∃ g, fromDict readers rooted = .ok g ∧ [46] ∈ g.protectedPrefixes
    ∧ Permitted g (py "a") := by
  have hrun : (fromDict readers rooted).toOption.map (fun g => (decide ([46] ∈ g.protectedPrefixes),
      (g.permitsChangedPath (py "a")).toOption.map Prod.fst)) = some (true, some true) := by
    decide +kernel
  obtain ⟨g, hg, hfound⟩ := Option.map_eq_some_iff.mp hrun
  obtain ⟨hroot, hpermits⟩ := Prod.mk.inj hfound
  obtain ⟨⟨b, reason⟩, hr, rfl⟩ := Option.map_eq_some_iff.mp hpermits
  have hok : ∀ {ε β : Type} {r : Except ε β} {a : β}, r.toOption = some a → r = .ok a := by
    intro ε β r a h
    cases r with
    | error e => cases h
    | ok a' =>
      cases h
      rfl
  exact ⟨g, hok hg, of_decide_eq_true hroot, reason, hok hr⟩

end Sample

/-- With the root protected, a file may be changed all the same. -/
theorem rooted_permitted : ∃ g, fromDict Sample.readers Sample.rooted = .ok g
    ∧ Permitted g (py "a") ∧ Covered g.protectedPrefixes (py "a") := by
  obtain ⟨g, hg, hroot, hpermitted⟩ := Sample.rooted_accepted
  refine ⟨g, hg, hpermitted, [46], hroot, ?_⟩
  exact List.nil_prefix

theorem permits_rooted : ∃ g, fromDict Sample.readers Sample.rooted = .ok g
    ∧ ¬ RootAside g (py "a") := by
  obtain ⟨g, hg, hroot, reason, hpermits⟩ := Sample.rooted_accepted
  refine ⟨g, hg, fun haside => ?_⟩
  rcases ((permits_iff Sample.readers Sample.rooted g hg (py "a")).mpr haside).1 with
    ⟨message, herror⟩ | ⟨b, _, hok, hagrees⟩
  · rw [hpermits] at herror
    cases herror
  · rw [hpermits] at hok
    cases hok
    exact (hagrees.mp rfl).2 ⟨[46], hroot, List.nil_prefix⟩

end Centinal26.Evolution
