/-
The library cleaner: an item is downloaded, archived and deleted, through what the screen shows
and what appears in the download directories.
-/
import Centinal26.Py.Dict

namespace Centinal26.Library

open Py

-- == surroundings

structure UINode where
  text : PyStr
  description : PyStr
  resourceId : PyStr
  bounds : Int × Int × Int × Int

/-- A download: of which item, and the moment of the tap that started it. -/
abbrev Origin := PyStr × Nat

/-- A file, with the download it comes from, if it comes from one. -/
structure File where
  bytes : List UInt8
  mtime : Nat
  origin : Option Origin
deriving DecidableEq

/-- `(st_size, st_mtime_ns)`. -/
def File.stat (f : File) : Nat × Nat := (f.bytes.length, f.mtime)

/-- What is observed, at each moment. -/
structure World where
  /-- an `adb` command returns zero -/
  adb : Nat → Bool
  /-- what `dump_ui` returns, where it does not raise -/
  ui : Nat → Option (List UINode)
  /-- the files of the download directories, newest first, where they can be listed -/
  listing : Nat → Option (List PyStr)
  file : Nat → PyStr → Option File
  /-- how often the wait looks into the directories before its deadline -/
  polls : Nat → Nat
  /-- the state can be saved -/
  saves : Nat → Bool
  casefold : PyStr → PyStr
  sha256 : List UInt8 → PyStr
  /-- `re.search(pattern, name)` -/
  search : PyStr → PyStr → Bool
  /-- `FILE_RE.fullmatch(value)` -/
  isFileName : PyStr → Bool

structure Config where
  searchLabels : List PyStr
  downloadLabels : List PyStr
  deleteLabels : List PyStr
  confirmLabels : List PyStr
  searchQueries : List PyStr
  explicitDeleteNames : List PyStr
  safeDeletePatterns : List PyStr
  neverDeletePatterns : List PyStr
  maxDeletesPerCycle : Int
  autoDelete : Bool

/-- What is raised: `cycle` catches it, or it does not. -/
inductive Failure : Type
  | osError
  | runtimeError (message : String)
deriving DecidableEq

inductive Event : Type
  /-- a file that is new or changed and complete, found while a download is waited for -/
  | found (download : Origin) (path : PyStr) (file : File) (moment : Nat)
  /-- `ARCHIVED_BEFORE_DELETE`: the digest, and the file that was copied, from where and when -/
  | archived (name digest : PyStr) (download : Origin) (path : PyStr) (file : File) (moment : Nat)
  | confirmTap (name : PyStr)
deriving DecidableEq

structure Moment where
  now : Nat
  events : List Event

abbrev Run (α : Type) := World → Moment → Except Failure α × Moment

instance : Monad Run where
  pure a := fun _ s => (.ok a, s)
  bind m f := fun W s =>
    match m W s with
    | (.ok a, s) => f a W s
    | (.error e, s) => (.error e, s)

/-- Look at the world, which then goes on. -/
def observe {α : Type} (f : World → Nat → α) : Run α := fun W s =>
  (.ok (f W s.now), { s with now := s.now + 1 })

def emit (e : Event) : Run Unit := fun _ s => (.ok (), { s with events := s.events ++ [e] })

def fail {α : Type} (e : Failure) : Run α := fun _ s => (.error e, s)

/-- `try`: the failure is returned. -/
def attempt {α : Type} (m : Run α) : Run (Except Failure α) := fun W s =>
  match m W s with
  | (r, s) => (.ok r, s)

def orFail {α : Type} (o : Option α) (e : Failure) : Run α :=
  match o with
  | some a => pure a
  | none => fail e

def raiseUnless (condition : Bool) (message : String) : Run Unit :=
  if condition then pure () else fail (.runtimeError message)

-- == the screen

/-- `re.sub(r"\s+", " ", …)`. -/
def collapse : PyStr → PyStr
  | [] => []
  | [c] => [if isSpace c then 32 else c]
  | c :: d :: s =>
    if isSpace c then (if isSpace d then collapse (d :: s) else 32 :: collapse (d :: s))
    else c :: collapse (d :: s)

def normalize (W : World) (value : PyStr) : PyStr := W.casefold (collapse (strStrip value))

def exactNameNodes (W : World) (nodes : List UINode) (name : PyStr) : List UINode :=
  nodes.filter fun n => decide (normalize W name = normalize W n.text
    ∨ normalize W name = normalize W n.description)

def labelNodes (W : World) (nodes : List UINode) (labels : List PyStr) : List UINode :=
  nodes.filter fun n => labels.any fun l => decide (normalize W l = normalize W n.text
    ∨ normalize W l = normalize W n.description)

def candidateNames (W : World) (nodes : List UINode) : List PyStr :=
  ((nodes.flatMap fun n => [strStrip n.text, strStrip n.description]).filter fun v =>
    !v.isEmpty && decide (v.length ≤ 240) && W.isFileName v).reverse.dedup.reverse

def tap (_ : UINode) : Run Unit := do
  raiseUnless (← observe World.adb) "ADB tap failed"

def dumpUi : Run (List UINode) := do
  orFail (← observe World.ui) (.runtimeError "UIAutomator dump failed")

def openLibrary : Run Unit := do
  raiseUnless (← observe World.adb) "could not open Library URL"

def world : Run World := fun W s => (.ok W, s)

def searchField (C : Config) (nodes : List UINode) : Run UINode := do
  let W ← world
  match labelNodes W nodes C.searchLabels,
      nodes.filter fun n => decide (py "search" <:+: W.casefold n.resourceId) with
  | [n], _ => pure n
  | _, [n] => pure n
  | _, _ => fail (.runtimeError "Library search control is missing or ambiguous")

/-- `search_library`; what is typed is the query. -/
def searchLibrary (C : Config) (_ : PyStr) : Run (List UINode) := do
  let nodes ← dumpUi
  let field ← searchField C nodes
  tap field
  raiseUnless (← observe World.adb) "could not enter Library search query"
  dumpUi

def selectExact (C : Config) (name : PyStr) : Run (List UINode) := do
  let nodes ← searchLibrary C name
  let W ← world
  match exactNameNodes W nodes name with
  | [node] => do
    tap node
    let selected ← dumpUi
    raiseUnless (!(exactNameNodes W selected name).isEmpty)
      "selected view lost exact filename identity"
    pure selected
  | _ => fail (.runtimeError "exact Library item is ambiguous")

/-- `click_unique`; what is to be noted of the tap is noted as it is made. -/
def clickUnique (nodes : List UINode) (labels : List PyStr) (note : Run Unit) : Run Unit := do
  let W ← world
  match labelNodes W nodes labels with
  | [node] => do
    note
    tap node
  | _ => fail (.runtimeError "control is missing or ambiguous")

-- == the download

def downloadSnapshot : Run (PyStr → Option (Nat × Nat)) := do
  orFail (← observe fun W t => (W.listing t).map fun paths path =>
    if path ∈ paths then (W.file t path).map File.stat else none) .osError

def isPartial (path : PyStr) : Bool :=
  [".part", ".tmp", ".crdownload"].any fun ending => (py ending).reverse.isPrefixOf path.reverse

def firstDownload (download : Origin) (before : PyStr → Option (Nat × Nat)) :
    List PyStr → Run (Option PyStr)
  | [] => pure none
  | path :: paths =>
    if isPartial path then firstDownload download before paths
    else do
      match ← observe fun W t => W.file t path with
      | none => fail .osError
      | some f =>
        if before path = some f.stat then firstDownload download before paths
        else do
          match ← observe fun W t => (W.file t path).map (·, t) with
          | some (g, moment) =>
            if g.bytes.length = f.bytes.length then do
              emit (.found download path g moment)
              pure (some path)
            else firstDownload download before paths
          | none => firstDownload download before paths

def waitForDownload (download : Origin) (before : PyStr → Option (Nat × Nat)) :
    Nat → Run (Option PyStr)
  | 0 => pure none
  | polls + 1 => do
    let paths ← orFail (← observe World.listing) .osError
    match ← firstDownload download before paths with
    | some path => pure (some path)
    | none => waitForDownload download before polls

/-- `archive_download`: the source is hashed, copied, and the copy hashed. -/
def archiveDownload (name : PyStr) (download : Origin) (source : PyStr) : Run PyStr := do
  let W ← world
  let hashed ← orFail (← observe fun W t => W.file t source) .osError
  let (copied, moment) ← orFail (← observe fun W t => (W.file t source).map (·, t)) .osError
  let digest := W.sha256 hashed.bytes
  raiseUnless (decide (W.sha256 copied.bytes = digest)) "archive copy hash mismatch"
  emit (.archived name digest download source copied moment)
  pure digest

def archiveCandidate (C : Config) (name : PyStr) : Run PyStr := do
  let selected ← selectExact C name
  let before ← downloadSnapshot
  let started ← observe fun _ t => t
  clickUnique selected C.downloadLabels (pure ())
  let polls ← observe World.polls
  match ← waitForDownload (name, started) before polls with
  | some path => archiveDownload name (name, started) path
  | none => fail (.runtimeError "download did not complete; refusing delete")

def deleteCandidate (C : Config) (name : PyStr) : Run Unit := do
  let selected ← selectExact C name
  clickUnique selected C.deleteLabels (pure ())
  let confirmation ← dumpUi
  let W ← world
  raiseUnless (!(exactNameNodes W confirmation name).isEmpty)
    "confirmation does not expose exact filename; refusing blind delete"
  clickUnique confirmation C.confirmLabels (emit (.confirmTap name))
  let after ← searchLibrary C name
  raiseUnless (exactNameNodes W after name).isEmpty
    "post-delete verification still finds Library item"

-- == the cycle

def isSafeCandidate (W : World) (C : Config) (name : PyStr) : Bool :=
  !(C.neverDeletePatterns.any fun p => W.search p name)
    && (C.explicitDeleteNames.contains name || C.safeDeletePatterns.any fun p => W.search p name)

def discoverFrom (C : Config) : List PyStr → List PyStr → Run (List PyStr)
  | [], found => pure found
  | query :: queries, found => do
    let nodes ← searchLibrary C query
    let W ← world
    discoverFrom C queries (found ++ (candidateNames W nodes).filter fun name =>
      !found.contains name && isSafeCandidate W C name)

def discoverCandidates (C : Config) : Run (List PyStr) :=
  discoverFrom C (C.searchQueries ++ C.explicitDeleteNames) []

def firstOf (n : Int) (names : List PyStr) : List PyStr :=
  if 0 ≤ n then names.take n.toNat else names.take (names.length - n.natAbs)

def saveState : Run Unit := do
  if ← observe World.saves then pure () else fail .osError

def cleanCandidate (C : Config) (name : PyStr) : Run Unit := do
  let _ ← archiveCandidate C name
  saveState
  deleteCandidate C name
  saveState

def cleanAll (C : Config) (dryRun : Bool) (deleted : List PyStr) : List PyStr → Run Unit
  | [] => pure ()
  | name :: names =>
    if deleted.contains name || (dryRun || !C.autoDelete) then cleanAll C dryRun deleted names
    else do
      match ← attempt (cleanCandidate C name) with
      | .ok _ => cleanAll C dryRun (name :: deleted) names
      | .error _ => do
        match ← attempt openLibrary with
        | .ok _ => cleanAll C dryRun deleted names
        | .error _ => pure ()

/-- `cycle`, with the names of the state that are deleted. -/
def cycle (C : Config) (dryRun : Bool) (deleted : List PyStr) : Run Unit := do
  if ← observe World.adb then do
    openLibrary
    let candidates ← discoverCandidates C
    cleanAll C dryRun deleted (firstOf C.maxDeletesPerCycle candidates)
    saveState
  else pure ()

-- == what a run notes

theorem run_bind {α β : Type} (m : Run α) (f : α → Run β) (W : World) (s : Moment) :
    (m >>= f) W s = match m W s with
      | (.ok a, s) => f a W s
      | (.error e, s) => (.error e, s) := rfl

/-- The run goes on in time, and notes only such events. -/
def Notes {α : Type} (q : Event → Prop) (m : Run α) : Prop :=
  ∀ W s, s.now ≤ (m W s).2.now ∧ ∃ new, (m W s).2.events = s.events ++ new ∧ ∀ e ∈ new, q e

section Notes

variable {α β : Type} {q : Event → Prop}

theorem notes_pure (a : α) : Notes q (pure a) :=
  fun _ _ => ⟨Nat.le_refl _, [], (List.append_nil _).symm, fun _ he => absurd he List.not_mem_nil⟩

theorem notes_fail (e : Failure) : Notes q (fail e : Run α) :=
  fun _ _ => ⟨Nat.le_refl _, [], (List.append_nil _).symm, fun _ he => absurd he List.not_mem_nil⟩

theorem notes_world : Notes q world :=
  fun _ _ => ⟨Nat.le_refl _, [], (List.append_nil _).symm, fun _ he => absurd he List.not_mem_nil⟩

theorem notes_observe (f : World → Nat → α) : Notes q (observe f) :=
  fun _ _ => ⟨Nat.le_succ _, [], (List.append_nil _).symm, fun _ he => absurd he List.not_mem_nil⟩

theorem notes_emit {e : Event} (he : q e) : Notes q (emit e) :=
  fun _ _ => ⟨Nat.le_refl _, [e], rfl, fun _ h => List.mem_singleton.mp h ▸ he⟩

theorem notes_bind {m : Run α} {f : α → Run β} (hm : Notes q m) (hf : ∀ a, Notes q (f a)) :
    Notes q (m >>= f) := by
  intro W s
  obtain ⟨hnow, new, hnew, hall⟩ := hm W s
  rw [run_bind]
  split
  · next a s' hrun =>
    rw [hrun] at hnow hnew
    obtain ⟨hnow', new', hnew', hall'⟩ := hf a W s'
    refine ⟨hnow.trans hnow', new ++ new', ?_, fun e he => ?_⟩
    · rw [hnew', hnew, List.append_assoc]
    · exact (List.mem_append.mp he).elim (hall e) (hall' e)
  · next e s' hrun =>
    rw [hrun] at hnow hnew
    exact ⟨hnow, new, hnew, hall⟩

theorem notes_orFail (o : Option α) (e : Failure) : Notes q (orFail o e) := by
  cases o with
  | some a => exact notes_pure a
  | none => exact notes_fail e

theorem notes_raiseUnless (condition : Bool) (message : String) :
    Notes q (raiseUnless condition message) := by
  cases condition with
  | true => exact notes_pure ()
  | false => exact notes_fail _

theorem notes_tap (node : UINode) : Notes q (tap node) :=
  notes_bind (notes_observe _) fun _ => notes_raiseUnless _ _

theorem notes_dumpUi : Notes q dumpUi :=
  notes_bind (notes_observe _) fun _ => notes_orFail _ _

theorem notes_openLibrary : Notes q openLibrary :=
  notes_bind (notes_observe _) fun _ => notes_raiseUnless _ _

theorem notes_searchField (C : Config) (nodes : List UINode) : Notes q (searchField C nodes) := by
  refine notes_bind notes_world fun W => ?_
  split
  · exact notes_pure _
  · exact notes_pure _
  · exact notes_fail _

theorem notes_searchLibrary (C : Config) (query : PyStr) : Notes q (searchLibrary C query) :=
  notes_bind notes_dumpUi fun _ => notes_bind (notes_searchField _ _) fun _ =>
    notes_bind (notes_tap _) fun _ => notes_bind (notes_observe _) fun _ =>
      notes_bind (notes_raiseUnless _ _) fun _ => notes_dumpUi

theorem notes_selectExact (C : Config) (name : PyStr) : Notes q (selectExact C name) := by
  refine notes_bind (notes_searchLibrary _ _) fun nodes => notes_bind notes_world fun W => ?_
  split
  · exact notes_bind (notes_tap _) fun _ => notes_bind notes_dumpUi fun _ =>
      notes_bind (notes_raiseUnless _ _) fun _ => notes_pure _
  · exact notes_fail _

theorem notes_clickUnique {nodes : List UINode} {labels : List PyStr} {note : Run Unit}
    (h : Notes q note) : Notes q (clickUnique nodes labels note) := by
  refine notes_bind notes_world fun W => ?_
  split
  · exact notes_bind h fun _ => notes_tap _
  · exact notes_fail _

theorem notes_saveState : Notes q saveState := by
  refine notes_bind (notes_observe _) fun saves => ?_
  split
  · exact notes_pure _
  · exact notes_fail _

theorem notes_discoverFrom (C : Config) (queries : List PyStr) :
    ∀ found, Notes q (discoverFrom C queries found) := by
  induction queries with
  | nil => exact fun _ => notes_pure _
  | cons query queries ih =>
    exact fun found => notes_bind (notes_searchLibrary _ _) fun _ =>
      notes_bind notes_world fun _ => ih _

end Notes

def Quiet (e : Event) : Prop := ∀ name, e ≠ .confirmTap name

/-- What succeeds, succeeded in its parts. -/
theorem bind_ok {α β : Type} {m : Run α} {f : α → Run β} {W : World} {s s' : Moment} {b : β}
    (h : (m >>= f) W s = (.ok b, s')) : ∃ a t, m W s = (.ok a, t) ∧ f a W t = (.ok b, s') := by
  change (match m W s with
    | (.ok a, s) => f a W s
    | (.error e, s) => (.error e, s)) = _ at h
  split at h
  · next a t hrun => exact ⟨a, t, hrun, h⟩
  · cases h

-- == a download

theorem firstDownload_quiet (download : Origin) (before : PyStr → Option (Nat × Nat))
    (paths : List PyStr) : Notes Quiet (firstDownload download before paths) := by
  induction paths with
  | nil => exact notes_pure _
  | cons path paths ih =>
    rw [firstDownload]
    split
    · exact ih
    · refine notes_bind (notes_observe _) fun o => ?_
      split
      · exact notes_fail _
      · split
        · exact ih
        · refine notes_bind (notes_observe _) fun o => ?_
          split
          · split
            · exact notes_bind (notes_emit fun _ => nofun) fun _ => notes_pure _
            · exact ih
          · exact ih

theorem waitForDownload_quiet (download : Origin) (before : PyStr → Option (Nat × Nat))
    (polls : Nat) : Notes Quiet (waitForDownload download before polls) := by
  induction polls with
  | zero => exact notes_pure _
  | succ polls ih =>
    refine notes_bind (notes_observe _) fun _ => notes_bind (notes_orFail _ _) fun paths =>
      notes_bind (firstDownload_quiet _ _ _) fun found => ?_
    split
    · exact notes_pure _
    · exact ih

theorem archiveDownload_quiet (name : PyStr) (download : Origin) (source : PyStr) :
    Notes Quiet (archiveDownload name download source) :=
  notes_bind notes_world fun _ => notes_bind (notes_observe _) fun _ =>
    notes_bind (notes_orFail _ _) fun _ => notes_bind (notes_observe _) fun _ =>
      notes_bind (notes_orFail _ _) fun _ => notes_bind (notes_raiseUnless _ _) fun _ =>
        notes_bind (notes_emit fun _ => nofun) fun _ => notes_pure _

theorem archiveCandidate_quiet (C : Config) (name : PyStr) :
    Notes Quiet (archiveCandidate C name) := by
  refine notes_bind (notes_selectExact _ _) fun _ => notes_bind
    (notes_bind (notes_observe _) fun _ => notes_orFail _ _) fun before =>
      notes_bind (notes_observe _) fun started => notes_bind (notes_clickUnique (notes_pure ()))
        fun _ => notes_bind (notes_observe _) fun polls =>
          notes_bind (waitForDownload_quiet _ _ _) fun found => ?_
  split
  · exact archiveDownload_quiet _ _ _
  · exact notes_fail _

theorem observe_ok {α : Type} {f : World → Nat → α} {W : World} {s s' : Moment} {a : α}
    (h : observe f W s = (.ok a, s')) : a = f W s.now ∧ s' = { s with now := s.now + 1 } := by
  cases h
  exact ⟨rfl, rfl⟩

def Found (W : World) (download : Origin) (path : PyStr) (s : Moment) : Prop :=
  ∃ f t, t < s.now ∧ W.file t path = some f ∧ .found download path f t ∈ s.events

theorem firstDownload_found {download : Origin} {before : PyStr → Option (Nat × Nat)}
    {paths : List PyStr} {W : World} {s s' : Moment} {path : PyStr}
    (h : firstDownload download before paths W s = (.ok (some path), s')) :
    Found W download path s' := by
  induction paths generalizing s with
  | nil => cases h
  | cons p paths ih =>
    rw [firstDownload] at h
    split at h
    · exact ih h
    · obtain ⟨o, t, -, h⟩ := bind_ok h
      split at h
      · cases h
      · split at h
        · exact ih h
        · obtain ⟨o', t', hlook, h⟩ := bind_ok h
          split at h
          · next g moment =>
            split at h
            · obtain ⟨⟨⟩, t'', hemit, h⟩ := bind_ok h
              cases h
              cases hemit
              obtain ⟨hsome, rfl⟩ := observe_ok hlook
              obtain ⟨f, hf, heq⟩ := Option.map_eq_some_iff.mp hsome.symm
              cases heq
              exact ⟨g, t.now, Nat.lt_succ_self _, hf,
                List.mem_append_right _ (List.mem_singleton_self _)⟩
            · exact ih h
          · exact ih h

theorem waitForDownload_found {download : Origin} {before : PyStr → Option (Nat × Nat)}
    {polls : Nat} {W : World} {s s' : Moment} {path : PyStr}
    (h : waitForDownload download before polls W s = (.ok (some path), s')) :
    Found W download path s' := by
  induction polls generalizing s with
  | zero => cases h
  | succ polls ih =>
    obtain ⟨o, t, -, h⟩ := bind_ok h
    obtain ⟨paths, t', -, h⟩ := bind_ok h
    obtain ⟨found, t'', hfound, h⟩ := bind_ok h
    split at h
    · cases h
      exact firstDownload_found hfound
    · exact ih h

/-- A file of the download is archived, with its digest, and it is at a path a download was found
at. -/
structure Archived (W : World) (name : PyStr) (s : Moment) : Prop where
  intro ::
  noted : ∃ digest download path copied t', .archived name digest download path copied t' ∈ s.events
    ∧ W.sha256 copied.bytes = digest ∧ download.1 = name ∧ W.file t' path = some copied
    ∧ ∃ t f, .found download path f t ∈ s.events ∧ W.file t path = some f ∧ t ≤ t'

theorem orFail_ok {α : Type} {o : Option α} {e : Failure} {W : World} {s s' : Moment} {a : α}
    (h : orFail o e W s = (.ok a, s')) : o = some a ∧ s' = s := by
  cases o with
  | some b =>
    cases h
    exact ⟨rfl, rfl⟩
  | none => cases h

theorem raiseUnless_ok {condition : Bool} {message : String} {W : World} {s s' : Moment}
    (h : raiseUnless condition message W s = (.ok (), s')) : condition = true ∧ s' = s := by
  cases condition with
  | true =>
    cases h
    exact ⟨rfl, rfl⟩
  | false => cases h

theorem archiveDownload_archived {name : PyStr} {download : Origin} {path : PyStr} {W : World}
    {s s' : Moment} {digest : PyStr} (hname : download.1 = name) (hfound : Found W download path s)
    (h : archiveDownload name download path W s = (.ok digest, s')) : Archived W name s' := by
  obtain ⟨f, t, hlt, hfile, hmem⟩ := hfound
  obtain ⟨V, s₁, hworld, h⟩ := bind_ok h
  cases hworld
  obtain ⟨o₁, s₂, hlook₁, h⟩ := bind_ok h
  obtain ⟨-, rfl⟩ := observe_ok hlook₁
  obtain ⟨hashed, s₃, hhashed, h⟩ := bind_ok h
  obtain ⟨-, rfl⟩ := orFail_ok hhashed
  obtain ⟨o₂, s₄, hlook₂, h⟩ := bind_ok h
  obtain ⟨rfl, rfl⟩ := observe_ok hlook₂
  obtain ⟨⟨copied, moment⟩, s₅, hcopied, h⟩ := bind_ok h
  obtain ⟨hcopy, rfl⟩ := orFail_ok hcopied
  obtain ⟨file, hfile', heq⟩ := Option.map_eq_some_iff.mp hcopy
  cases heq
  obtain ⟨⟨⟩, s₆, hsame, h⟩ := bind_ok h
  obtain ⟨hdigest, rfl⟩ := raiseUnless_ok hsame
  obtain ⟨⟨⟩, s₇, hemit, h⟩ := bind_ok h
  cases hemit
  cases h
  exact ⟨_, download, path, copied, _, List.mem_append_right _ (List.mem_singleton_self _),
    of_decide_eq_true hdigest, hname, hfile', t, f, List.mem_append_left _ hmem, hfile,
    by dsimp only; omega⟩

theorem archiveCandidate_archived {C : Config} {name : PyStr} {W : World} {s s' : Moment}
    {digest : PyStr} (h : archiveCandidate C name W s = (.ok digest, s')) : Archived W name s' := by
  obtain ⟨selected, s₁, -, h⟩ := bind_ok h
  obtain ⟨before, s₂, -, h⟩ := bind_ok h
  obtain ⟨started, s₃, -, h⟩ := bind_ok h
  obtain ⟨⟨⟩, s₄, -, h⟩ := bind_ok h
  obtain ⟨polls, s₅, -, h⟩ := bind_ok h
  obtain ⟨found, s₆, hfound, h⟩ := bind_ok h
  split at h
  · exact archiveDownload_archived rfl (waitForDownload_found hfound) h
  · cases h

-- == a deletion

def Covered (W : World) (events : List Event) (name : PyStr) : Prop :=
  Archived W name ⟨0, events⟩

theorem Covered.mono {W : World} {events more : List Event} {name : PyStr}
    (h : Covered W events name) : Covered W (events ++ more) name := by
  obtain ⟨digest, download, path, copied, t', hmem, hdigest, hname, hcopied, t, f, hfound, hrest⟩ :=
    h.noted
  exact ⟨digest, download, path, copied, t', List.mem_append_left _ hmem, hdigest, hname, hcopied,
    t, f, List.mem_append_left _ hfound, hrest⟩

/-- Every name that is confirmed is one of those, and was archived before. -/
def Safe (W : World) (p : PyStr → Prop) (events : List Event) : Prop :=
  ∀ pre name post, events = pre ++ .confirmTap name :: post → p name ∧ Covered W pre name

theorem Safe.quiet {W : World} {p : PyStr → Prop} {events new : List Event}
    (h : Safe W p events) (hnew : ∀ e ∈ new, Quiet e) : Safe W p (events ++ new) := by
  intro pre name post heq
  obtain ⟨mid, rfl, hmid⟩ | ⟨mid, rfl, hmid⟩ := List.append_eq_append_iff.mp heq
  · have hin : Event.confirmTap name ∈ new := by
      rw [hmid]
      exact List.mem_append_right _ (List.mem_cons_self ..)
    exact absurd rfl (hnew _ hin name)
  · cases mid with
    | nil =>
      have hin : Event.confirmTap name ∈ new := by
        rw [← List.nil_append new, ← hmid]
        exact List.mem_cons_self ..
      exact absurd rfl (hnew _ hin name)
    | cons e mid =>
      obtain ⟨rfl, rfl⟩ := List.cons.inj hmid
      exact h pre name mid rfl

theorem Safe.confirm {W : World} {p : PyStr → Prop} {events : List Event} {name : PyStr}
    (h : Safe W p events) (hp : p name) (hcovered : Covered W events name) :
    Safe W p (events ++ [.confirmTap name]) := by
  intro pre other post heq
  rcases List.eq_nil_or_concat post with rfl | ⟨post, last, rfl⟩
  · obtain ⟨rfl, hlast⟩ := List.append_inj' heq rfl
    cases hlast
    exact ⟨hp, hcovered⟩
  · have hsplit : events = pre ++ .confirmTap other :: post := by
      have hcons : pre ++ Event.confirmTap other :: (post ++ [last])
          = (pre ++ Event.confirmTap other :: post) ++ [last] := by
        rw [List.append_assoc, List.cons_append]
      rw [List.concat_eq_append, hcons] at heq
      exact (List.append_inj' heq rfl).1
    exact h pre other post hsplit

def Keeps {α : Type} (J : World → List Event → Prop) (m : Run α) : Prop :=
  ∀ W s, J W s.events → J W (m W s).2.events

theorem keeps_bind {α β : Type} {J : World → List Event → Prop} {m : Run α} {f : α → Run β}
    (hm : Keeps J m) (hf : ∀ a, Keeps J (f a)) : Keeps J (m >>= f) := by
  intro W s h
  have hmid := hm W s h
  rw [run_bind]
  split
  · next a s' hrun =>
    rw [hrun] at hmid
    exact hf a W s' hmid
  · next e s' hrun =>
    rw [hrun] at hmid
    exact hmid

theorem keeps_of_notes {α : Type} {J : World → List Event → Prop} {m : Run α}
    (hJ : ∀ W events new, (∀ e ∈ new, Quiet e) → J W events → J W (events ++ new))
    (hm : Notes Quiet m) : Keeps J m := by
  intro W s h
  obtain ⟨-, new, hnew, hall⟩ := hm W s
  rw [hnew]
  exact hJ W s.events new hall h

section Delete

variable {p : World → PyStr → Prop} {C : Config} {name : PyStr}

def Ready (p : World → PyStr → Prop) (name : PyStr) (W : World) (events : List Event) : Prop :=
  p W name ∧ Safe W (p W) events ∧ Covered W events name

theorem ready_quiet (W : World) (events new : List Event) (hnew : ∀ e ∈ new, Quiet e)
    (h : Ready p name W events) : Ready p name W (events ++ new) :=
  ⟨h.1, h.2.1.quiet hnew, h.2.2.mono⟩

theorem deleteCandidate_keeps : Keeps (Ready p name) (deleteCandidate C name) := by
  have hquiet : ∀ {α : Type} {m : Run α}, Notes Quiet m → Keeps (Ready p name) m :=
    fun hm => keeps_of_notes ready_quiet hm
  have hconfirm : Keeps (Ready p name) (emit (.confirmTap name)) :=
    fun _ _ h => ⟨h.1, h.2.1.confirm h.1 h.2.2, h.2.2.mono⟩
  refine keeps_bind (hquiet (notes_selectExact _ _)) fun _ =>
    keeps_bind (hquiet (notes_clickUnique (notes_pure ()))) fun _ =>
      keeps_bind (hquiet notes_dumpUi) fun _ => keeps_bind (hquiet notes_world) fun _ =>
        keeps_bind (hquiet (notes_raiseUnless _ _)) fun _ => keeps_bind ?_ fun _ =>
          keeps_bind (hquiet (notes_searchLibrary _ _)) fun _ =>
            keeps_bind (hquiet notes_world) fun _ => hquiet (notes_raiseUnless _ _)
  refine keeps_bind (hquiet notes_world) fun _ => ?_
  split
  · exact keeps_bind hconfirm fun _ => hquiet (notes_tap _)
  · exact hquiet (notes_fail _)

theorem cleanCandidate_safe {W : World} {s : Moment} (hp : p W name)
    (h : Safe W (p W) s.events) : Safe W (p W) (cleanCandidate C name W s).2.events := by
  obtain ⟨-, new, hnew, hall⟩ := archiveCandidate_quiet C name W s
  have hrest : Keeps (Ready p name) (do
      saveState
      deleteCandidate C name
      saveState) :=
    keeps_bind (keeps_of_notes ready_quiet notes_saveState) fun _ =>
      keeps_bind deleteCandidate_keeps fun _ => keeps_of_notes ready_quiet notes_saveState
  unfold cleanCandidate
  rw [run_bind]
  split
  · next digest s' hrun =>
    have hsafe : Safe W (p W) s'.events := by
      rw [hrun] at hnew
      rw [hnew]
      exact h.quiet hall
    exact (hrest W s' ⟨hp, hsafe, ⟨(archiveCandidate_archived hrun).noted⟩⟩).2.1
  · next e s' hrun =>
    rw [hrun] at hnew
    rw [hnew]
    exact h.quiet hall

end Delete

-- == a cycle

structure Allowed (C : Config) (dryRun : Bool) (W : World) (name : PyStr) : Prop where
  on : C.autoDelete = true
  live : dryRun = false
  safe : isSafeCandidate W C name = true

section Cycle

variable {C : Config} {dryRun : Bool} {W : World}

theorem safe_of_quiet {α : Type} {q : PyStr → Prop} {m : Run α} {s : Moment}
    (hm : Notes Quiet m) (h : Safe W q s.events) : Safe W q (m W s).2.events := by
  obtain ⟨-, new, hnew, hall⟩ := hm W s
  rw [hnew]
  exact h.quiet hall

theorem cleanAll_safe {names : List PyStr} (hnames : ∀ n ∈ names, isSafeCandidate W C n = true) :
    ∀ {deleted : List PyStr} {s : Moment}, Safe W (Allowed C dryRun W) s.events →
      Safe W (Allowed C dryRun W) (cleanAll C dryRun deleted names W s).2.events := by
  induction names with
  | nil => exact fun h => h
  | cons name names ih =>
    intro deleted s h
    obtain ⟨hname, hnames⟩ := List.forall_mem_cons.mp hnames
    rw [cleanAll]
    split
    · exact ih hnames h
    · next hskip =>
      simp only [Bool.or_eq_true, Bool.not_eq_true', not_or, Bool.not_eq_true,
        Bool.not_eq_false] at hskip
      obtain ⟨-, hlive, hon⟩ := hskip
      have hclean := cleanCandidate_safe (p := Allowed C dryRun) (C := C) ⟨hon, hlive, hname⟩ h
      rw [run_bind]
      unfold attempt
      dsimp only
      cases (cleanCandidate C name W s).1 with
      | ok u => exact ih hnames hclean
      | error e =>
        have hopened := safe_of_quiet notes_openLibrary hclean
        dsimp only
        rw [run_bind]
        dsimp only
        cases (openLibrary W (cleanCandidate C name W s).2).1 with
        | ok u => exact ih hnames hopened
        | error e => exact hopened

theorem discoverFrom_safe {queries : List PyStr} :
    ∀ {found names : List PyStr} {s s' : Moment}, (∀ n ∈ found, isSafeCandidate W C n = true) →
      discoverFrom C queries found W s = (.ok names, s') →
        ∀ n ∈ names, isSafeCandidate W C n = true := by
  induction queries with
  | nil =>
    intro found names s s' hfound h
    cases h
    exact hfound
  | cons query queries ih =>
    intro found names s s' hfound h
    obtain ⟨nodes, s₁, -, h⟩ := bind_ok h
    obtain ⟨V, s₂, hworld, h⟩ := bind_ok h
    cases hworld
    refine ih (fun n hn => ?_) h
    rcases List.mem_append.mp hn with hn | hn
    · exact hfound n hn
    · exact (Bool.and_eq_true_iff.mp (List.mem_filter.mp hn).2).2

theorem mem_firstOf {n : Int} {names : List PyStr} {name : PyStr} (h : name ∈ firstOf n names) :
    name ∈ names := by
  unfold firstOf at h
  split at h
  · exact List.mem_of_mem_take h
  · exact List.mem_of_mem_take h

theorem cycle_safe (deleted : List PyStr) (start : Nat) :
    Safe W (Allowed C dryRun W) (cycle C dryRun deleted W ⟨start, []⟩).2.events := by
  have hnil : Safe W (Allowed C dryRun W) [] := by
    intro pre name post h
    cases pre <;> cases h
  unfold cycle
  rw [run_bind]
  unfold observe
  dsimp only
  split
  · rw [run_bind]
    have hopened := safe_of_quiet (s := ⟨start + 1, []⟩) notes_openLibrary hnil
    split
    · next s₁ hrun =>
      rw [hrun] at hopened
      rw [run_bind]
      have hfound := safe_of_quiet (notes_discoverFrom C (C.searchQueries ++ C.explicitDeleteNames)
        []) hopened
      split
      · next names s₂ hdiscover =>
        change discoverFrom _ _ _ _ _ = _ at hdiscover
        rw [hdiscover] at hfound
        have hnames := discoverFrom_safe (fun n hn => absurd hn List.not_mem_nil) hdiscover
        have hall : Safe W (Allowed C dryRun W) (cleanAll C dryRun deleted
            (firstOf C.maxDeletesPerCycle names) W s₂).2.events :=
          cleanAll_safe (fun n hn => hnames n (mem_firstOf hn)) hfound
        rw [run_bind]
        split
        · next s₃ hclean =>
          rw [hclean] at hall
          exact safe_of_quiet notes_saveState hall
        · next e s₃ hclean =>
          rw [hclean] at hall
          exact hall
      · next e s₂ hdiscover =>
        change discoverFrom _ _ _ _ _ = _ at hdiscover
        rw [hdiscover] at hfound
        exact hfound
    · next e s₁ hrun =>
      rw [hrun] at hopened
      exact hopened
  · exact hnil

end Cycle

/-- The path has the file of that download at that moment. -/
def Holds (W : World) (download : Origin) (path : PyStr) (t : Nat) : Prop :=
  ∃ f, W.file t path = some f ∧ f.origin = some download

/-- What is found while a download is waited for is that download, and from then until it is copied,
a path that holds it still does a moment later. -/
structure Undisturbed (W : World) (events : List Event) : Prop where
  own : ∀ download path f t, .found download path f t ∈ events → f.origin = some download
  stays : ∀ download path f t name digest copied t', .found download path f t ∈ events →
    .archived name digest download path copied t' ∈ events → ∀ u, t ≤ u → u < t' →
      Holds W download path u → Holds W download path (u + 1)

/-- A name that is confirmed is allowed, and was archived before with its digest; and where nothing
disturbs the downloads, what was archived is the download of that name. -/
theorem cycle_archived (C : Config) (dryRun : Bool) (deleted : List PyStr) (W : World)
    (start : Nat) (pre : List Event) (name : PyStr) (post : List Event)
    (h : (cycle C dryRun deleted W ⟨start, []⟩).2.events = pre ++ .confirmTap name :: post) :
    Allowed C dryRun W name ∧ ∃ digest download path file t,
      .archived name digest download path file t ∈ pre ∧ W.sha256 file.bytes = digest
        ∧ download.1 = name
        ∧ (Undisturbed W (cycle C dryRun deleted W ⟨start, []⟩).2.events →
          file.origin = some download) := by
  obtain ⟨hallowed, hcovered⟩ := cycle_safe deleted start pre name post h
  obtain ⟨digest, download, path, copied, t', hmem, hdigest, hname, hcopied, t, f, hfound, hfile,
    hle⟩ := hcovered.noted
  refine ⟨hallowed, digest, download, path, copied, t', hmem, hdigest, hname, fun hcalm => ?_⟩
  rw [h] at hcalm
  -- from the moment it was found, the download is there until the moment it is copied
  have hholds : ∀ u, t ≤ u → u ≤ t' → Holds W download path u := by
    intro u htu
    induction u, htu using Nat.le_induction with
    | base =>
      exact fun _ => ⟨f, hfile, hcalm.own download path f t (List.mem_append_left _ hfound)⟩
    | succ u htu ih =>
      exact fun hu => hcalm.stays download path f t name digest copied t'
        (List.mem_append_left _ hfound) (List.mem_append_left _ hmem) u htu hu
        (ih (Nat.le_of_succ_le hu))
  obtain ⟨g, hg, horigin⟩ := hholds t' hle (Nat.le_refl _)
  rw [hcopied] at hg
  cases hg
  exact horigin

namespace Sample

def config : Config where
  searchLabels := [py "Search"]
  downloadLabels := [py "Download"]
  deleteLabels := [py "Delete"]
  confirmLabels := [py "Confirm"]
  searchQueries := [py "q"]
  explicitDeleteNames := []
  safeDeletePatterns := [py "p"]
  neverDeletePatterns := []
  maxDeletesPerCycle := 20
  autoDelete := true

def node (text : String) : UINode := ⟨py text, [], [], (0, 0, 0, 0)⟩

def world (file : File) : World where
  adb _ := true
  ui _ := some (["a.txt", "Search", "Download", "Delete", "Confirm"].map node)
  listing t := some (if t ≤ 14 then [] else [py "f"])
  file _ _ := some file
  polls _ := 1
  saves _ := true
  casefold s := s
  sha256 _ := py "00"
  search _ _ := true
  isFileName s := decide (s = py "a.txt")

def run (file : File) : List Event := (cycle config false [] (world file) ⟨0, []⟩).2.events

def before (file : File) : List Event :=
  [.found (py "a.txt", 13) (py "f") file 18,
    .archived (py "a.txt") (py "00") (py "a.txt", 13) (py "f") file 20]

/-- The download of the item, and a file that has nothing to do with it. -/
def own : File := ⟨[1], 0, some (py "a.txt", 13)⟩
def other : File := ⟨[1], 0, none⟩

theorem run_own : run own = before own ++ [.confirmTap (py "a.txt")] := by decide +kernel

theorem undisturbed_own : Undisturbed (world own) (run own) where
  own download path f t h := by
    rw [run_own] at h
    simp only [before, List.mem_append, List.mem_cons, List.not_mem_nil, or_false, reduceCtorEq,
      Event.found.injEq] at h
    obtain ⟨rfl, -, rfl, -⟩ := h
    rfl
  stays download path _ _ _ _ _ _ _ _ _ _ _ h := h

end Sample

theorem cycle_archived_own : Allowed Sample.config false (Sample.world Sample.own) (py "a.txt")
    ∧ ∃ digest download path file t,
      .archived (py "a.txt") digest download path file t ∈ Sample.before Sample.own
        ∧ (Sample.world Sample.own).sha256 file.bytes = digest ∧ download.1 = py "a.txt"
        ∧ file.origin = some download := by
  obtain ⟨hallowed, digest, download, path, file, t, hmem, hdigest, hname, horigin⟩ :=
    cycle_archived Sample.config false [] (Sample.world Sample.own) 0 (Sample.before Sample.own)
      (py "a.txt") [] Sample.run_own
  exact ⟨hallowed, digest, download, path, file, t, hmem, hdigest, hname,
    horigin Sample.undisturbed_own⟩

/-- A file that appears meanwhile is archived, and the item deleted. -/
theorem cycle_archived_other :
    Sample.run Sample.other = Sample.before Sample.other ++ [.confirmTap (py "a.txt")]
      ∧ ∀ digest download path file t,
        .archived (py "a.txt") digest download path file t ∈ Sample.run Sample.other →
          file.origin ≠ some download := by
  have hrun : Sample.run Sample.other
      = Sample.before Sample.other ++ [.confirmTap (py "a.txt")] := by decide +kernel
  refine ⟨hrun, fun digest download path file t h => ?_⟩
  rw [hrun] at h
  simp only [Sample.before, List.mem_append, List.mem_cons, List.not_mem_nil, or_false,
    reduceCtorEq, false_or, Event.archived.injEq] at h
  obtain ⟨-, -, -, -, rfl, -⟩ := h
  exact nofun

end Centinal26.Library
