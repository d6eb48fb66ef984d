/-
Whatever steps for whatever requests interleave: a file that was written stays as it is, a marker
path has the marker of one request, and a request has an executed result only if its own marker is
at its path.
-/
import Centinal26.Lib.Cut
import Centinal26.Lib.Interleave
import Centinal26.Provider.Bodies

namespace Centinal26.Provider

open Py Js Steps

/-- A file the provider writes. -/
inductive Slot : Type
  | intent (name : PyStr)
  | marker (path : PyStr)
  | result (name : PyStr)
deriving DecidableEq

/-- The files there are, each with the JSON value in it. -/
abbrev Store := Slot → Option Json

structure RequestFile where
  size : Nat
  /-- nothing if it is no JSON -/
  content : Option Json

/-- An access to a file. -/
inductive Op : Type
  | look (slot : Slot)
  | read (slot : Slot)
  | create (slot : Slot)

/-- `fs.existsSync(path)`. -/
def exists? (slot : Slot) : Prog Op Thrown Store Bool :=
  .atomic (.look slot) id fun s => .ret (s slot).isSome

def readJson (slot : Slot) : Prog Op Thrown Store Json :=
  .atomic (.read slot) id fun s =>
    match s slot with
    | some v => .ret v
    | none => .raise ⟨"Error", "ENOENT"⟩

/-- The files with one more, unless it is there. -/
def created (slot : Slot) (v : Json) (s : Store) : Store :=
  if (s slot).isSome then s else Function.update s slot (some v)

def writeExclusive (slot : Slot) (v : Json) : Prog Op Thrown Store Unit :=
  .atomic (.create slot) (created slot v) fun s =>
    if (s slot).isSome then .raise ⟨"Error", "EEXIST"⟩ else .ret ()

variable (L : Libraries)

def ensureExistingExact (existing : Json) (expected : Literal) (hashField : String) :
    Except Thrown Unit := do
  demand (verifyHash L existing hashField) ("invalid " ++ hashField)
  if canonical existing = expected.canonical then .ok ()
  else .error ⟨"ImmutableArtifactConflict", "conflicts with immutable expected content"⟩

/-- A file that is there has to be the expected one; else it is written. -/
def ensure (slot : Slot) (expected : Literal) (hashField : String) : Prog Op Thrown Store Bool := do
  if ← exists? slot then do
    let existing ← readJson slot
    Prog.ofExcept (ensureExistingExact L existing expected hashField)
    return true
  else do
    writeExclusive slot expected.json
    return false

def contentOf (requests : PyStr → Option RequestFile) (name : PyStr) : Except Thrown Json :=
  match requests name with
  | none => .error ⟨"Error", "ENOENT"⟩
  | some f =>
    match f.content with
    | none => .error ⟨"SyntaxError", ""⟩
    | some request => .ok request

def checkSize (requests : PyStr → Option RequestFile) (name : PyStr) : Except Thrown Unit :=
  match requests name with
  | none => .error ⟨"Error", "ENOENT"⟩
  | some f => demand (decide (f.size ≤ 65536)) "request exceeds 65536 bytes"

variable (requests : PyStr → Option RequestFile)

def prepareFile (name : PyStr) (o : Options) (now : Option Rat) : Prog Op Thrown Store Bool := do
  Prog.ofExcept (checkSize requests name)
  let request ← Prog.ofExcept (contentOf requests name)
  Prog.ofExcept (validateRequest L request now)
  if approved request then do
    let _reused ← ensure L (.intent name) (intendedBody L request o) "intent_hash"
    return true
  else do
    let _reused ← ensure L (.result name) (denialBody L request o) "result_sha256"
    return false

def checkMarker (existing request : Json) (expected : Literal) : Except Thrown Unit := do
  demand (verifyHash L existing "marker_sha256") "existing marker hash is invalid"
  if is (prop existing "provider_idempotency_key") (providerIdempotencyKey L request)
      && is (prop existing "request_sha256") (sha256 L request)
      && decide (canonical existing = expected.canonical) then .ok ()
  else .error ⟨"IdempotencyConflict", "idempotency key reused"⟩

def executeFile (name path : PyStr) : Prog Op Thrown Store Bool := do
  let request ← Prog.ofExcept (contentOf requests name)
  let intent ← readJson (.intent name)
  let expected ← Prog.ofExcept (expectedMarker L request intent)
  Prog.ofExcept (demand (is (prop intent "marker_path") path)
    "requested marker output path differs from intent")
  if ← exists? (.marker path) then do
    let existing ← readJson (.marker path)
    Prog.ofExcept (checkMarker L existing request expected)
    return true
  else do
    writeExclusive (.marker path) expected.json
    return false

def recordFile (name path effectCommit : PyStr) : Prog Op Thrown Store Bool := do
  let request ← Prog.ofExcept (contentOf requests name)
  let intent ← readJson (.intent name)
  let marker ← readJson (.marker path)
  let result ← Prog.ofExcept (resultBody L request intent marker effectCommit)
  ensure L (.result name) result "result_sha256"

/-- A step that is started. -/
inductive Call : Type
  | prepare (name : PyStr) (o : Options) (now : Option Rat)
  | execute (name path : PyStr)
  | record (name path effectCommit : PyStr)

def Call.program : Call → Prog Op Thrown Store Bool
  | .prepare name o now => prepareFile L requests name o now
  | .execute name path => executeFile L requests name path
  | .record name path effectCommit => recordFile L requests name path effectCommit

end Centinal26.Provider

namespace Centinal26.Provider

open Py Js Steps

-- == store

/-- Every file of the one is in the other. -/
def Grows (s s' : Store) : Prop := ∀ slot v, s slot = some v → s' slot = some v

theorem Grows.refl (s : Store) : Grows s s := fun _ _ h => h

variable {s : Store} {slot : Slot} {v request : Json} {g : Ghost}

variable {s' : Store} {name : PyStr} {intent : Json}
  {e : Machine.Entry (Sched Call) (Steps.Event Op Thrown Bool Ghost) (Pool Op Thrown Store Bool Ghost)}

theorem Grows.trans {s'' : Store} (h : Grows s s') (h' : Grows s' s'') : Grows s s'' :=
  fun slot v hv => h' slot v (h slot v hv)

theorem grows_created (slot : Slot) (v : Json) (s : Store) : Grows s (created slot v s) := by
  intro slot' v' h
  unfold created
  split
  · exact h
  · next hnone =>
    have hne : slot' ≠ slot := by
      rintro rfl
      rw [h] at hnone
      exact hnone rfl
    rw [Function.update_of_ne hne, h]

variable (L : Libraries) (requests : PyStr → Option RequestFile)

/-- The file is what the provider writes for a request. -/
def Fits (s : Store) : Slot → Json → Prop
  | .intent name, v => ∃ request o, contentOf requests name = .ok request
      ∧ Nonempty (Valid request) ∧ approved request = true ∧ v = (intendedBody L request o).json
  | .marker path, v => ∃ name request, ∃ w : Valid request, contentOf requests name = .ok request
      ∧ approved request = true ∧ path = markerPathFor L request
      ∧ v = (markerBody L request w.payload).json
  | .result name, v => ∃ request, contentOf requests name = .ok request ∧ Nonempty (Valid request)
      ∧ ((approved request = false ∧ ∃ o, v = (denialBody L request o).json)
        ∨ approved request = true ∧ ∃ o marker commit result,
          s (.marker (markerPathFor L request)) = some marker
          ∧ resultBody L request (intendedBody L request o).json marker commit = .ok result
          ∧ v = result.json)

def Kept (s : Store) : Prop := ∀ slot v, s slot = some v → Fits L requests s slot v

variable {L requests}

theorem Fits.mono (hs : Grows s s') (h : Fits L requests s slot v) : Fits L requests s' slot v := by
  cases slot with
  | intent name => exact h
  | marker path => exact h
  | result name =>
    obtain ⟨request, hrequest, hvalid, hdenied | ⟨happroved, o, marker, commit, result, hmarker,
      hresult⟩⟩ := h
    · exact ⟨request, hrequest, hvalid, Or.inl hdenied⟩
    · exact ⟨request, hrequest, hvalid, Or.inr ⟨happroved, o, marker, commit, result,
        hs _ _ hmarker, hresult⟩⟩

theorem kept_empty : Kept L requests fun _ => none := fun _ _ h => by cases h

theorem kept_created (hs : Kept L requests s)
    (hv : Fits L requests s slot v) : Kept L requests (created slot v s) := by
  intro slot' v' h
  have hgrows := grows_created slot v s
  unfold created at h
  split at h
  · exact (hs slot' v' h).mono hgrows
  · by_cases heq : slot' = slot
    · subst heq
      rw [Function.update_self] at h
      cases h
      exact hv.mono hgrows
    · rw [Function.update_of_ne heq] at h
      exact (hs slot' v' h).mono hgrows

-- == outlines

abbrev Ghost := Option (PyStr × Json)

def nextGhost (g : Ghost) (op : Op) (s _s' : Store) : Ghost :=
  match op with
  | .read (.marker path) => (s (.marker path)).map fun v => (path, v)
  | _ => g

def Seen (g : Ghost) (s : Store) : Prop := ∀ path v, g = some (path, v) → s (.marker path) = some v

variable (L requests) in
def Assumed (g : Ghost) (_op : Op) (s : Store) : Prop := Kept L requests s ∧ Seen g s

variable (L requests) in
def Grown (_g : Ghost) (_op : Op) (s s' : Store) : Prop := Kept L requests s' ∧ Grows s s'

/-- A program that keeps what is written, and fits what it writes. -/
def Keeps (L : Libraries) (requests : PyStr → Option RequestFile) {α : Type}
    (Q : Ghost → α → Prop) (g : Ghost) (p : Prog Op Thrown Store α) : Prop :=
  p.Sat (Assumed L requests) (Grown L requests) nextGhost Q (fun _ _ => True) g

variable {α β : Type}

theorem Keeps.bind {Q : Ghost → α → Prop} {R : Ghost → β → Prop} {p : Prog Op Thrown Store α}
    {f : α → Prog Op Thrown Store β} (hp : Keeps L requests Q g p)
    (hf : ∀ g a, Q g a → Keeps L requests R g (f a)) : Keeps L requests R g (p >>= f) :=
  Prog.Sat.bind hp hf

theorem keeps_ofExcept {r : Except Thrown α} :
    Keeps L requests (fun g' a => g' = g ∧ r = .ok a) g (Prog.ofExcept r) := by
  cases r with
  | ok a => exact ⟨rfl, rfl⟩
  | error e => exact trivial

theorem keeps_exists (slot : Slot) (g : Ghost) :
    Keeps L requests (fun g' _ => g' = g) g (exists? slot) := by
  intro s hs
  refine ⟨⟨hs.1, Grows.refl s⟩, ?_⟩
  exact rfl

theorem keeps_readJson (slot : Slot) (g : Ghost) :
    Keeps L requests (fun g' v => (∃ s, Fits L requests s slot v)
      ∧ ∀ path, slot = .marker path → g' = some (path, v)) g (readJson slot) := by
  intro s hs
  refine ⟨⟨hs.1, Grows.refl s⟩, ?_⟩
  cases hslot : s slot with
  | none =>
    simp only [hslot]
    exact trivial
  | some v =>
    simp only [hslot]
    refine ⟨⟨s, hs.1 slot v hslot⟩, ?_⟩
    rintro path rfl
    show (s (.marker path)).map _ = _
    rw [hslot]
    rfl

theorem keeps_writeExclusive (h : ∀ s, Kept L requests s → Seen g s → Fits L requests s slot v) :
    Keeps L requests (fun _ _ => True) g (writeExclusive slot v) := by
  intro s hs
  refine ⟨⟨kept_created hs.1 (h s hs.1 hs.2), grows_created slot v s⟩, ?_⟩
  dsimp only
  split
  · exact trivial
  · exact trivial

theorem keeps_ensure {expected : Literal} {field : String}
    (h : ∀ s, Kept L requests s → Seen g s → Fits L requests s slot expected.json) :
    Keeps L requests (fun _ _ => True) g (ensure L slot expected field) := by
  refine (keeps_exists slot g).bind fun g' there hg => ?_
  subst hg
  cases there with
  | true =>
    refine (keeps_readJson slot g').bind fun g'' existing _ => ?_
    exact keeps_ofExcept.bind fun _ _ _ => trivial
  | false => exact (keeps_writeExclusive h).bind fun _ _ _ => trivial

-- == steps

theorem keeps_prepareFile (name : PyStr) (o : Options) (now : Option Rat) (g : Ghost) :
    Keeps L requests (fun _ _ => True) g (prepareFile L requests name o now) := by
  refine keeps_ofExcept.bind fun g₁ _ _ => ?_
  refine keeps_ofExcept.bind fun g₂ request hrequest => ?_
  refine keeps_ofExcept.bind fun g₃ u hvalidated => ?_
  have hvalid := valid_of_validateRequest hvalidated.2
  cases happroved : approved request with
  | true =>
    have hfits : ∀ s, Fits L requests s (.intent name) (intendedBody L request o).json :=
      fun _ => ⟨request, o, hrequest.2, hvalid, happroved, rfl⟩
    exact (keeps_ensure fun s _ _ => hfits s).bind fun _ _ _ => trivial
  | false =>
    have hfits : ∀ s, Fits L requests s (.result name) (denialBody L request o).json :=
      fun _ => ⟨request, hrequest.2, hvalid, Or.inl ⟨happroved, o, rfl⟩⟩
    exact (keeps_ensure fun s _ _ => hfits s).bind fun _ _ _ => trivial

theorem intent_fits (hrequest : contentOf requests name = .ok request)
    (h : Fits L requests s (.intent name) intent) :
    ∃ o, ∃ _ : Valid request, approved request = true ∧ intent = (intendedBody L request o).json := by
  obtain ⟨request', o, hrequest', ⟨w⟩, happroved, rfl⟩ := h
  rw [hrequest] at hrequest'
  cases hrequest'
  exact ⟨o, w, happroved, rfl⟩

theorem keeps_executeFile (name path : PyStr) (g : Ghost) :
    Keeps L requests (fun _ _ => True) g (executeFile L requests name path) := by
  refine keeps_ofExcept.bind fun g₁ request hrequest => ?_
  refine (keeps_readJson _ g₁).bind fun g₂ intent hintent => ?_
  refine keeps_ofExcept.bind fun g₃ expected hexpected => ?_
  refine keeps_ofExcept.bind fun g₄ u hpath => ?_
  obtain ⟨⟨s₀, hfits⟩, -⟩ := hintent
  obtain ⟨o, w, happroved, rfl⟩ := intent_fits hrequest.2 hfits
  obtain ⟨-, -, -, -, hmarker, -⟩ := w.prop_intent (L := L) o
  have hexpected' := hexpected.2
  rw [w.expectedMarker_eq o happroved] at hexpected'
  cases hexpected'
  have hsame : markerPathFor L request = path := by
    have heq := is_iff.mp (demand_ok.mp hpath.2)
    rw [hmarker] at heq
    exact Json.str.inj (Option.some.inj heq)
  refine (keeps_exists _ g₄).bind fun g₅ there _ => ?_
  cases there with
  | true =>
    refine (keeps_readJson _ g₅).bind fun g₆ existing _ => ?_
    exact keeps_ofExcept.bind fun _ _ _ => trivial
  | false =>
    have hfits' : ∀ s, Fits L requests s (.marker path) (markerBody L request w.payload).json :=
      fun _ => ⟨name, request, w, hrequest.2, happroved, hsame.symm, rfl⟩
    exact (keeps_writeExclusive fun s _ _ => hfits' s).bind fun _ _ _ => trivial

theorem mem_of_canonical {ms ms' : List (PyStr × Json)} {k t : PyStr}
    (h : canonical (.obj ms) = canonical (.obj ms')) (hm : (k, Json.str t) ∈ ms) :
    (k, Json.str t) ∈ ms' := by
  have hcanon := canonical_inj.mp h
  rw [canon, canon, Json.obj.injEq] at hcanon
  have hsorted : (k, Json.str t) ∈ sortKeys (canonMembers ms) := by
    rw [mem_sortKeys, canonMembers_eq]
    exact List.mem_map.mpr ⟨_, hm, rfl⟩
  rw [hcanon, mem_sortKeys, canonMembers_eq] at hsorted
  obtain ⟨⟨k', v⟩, hm', heq⟩ := List.mem_map.mp hsorted
  obtain ⟨rfl, hv⟩ := Prod.mk.inj heq
  have hstr : v = .str t := by
    cases v with
    | str u => exact hv
    | float x =>
      rw [canon] at hv
      unfold number at hv
      split at hv
      · split at hv <;> cases hv
      · cases hv
    | _ => cases hv
  rw [← hstr]
  exact hm'

theorem Valid.marker_json (w : Valid request) :
    (markerBody L request w.payload).json = .obj ((w.markerMembers L
      ++ [("marker_sha256", Json.str (L.sha (defined (w.markerMembers L)).canonical))]).map
        fun (m : String × Json) => (py m.1, m.2)) := by
  rw [w.markerBody_eq, ← json_defined, withHash, defined, defined, List.map_append]
  rfl

theorem marker_same {r r' : Json} (w : Valid r) (w' : Valid r')
    (h : canonical (markerBody L r w.payload).json = canonical (markerBody L r' w'.payload).json) :
    providerIdempotencyKey L r = providerIdempotencyKey L r' ∧ sha256 L r = sha256 L r'
      ∧ w.capability = w'.capability := by
  rw [w.marker_json, w'.marker_json] at h
  have hmem : ∀ key t, (key, Json.str t) ∈ w.markerMembers L → key ≠ "marker_sha256" →
      (key, Json.str t) ∈ w'.markerMembers L := by
    intro key t hm hne
    have hin := mem_of_canonical h (List.mem_map.mpr ⟨(key, .str t), List.mem_append_left _ hm, rfl⟩)
    obtain ⟨⟨key', v⟩, hin', heq⟩ := List.mem_map.mp hin
    obtain ⟨hkey, rfl⟩ := Prod.mk.inj heq
    obtain rfl := py_inj.mp hkey
    rcases List.mem_append.mp hin' with hmem | hlast
    · exact hmem
    · exact absurd (Prod.mk.inj (List.mem_singleton.mp hlast)).1 hne
  have hkey := hmem "provider_idempotency_key" (providerIdempotencyKey L r)
    (by simp [Valid.markerMembers]) (by decide)
  have hsha := hmem "request_sha256" (sha256 L r) (by simp [Valid.markerMembers]) (by decide)
  have hcapability := hmem "capability" w.capability (by simp [Valid.markerMembers]) (by decide)
  simp only [Valid.markerMembers, List.mem_cons, Prod.mk.injEq, Json.str.injEq, String.reduceEq,
    false_and, true_and, false_or, List.not_mem_nil, or_false] at hkey hsha hcapability
  exact ⟨hkey, hsha, hcapability⟩

theorem resultBody_ok {marker : Json} {commit : PyStr} {result : Literal}
    (h : resultBody L request intent marker commit = .ok result) :
    isSha40 commit = true ∧ ∃ expected, expectedMarker L request intent = .ok expected
      ∧ canonical marker = expected.canonical := by
  unfold resultBody at h
  rw [demand_bind_ok] at h
  obtain ⟨hcommit, h⟩ := h
  obtain ⟨expected, hexpected, h⟩ := of_bind_ok h
  rw [demand_bind_ok, Bool.and_eq_true] at h
  exact ⟨hcommit, expected, hexpected, of_decide_eq_true h.1.2⟩

theorem keeps_recordFile (name path effectCommit : PyStr) (g : Ghost) :
    Keeps L requests (fun _ _ => True) g (recordFile L requests name path effectCommit) := by
  refine keeps_ofExcept.bind fun g₁ request hrequest => ?_
  refine (keeps_readJson _ g₁).bind fun g₂ intent hintent => ?_
  refine (keeps_readJson _ g₂).bind fun g₃ marker hmarker => ?_
  refine keeps_ofExcept.bind fun g₄ result hresult => ?_
  obtain ⟨⟨s₀, hfits⟩, -⟩ := hintent
  obtain ⟨o, w, happroved, rfl⟩ := intent_fits hrequest.2 hfits
  obtain ⟨⟨s₁, hmarkerFits⟩, hseen⟩ := hmarker
  obtain ⟨rfl, hresult⟩ := hresult
  obtain rfl := hseen path rfl
  obtain ⟨name', request', w', -, -, hpath, hvalue⟩ := hmarkerFits
  obtain ⟨-, expected, hexpected, hsame⟩ := resultBody_ok hresult
  rw [w.expectedMarker_eq o happroved] at hexpected
  cases hexpected
  rw [← w.canonical_marker, hvalue] at hsame
  have hkey := (marker_same w' w hsame).1
  have hown : markerPathFor L request = path := by
    rw [hpath, markerPathFor, markerPathFor, hkey]
  refine keeps_ensure fun s _ hs => ?_
  exact ⟨request, hrequest.2, ⟨w⟩, Or.inr ⟨happroved, o, marker, effectCommit, result,
    by rw [hown]; exact hs path marker rfl, hresult, rfl⟩⟩

theorem keeps_program (c : Call) (g : Ghost) :
    Keeps L requests (fun _ _ => True) g (c.program L requests) := by
  cases c with
  | prepare name o now => exact keeps_prepareFile name o now g
  | execute name path => exact keeps_executeFile name path g
  | record name path effectCommit => exact keeps_recordFile name path effectCommit g

-- == runs

/-- The digests of two canonical texts tell them apart. -/
def CollisionFree (L : Libraries) : Prop :=
  ∀ v w, L.sha (canonical v) = L.sha (canonical w) → canonical v = canonical w

def Executed (result : Json) : Prop := prop result "state" = some (.str (py "EXECUTED"))

variable (L requests) in
/-- The files after a schedule of steps for requests, none of which has been worked on before. -/
def filesAfter (schedule : List (Sched Call)) : Store :=
  (Machine.exec (Pool.step (fun _ c => c.program L requests) (fun _ _ _ => (none : Ghost))
    nextGhost (fun _ s => s)) schedule (Pool.idle fun _ => none)).shared

/-- A pool whose files fit, and whose steps remember what is there. -/
structure PoolKept (L : Libraries) (requests : PyStr → Option RequestFile)
    (p : Pool Op Thrown Store Bool Ghost) : Prop where
  kept : Kept L requests p.shared
  sat : p.AllSat nextGhost (Assumed L requests) (Grown L requests) (fun _ _ => True)
    (fun _ _ => True)
  seen : p.AllGhosts Seen

theorem ghost_of_stepped
    (hv : e.Valid (Pool.step (fun _ c => c.program L requests) (fun _ _ _ => (none : Ghost))
      nextGhost (fun _ s => s))) {i : Nat} {l : Op}
    (ho : e.output = .stepped i l g) : ∃ t, e.before.threads i = some t ∧ t.ghost = g := by
  obtain ⟨c, p, o, p'⟩ := e
  replace ho : o = .stepped i l g := ho
  subst ho
  unfold Machine.Entry.Valid at hv
  cases c with
  | spawn j c =>
    simp only [Pool.step] at hv
    split at hv <;> cases hv
  | advance j =>
    simp only [Pool.step] at hv
    split at hv
    · cases hv
    · cases hv
    · cases hv
    · next ht =>
      cases hv
      exact ⟨_, ht, rfl⟩
  | crash j =>
    simp only [Pool.step] at hv
    cases hv

theorem poolKept_step
    (hv : e.Valid (Pool.step (fun _ c => c.program L requests) (fun _ _ _ => (none : Ghost))
      nextGhost (fun _ s => s))) (h : PoolKept L requests e.before) :
    PoolKept L requests e.after ∧ Grows e.before.shared e.after.shared := by
  have hseen : ∀ i l g, e.output = .stepped i l g → Seen g e.before.shared := by
    intro i l g ho
    obtain ⟨t, ht, rfl⟩ := ghost_of_stepped hv ho
    exact h.seen i t ht
  have hA : Pool.Meets (Assumed L requests) e := fun i l g ho => ⟨h.kept, hseen i l g ho⟩
  have hsat := Pool.sat_step _ _ nextGhost _ (fun i c s => keeps_program c none) hv hA h.sat
  have hgrown : Kept L requests e.after.shared ∧ Grows e.before.shared e.after.shared := by
    rcases Pool.stepped_or_still _ _ nextGhost _ hv hA (fun _ _ => rfl) h.sat with
      ⟨i, l, g, -, hP⟩ | ⟨-, hsame⟩
    · exact hP
    · rw [hsame]
      exact ⟨h.kept, Grows.refl _⟩
  refine ⟨⟨hgrown.1, hsat, ?_⟩, hgrown.2⟩
  have hkeep : ∀ g, Seen g e.before.shared → Seen g e.after.shared :=
    fun g hg path v heq => hgrown.2 _ _ (hg path v heq)
  refine Pool.ghosts_step _ _ nextGhost _ hv nofun (fun i l g ho hg => ?_) hkeep h.seen
  cases l with
  | read slot =>
    cases slot with
    | marker path =>
      intro path' v heq
      obtain ⟨v', hv', heq⟩ := Option.map_eq_some_iff.mp heq
      cases heq
      exact hgrown.2 _ _ hv'
    | _ => exact hkeep g hg
  | _ => exact hkeep g hg

theorem poolKept_idle : PoolKept L requests (Pool.idle fun _ => none) :=
  ⟨kept_empty, Pool.allSat_idle nextGhost _, Pool.allGhosts_idle _⟩

theorem kept_filesAfter (schedule more : List (Sched Call)) :
    Kept L requests (filesAfter L requests schedule)
      ∧ Grows (filesAfter L requests schedule) (filesAfter L requests (schedule ++ more)) := by
  have hpool : ∀ schedule, PoolKept L requests (Machine.exec (Pool.step (fun _ (c : Call) =>
      c.program L requests) (fun _ _ _ => (none : Ghost)) nextGhost (fun _ s => s)) schedule
      (Pool.idle fun _ => none)) := fun schedule =>
    Machine.invariant _ (C := fun _ => True) (I := PoolKept L requests) _ poolKept_idle
      (fun e hv _ h => (poolKept_step hv h).1) schedule (fun _ _ => trivial)
  refine ⟨(hpool schedule).kept, ?_⟩
  induction more using List.reverseRecOn with
  | nil =>
    rw [List.append_nil]
    exact Grows.refl _
  | append_singleton more c ih =>
    rw [← List.append_assoc]
    unfold filesAfter at ih ⊢
    rw [Machine.exec_concat]
    exact ih.trans (poolKept_step (Machine.entry_valid _ c _) (hpool (schedule ++ more))).2

-- == results

def IsMarkerOf (L : Libraries) (request v : Json) : Prop :=
  ∃ w : Valid request, v = (markerBody L request w.payload).json

theorem executed_result
    (hrequest : contentOf requests name = .ok request) (h : Fits L requests s (.result name) v)
    (hv : Executed v) : approved request = true ∧ ∃ w : Valid request, ∃ marker,
      s (.marker (markerPathFor L request)) = some marker
        ∧ canonical marker = canonical (markerBody L request w.payload).json := by
  obtain ⟨request', hrequest', ⟨w⟩, ⟨-, o, rfl⟩ | ⟨happroved, o, marker, commit, result, hmarker,
    hresult, -⟩⟩ := h
  · have hdenied : prop (denialBody L request' o).json "state" = some (.str (py "DENIED")) := by
      simp [denialBody, withHash, defined, prop_cons]
    rw [Executed, hdenied, Option.some.injEq, Json.str.injEq] at hv
    exact absurd hv (by decide)
  · rw [hrequest] at hrequest'
    cases hrequest'
    obtain ⟨-, expected, hexpected, hsame⟩ := resultBody_ok hresult
    rw [w.expectedMarker_eq o happroved] at hexpected
    cases hexpected
    rw [← w.canonical_marker] at hsame
    exact ⟨happroved, w, marker, hmarker, hsame⟩

/-- What the steps leave, whatever they are and however they interleave. -/
structure OneMarker (L : Libraries) (requests : PyStr → Option RequestFile)
    (schedule : List (Sched Call)) : Prop where
  unchanged : ∀ more slot v, filesAfter L requests schedule slot = some v →
    filesAfter L requests (schedule ++ more) slot = some v
  owned : ∀ path v, filesAfter L requests schedule (.marker path) = some v →
    ∃ name request, contentOf requests name = .ok request ∧ approved request = true
      ∧ IsMarkerOf L request v ∧ path = markerPathFor L request
      ∧ ∀ request', IsMarkerOf L request' v → canonical request' = canonical request
  exclusive : ∀ name name' request request' v v', contentOf requests name = .ok request →
    contentOf requests name' = .ok request' →
    filesAfter L requests schedule (.result name) = some v → Executed v →
    filesAfter L requests schedule (.result name') = some v' → Executed v' →
    prop request "capability" = prop request' "capability" →
    prop request "idempotency_key" = prop request' "idempotency_key" →
    canonical request = canonical request'
  denied : ∀ name request, contentOf requests name = .ok request → approved request = false →
    filesAfter L requests schedule (.intent name) = none
      ∧ (∀ path v, filesAfter L requests schedule (.marker path) = some v →
        ¬ IsMarkerOf L request v)
      ∧ ∀ v, filesAfter L requests schedule (.result name) = some v → ¬ Executed v

theorem approved_iff (w : Valid request) :
    approved request = true ↔ w.capability = qualificationCapability := by
  rw [approved, is_iff, w.hcapability, Option.some.injEq, Json.str.injEq]

theorem oneMarker (hL : CollisionFree L) (schedule : List (Sched Call)) :
    OneMarker L requests schedule := by
  have hkept : Kept L requests (filesAfter L requests schedule) := (kept_filesAfter schedule []).1
  refine ⟨fun more slot v hv => (kept_filesAfter schedule more).2 slot v hv, ?_, ?_, ?_⟩
  · intro path v hv
    obtain ⟨name, request, w, hrequest, happroved, hpath, hvalue⟩ := hkept _ _ hv
    refine ⟨name, request, hrequest, happroved, ⟨w, hvalue⟩, hpath, ?_⟩
    rintro request' ⟨w', hvalue'⟩
    exact hL _ _ (marker_same w' w (by rw [← hvalue', hvalue])).2.1
  · intro name name' request request' v v' hrequest hrequest' hv hexecuted hv' hexecuted' hcapability
      hkey
    obtain ⟨-, w, marker, hmarker, hsame⟩ := executed_result hrequest (hkept _ _ hv) hexecuted
    obtain ⟨-, w', marker', hmarker', hsame'⟩ := executed_result hrequest' (hkept _ _ hv') hexecuted'
    have hpath : markerPathFor L request = markerPathFor L request' := by
      rw [markerPathFor, markerPathFor, providerIdempotencyKey, providerIdempotencyKey, hcapability,
        hkey]
    rw [hpath, hmarker'] at hmarker
    cases hmarker
    exact hL _ _ (marker_same w w' (hsame.symm.trans hsame')).2.1
  · intro name request hrequest hdenied
    refine ⟨?_, ?_, ?_⟩
    · cases hintent : filesAfter L requests schedule (.intent name) with
      | none => rfl
      | some v =>
        obtain ⟨o, -, happroved, -⟩ := intent_fits hrequest (hkept _ _ hintent)
        rw [hdenied] at happroved
        cases happroved
    · rintro path v hv ⟨w, hvalue⟩
      obtain ⟨name', request', w', -, happroved, -, hvalue'⟩ := hkept _ _ hv
      have hcapability := (marker_same w w' (by rw [← hvalue, hvalue'])).2.2
      rw [approved_iff w', ← hcapability, ← approved_iff w, hdenied] at happroved
      cases happroved
    · intro v hv hexecuted
      have happroved := (executed_result hrequest (hkept _ _ hv) hexecuted).1
      rw [hdenied] at happroved
      cases happroved

end Centinal26.Provider
