/-
The three steps for a request can be started again after any of them stopped anywhere: they end
with the intent, the marker and the result of a run that was not interrupted.
-/
import Centinal26.Provider.OneMarker
import Centinal26.Provider.Verdicts

namespace Centinal26.Provider

open Py Js Steps

variable (L : Libraries) (requests : PyStr → Option RequestFile)

/-- The steps for a request that is allowed. -/
def pipeline (name : PyStr) (o : Options) (now : Option Rat) (path commit : PyStr) :
    Prog Op Thrown Store Bool := do
  let _approved ← prepareFile L requests name o now
  let _reused ← executeFile L requests name path
  recordFile L requests name path commit

/-- The file is not there yet, or is what is expected. -/
def Free (s : Store) (slot : Slot) (v : Json) : Prop := s slot = none ∨ s slot = some v

/-- The files of a request, once the steps for it are through. -/
structure Outputs where
  name : PyStr
  path : PyStr
  intent : Json
  marker : Json
  result : Json

/-- What a file of the request holds in the end. -/
def Outputs.expected (f : Outputs) : Slot → Option Json
  | .intent name => if name = f.name then some f.intent else none
  | .marker path => if path = f.path then some f.marker else none
  | .result name => if name = f.name then some f.result else none

def Outputs.put (f : Outputs) (s : Store) : Store := fun slot => (f.expected slot).or (s slot)

/-- None of these files is something else. -/
def Outputs.Compatible (f : Outputs) (s : Store) : Prop :=
  ∀ slot v, f.expected slot = some v → Free s slot v

/-- Files on the way from others to what they are in the end. -/
def Outputs.Towards (f : Outputs) (s s' : Store) : Prop := f.Compatible s' ∧ f.put s' = f.put s

variable {L requests}

-- == one file

variable {s : Store} {slot : Slot} {v : Json} {f : Outputs}

theorem update_of_some (h : s slot = some v) : Function.update s slot (some v) = s := by
  rw [← h, Function.update_eq_self]

theorem created_free (h : s slot = none) : created slot v s = Function.update s slot (some v) := by
  rw [created, h]
  rfl

theorem Outputs.update (hs : f.Compatible s)
    (h : f.expected slot = some v) : f.Compatible (Function.update s slot (some v))
      ∧ f.put (Function.update s slot (some v)) = f.put s := by
  constructor
  · intro slot' v' h'
    by_cases heq : slot' = slot
    · subst heq
      rw [h] at h'
      cases h'
      exact Or.inr (Function.update_self ..)
    · unfold Free
      rw [Function.update_of_ne heq]
      exact hs slot' v' h'
  · funext slot'
    unfold Outputs.put
    by_cases heq : slot' = slot
    · subst heq
      rw [h, Option.some_or, Option.some_or]
    · rw [Function.update_of_ne heq]

theorem Outputs.put_eq
    (h : ∀ slot v, f.expected slot = some v → s slot = some v) : f.put s = s := by
  funext slot
  unfold Outputs.put
  cases hslot : f.expected slot with
  | none => rfl
  | some v => rw [h slot v hslot, Option.some_or]

/-- A program that returns, and goes through these states only. -/
def Goes {α : Type} (I : Store → Prop) (Q : α → Store → Prop) (s : Store)
    (p : Prog Op Thrown Store α) : Prop :=
  p.Through (fun _ _ => True) I Q (fun _ _ => False) s

section Accesses

variable {α β : Type} {I : Store → Prop} {s : Store}

theorem Goes.bind {Q : α → Store → Prop} {R : β → Store → Prop} {p : Prog Op Thrown Store α}
    {f : α → Prog Op Thrown Store β} (hp : Goes I Q s p)
    (hf : ∀ a s', Q a s' → Goes I R s' (f a)) : Goes I R s (p >>= f) :=
  Prog.Through.bind hp hf

theorem goes_ofExcept {r : Except Thrown α} {a : α} (h : r = .ok a) :
    Goes I (fun a' s' => a' = a ∧ s' = s) s (Prog.ofExcept r) := by
  rw [h]
  exact ⟨rfl, rfl⟩

variable {slot : Slot} {v : Json}

theorem goes_exists (hs : I s) :
    Goes I (fun there s' => there = (s slot).isSome ∧ s' = s) s (exists? slot) :=
  fun _ => ⟨hs, rfl, rfl⟩

theorem goes_readJson (hs : I s) (h : s slot = some v) :
    Goes I (fun v' s' => v' = v ∧ s' = s) s (readJson slot) := by
  refine fun _ => ⟨hs, ?_⟩
  dsimp only
  rw [h]
  exact ⟨rfl, rfl⟩

theorem goes_writeExclusive (h : s slot = none) (hs : I (Function.update s slot (some v))) :
    Goes I (fun _ s' => s' = Function.update s slot (some v)) s (writeExclusive slot v) := by
  have hcreated := created_free (v := v) h
  refine fun _ => ⟨by rw [hcreated]; exact hs, ?_⟩
  dsimp only
  rw [h]
  exact hcreated

theorem goes_ensure {check : Json → Except Thrown Unit}
    (h : Free s slot v) (hcheck : check v = .ok ()) (hs : I s)
    (hafter : I (Function.update s slot (some v))) :
    Goes I (fun _ s' => s' = Function.update s slot (some v)) s (do
      if ← exists? slot then do
        let existing ← readJson slot
        Prog.ofExcept (check existing)
        return true
      else do
        writeExclusive slot v
        return false) := by
  refine (goes_exists hs).bind ?_
  rintro _ _ ⟨rfl, rfl⟩
  rcases h with hnone | hsome
  · rw [hnone]
    refine (goes_writeExclusive hnone hafter).bind ?_
    rintro _ _ rfl
    exact rfl
  · rw [hsome]
    refine (goes_readJson hs hsome).bind ?_
    rintro _ _ ⟨rfl, rfl⟩
    refine (goes_ofExcept hcheck).bind ?_
    rintro _ _ ⟨-, rfl⟩
    exact (update_of_some hsome).symm

end Accesses

-- == outputs

variable {name commit : PyStr} {o : Options} {request : Json}

variable (L name commit o) in
/-- What the steps for a valid request end with. -/
def outputsOf (w : Valid request) : Outputs where
  name := name
  path := markerPathFor L request
  intent := (intendedBody L request o).json
  marker := (markerBody L request w.payload).json
  result := (withHash L "result_sha256" (defined (w.resultMembers L o commit))).json

theorem ensureExistingExact_self {ms : List (String × Json)} {field : String}
    (h : field ∉ ms.map Prod.fst) :
    ensureExistingExact L (withHash L field (defined ms)).json (withHash L field (defined ms)) field
      = .ok () := by
  have hdefined : withHash L field (defined ms)
      = defined (ms ++ [(field, .str (L.sha (defined ms).canonical))]) := by
    rw [withHash, defined, defined, List.map_append]
    rfl
  unfold ensureExistingExact
  rw [demand_true (verifyHash_withHash h), hdefined, ← canonical_defined, if_pos rfl]

theorem goes_prepareFile (w : Valid request) {now : Option Rat} {s : Store} {I : Store → Prop}
    (hsize : checkSize requests name = .ok ()) (hrequest : contentOf requests name = .ok request)
    (hvalid : validateRequest L request now = .ok ()) (happroved : approved request = true)
    (h : Free s (.intent name) (intendedBody L request o).json) (hs : I s)
    (hafter : I (Function.update s (.intent name) (some (intendedBody L request o).json))) :
    Goes I (fun _ s' => s' = Function.update s (.intent name) (some (intendedBody L request o).json))
      s (prepareFile L requests name o now) := by
  refine (goes_ofExcept hsize).bind ?_
  rintro _ _ ⟨-, rfl⟩
  refine (goes_ofExcept hrequest).bind ?_
  rintro _ _ ⟨rfl, rfl⟩
  refine (goes_ofExcept hvalid).bind ?_
  rintro _ _ ⟨-, rfl⟩
  rw [happroved, if_pos rfl]
  refine (goes_ensure h ?_ hs hafter).bind fun _ _ hsame => hsame
  rw [w.intendedBody_eq]
  refine ensureExistingExact_self ?_
  simp only [Valid.intentMembers, List.map_cons, List.map_nil]
  decide

theorem checkMarker_self (w : Valid request) :
    checkMarker L (markerBody L request w.payload).json request (markerBody L request w.payload)
      = .ok () := by
  have hkey : prop (markerBody L request w.payload).json "provider_idempotency_key"
      = some (.str (providerIdempotencyKey L request))
      ∧ prop (markerBody L request w.payload).json "request_sha256"
        = some (.str (sha256 L request)) := by
    rw [w.markerBody_eq]
    simp [withHash, defined, Valid.markerMembers, prop_cons]
  unfold checkMarker
  rw [demand_true w.verifyHash_marker, is_iff.mpr hkey.1, is_iff.mpr hkey.2, w.canonical_marker]
  simp

theorem goes_executeFile (w : Valid request) {s : Store} {I : Store → Prop}
    (hrequest : contentOf requests name = .ok request) (happroved : approved request = true)
    (hintent : s (.intent name) = some (intendedBody L request o).json)
    (h : Free s (.marker (markerPathFor L request)) (markerBody L request w.payload).json) (hs : I s)
    (hafter : I (Function.update s (.marker (markerPathFor L request))
      (some (markerBody L request w.payload).json))) :
    Goes I (fun _ s' => s' = Function.update s (.marker (markerPathFor L request))
      (some (markerBody L request w.payload).json)) s
      (executeFile L requests name (markerPathFor L request)) := by
  refine (goes_ofExcept hrequest).bind ?_
  rintro _ _ ⟨rfl, rfl⟩
  refine (goes_readJson hs hintent).bind ?_
  rintro _ _ ⟨rfl, rfl⟩
  refine (goes_ofExcept (w.expectedMarker_eq o happroved)).bind ?_
  rintro _ _ ⟨rfl, rfl⟩
  obtain ⟨-, -, -, -, hpath, -⟩ := w.prop_intent (L := L) o
  refine (goes_ofExcept (a := ()) (demand_ok.mpr (is_iff.mpr hpath))).bind ?_
  rintro _ _ ⟨-, rfl⟩
  exact goes_ensure h (checkMarker_self w) hs hafter

theorem goes_recordFile (w : Valid request) {s : Store} {I : Store → Prop}
    (hrequest : contentOf requests name = .ok request) (happroved : approved request = true)
    (hcommit : isSha40 commit = true)
    (hintent : s (.intent name) = some (intendedBody L request o).json)
    (hmarker : s (.marker (markerPathFor L request)) = some (markerBody L request w.payload).json)
    (h : Free s (.result name) (outputsOf L name commit o w).result) (hs : I s)
    (hafter : I (Function.update s (.result name) (some (outputsOf L name commit o w).result))) :
    Goes I (fun _ s' => s' = Function.update s (.result name)
      (some (outputsOf L name commit o w).result)) s
      (recordFile L requests name (markerPathFor L request) commit) := by
  refine (goes_ofExcept hrequest).bind ?_
  rintro _ _ ⟨rfl, rfl⟩
  refine (goes_readJson hs hintent).bind ?_
  rintro _ _ ⟨rfl, rfl⟩
  refine (goes_readJson hs hmarker).bind ?_
  rintro _ _ ⟨rfl, rfl⟩
  refine (goes_ofExcept (w.resultBody_eq o happroved hcommit)).bind ?_
  rintro _ _ ⟨rfl, rfl⟩
  refine goes_ensure h ?_ hs hafter
  refine ensureExistingExact_self ?_
  simp only [Valid.resultMembers, List.map_cons, List.map_nil]
  decide

-- == resuming

structure Runnable (L : Libraries) (requests : PyStr → Option RequestFile) (name : PyStr)
    (request : Json) (now : Option Rat) : Prop where
  size : checkSize requests name = .ok ()
  content : contentOf requests name = .ok request
  validated : validateRequest L request now = .ok ()
  allowed : approved request = true

/-- The steps go through files that are compatible with what they end with, whatever part of it
is there. -/
theorem goes_pipeline (w : Valid request) {now : Option Rat} {s : Store}
    (hrun : Runnable L requests name request now) (hcommit : isSha40 commit = true)
    (hs : (outputsOf L name commit o w).Compatible s) :
    Goes ((outputsOf L name commit o w).Towards s)
      (fun _ s' => s' = (outputsOf L name commit o w).put s) s
      (pipeline L requests name o now (markerPathFor L request) commit) := by
  have hintent : (outputsOf L name commit o w).expected (.intent name)
      = some (intendedBody L request o).json := if_pos rfl
  have hmarker : (outputsOf L name commit o w).expected (.marker (markerPathFor L request))
      = some (markerBody L request w.payload).json := if_pos rfl
  have hresult : (outputsOf L name commit o w).expected (.result name)
      = some (outputsOf L name commit o w).result := if_pos rfl
  have h₀ : (outputsOf L name commit o w).Towards s s := ⟨hs, rfl⟩
  have h₁ := Outputs.update hs hintent
  have h₂ := Outputs.update h₁.1 hmarker
  have h₃ := Outputs.update h₂.1 hresult
  have ht₂ : (outputsOf L name commit o w).Towards s _ := ⟨h₂.1, h₂.2.trans h₁.2⟩
  have ht₃ : (outputsOf L name commit o w).Towards s _ := ⟨h₃.1, h₃.2.trans ht₂.2⟩
  refine (goes_prepareFile w hrun.size hrun.content hrun.validated hrun.allowed
    (hs _ _ hintent) h₀ h₁).bind ?_
  rintro _ _ rfl
  refine (goes_executeFile w hrun.content hrun.allowed (Function.update_self ..)
    (h₁.1 _ _ hmarker) h₁ ht₂).bind ?_
  rintro _ _ rfl
  refine (goes_recordFile w hrun.content hrun.allowed hcommit ?_ (Function.update_self ..)
    (h₂.1 _ _ hresult) ht₂ ht₃).imp (fun _ h => h) ?_ (fun _ _ h => h)
  · rw [Function.update_of_ne (by simp), Function.update_self]
  · rintro _ _ rfl
    rw [← ht₃.2]
    refine (Outputs.put_eq fun slot v hslot => ?_).symm
    cases slot with
    | intent name' =>
      obtain ⟨rfl, hv⟩ := Option.ite_none_right_eq_some.mp hslot
      cases hv
      rw [Function.update_of_ne (by simp), Function.update_of_ne (by simp)]
      exact Function.update_self ..
    | marker path =>
      obtain ⟨rfl, hv⟩ := Option.ite_none_right_eq_some.mp hslot
      cases hv
      rw [Function.update_of_ne (by simp)]
      exact Function.update_self ..
    | result name' =>
      obtain ⟨rfl, hv⟩ := Option.ite_none_right_eq_some.mp hslot
      cases hv
      exact Function.update_self ..

/-- However often the steps for an allowed request are stopped and started again while it has not
expired, they end with the files of a run that was not stopped, unless one of these files is
something else. -/
def Resumable (L : Libraries) (requests : PyStr → Option RequestFile) : Prop :=
  ∀ (name commit : PyStr) (o : Options) (request : Json) (w : Valid request)
    (now now' : Option Rat) (s : Store) (n : Nat), Runnable L requests name request now →
    Runnable L requests name request now' → isSha40 commit = true →
    (outputsOf L name commit o w).Compatible s →
    (∃ reused, (pipeline L requests name o now (markerPathFor L request) commit).run s
        = (.ok reused, (outputsOf L name commit o w).put s))
      ∧ ∃ reused, (pipeline L requests name o now' (markerPathFor L request) commit).run
          ((pipeline L requests name o now (markerPathFor L request) commit).cut n s)
        = (.ok reused, (outputsOf L name commit o w).put s)

theorem resumable (L : Libraries) (requests : PyStr → Option RequestFile) :
    Resumable L requests := by
  intro name commit o request w now now' s n hrun hrun' hcommit hs
  have hends : ∀ {now : Option Rat} {s : Store}, Runnable L requests name request now →
      (outputsOf L name commit o w).Compatible s →
      ∃ reused, (pipeline L requests name o now (markerPathFor L request) commit).run s
        = (.ok reused, (outputsOf L name commit o w).put s) := by
    intro now s hrun hs
    have hthrough := (goes_pipeline w hrun hcommit hs).run fun _ _ => trivial
    split at hthrough
    · next reused s' heq => exact ⟨reused, by rw [heq, hthrough]⟩
    · exact hthrough.elim
  have hcut : (outputsOf L name commit o w).Towards s
      ((pipeline L requests name o now (markerPathFor L request) commit).cut n s) :=
    (goes_pipeline w hrun hcommit hs).cut n ⟨hs, rfl⟩ fun _ _ => trivial
  obtain ⟨reused, hreused⟩ := hends hrun' hcut.1
  exact ⟨hends hrun hs, reused, by rw [hreused, hcut.2]⟩

/-- One marker for a provider idempotency key, over every interleaving of steps; and the steps for
a request can be resumed from wherever they stopped. -/
theorem one_marker (L : Libraries) (requests : PyStr → Option RequestFile) (hL : CollisionFree L)
    (schedule : List (Sched Call)) : OneMarker L requests schedule ∧ Resumable L requests :=
  ⟨oneMarker hL schedule, resumable L requests⟩

namespace Sample

def directory (name : PyStr) : Option RequestFile :=
  if name = py "r.json" then some ⟨400, some allowed⟩ else none

theorem runnable : Runnable libraries directory (py "r.json") allowed (some 0) :=
  ⟨rfl, rfl, allowed_valid, by decide +kernel⟩

end Sample

theorem one_marker_sample : OneMarker Sample.libraries Sample.directory
      [.spawn 0 (.prepare (py "r.json") ⟨none, none⟩ (some 0)), .advance 0, .advance 0]
    ∧ ∃ s reused, (pipeline Sample.libraries Sample.directory (py "r.json") ⟨none, none⟩ (some 0)
      (markerPathFor Sample.libraries Sample.allowed) (List.replicate 40 48)).run
        (fun _ => none) = (.ok reused, s) := by
  obtain ⟨hone, hresumable⟩ := one_marker Sample.libraries Sample.directory (fun _ _ h => h)
    [.spawn 0 (.prepare (py "r.json") ⟨none, none⟩ (some 0)), .advance 0, .advance 0]
  obtain ⟨w⟩ := valid_of_validateRequest Sample.allowed_valid
  obtain ⟨reused, hrun⟩ := (hresumable _ (List.replicate 40 48) ⟨none, none⟩ _ w _ _
    (fun _ => none) 0 Sample.runnable Sample.runnable (by decide) fun _ _ _ => Or.inl rfl).1
  exact ⟨hone, _, reused, hrun⟩

end Centinal26.Provider
