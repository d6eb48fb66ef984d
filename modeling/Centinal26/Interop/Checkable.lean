/-
What a manifest has to be for its validation to return: every check is followed by what
makes it return, and the validation's condition is put together from these.
-/
import Centinal26.Interop.Validate

namespace Centinal26.Interop

open Py

-- == results

def Returns {α : Type} (r : Except PyErr α) : Prop := ∃ a, r = .ok a

/-- A computation that returns or raises what the handler of `ValueError` takes. -/
def Handled {α : Type} (r : Except PyErr α) : Prop :=
  ∀ e, r = .error e → ∃ message, e = .valueError message

section Results

variable {α β : Type}

theorem returns_ok (a : α) : Returns (.ok a : Except PyErr α) := ⟨a, rfl⟩

theorem not_returns_error (e : PyErr) : ¬ Returns (.error e : Except PyErr α) := by
  rintro ⟨a, h⟩
  cases h

variable {r : Except PyErr α} {f : α → Except PyErr β}

theorem returns_bind : Returns (r >>= f) ↔ Returns r ∧ ∀ a, r = .ok a → Returns (f a) := by
  constructor
  · intro h
    obtain ⟨b, hb⟩ := h
    obtain ⟨a, ha, hfa⟩ := of_bind_ok hb
    refine ⟨⟨a, ha⟩, fun a' ha' => ?_⟩
    rw [ha] at ha'
    cases ha'
    exact ⟨b, hfa⟩
  · intro h
    obtain ⟨⟨a, rfl⟩, hf⟩ := h
    exact hf a rfl

theorem handled_ok (a : α) : Handled (.ok a : Except PyErr α) := by
  intro e h
  cases h

theorem handled_bind : Handled (r >>= f) ↔ Handled r ∧ ∀ a, r = .ok a → Handled (f a) := by
  cases r with
  | ok a =>
    refine ⟨fun h => ⟨handled_ok a, fun a' ha' => ?_⟩, fun h => h.2 a rfl⟩
    cases ha'
    exact h
  | error e =>
    refine ⟨fun h => ⟨fun e' he' => ?_, fun a ha => ?_⟩, fun h e' he' => ?_⟩
    · cases he'
      exact h e rfl
    · cases ha
    · cases he'
      exact h.1 e rfl

end Results

-- == small checks

def IsText (value : Json) : Prop := ∃ s, value = .str s

theorem returns_matchable (value : Json) : Returns (matchable value) ↔ IsText value := by
  cases value with
  | str s => exact ⟨fun _ => ⟨s, rfl⟩, fun _ => returns_ok s⟩
  | _ =>
    refine ⟨fun h => absurd h (not_returns_error _), fun h => ?_⟩
    obtain ⟨s, hs⟩ := h
    cases hs

theorem returns_inSet (value : Json) (names : List String) :
    Returns (inSet value names) ↔ hashable value = true := by
  unfold inSet
  split
  · next h => exact ⟨fun _ => h, fun _ => returns_ok _⟩
  · next h => exact ⟨fun hr => absurd hr (not_returns_error _), fun hh => absurd hh h⟩

theorem returns_within (low high : Int) (value : Json) :
    Returns (within low high value) ↔ (number? value).isSome = true := by
  unfold within
  split
  · next n h =>
    rw [h]
    exact ⟨fun _ => rfl, fun _ => returns_ok _⟩
  · next h =>
    rw [h]
    exact ⟨fun hr => absurd hr (not_returns_error _), fun hh => (by cases hh)⟩

-- == timestamps

section Lease

variable (L : Library)

/-- A string that names no time, or one UTC has. -/
def IsTime (value : Json) : Prop :=
  ∃ s, value = .str s ∧ ∀ parsed offset, L.fromisoformat s = .ok parsed →
    parsed.offset = some offset → 0 ≤ parsed.reading - offset ∧ parsed.reading - offset ≤ maxInstant

theorem handled_parseDatetime (value : Json) :
    Handled (parseDatetime L value) ↔ IsTime L value := by
  cases value with
  | str s =>
    cases hparse : L.fromisoformat s with
    | error message =>
      simp only [parseDatetime, hparse]
      refine ⟨fun _ => ⟨s, rfl, fun parsed offset h => ?_⟩, fun _ e he => ?_⟩
      · rw [hparse] at h
        cases h
      · cases he
        exact ⟨message, rfl⟩
    | ok parsed =>
      obtain ⟨reading, offset⟩ := parsed
      cases offset with
      | none =>
        simp only [parseDatetime, hparse]
        refine ⟨fun _ => ⟨s, rfl, fun parsed offset h ho => ?_⟩, fun _ e he => ?_⟩
        · rw [hparse] at h
          cases h
          cases ho
        · cases he
          exact ⟨_, rfl⟩
      | some offset =>
        simp only [parseDatetime, hparse, astimezone, Option.isNone_some,
          Bool.false_eq_true, if_false]
        split
        · next hrange =>
          refine ⟨fun _ => ⟨s, rfl, fun parsed o h ho => ?_⟩, fun _ => handled_ok _⟩
          rw [hparse] at h
          cases h
          cases ho
          exact hrange
        · next hrange =>
          refine ⟨fun h => ?_, fun h => ?_⟩
          · obtain ⟨message, hm⟩ := h _ rfl
            cases hm
          · obtain ⟨s', hs', h⟩ := h
            cases hs'
            exact absurd (h _ _ hparse rfl) hrange
  | _ =>
    refine ⟨fun h => ?_, fun h => ?_⟩
    · obtain ⟨message, hm⟩ := h _ rfl
      cases hm
    · obtain ⟨s, hs, -⟩ := h
      cases hs

/-- A number, and no integer too large for a float. -/
def IsGrace (value : Json) : Prop :=
  (number? value).isSome = true ∧ ∀ n, value = .int n → n.natAbs < floatLimit

theorem handled_addGrace (seconds : PyFloat) (grace : Json) :
    Handled (addGrace L seconds grace) ↔ IsGrace grace := by
  have hraises : ∀ {α : Type} {e : PyErr}, (∀ message, e ≠ .valueError message) →
      ¬ Handled (.error e : Except PyErr α) := by
    intro α e hne h
    obtain ⟨message, hm⟩ := h e rfl
    exact hne message hm
  unfold addGrace IsGrace
  cases grace with
  | bool b => exact ⟨fun _ => ⟨rfl, nofun⟩, fun _ => handled_ok _⟩
  | float x => exact ⟨fun _ => ⟨rfl, nofun⟩, fun _ => handled_ok _⟩
  | int n =>
    by_cases hn : n.natAbs < floatLimit
    · simp only [hn, if_true]
      refine ⟨fun _ => ⟨rfl, fun m h => ?_⟩, fun _ => handled_ok _⟩
      cases h
      exact hn
    · simp only [hn, if_false]
      exact ⟨fun h => absurd h (hraises fun _ => nofun), fun h => absurd (h.2 n rfl) hn⟩
  | _ => exact ⟨fun h => absurd h (hraises fun _ => nofun), fun h => (by cases h.1)⟩

def HealthLease.Checkable (lease : HealthLease) : Prop :=
  IsTime L lease.issuedAt ∧ ∀ issued, parseDatetime L lease.issuedAt = .ok issued →
    IsTime L lease.expiresAt ∧ ∀ expires, parseDatetime L lease.expiresAt = .ok expires →
      IsTime L lease.lastSeenAt ∧ ∀ seen, parseDatetime L lease.lastSeenAt = .ok seen →
        lease.status.isLive = true → IsGrace lease.graceS

theorem returns_orInvalid (r : Except PyErr (List PyStr)) : Returns (orInvalid r) ↔ Handled r := by
  cases r with
  | ok errors => exact ⟨fun _ => handled_ok _, fun _ => returns_ok _⟩
  | error e =>
    cases e with
    | valueError message =>
      refine ⟨fun _ e he => ?_, fun _ => returns_ok _⟩
      cases he
      exact ⟨message, rfl⟩
    | _ =>
      refine ⟨fun h => absurd h (not_returns_error _), fun h => ?_⟩
      obtain ⟨message, hm⟩ := h _ rfl
      cases hm

theorem returns_healthErrors (lease : HealthLease) (now : Int) :
    Returns (healthErrors L lease now) ↔ lease.Checkable L := by
  unfold healthErrors leaseErrors HealthLease.Checkable
  rw [returns_orInvalid, handled_bind, handled_parseDatetime]
  refine and_congr_right' (forall_congr' fun issued => imp_congr_right fun _ => ?_)
  rw [handled_bind, handled_parseDatetime]
  refine and_congr_right' (forall_congr' fun expires => imp_congr_right fun _ => ?_)
  rw [handled_bind, handled_parseDatetime]
  refine and_congr_right' (forall_congr' fun seen => imp_congr_right fun _ => ?_)
  by_cases hlive : lease.status.isLive = true
  · simp only [hlive, if_true, forall_const]
    rw [handled_bind, handled_addGrace]
    exact ⟨fun h => h.1, fun h => ⟨h, fun _ _ => handled_ok _⟩⟩
  · simp only [hlive]
    exact ⟨fun _ h => absurd h (by simp), fun _ => handled_ok _⟩

end Lease

-- == capabilities

structure CapabilityDescriptor.Checkable (c : CapabilityDescriptor) : Prop where
  capabilityId : IsText c.capabilityId
  sideEffects : hashable c.sideEffects = true
  verification : hashable c.verification = true
  timeoutMs : (number? c.timeoutMs).isSome = true
  concurrencyLimit : (number? c.concurrencyLimit).isSome = true

section Capabilities

variable (adapterId : Json) (descriptor : Option AdapterDescriptor) (granted : List PyStr)

theorem returns_capabilityErrors (seen : List PyStr) (c : CapabilityDescriptor) :
    Returns (capabilityErrors adapterId descriptor granted seen c) ↔ c.Checkable := by
  unfold capabilityErrors
  simp only [returns_bind, returns_matchable, returns_inSet, returns_within]
  constructor
  · intro h
    obtain ⟨hid, h⟩ := h
    obtain ⟨s, hs⟩ := hid
    have hmatch : matchable c.capabilityId = .ok s := by rw [hs]; rfl
    obtain ⟨hside, h⟩ := h s hmatch
    obtain ⟨a, ha⟩ := (returns_inSet _ ["none", "reversible", "irreversible"]).mpr hside
    obtain ⟨hver, h⟩ := h a ha
    obtain ⟨b, hb⟩ := (returns_inSet _ ["required", "optional", "none"]).mpr hver
    obtain ⟨htime, h⟩ := h b hb
    obtain ⟨t, ht⟩ := (returns_within 1 3600000 _).mpr htime
    exact ⟨⟨s, hs⟩, hside, hver, htime, (h t ht).1⟩
  · intro h
    exact ⟨h.capabilityId, fun _ _ => ⟨h.sideEffects, fun _ _ => ⟨h.verification,
      fun _ _ => ⟨h.timeoutMs, fun _ _ => ⟨h.concurrencyLimit, fun _ _ => returns_ok _⟩⟩⟩⟩⟩

theorem returns_capabilitiesErrors (cs : List CapabilityDescriptor) (seen : List PyStr) :
    Returns (capabilitiesErrors adapterId descriptor granted seen cs) ↔ ∀ c ∈ cs, c.Checkable := by
  induction cs generalizing seen with
  | nil => exact ⟨nofun, fun _ => returns_ok _⟩
  | cons c rest ih =>
    unfold capabilitiesErrors
    rw [returns_bind, returns_capabilityErrors, List.forall_mem_cons]
    refine and_congr_right fun hc => ?_
    obtain ⟨errors, herrors⟩ :=
      (returns_capabilityErrors adapterId descriptor granted seen c).mpr hc
    rw [herrors]
    constructor
    · intro h
      have hrest := h errors rfl
      rw [returns_bind, ih] at hrest
      exact hrest.1
    · intro h errors' _
      rw [returns_bind, ih]
      exact ⟨h, fun _ _ => returns_ok _⟩

end Capabilities

-- == manifests

/-- What a manifest that has been read has to be for its checks. -/
structure AdapterManifest.Checkable (L : Library) (m : AdapterManifest) : Prop where
  adapterId : IsText m.adapterId
  adapterType : hashable m.adapterType = true
  artifact : equals m.adapterType "executable" = true →
    m.artifact.sha256 = .null ∨ IsText m.artifact.sha256
  authType : hashable m.authProfile.authType = true
  capabilities : ∀ c ∈ m.capabilities, c.Checkable
  healthLease : m.healthLease.Checkable L

theorem returns_identityErrors (m : AdapterManifest) :
    Returns (identityErrors m) ↔ IsText m.adapterId ∧ hashable m.adapterType = true := by
  unfold identityErrors
  simp only [returns_bind, returns_matchable, returns_inSet]
  constructor
  · intro h
    obtain ⟨⟨s, hs⟩, h⟩ := h
    have hmatch : matchable m.adapterId = .ok s := by rw [hs]; rfl
    obtain ⟨hhash, h⟩ := h s hmatch
    obtain ⟨a, ha⟩ := (returns_inSet _ ["a2a", "mcp"]).mpr hhash
    exact ⟨⟨s, hs⟩, (h a ha).1⟩
  · intro h
    obtain ⟨⟨s, hs⟩, htype⟩ := h
    refine ⟨⟨s, hs⟩, fun _ _ => ⟨?_, fun _ _ => ⟨htype, fun _ _ => returns_ok _⟩⟩⟩
    rw [hs]
    rfl

theorem returns_artifactErrors (m : AdapterManifest) :
    Returns (artifactErrors m) ↔ (equals m.adapterType "executable" = true →
      m.artifact.sha256 = .null ∨ IsText m.artifact.sha256) := by
  unfold artifactErrors
  by_cases hexec : equals m.adapterType "executable" = true
  · simp only [hexec, if_true, forall_const]
    split
    · next h => exact ⟨fun _ => Or.inl h, fun _ => returns_ok _⟩
    · next h =>
      rw [returns_bind, returns_matchable]
      exact ⟨fun hr => Or.inr hr.1, fun hr => ⟨hr.resolve_left h, fun _ _ => returns_ok _⟩⟩
  · simp only [hexec]
    exact ⟨fun _ h => absurd h (by simp), fun _ => returns_ok _⟩

theorem returns_authErrors (m : AdapterManifest) :
    Returns (authErrors m) ↔ hashable m.authProfile.authType = true := by
  unfold authErrors
  rw [returns_bind, returns_inSet]
  exact ⟨fun h => h.1, fun h => ⟨h, fun _ _ => returns_ok _⟩⟩

theorem returns_manifestErrors (L : Library) (catalog : FederationCatalog) (now : Int)
    (m : AdapterManifest) : Returns (manifestErrors L catalog now m) ↔ m.Checkable L := by
  unfold manifestErrors
  simp only [returns_bind, returns_identityErrors, returns_artifactErrors, returns_authErrors,
    returns_capabilitiesErrors, returns_healthErrors]
  constructor
  · intro h
    obtain ⟨hid, h⟩ := h
    obtain ⟨a, ha⟩ := (returns_identityErrors m).mpr hid
    obtain ⟨hartifact, h⟩ := h a ha
    obtain ⟨b, hb⟩ := (returns_artifactErrors m).mpr hartifact
    obtain ⟨hauth, h⟩ := h b hb
    obtain ⟨c, hc⟩ := (returns_authErrors m).mpr hauth
    obtain ⟨hcaps, h⟩ := h c hc
    obtain ⟨d, hd⟩ := (returns_capabilitiesErrors m.adapterId
      (lookup catalog m.adapterId).toOption m.authProfile.scopes m.capabilities []).mpr hcaps
    exact ⟨hid.1, hid.2, hartifact, hauth, hcaps, (h d hd).1⟩
  · intro h
    exact ⟨⟨h.adapterId, h.adapterType⟩, fun _ _ => ⟨h.artifact, fun _ _ => ⟨h.authType,
      fun _ _ => ⟨h.capabilities, fun _ _ => ⟨h.healthLease, fun _ _ => returns_ok _⟩⟩⟩⟩⟩

/-- What a JSON object has to be for its validation: it nests no deeper than there are frames for,
and no value that is no member of an enumeration nests too deep for `repr`; where it reads as a
manifest, the members of that have the types the checks are made for, and there is a time to check
against. -/
def Checkable (L : Library) (now : Stamp) (raw : Members) : Prop :=
  height (.obj raw) ≤ L.frames ∧ (∀ e, manifestFromDict L raw = .error e → e ≠ .recursionError)
    ∧ ∀ m, manifestFromDict L raw = .ok m → Returns (astimezone L now) ∧ m.Checkable L

section Secrets

variable (L : Library)

mutual

/-- `_find_secret_keys` returns where the frames do for the values in one another. -/
theorem returns_findSecretKeys : ∀ (v : Json) (path : PyStr) (frames : Nat),
    Returns (findSecretKeys L path frames v) ↔ height v ≤ frames := by
  intro v path frames
  cases frames with
  | zero =>
    refine iff_of_false ?_ ?_
    · unfold findSecretKeys
      exact not_returns_error _
    · cases v <;> simp [height]
  | succ frames =>
    cases v with
    | obj d =>
      rw [findSecretKeys, height, returns_secretMembers d]
      omega
    | arr items =>
      rw [findSecretKeys, height, returns_secretItems items]
      omega
    | _ =>
      unfold findSecretKeys height
      exact iff_of_true (returns_ok _) (by omega)

theorem returns_secretMembers : ∀ (d : List (PyStr × Json)) (path : PyStr) (frames : Nat),
    Returns (secretMembers L path frames d) ↔ heightMembers d ≤ frames
  | [], path, frames => by
    rw [secretMembers, heightMembers]
    exact iff_of_true (returns_ok _) (Nat.zero_le _)
  | (key, child) :: rest, path, frames => by
    rw [secretMembers, heightMembers, returns_bind, returns_findSecretKeys child, Nat.max_le,
      ← returns_secretMembers rest path frames]
    refine and_congr_right fun hchild => ?_
    obtain ⟨below, hbelow⟩ := (returns_findSecretKeys child (path ++ py "." ++ key) frames).mpr
      hchild
    rw [hbelow]
    simp only [returns_bind, Except.ok.injEq, forall_eq']
    exact and_iff_left fun _ _ => returns_ok _

theorem returns_secretItems : ∀ (items : List Json) (path : PyStr) (index frames : Nat),
    Returns (secretItems L path index frames items) ↔ heightItems items ≤ frames
  | [], path, index, frames => by
    rw [secretItems, heightItems]
    exact iff_of_true (returns_ok _) (Nat.zero_le _)
  | child :: rest, path, index, frames => by
    rw [secretItems, heightItems, returns_bind, returns_findSecretKeys child, Nat.max_le,
      ← returns_secretItems rest path (index + 1) frames]
    refine and_congr_right fun hchild => ?_
    obtain ⟨below, hbelow⟩ := (returns_findSecretKeys child
      (path ++ py "[" ++ indexText index ++ py "]") frames).mpr hchild
    rw [hbelow]
    simp only [returns_bind, Except.ok.injEq, forall_eq']
    exact and_iff_left fun _ _ => returns_ok _

end

end Secrets

theorem returns_validateManifestDict (L : Library) (catalog : Option FederationCatalog)
    (now : Stamp) (raw : Members) :
    Returns (validateManifestDict L catalog now raw) ↔ Checkable L now raw := by
  unfold validateManifestDict Checkable
  rw [returns_bind, returns_findSecretKeys]
  refine and_congr_right fun hheight => ?_
  obtain ⟨hits, hhits⟩ := (returns_findSecretKeys L (.obj raw) (py "$") L.frames).mpr hheight
  rw [hhits]
  simp only [Except.ok.injEq, forall_eq']
  cases hm : manifestFromDict L raw with
  | error e =>
    cases e with
    | recursionError =>
      exact iff_of_false (not_returns_error _) fun h => h.1 _ rfl rfl
    | _ =>
      refine iff_of_true (returns_ok _) ⟨fun e h => ?_, fun m h => (by cases h)⟩
      cases h
      nofun
  | ok m =>
    show Returns (astimezone L now >>= fun now => _) ↔ _
    rw [returns_bind]
    constructor
    · intro h
      refine ⟨fun e he => (by cases he), fun m' hm' => ?_⟩
      cases hm'
      obtain ⟨⟨t, ht⟩, h⟩ := h
      have hfound := h t ht
      rw [returns_bind, returns_manifestErrors] at hfound
      exact ⟨⟨t, ht⟩, hfound.1⟩
    · intro h
      obtain ⟨htime, hcheck⟩ := h.2 m rfl
      refine ⟨htime, fun t _ => ?_⟩
      rw [returns_bind, returns_manifestErrors]
      exact ⟨hcheck, fun _ _ => returns_ok _⟩

end Centinal26.Interop
