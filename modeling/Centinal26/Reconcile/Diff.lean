/-
The reconciliation ledger: what a control plane shows is compared with what it should show, and
the difference is the patch to bring it there.
-/
import Centinal26.Py.Typed

namespace Centinal26.Reconcile

open Py

-- == comparison

mutual

/-- The values are equal, where these are the numbers. -/
def eqBy (num? : Json → Option Py.Num) : Json → Json → Bool
  | .null, .null => true
  | .str s, .str t => decide (s = t)
  | .arr xs, .arr ys => eqListBy num? xs ys
  | .obj xs, .obj ys => xs.length == ys.length && eqMembersBy num? xs ys
  | .bool x, .bool y => x == y
  | a, b =>
    match num? a, num? b with
    | some x, some y => x.eq y
    | _, _ => false

def eqListBy (num? : Json → Option Py.Num) : List Json → List Json → Bool
  | [], [] => true
  | x :: xs, y :: ys => eqBy num? x y && eqListBy num? xs ys
  | _, _ => false

/-- Every member of the first object is one of the second. -/
def eqMembersBy (num? : Json → Option Py.Num) : Members → Members → Bool
  | [], _ => true
  | (k, v) :: rest, ys =>
    (match getItem? ys k with
      | some w => eqBy num? v w
      | none => false) && eqMembersBy num? rest ys

end

/-- A number, `True` and `False` included. -/
def looseNum : Json → Option Py.Num
  | .bool b => some (boolNum b)
  | .int n => some (.finite n)
  | .float x => some x.num
  | _ => none

def strictNum : Json → Option Py.Num
  | .int n => some (.finite n)
  | .float x => some x.num
  | _ => none

/-- `a == b`. -/
def pyEq : Json → Json → Bool := eqBy looseNum

def same : Json → Json → Bool := eqBy strictNum

-- == diff

def setTo (expected : Json) : Json := .obj [(py "op", .str (py "set")), (py "value", expected)]

/-- `{"op": "set", "value": expected, "observed": actual}`. -/
def setFrom (actual expected : Json) : Json :=
  .obj [(py "op", .str (py "set")), (py "value", expected), (py "observed", actual)]

mutual

/-- What the patch has for a key that is there, if anything. -/
def diffEntry (actual : Json) : Json → Option Json
  | .obj expected =>
    match actual with
    | .obj observed =>
      let nested := diffMembers observed expected
      if nested = [] then none else some (.obj nested)
    | _ => some (setFrom actual (.obj expected))
  | expected => if pyEq actual expected then none else some (setFrom actual expected)

def diffMembers (observed : Members) : Members → Members
  | [] => []
  | (k, expected) :: rest =>
    match getItem? observed k with
    | none => (k, setTo expected) :: diffMembers observed rest
    | some actual =>
      match diffEntry actual expected with
      | none => diffMembers observed rest
      | some entry => (k, entry) :: diffMembers observed rest

end

def diff : Json → Json → Members
  | .obj observed, .obj desired => diffMembers observed desired
  | observed, desired => if pyEq observed desired then [] else [(py "$", setTo desired)]

/-- The record says to set a value, and is no patch of an object. -/
def isSet (record : Members) : Bool := (field record "op").isStr (py "set")

mutual

/-- What an entry of the patch makes of a value. -/
def applyEntry : Json → Option Json → Json
  | .obj record, actual =>
    if isSet record then field record "value"
    else
      match actual with
      | some (.obj observed) => .obj (applyPatch record observed)
      | _ => .obj (applyPatch record [])
  | entry, _ => entry

def applyPatch : Members → Members → Members
  | [], observed => observed
  | (k, entry) :: rest, observed =>
    applyPatch rest (setItem observed k (applyEntry entry (getItem? observed k)))

end

-- == ledger

inductive ReconciliationState : Type
  | pending
  | applied
  | diverged
  | blocked
deriving DecidableEq

def ReconciliationState.value : ReconciliationState → String
  | pending => "PENDING"
  | applied => "APPLIED"
  | diverged => "DIVERGED"
  | blocked => "BLOCKED"

structure ControlPlaneSnapshot where
  adapterId : PyStr
  objectType : PyStr
  objectId : PyStr
  desired : Members
  observed : Members
  immutableEvidenceIdentity : PyStr
  observedAt : PyStr

def ControlPlaneSnapshot.asdict (s : ControlPlaneSnapshot) : Json :=
  .obj [(py "adapter_id", .str s.adapterId), (py "object_type", .str s.objectType),
    (py "object_id", .str s.objectId), (py "desired", .obj s.desired),
    (py "observed", .obj s.observed),
    (py "immutable_evidence_identity", .str s.immutableEvidenceIdentity),
    (py "observed_at", .str s.observedAt)]

/-- `identity`: the hash of the sorted document. -/
def ControlPlaneSnapshot.identity (H : Host) (s : ControlPlaneSnapshot) : Except PyErr Text := do
  .ok (H.sha256 (← encode (s.asdict.normalise.text .canonical)))

structure ReconciliationDecision where
  snapshotIdentity : Text
  state : ReconciliationState
  patch : Members
  reason : String
  evidenceIdentity : PyStr

structure SnapshotRow where
  snapshot : ControlPlaneSnapshot
  state : ReconciliationState
  decision : ReconciliationDecision
  recordedAt : Instant

structure MirrorRow where
  lastSnapshotIdentity : Text
  lastObserved : Members
  updatedAt : Instant

structure Ledger where
  snapshots : Dict Text SnapshotRow
  mirrors : Dict (PyStr × PyStr × PyStr) MirrorRow

def evaluate (H : Host) (now : Instant) (ledger : Ledger) (s : ControlPlaneSnapshot) :
    Except PyErr (ReconciliationDecision × Ledger) := do
  if isBlank s.immutableEvidenceIdentity then
    .error (.valueError "immutable execution evidence identity is required")
  else if isBlank s.adapterId || isBlank s.objectId then
    .error (.valueError "adapter_id and object_id are required")
  else
    let patch := diff (.obj s.observed) (.obj s.desired)
    let identity ← s.identity H
    let decision : ReconciliationDecision :=
      if patch = [] then
        ⟨identity, .applied, patch, "already converged", s.immutableEvidenceIdentity⟩
      else
        ⟨identity, .pending, patch, "control-plane mirror requires update",
          s.immutableEvidenceIdentity⟩
    .ok (decision, ⟨ledger.snapshots.set identity ⟨s, decision.state, decision, now⟩,
      ledger.mirrors⟩)

def markApplied (H : Host) (now : Instant) (ledger : Ledger) (s : ControlPlaneSnapshot)
    (observedAfter : Members) : Except PyErr (ReconciliationDecision × Ledger) := do
  let patch := diff (.obj observedAfter) (.obj s.desired)
  let identity ← s.identity H
  let decision : ReconciliationDecision :=
    if patch = [] then
      ⟨identity, .applied, patch, "post-write readback matches desired mirror state",
        s.immutableEvidenceIdentity⟩
    else
      ⟨identity, .diverged, patch, "post-write readback diverged from desired mirror state",
        s.immutableEvidenceIdentity⟩
  let snapshots :=
    match ledger.snapshots.get? identity with
    | some row => ledger.snapshots.set identity ⟨row.snapshot, decision.state, decision, now⟩
    | none => ledger.snapshots
  .ok (decision, ⟨snapshots,
    ledger.mirrors.set (s.adapterId, s.objectType, s.objectId) ⟨identity, observedAfter, now⟩⟩)

-- == agreement

mutual

/-- JSON has no NaN and no infinity, and an object no name twice. -/
def isProper : Json → Bool
  | .float (.finite _) => true
  | .float _ => false
  | .arr xs => allProper xs
  | .obj ms => decide ((ms.map Prod.fst).Nodup) && allProperMembers ms
  | _ => true

def allProper : List Json → Bool
  | [] => true
  | x :: xs => isProper x && allProper xs

def allProperMembers : Members → Bool
  | [] => true
  | (_, v) :: rest => isProper v && allProperMembers rest

end

structure JsonObject where
  members : Members
  proper : isProper (.obj members) = true

/-- The value reached through nested objects. -/
def atPath : Json → List PyStr → Option Json
  | v, [] => some v
  | .obj ms, k :: path => (getItem? ms k).bind fun v => atPath v path
  | _, _ :: _ => none

/-- An object is there where one is desired, and an equal value where a leaf is. -/
def Agrees (eq : Json → Json → Bool) (actual : Option Json) (expected : Json) : Prop :=
  (∀ e, expected = .obj e → ∃ a, actual = some (.obj a))
    ∧ ((∀ e, expected ≠ .obj e) → ∃ a, actual = some a ∧ eq a expected = true)

/-- Everything desired is observed, at the same path. -/
def Matches (eq : Json → Json → Bool) (observed desired : Json) : Prop :=
  ∀ path expected, atPath desired path = some expected → Agrees eq (atPath observed path) expected

-- == comparisons

section Comparisons

variable {num? : Json → Option Py.Num}

theorem eqMembersBy_iff {xs ys : Members} : eqMembersBy num? xs ys = true
      ↔ ∀ m ∈ xs, ∃ w, getItem? ys m.1 = some w ∧ eqBy num? m.2 w = true := by
  induction xs with
  | nil =>
    rw [eqMembersBy]
    exact iff_of_true rfl fun m hm => by cases hm
  | cons m rest ih =>
    rw [eqMembersBy, Bool.and_eq_true, ih, List.forall_mem_cons]
    refine and_congr_left fun _ => ?_
    cases getItem? ys m.1 with
    | none => simp
    | some w => simp

variable {ms : Members}

theorem allProperMembers_iff : allProperMembers ms = true ↔ ∀ m ∈ ms, isProper m.2 = true := by
  induction ms with
  | nil =>
    rw [allProperMembers]
    exact iff_of_true rfl fun m hm => by cases hm
  | cons m rest ih => rw [allProperMembers, Bool.and_eq_true, ih, List.forall_mem_cons]

theorem proper_obj (h : isProper (.obj ms) = true) :
    (ms.map Prod.fst).Nodup ∧ ∀ m ∈ ms, isProper m.2 = true := by
  rw [isProper, Bool.and_eq_true, decide_eq_true_eq, allProperMembers_iff] at h
  exact h

theorem getItem?_of_mem (h : (ms.map Prod.fst).Nodup) {m : PyStr × Json}
    (hm : m ∈ ms) : getItem? ms m.1 = some m.2 := by
  induction ms with
  | nil => cases hm
  | cons n rest ih =>
    obtain ⟨hn, hrest⟩ := List.nodup_cons.mp h
    rw [getItem?_cons]
    rcases List.mem_cons.mp hm with rfl | hm
    · rw [if_pos rfl]
    · have hne : n.1 ≠ m.1 := fun heq => hn (heq ▸ List.mem_map_of_mem hm)
      rw [if_neg hne]
      exact ih hrest hm

theorem mem_of_getItem? {k : PyStr} {v : Json} (h : getItem? ms k = some v) : (k, v) ∈ ms := by
  induction ms with
  | nil => cases h
  | cons n rest ih =>
    rw [getItem?_cons] at h
    split at h
    · next hk =>
      cases h
      rw [← hk]
      exact List.mem_cons_self
    · exact List.mem_cons_of_mem _ (ih h)

mutual

theorem pyEq_refl : ∀ v : Json, isProper v = true → eqBy looseNum v v = true
  | .null, _ => by rw [eqBy]
  | .bool b, _ => by rw [eqBy, beq_self_eq_true]
  | .int n, _ => by simp [eqBy, looseNum, Py.Num.eq]
  | .float x, h => by
    cases x with
    | nan => cases h
    | infinity => cases h
    | negInfinity => cases h
    | finite lit => simp [eqBy, looseNum, PyFloat.num, Py.Num.eq]
  | .str s, _ => by rw [eqBy, decide_eq_true rfl]
  | .arr xs, h => by
    rw [eqBy]
    exact pyEq_refl_list xs h
  | .obj ms, h => by
    rw [eqBy, beq_self_eq_true, Bool.true_and, eqMembersBy_iff]
    obtain ⟨hnodup, hproper⟩ := proper_obj h
    intro m hm
    exact ⟨m.2, getItem?_of_mem hnodup hm, pyEq_refl_members ms m hm (hproper m hm)⟩

theorem pyEq_refl_list : ∀ xs : List Json, allProper xs = true → eqListBy looseNum xs xs = true
  | [], _ => by rw [eqListBy]
  | x :: xs, h => by
    rw [allProper, Bool.and_eq_true] at h
    rw [eqListBy, pyEq_refl x h.1, pyEq_refl_list xs h.2]
    rfl

theorem pyEq_refl_members : ∀ ms : Members, ∀ m ∈ ms, isProper m.2 = true →
    eqBy looseNum m.2 m.2 = true
  | [], m, hm, _ => by cases hm
  | (k, v) :: rest, m, hm, h => by
    rcases List.mem_cons.mp hm with heq | hm
    · rw [heq] at h ⊢
      exact pyEq_refl v h
    · exact pyEq_refl_members rest m hm h

end

mutual

theorem pyEq_of_same : ∀ a b : Json, eqBy strictNum a b = true → eqBy looseNum a b = true
  | .null, b, h => by
    cases b <;> first | rfl | (simp [eqBy, strictNum] at h)
  | .bool x, b, h => by
    cases b <;> first | exact h | (simp [eqBy, strictNum] at h)
  | .int n, b, h => by
    cases b <;> first | exact h | (simp [eqBy, strictNum] at h)
  | .float x, b, h => by
    cases b <;> first | exact h | (simp [eqBy, strictNum] at h)
  | .str s, b, h => by cases b <;> exact h
  | .arr xs, b, h => by
    cases b with
    | arr ys =>
      rw [eqBy] at h ⊢
      exact pyEq_of_same_list xs ys h
    | _ => simp [eqBy, strictNum] at h
  | .obj xs, b, h => by
    cases b with
    | obj ys =>
      rw [eqBy, Bool.and_eq_true, eqMembersBy_iff] at h
      rw [eqBy, Bool.and_eq_true, eqMembersBy_iff]
      refine ⟨h.1, fun m hm => ?_⟩
      obtain ⟨w, hw, heq⟩ := h.2 m hm
      exact ⟨w, hw, pyEq_of_same_members xs m hm w heq⟩
    | _ => simp [eqBy, strictNum] at h

theorem pyEq_of_same_list : ∀ xs ys : List Json, eqListBy strictNum xs ys = true →
    eqListBy looseNum xs ys = true
  | [], ys, h => by
    cases ys with
    | nil => rw [eqListBy]
    | cons y ys => simp [eqListBy] at h
  | x :: xs, ys, h => by
    cases ys with
    | nil => simp [eqListBy] at h
    | cons y ys =>
      rw [eqListBy, Bool.and_eq_true] at h
      rw [eqListBy, pyEq_of_same x y h.1, pyEq_of_same_list xs ys h.2]
      rfl

theorem pyEq_of_same_members : ∀ ms : Members, ∀ m ∈ ms, ∀ w, eqBy strictNum m.2 w = true →
    eqBy looseNum m.2 w = true
  | [], m, hm, _, _ => by cases hm
  | (k, v) :: rest, m, hm, w, h => by
    rcases List.mem_cons.mp hm with heq | hm
    · rw [heq] at h ⊢
      exact pyEq_of_same v w h
    · exact pyEq_of_same_members rest m hm w h

end

end Comparisons

-- == empty

section Diff

variable {actual expected : Json} {observed desired : Members}

theorem diffEntry_obj : diffEntry (.obj observed) (.obj desired)
    = if diffMembers observed desired = [] then none
      else some (.obj (diffMembers observed desired)) := by
  rw [diffEntry]

theorem diffEntry_absent (h : ∀ a, actual ≠ .obj a) :
    diffEntry actual (.obj desired) = some (setFrom actual (.obj desired)) := by
  unfold diffEntry
  cases actual with
  | obj a => exact absurd rfl (h a)
  | _ => rfl

theorem diffEntry_leaf (h : ∀ e, expected ≠ .obj e) : diffEntry actual expected
      = if pyEq actual expected then none else some (setFrom actual expected) := by
  cases expected with
  | obj e => exact absurd rfl (h e)
  | _ =>
    rw [diffEntry]
    exact h

theorem diffMembers_nil : diffMembers observed desired = []
    ↔ ∀ m ∈ desired, ∃ a, getItem? observed m.1 = some a ∧ diffEntry a m.2 = none := by
  induction desired with
  | nil =>
    rw [diffMembers]
    exact iff_of_true rfl fun m hm => by cases hm
  | cons m rest ih =>
    rw [diffMembers, List.forall_mem_cons, ← ih]
    cases getItem? observed m.1 with
    | none => simp
    | some a => cases hentry : diffEntry a m.2 <;> simp [hentry]

variable {path : List PyStr} {eq : Json → Json → Bool}

theorem atPath_cons {ms : Members} {k : PyStr} :
    atPath (.obj ms) (k :: path) = (getItem? ms k).bind fun v => atPath v path := by
  rw [atPath]

theorem atPath_leaf (h : ∀ e, expected ≠ .obj e) {v : Json}
    (hv : atPath expected path = some v) : path = [] ∧ v = expected := by
  cases path with
  | nil =>
    rw [atPath] at hv
    exact ⟨rfl, (Option.some.inj hv).symm⟩
  | cons k path =>
    unfold atPath at hv
    cases expected with
    | obj e => exact absurd rfl (h e)
    | _ => cases hv

theorem matches_leaf (h : ∀ e, expected ≠ .obj e) :
    Matches eq actual expected ↔ eq actual expected = true := by
  constructor
  · intro hmatches
    obtain ⟨a, ha, heq⟩ := (hmatches [] expected (by rw [atPath])).2 h
    rw [atPath] at ha
    cases ha
    exact heq
  · intro heq path v hv
    obtain ⟨rfl, rfl⟩ := atPath_leaf h hv
    exact ⟨fun e he => absurd he (h e), fun _ => ⟨actual, by rw [atPath], heq⟩⟩

theorem not_matches_obj (h : ∀ a, actual ≠ .obj a) : ¬ Matches eq actual (.obj desired) := by
  intro hmatches
  obtain ⟨a, ha⟩ := (hmatches [] (.obj desired) (by rw [atPath])).1 desired rfl
  rw [atPath] at ha
  exact h a (Option.some.inj ha)

theorem matches_obj (hnodup : (desired.map Prod.fst).Nodup) :
    Matches eq (.obj observed) (.obj desired)
      ↔ ∀ m ∈ desired, ∃ a, getItem? observed m.1 = some a ∧ Matches eq a m.2 := by
  constructor
  · intro hmatches m hm
    have hget := getItem?_of_mem hnodup hm
    have hstep : ∀ path v, atPath m.2 path = some v →
        Agrees eq ((getItem? observed m.1).bind fun a => atPath a path) v := by
      intro path v hv
      have hpath := hmatches (m.1 :: path) v
      rw [atPath_cons, atPath_cons, hget] at hpath
      exact hpath hv
    cases ha : getItem? observed m.1 with
    | none =>
      -- the member itself is missing, whichever kind it is of
      exfalso
      have hself := hstep [] m.2 (by rw [atPath])
      rw [ha] at hself
      by_cases hobj : ∃ e, m.2 = .obj e
      · obtain ⟨e, he⟩ := hobj
        obtain ⟨a, hbad⟩ := hself.1 e he
        cases hbad
      · obtain ⟨a, hbad, -⟩ := hself.2 (not_exists.mp hobj)
        cases hbad
    | some a =>
      refine ⟨a, rfl, fun path v hv => ?_⟩
      have hself := hstep path v hv
      rwa [ha] at hself
  · intro hmembers path v hv
    cases path with
    | nil =>
      rw [atPath] at hv
      cases hv
      exact ⟨fun e _ => ⟨observed, by rw [atPath]⟩, fun h => absurd rfl (h desired)⟩
    | cons k path =>
      rw [atPath_cons] at hv ⊢
      cases hget : getItem? desired k with
      | none =>
        rw [hget] at hv
        cases hv
      | some e =>
        rw [hget] at hv
        obtain ⟨a, ha, hmatches⟩ := hmembers (k, e) (mem_of_getItem? hget)
        rw [ha]
        exact hmatches path v hv

theorem diffEntry_none_leaf (h : ∀ e, expected ≠ .obj e) :
    diffEntry actual expected = none ↔ Matches pyEq actual expected := by
  rw [diffEntry_leaf h, matches_leaf h]
  split
  · next heq => exact iff_of_true rfl heq
  · next heq => exact iff_of_false nofun heq

mutual

theorem diffEntry_none : ∀ expected : Json, isProper expected = true → ∀ actual,
    diffEntry actual expected = none ↔ Matches pyEq actual expected
  | .obj desired, h, actual => by
    obtain ⟨hnodup, hproper⟩ := proper_obj h
    by_cases hobj : ∃ observed, actual = .obj observed
    · obtain ⟨observed, rfl⟩ := hobj
      have hmembers : diffMembers observed desired = []
          ↔ Matches pyEq (.obj observed) (.obj desired) := by
        rw [diffMembers_nil, matches_obj hnodup]
        refine forall₂_congr fun m hm => exists_congr fun a => and_congr_right fun _ => ?_
        exact diffEntry_none_members desired m hm (hproper m hm) a
      rw [← hmembers, diffEntry_obj]
      split
      · next hnil => exact iff_of_true rfl hnil
      · next hnil => exact iff_of_false nofun hnil
    · have hleaf := not_exists.mp hobj
      rw [diffEntry_absent hleaf]
      exact iff_of_false nofun (not_matches_obj hleaf)
  | .null, _, actual => diffEntry_none_leaf nofun
  | .bool _, _, actual => diffEntry_none_leaf nofun
  | .int _, _, actual => diffEntry_none_leaf nofun
  | .float _, _, actual => diffEntry_none_leaf nofun
  | .str _, _, actual => diffEntry_none_leaf nofun
  | .arr _, _, actual => diffEntry_none_leaf nofun

theorem diffEntry_none_members : ∀ ms : Members, ∀ m ∈ ms, isProper m.2 = true → ∀ actual,
    diffEntry actual m.2 = none ↔ Matches pyEq actual m.2
  | [], m, hm, _, _ => by cases hm
  | (k, v) :: rest, m, hm, h, actual => by
    rcases List.mem_cons.mp hm with heq | hm
    · rw [heq] at h ⊢
      exact diffEntry_none v h actual
    · exact diffEntry_none_members rest m hm h actual

end

end Diff

-- == patch

section Patch

variable {observed desired : Members} {actual expected : Json}

/-- What the patch has for a key of the desired object. -/
def entryFor (observed : Members) (k : PyStr) (expected : Json) : Option Json :=
  match getItem? observed k with
  | none => some (setTo expected)
  | some actual => diffEntry actual expected

theorem diffMembers_cons {m : PyStr × Json} {rest : Members} : diffMembers observed (m :: rest)
      = (match entryFor observed m.1 m.2 with
        | none => diffMembers observed rest
        | some entry => (m.1, entry) :: diffMembers observed rest) := by
  rw [diffMembers]
  unfold entryFor
  cases getItem? observed m.1 with
  | none => rfl
  | some a => rfl

theorem keys_diffMembers : ((diffMembers observed desired).map Prod.fst).Sublist
    (desired.map Prod.fst) := by
  induction desired with
  | nil => rw [diffMembers]
  | cons m rest ih =>
    rw [diffMembers_cons]
    cases entryFor observed m.1 m.2 with
    | none => exact ih.cons _
    | some entry => exact ih.cons_cons _

theorem getItem?_diffMembers (hnodup : (desired.map Prod.fst).Nodup) (k : PyStr) :
    getItem? (diffMembers observed desired) k
      = (getItem? desired k).bind fun e => entryFor observed k e := by
  induction desired with
  | nil =>
    rw [diffMembers]
    rfl
  | cons m rest ih =>
    obtain ⟨hnew, hrest⟩ := List.nodup_cons.mp hnodup
    rw [diffMembers_cons, getItem?_cons]
    by_cases hk : m.1 = k
    · subst hk
      have hnone : getItem? (diffMembers observed rest) m.1 = none :=
        getItem?_of_not_mem fun h => hnew (keys_diffMembers.subset h)
      rw [if_pos rfl, Option.bind_some]
      cases entryFor observed m.1 m.2 with
      | none => exact hnone
      | some entry => rw [getItem?_cons, if_pos rfl]
    · rw [if_neg hk, ← ih hrest]
      cases entryFor observed m.1 m.2 with
      | none => rfl
      | some entry => rw [getItem?_cons, if_neg hk]

theorem getItem?_applyPatch {patch : Members} (hnodup : (patch.map Prod.fst).Nodup)
    (observed : Members) (k : PyStr) : getItem? (applyPatch patch observed) k
      = ((getItem? patch k).map fun entry => applyEntry entry (getItem? observed k)).or
        (getItem? observed k) := by
  induction patch generalizing observed with
  | nil =>
    rw [applyPatch]
    rfl
  | cons m rest ih =>
    obtain ⟨hnew, hrest⟩ := List.nodup_cons.mp hnodup
    rw [applyPatch, ih hrest, getItem?_setItem, getItem?_cons]
    by_cases hk : m.1 = k
    · subst hk
      rw [if_pos rfl, if_pos rfl, getItem?_of_not_mem hnew]
      rfl
    · rw [if_neg (Ne.symm hk), if_neg hk]

variable {a : Option Json} {entry : Json}

theorem applyEntry_setTo : applyEntry (setTo expected) a = expected := by
  simp [applyEntry, setTo, isSet, field, getItem?_cons, py_inj]

theorem applyEntry_setFrom : applyEntry (setFrom actual expected) a = expected := by
  simp [applyEntry, setFrom, isSet, field, getItem?_cons, py_inj]

theorem diffEntry_isObj (h : diffEntry actual expected = some entry) :
    ∃ record, entry = .obj record := by
  by_cases hobj : ∃ desired, expected = .obj desired
  · obtain ⟨desired, rfl⟩ := hobj
    by_cases hactual : ∃ observed, actual = .obj observed
    · obtain ⟨observed, rfl⟩ := hactual
      rw [diffEntry_obj] at h
      split at h
      · cases h
      · exact ⟨_, (Option.some.inj h).symm⟩
    · rw [diffEntry_absent (not_exists.mp hactual)] at h
      exact ⟨_, (Option.some.inj h).symm⟩
  · rw [diffEntry_leaf (not_exists.mp hobj)] at h
    split at h
    · cases h
    · exact ⟨_, (Option.some.inj h).symm⟩

/-- The patch of an object is not taken for a record, whatever keys are desired: what it has
under a key is an object and no string. -/
theorem not_isSet (hnodup : (desired.map Prod.fst).Nodup) :
    isSet (diffMembers observed desired) = false := by
  unfold isSet field
  rw [getItem?_diffMembers hnodup]
  cases getItem? desired (py "op") with
  | none => rfl
  | some e =>
    rw [Option.bind_some]
    cases hentry : entryFor observed (py "op") e with
    | none => rfl
    | some entry =>
      have hobj : ∃ record, entry = .obj record := by
        unfold entryFor at hentry
        split at hentry
        · exact ⟨_, (Option.some.inj hentry).symm⟩
        · exact diffEntry_isObj hentry
      obtain ⟨record, rfl⟩ := hobj
      rfl

theorem applyEntry_nested (hnodup : (desired.map Prod.fst).Nodup) :
    applyEntry (.obj (diffMembers observed desired)) (some (.obj observed))
      = .obj (applyPatch (diffMembers observed desired) observed) := by
  rw [applyEntry, not_isSet hnodup]
  rfl

theorem proper_atPath {path : List PyStr} {v : Json} (h : isProper expected = true)
    (hv : atPath expected path = some v) : isProper v = true := by
  induction path generalizing expected with
  | nil =>
    rw [atPath] at hv
    exact Option.some.inj hv ▸ h
  | cons k path ih =>
    cases expected with
    | obj ms =>
      rw [atPath_cons] at hv
      obtain ⟨e, he, hv⟩ := Option.bind_eq_some_iff.mp hv
      exact ih ((proper_obj h).2 _ (mem_of_getItem? he)) hv
    | _ => cases hv

theorem diffEntry_refl (h : isProper expected = true) : diffEntry expected expected = none := by
  refine (diffEntry_none expected h expected).mpr fun path v hv => ?_
  exact ⟨fun e he => ⟨e, he ▸ hv⟩, fun _ => ⟨v, hv, pyEq_refl v (proper_atPath h hv)⟩⟩

theorem getItem?_patched (hnodup : (desired.map Prod.fst).Nodup) (k : PyStr) :
    getItem? (applyPatch (diffMembers observed desired) observed) k
      = (((getItem? desired k).bind fun e => entryFor observed k e).map fun entry =>
          applyEntry entry (getItem? observed k)).or (getItem? observed k) := by
  rw [getItem?_applyPatch (keys_diffMembers.nodup hnodup), getItem?_diffMembers hnodup]

theorem patched_members (h : isProper (.obj desired) = true)
    (hstep : ∀ m ∈ desired, ∀ a entry, diffEntry a m.2 = some entry →
      diffEntry (applyEntry entry (some a)) m.2 = none) :
    diffMembers (applyPatch (diffMembers observed desired) observed) desired = [] := by
  obtain ⟨hnodup, hproper⟩ := proper_obj h
  refine diffMembers_nil.mpr fun m hm => ?_
  rw [getItem?_patched hnodup, getItem?_of_mem hnodup hm, Option.bind_some]
  unfold entryFor
  cases getItem? observed m.1 with
  | none => exact ⟨m.2, congrArg some applyEntry_setTo, diffEntry_refl (hproper m hm)⟩
  | some a =>
    dsimp only
    cases hentry : diffEntry a m.2 with
    | none => exact ⟨a, rfl, hentry⟩
    | some entry => exact ⟨_, rfl, hstep m hm a entry hentry⟩

theorem patched_leaf (hproper : isProper expected = true) (hleaf : ∀ e, expected ≠ .obj e)
    (h : diffEntry actual expected = some entry) :
    diffEntry (applyEntry entry (some actual)) expected = none := by
  rw [diffEntry_leaf hleaf] at h
  split at h
  · cases h
  · cases h
    rw [applyEntry_setFrom]
    exact diffEntry_refl hproper

mutual

theorem patched_entry : ∀ expected : Json, isProper expected = true → ∀ actual entry,
    diffEntry actual expected = some entry →
    diffEntry (applyEntry entry (some actual)) expected = none
  | .obj desired, h, actual, entry, hentry => by
    by_cases hobj : ∃ observed, actual = .obj observed
    · obtain ⟨observed, rfl⟩ := hobj
      rw [diffEntry_obj] at hentry
      split at hentry
      · cases hentry
      · cases hentry
        rw [applyEntry_nested (proper_obj h).1, diffEntry_obj, if_pos (patched_members h fun m hm =>
            patched_entry_members desired m hm ((proper_obj h).2 m hm))]
    · rw [diffEntry_absent (not_exists.mp hobj)] at hentry
      cases hentry
      rw [applyEntry_setFrom]
      exact diffEntry_refl h
  | .null, h, _, _, hentry => patched_leaf h nofun hentry
  | .bool _, h, _, _, hentry => patched_leaf h nofun hentry
  | .int _, h, _, _, hentry => patched_leaf h nofun hentry
  | .float _, h, _, _, hentry => patched_leaf h nofun hentry
  | .str _, h, _, _, hentry => patched_leaf h nofun hentry
  | .arr _, h, _, _, hentry => patched_leaf h nofun hentry

theorem patched_entry_members : ∀ ms : Members, ∀ m ∈ ms, isProper m.2 = true →
    ∀ actual entry, diffEntry actual m.2 = some entry →
    diffEntry (applyEntry entry (some actual)) m.2 = none
  | [], m, hm, _, _, _, _ => by cases hm
  | (k, v) :: rest, m, hm, h, actual, entry, hentry => by
    rcases List.mem_cons.mp hm with heq | hm
    · rw [heq] at h hentry ⊢
      exact patched_entry v h actual entry hentry
    · exact patched_entry_members rest m hm h actual entry hentry

end

theorem diff_patched (h : isProper (.obj desired) = true) :
    diffMembers (applyPatch (diffMembers observed desired) observed) desired = [] :=
  patched_members h fun m hm => patched_entry m.2 ((proper_obj h).2 m hm)

theorem patched_frame {path : List PyStr} {inner outer : Members} {k : PyStr}
    (h : isProper (.obj desired) = true) (hdesired : atPath (.obj desired) path = some (.obj inner))
    (hobserved : atPath (.obj observed) path = some (.obj outer)) (hk : getItem? inner k = none) :
    atPath (.obj (applyPatch (diffMembers observed desired) observed)) (path ++ [k])
      = atPath (.obj observed) (path ++ [k]) := by
  induction path generalizing observed desired with
  | nil =>
    rw [atPath] at hdesired
    cases hdesired
    rw [List.nil_append, atPath_cons, atPath_cons, getItem?_patched (proper_obj h).1, hk]
    rfl
  | cons j path ih =>
    obtain ⟨hnodup, hproper⟩ := proper_obj h
    have hisObj : ∀ {v : Json} {ms : Members}, atPath v path = some (.obj ms) →
        ∃ ms', v = .obj ms' := by
      intro v ms hv
      by_contra hnot
      obtain ⟨-, hleaf⟩ := atPath_leaf (not_exists.mp hnot) hv
      exact hnot ⟨ms, hleaf.symm⟩
    rw [atPath_cons] at hdesired hobserved
    obtain ⟨e, he, hdesired⟩ := Option.bind_eq_some_iff.mp hdesired
    obtain ⟨a, ha, hobserved⟩ := Option.bind_eq_some_iff.mp hobserved
    obtain ⟨desired', rfl⟩ := hisObj hdesired
    obtain ⟨observed', rfl⟩ := hisObj hobserved
    have hinner := hproper _ (mem_of_getItem? he)
    rw [List.cons_append, atPath_cons, atPath_cons, getItem?_patched hnodup, he, ha,
      Option.bind_some]
    unfold entryFor
    rw [ha]
    dsimp only
    rw [diffEntry_obj]
    split
    · rfl
    · rw [Option.map_some, applyEntry_nested (proper_obj hinner).1]
      exact ih hinner hdesired hobserved

end Patch

-- == truthful

section Truthful

/-- Something desired is missing, of another kind, or not even equal for Python. -/
def Differs (observed desired : Json) : Prop :=
  ∃ path expected, atPath desired path = some expected
    ∧ ¬ Agrees pyEq (atPath observed path) expected

/-- Where a leaf is equal for Python it is the same value. -/
def Unconfused (observed desired : Json) : Prop :=
  ∀ path expected actual, atPath desired path = some expected → (∀ e, expected ≠ .obj e) →
    atPath observed path = some actual → pyEq actual expected = true →
    same actual expected = true

theorem Agrees.loose {actual : Option Json} {expected : Json} (h : Agrees same actual expected) :
    Agrees pyEq actual expected := by
  refine ⟨h.1, fun hleaf => ?_⟩
  obtain ⟨a, ha, heq⟩ := h.2 hleaf
  exact ⟨a, ha, pyEq_of_same a expected heq⟩

theorem not_differs {observed desired : Json} :
    ¬ Differs observed desired ↔ Matches pyEq observed desired := by
  unfold Differs Matches
  push Not
  rfl

theorem matches_same_iff {observed desired : Json} :
    (Matches pyEq observed desired ↔ Matches same observed desired)
      ↔ Differs observed desired ∨ Unconfused observed desired := by
  have hloose : Matches same observed desired → Matches pyEq observed desired :=
    fun h path expected hpath => (h path expected hpath).loose
  by_cases hmatches : Matches pyEq observed desired
  · have hdiffers : ¬ Differs observed desired := not_differs.mpr hmatches
    rw [or_iff_right hdiffers, iff_true_left hmatches]
    constructor
    · intro h path expected actual hpath hleaf hactual _
      obtain ⟨a, ha, heq⟩ := (h path expected hpath).2 hleaf
      rw [hactual] at ha
      cases ha
      exact heq
    · intro h path expected hpath
      refine ⟨(hmatches path expected hpath).1, fun hleaf => ?_⟩
      obtain ⟨a, ha, heq⟩ := (hmatches path expected hpath).2 hleaf
      exact ⟨a, ha, h path expected a hpath hleaf ha heq⟩
  · have hdiffers : Differs observed desired := by
      by_contra hnot
      exact hmatches (not_differs.mp hnot)
    exact iff_of_true (iff_of_false hmatches fun h => hmatches (hloose h)) (Or.inl hdiffers)

theorem diff_nil (observed desired : JsonObject) :
    diff (.obj observed.members) (.obj desired.members) = []
      ↔ Matches pyEq (.obj observed.members) (.obj desired.members) := by
  rw [← diffEntry_none _ desired.proper, diffEntry_obj]
  show diffMembers observed.members desired.members = [] ↔ _
  split
  · next h => exact iff_of_true h rfl
  · next h => exact iff_of_false h nofun

variable {H : Host} {now : Instant} {ledger ledger' : Ledger} {s : ControlPlaneSnapshot}

theorem evaluate_applied {decision : ReconciliationDecision}
    (h : evaluate H now ledger s = .ok (decision, ledger')) (hstate : decision.state = .applied) :
    diff (.obj s.observed) (.obj s.desired) = [] := by
  unfold evaluate at h
  split at h
  · cases h
  split at h
  · cases h
  obtain ⟨identity, -, h⟩ := of_bind_ok h
  cases h
  by_contra hne
  rw [if_neg hne] at hstate
  cases hstate

theorem markApplied_applied {observedAfter : Members} {decision : ReconciliationDecision}
    (h : markApplied H now ledger s observedAfter = .ok (decision, ledger'))
    (hstate : decision.state = .applied) : diff (.obj observedAfter) (.obj s.desired) = [] := by
  unfold markApplied at h
  obtain ⟨identity, -, h⟩ := of_bind_ok h
  cases h
  by_contra hne
  rw [if_neg hne] at hstate
  cases hstate

/-- The patch brings the mirror to where nothing differs and leaves the rest alone; what is
reported as applied really matches, exactly if no boolean is taken for a number. -/
theorem truthful_iff (observed desired : JsonObject) :
    ((diff (.obj observed.members) (.obj desired.members) = []
          ↔ Matches same (.obj observed.members) (.obj desired.members))
        ∧ (diff (.obj (applyPatch (diff (.obj observed.members) (.obj desired.members))
            observed.members)) (.obj desired.members) = []
          ∧ ∀ path inner outer k, atPath (.obj desired.members) path = some (.obj inner) →
            atPath (.obj observed.members) path = some (.obj outer) → getItem? inner k = none →
            atPath (.obj (applyPatch (diff (.obj observed.members) (.obj desired.members))
                observed.members)) (path ++ [k])
              = atPath (.obj observed.members) (path ++ [k]))
        ∧ ∀ (H : Host) (now : Instant) (ledger ledger' : Ledger) (s : ControlPlaneSnapshot)
          (decision : ReconciliationDecision), s.desired = desired.members →
          decision.state = .applied →
          (s.observed = observed.members ∧ evaluate H now ledger s = .ok (decision, ledger'))
            ∨ markApplied H now ledger s observed.members = .ok (decision, ledger') →
          Matches same (.obj observed.members) (.obj desired.members))
      ↔ Differs (.obj observed.members) (.obj desired.members)
        ∨ Unconfused (.obj observed.members) (.obj desired.members) := by
  rw [← matches_same_iff, diff_nil]
  constructor
  · exact fun h => h.1
  · intro h
    refine ⟨h, ⟨diff_patched desired.proper, fun path inner outer k hdesired hobserved hk => ?_⟩,
      fun H now ledger ledger' s decision hs hstate hreported => ?_⟩
    · exact patched_frame desired.proper hdesired hobserved hk
    · rw [← h, ← diff_nil, ← hs]
      rcases hreported with ⟨hobserved, hevaluate⟩ | hmark
      · rw [← hobserved]
        exact evaluate_applied hevaluate hstate
      · exact markApplied_applied hmark hstate

/-- A flag that should be on, and is shown as one. -/
theorem flag_confused :
    isProper (.obj [(py "a", .int 1)]) = true ∧ isProper (.obj [(py "a", .bool true)]) = true
      ∧ diff (.obj [(py "a", .int 1)]) (.obj [(py "a", .bool true)]) = []
      ∧ ¬ Matches same (.obj [(py "a", .int 1)]) (.obj [(py "a", .bool true)]) := by
  refine ⟨by decide, by decide, by decide, fun h => ?_⟩
  obtain ⟨a, ha, heq⟩ := (h [py "a"] (.bool true) rfl).2 fun e h => by cases h
  cases ha
  cases heq

end Truthful

end Centinal26.Reconcile
