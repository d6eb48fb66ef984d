/-
Bundles from strangers: what comes of any bytes in the place of the three members. Here the
interpreter's stack counts: what nests deeper than `json.loads` or `json.dumps` can go raises a
`RecursionError`, and the functions below are those of the round trip with that error.
-/
import Centinal26.Continuity.RoundTrip

namespace Centinal26.Continuity

open Py

-- == nesting

section Nesting

variable (toFloat : PyStr → PyFloat)

/-- What follows the name of a member and its colon. -/
def scanName (s : PyStr) : Except LoadsError PyStr := do
  let r ← expect 34 s
  let k ← scanString r
  let r ← expect 58 (skip k.2)
  .ok (skip r)

mutual

/-- How many containers the scanner opens in one another, up to the end of the value at the front
of a text or its first error. -/
def deepValue : Nat → PyStr → Nat
  | 0, _ => 0
  | _ + 1, [] => 0
  | n + 1, c :: r =>
    if c = 91 then 1 + if (skip r).head? = some 93 then 0 else deepItems n (skip r)
    else if c = 123 then 1 + if (skip r).head? = some 125 then 0 else deepMembers n (skip r)
    else 0

def deepItems : Nat → PyStr → Nat
  | 0, _ => 0
  | n + 1, s =>
    match scanValue toFloat n s with
    | .error _ => deepValue n s
    | .ok x =>
      match skip x.2 with
      | 44 :: rest => max (deepValue n s) (deepItems n (skip rest))
      | _ => deepValue n s

def deepMembers : Nat → PyStr → Nat
  | 0, _ => 0
  | n + 1, s =>
    match scanName s with
    | .error _ => 0
    | .ok r =>
      match scanValue toFloat n r with
      | .error _ => deepValue n r
      | .ok x =>
        match skip x.2 with
        | 44 :: rest => max (deepValue n r) (deepMembers n (skip rest))
        | _ => deepValue n r

end

end Nesting

/-- How deep `json.loads` and `json.dumps` get where they are called. -/
structure Stack where
  loads : Nat
  dumps : Nat

section Within

variable {α κ κ' : Type} (L : Libraries α κ κ') (S : Stack)

/-- The text of the bytes nests too deep to be read. -/
def tooDeep (b : ByteArray) : Bool :=
  match decodeUtf8 b with
  | some s => decide (¬ (s.head? = some 0xFEFF ∨ 0 ∈ s.take 2)
      ∧ S.loads < deepValue L.toFloat (2 * s.length + 2) (skip s))
  | none => false

/-- `json.loads` of bytes; those that are no plain UTF-8 are up to `other`. -/
def loadsWithin (b : ByteArray) : Except BytesError Json :=
  if tooDeep L S b then .error .recursion else loadsBytes L.toFloat L.other b

/-- `_canonical_json`. -/
def canonicalWithin (v : PyVal) : Except PyErr ByteArray :=
  if S.dumps < v.nesting then .error .recursionError else canonicalBytes v

def loadsJsonWithin (b : ByteArray) : Except BundleError Json :=
  (loadsWithin L S b).mapError fun e =>
    if e = .text .decode then .bundle "bundle JSON is invalid" else .loads e

def requireCanonicalWithin (value : Json) (bytes : ByteArray) : Except BundleError Unit := do
  let written ← (canonicalWithin S (loads value)).mapError .python
  if written ≠ bytes then .error (.bundle "bundle JSON is not canonical") else .ok ()

/-- `verify_signed_bundle` from the three members on. -/
def checkMembersWithin (key : κ') (manifestBytes proposalBytes signature : ByteArray) :
    Except BundleError Json := do
  if signature.size ≠ ed25519SignatureBytes then
    .error (.bundle "invalid Ed25519 signature length")
  else
    let manifest ← loadsJsonWithin L S manifestBytes
    let proposal ← loadsJsonWithin L S proposalBytes
    requireCanonicalWithin S manifest manifestBytes
    requireCanonicalWithin S proposal proposalBytes
    requireField manifest "schema" (py "frost.continuity.portable_bundle.v1")
      "unsupported portable bundle schema"
    requireField manifest "signature_algorithm" (py "Ed25519") "unsupported signature algorithm"
    requireField manifest "payload_member" (py "proposal.json") "unsupported payload member"
    requireField manifest "payload_sha256" (L.sha256 proposalBytes).str "proposal SHA-256 mismatch"
    runOpenssl (L.verify key manifestBytes signature)
    .ok proposal

/-- `verify_signed_bundle`, on a stack. -/
def verifySignedBundleWithin (bundlePath : Option α) (publicKey : Option κ') :
    Except BundleError Verified := do
  let key ← regularFile publicKey "public verification key"
  let bundle ← regularFile bundlePath "bundle"
  let (manifestBytes, proposalBytes, signature) ← readMembers L bundle
  let proposal ← checkMembersWithin L S key manifestBytes proposalBytes signature
  .ok ⟨(L.sha256File bundle).str, (L.sha256 proposalBytes).str, proposal⟩

/-- The bytes are read, and written again, on the stack there is. -/
structure Shallow (b : ByteArray) : Prop where
  read : tooDeep L S b = false
  written : ∀ q, loadsBytes L.toFloat L.other b = .ok q → (loads q).nesting ≤ S.dumps

/-- Where nothing is too deep, a bundle is checked as without a stack. -/
theorem checkMembersWithin_eq {key : κ'} {m p s : ByteArray} (hm : Shallow L S m)
    (hp : Shallow L S p) : checkMembersWithin L S key m p s = checkMembers L key m p s := by
  have hloads : ∀ {b : ByteArray}, Shallow L S b →
      loadsWithin L S b = loadsBytes L.toFloat L.other b := fun h =>
    if_neg (by rw [h.read]; decide)
  have hdumps : ∀ {b : ByteArray} {q : Json}, Shallow L S b →
      loadsBytes L.toFloat L.other b = .ok q →
      canonicalWithin S (loads q) = canonicalBytes (loads q) := fun h hq =>
    if_neg (Nat.not_lt.mpr (h.written _ hq))
  unfold checkMembersWithin checkMembers loadsJsonWithin loadsJson
  rw [hloads hm, hloads hp]
  cases hmq : loadsBytes L.toFloat L.other m with
  | error e => rfl
  | ok manifest =>
    cases hpq : loadsBytes L.toFloat L.other p with
    | error e => rfl
    | ok proposal =>
      unfold requireCanonicalWithin requireCanonical canonicalJson
      simp only [Except.mapError, bind_ok_eq, hdumps hm hmq, hdumps hp hpq]

end Within

variable {α κ κ' : Type} {L : Libraries α κ κ'} {S : Stack}

-- == members

/-- The archive has just the three members, plain and within their sizes. -/
structure Holds (L : Libraries α κ κ') (bundle : α) (m p s : ByteArray) : Prop where
  members : ∃ ms, L.unpack bundle = some ms ∧ ms.Perm [⟨py "manifest.json", m, true⟩,
    ⟨py "proposal.json", p, true⟩, ⟨py "manifest.sig", s, true⟩]
  manifest : m.size ≤ maxManifestBytes
  proposal : p.size ≤ maxProposalBytes
  signature : s.size ≤ maxSignatureBytes

variable {b m p s : ByteArray} {β : Type} {q : Json} {key : κ'}

theorem readBoundedMember_of_mem {ms : List Member} (hnodup : (ms.map Member.name).Nodup)
    {name : String} {limit : Nat} (hmem : ⟨py name, b, true⟩ ∈ ms)
    (hle : b.size ≤ limit) : readBoundedMember ms name limit = .ok b := by
  have hfind : (ms.find? fun x => decide (x.name = py name)) = some ⟨py name, b, true⟩ := by
    induction ms with
    | nil => cases hmem
    | cons x rest ih =>
      obtain ⟨hnew, hrest⟩ := List.nodup_cons.mp hnodup
      rw [List.find?_cons]
      rcases List.mem_cons.mp hmem with rfl | hmem
      · simp
      · have hne : x.name ≠ py name := by
          intro heq
          exact hnew (heq ▸ List.mem_map_of_mem (f := Member.name) hmem)
        rw [decide_eq_false hne]
        exact ih hrest hmem
  unfold readBoundedMember
  rw [hfind]
  simp only [not_true_eq_false, if_false, if_neg (not_lt.mpr hle)]

theorem Holds.read {bundle : α} (h : Holds L bundle m p s) :
    readMembers L bundle = .ok (m, p, s) := by
  obtain ⟨ms, hunpack, hperm⟩ := h.members
  have hnames : (ms.map Member.name).Perm required := hperm.map Member.name
  have hnodup : (ms.map Member.name).Nodup := hnames.nodup_iff.mpr (by decide)
  have hin : ∀ x ∈ [(⟨py "manifest.json", m, true⟩ : Member), ⟨py "proposal.json", p, true⟩,
      ⟨py "manifest.sig", s, true⟩], x ∈ ms := fun x hx => hperm.mem_iff.mpr hx
  unfold readMembers
  rw [hunpack]
  dsimp only
  rw [if_neg (not_not.mpr ⟨hnodup, List.isPerm_iff.mpr hnames⟩),
    readBoundedMember_of_mem hnodup (hin _ (by simp)) h.manifest, bind_ok_eq,
    readBoundedMember_of_mem hnodup (hin _ (by simp)) h.proposal, bind_ok_eq,
    readBoundedMember_of_mem hnodup (hin _ (by simp)) h.signature, bind_ok_eq]

-- == errors

/-- Nothing but a `ContinuityBundleError` is raised. -/
def RaisesOwn {β : Type} (r : Except BundleError β) : Prop :=
  ∀ e, r = .error e → ∃ message, e = .bundle message

theorem raisesOwn_ok (b : β) : RaisesOwn (.ok b : Except BundleError β) := by
  intro e h
  cases h

theorem raisesOwn_bundle (message : String) :
    RaisesOwn (.error (.bundle message) : Except BundleError β) := by
  intro e h
  cases h
  exact ⟨message, rfl⟩

theorem raisesOwn_bind {γ : Type} {r : Except BundleError β} {f : β → Except BundleError γ} :
    RaisesOwn (r >>= f) ↔ RaisesOwn r ∧ ∀ b, r = .ok b → RaisesOwn (f b) := by
  cases r with
  | error e =>
    constructor
    · refine fun h => ⟨fun e' he => h e' ?_, fun b hb => by cases hb⟩
      cases he
      rfl
    · intro h e' he
      cases he
      exact h.1 e rfl
  | ok b =>
    rw [bind_ok_eq]
    constructor
    · refine fun h => ⟨raisesOwn_ok b, fun b' hb => ?_⟩
      cases hb
      exact h
    · exact fun h => h.2 b rfl

theorem raisesOwn_runOpenssl (r : Except String β) : RaisesOwn (runOpenssl r) := by
  intro e h
  cases r with
  | ok b => cases h
  | error detail =>
    cases h
    exact ⟨_, rfl⟩

theorem raisesOwn_loadsJsonWithin : RaisesOwn (loadsJsonWithin L S b)
    ↔ loadsWithin L S b = .error (.text .decode) ∨ ∃ q, loadsWithin L S b = .ok q := by
  unfold loadsJsonWithin
  cases loadsWithin L S b with
  | ok q => exact iff_of_true (raisesOwn_ok q) (Or.inr ⟨q, rfl⟩)
  | error e =>
    by_cases he : e = .text .decode
    · subst he
      exact iff_of_true (raisesOwn_bundle _) (Or.inl rfl)
    · refine iff_of_false (fun h => ?_) ?_
      · obtain ⟨message, hmessage⟩ := h _ rfl
        dsimp only at hmessage
        rw [if_neg he] at hmessage
        cases hmessage
      · rintro (h | ⟨q, h⟩)
        · exact he (Except.error.inj h)
        · cases h

theorem loadsJsonWithin_ok_iff : loadsJsonWithin L S b = .ok q ↔ loadsWithin L S b = .ok q := by
  refine ⟨of_mapError_ok, fun h => ?_⟩
  rw [loadsJsonWithin, h]
  rfl

theorem requireCanonicalWithin_ok_iff {u : Unit} :
    requireCanonicalWithin S q b = .ok u ↔ canonicalWithin S (loads q) = .ok b := by
  unfold requireCanonicalWithin
  cases canonicalWithin S (loads q) with
  | error e => exact ⟨nofun, nofun⟩
  | ok w =>
    show (if w ≠ b then _ else _) = _ ↔ _
    by_cases hw : w = b
    · rw [if_neg (not_not.mpr hw), hw]
      exact iff_of_true rfl rfl
    · rw [if_pos hw]
      exact ⟨nofun, fun h => absurd (Except.ok.inj h) hw⟩

theorem raisesOwn_requireCanonical :
    RaisesOwn (requireCanonicalWithin S q b) ↔ ∃ w, canonicalWithin S (loads q) = .ok w := by
  unfold requireCanonicalWithin
  cases canonicalWithin S (loads q) with
  | ok w =>
    refine iff_of_true ?_ ⟨w, rfl⟩
    show RaisesOwn (if w ≠ b then _ else _)
    split
    · exact raisesOwn_bundle _
    · exact raisesOwn_ok _
  | error e =>
    refine iff_of_false (fun h => ?_) ?_
    · obtain ⟨message, hmessage⟩ := h _ rfl
      cases hmessage
    · rintro ⟨w, hw⟩
      cases hw

theorem raisesOwn_requireField {key : String} {expected : PyStr} {message : String} :
    RaisesOwn (requireField q key expected message) ↔ ∃ ms, q = .obj ms := by
  cases q with
  | obj ms =>
    refine iff_of_true ?_ ⟨ms, rfl⟩
    unfold requireField
    dsimp only
    split
    · exact raisesOwn_bundle _
    · exact raisesOwn_ok _
  | _ =>
    refine iff_of_false (fun h => ?_) ?_
    · obtain ⟨message, hmessage⟩ := h _ rfl
      cases hmessage
    · rintro ⟨ms, hms⟩
      cases hms

-- == checks

/-- The members are read and written again without an error of Python's, on the stack there is, as
far as it comes to that, and so is the manifest looked at. -/
def Tame (L : Libraries α κ κ') (S : Stack) (m p s : ByteArray) : Prop :=
  s.size ≠ ed25519SignatureBytes ∨ loadsWithin L S m = .error (.text .decode)
    ∨ ∃ manifest, loadsWithin L S m = .ok manifest ∧ (loadsWithin L S p = .error (.text .decode)
        ∨ ∃ proposal, loadsWithin L S p = .ok proposal
          ∧ ∃ w, canonicalWithin S (loads manifest) = .ok w
            ∧ (w ≠ m ∨ ∃ w', canonicalWithin S (loads proposal) = .ok w'
              ∧ (w' ≠ p ∨ ∃ ms, manifest = .obj ms)))

theorem raisesOwn_fields {manifest proposal : Json} : RaisesOwn (do
        requireField manifest "schema" (py "frost.continuity.portable_bundle.v1")
          "unsupported portable bundle schema"
        requireField manifest "signature_algorithm" (py "Ed25519") "unsupported signature algorithm"
        requireField manifest "payload_member" (py "proposal.json") "unsupported payload member"
        requireField manifest "payload_sha256" (L.sha256 p).str "proposal SHA-256 mismatch"
        runOpenssl (L.verify key m s)
        .ok proposal)
      ↔ ∃ ms, manifest = .obj ms := by
  constructor
  · exact fun h => raisesOwn_requireField.mp (raisesOwn_bind.mp h).1
  · intro hobj
    iterate 4 refine raisesOwn_bind.mpr ⟨raisesOwn_requireField.mpr hobj, fun _ _ => ?_⟩
    exact raisesOwn_bind.mpr ⟨raisesOwn_runOpenssl _, fun _ _ => raisesOwn_ok _⟩

theorem checkMembers_raises : RaisesOwn (checkMembersWithin L S key m p s) ↔ Tame L S m p s := by
  unfold checkMembersWithin Tame
  by_cases hlength : s.size ≠ ed25519SignatureBytes
  · rw [if_pos hlength]
    exact iff_of_true (raisesOwn_bundle _) (Or.inl hlength)
  rw [if_neg hlength, or_iff_right hlength, raisesOwn_bind, raisesOwn_loadsJsonWithin]
  simp only [loadsJsonWithin_ok_iff]
  cases hm : loadsWithin L S m with
  | error e => simp
  | ok manifest =>
    simp only [Except.ok.injEq, reduceCtorEq, exists_eq', or_true, true_and, forall_eq',
      false_or, exists_eq_left']
    rw [raisesOwn_bind, raisesOwn_loadsJsonWithin]
    simp only [loadsJsonWithin_ok_iff]
    cases hp : loadsWithin L S p with
    | error e => simp
    | ok proposal =>
      simp only [Except.ok.injEq, reduceCtorEq, exists_eq', or_true, true_and, forall_eq',
        false_or, exists_eq_left']
      rw [raisesOwn_bind, raisesOwn_requireCanonical]
      simp only [requireCanonicalWithin_ok_iff]
      cases hw : canonicalWithin S (loads manifest) with
      | error e => simp
      | ok w =>
        simp only [Except.ok.injEq, exists_eq', true_and, exists_eq_left']
        by_cases hwm : w = m
        · rw [or_iff_right (not_not.mpr hwm), raisesOwn_bind, raisesOwn_requireCanonical]
          simp only [requireCanonicalWithin_ok_iff, hwm, forall_const, raisesOwn_fields]
          cases hw' : canonicalWithin S (loads proposal) with
          | error e => simp
          | ok w' =>
            by_cases hwp : w' = p <;> simp [hwp]
        · simp [hwm]

theorem verify_raises {bundle : α} (h : Holds L bundle m p s) :
    RaisesOwn (verifySignedBundleWithin L S (some bundle) (some key))
      ↔ RaisesOwn (checkMembersWithin L S key m p s) := by
  unfold verifySignedBundleWithin
  simp only [regularFile, bind_ok_eq, h.read]
  show RaisesOwn (checkMembersWithin L S key m p s >>= _) ↔ _
  rw [raisesOwn_bind]
  exact and_iff_left fun _ _ => raisesOwn_ok _

/-- A bundle is verified or refused with the module's own error, exactly if its members are
tame. -/
theorem hostile_iff (L : Libraries α κ κ') (S : Stack) (key : κ') (bundle : α) (m p s : ByteArray)
    (h : Holds L bundle m p s) :
    RaisesOwn (verifySignedBundleWithin L S (some bundle) (some key)) ↔ Tame L S m p s :=
  (verify_raises h).trans checkMembers_raises

-- == a bundle of no object

/-- `[]`, as bytes. -/
def emptyArray : Text := Text.lit "[]"

/-- The stack that Python has by default. -/
def stack : Stack := ⟨994, 993⟩

def arrays : List Member := [⟨py "manifest.json", emptyArray.utf8, true⟩,
  ⟨py "proposal.json", emptyArray.utf8, true⟩, ⟨py "manifest.sig", blank, true⟩]

theorem holds_arrays : Holds flat arrays emptyArray.utf8 emptyArray.utf8 blank := by
  have hsize : emptyArray.utf8.size ≤ 8 := size_utf8_le emptyArray
  have hblank : blank.size = 64 := by
    unfold blank
    rw [List.size_toByteArray, List.length_replicate]
  refine ⟨⟨arrays, rfl, List.Perm.refl _⟩, hsize.trans (by decide), hsize.trans (by decide), ?_⟩
  rw [hblank]
  decide

theorem loads_emptyArray : loadsWithin flat stack emptyArray.utf8 = .ok (.arr []) := by
  unfold loadsWithin tooDeep loadsBytes
  rw [decodeUtf8_utf8]
  rfl

theorem canonical_emptyArray : canonicalWithin stack (loads (.arr [])) = .ok emptyArray.utf8 :=
  (if_neg (by decide)).trans (canonicalBytes_ok_iff.mpr ⟨.arr [], emptyArray, rfl, rfl, rfl⟩)

theorem not_tame_arrays : ¬ Tame flat stack emptyArray.utf8 emptyArray.utf8 blank := by
  have hblank : blank.size = ed25519SignatureBytes := by
    unfold blank
    rw [List.size_toByteArray, List.length_replicate]
    rfl
  rintro (h | h | ⟨manifest, hmanifest, h | ⟨proposal, hproposal, w, hw, h | ⟨w', hw', h⟩⟩⟩)
  · exact h hblank
  · rw [loads_emptyArray] at h
    cases h
  · rw [loads_emptyArray] at h
    cases h
  all_goals
    rw [loads_emptyArray] at hmanifest hproposal
    cases hmanifest
    cases hproposal
    rw [canonical_emptyArray] at hw
    cases hw
  · exact h rfl
  · rw [canonical_emptyArray] at hw'
    cases hw'
    rcases h with h | ⟨ms, h⟩
    · exact h rfl
    · cases h

/-- A manifest that is an array is met with an `AttributeError`. -/
theorem arrays_escape : Holds flat arrays emptyArray.utf8 emptyArray.utf8 blank
    ∧ ¬ RaisesOwn (verifySignedBundleWithin flat stack (some arrays) (some ())) :=
  ⟨holds_arrays, fun h =>
    not_tame_arrays (checkMembers_raises.mp ((verify_raises holds_arrays).mp h))⟩

theorem hostile_arrays : Holds flat arrays emptyArray.utf8 emptyArray.utf8 blank
    ∧ (RaisesOwn (verifySignedBundleWithin flat stack (some arrays) (some ()))
      ↔ Tame flat stack emptyArray.utf8 emptyArray.utf8 blank) :=
  ⟨holds_arrays, hostile_iff flat stack () arrays _ _ _ holds_arrays⟩

end Centinal26.Continuity
