/-
The two verdicts of the verifier. What the provider does with a valid request is verified, and an
effect is verified only for the qualified capability and with the marker of the request in the
commit.
-/
import Centinal26.Provider.Bodies

namespace Centinal26.Provider

open Py Js

variable (L : Libraries)

-- == honesty

/-- What an honest run ends with is verified, in a repository whose commit has the marker. -/
def ExecutionVerifies (request : Json) : Prop :=
  approved request = true → ∀ (o : Options) (commit : PyStr), isSha40 commit = true →
    ∃ marker result, expectedMarker L request (intendedBody L request o).json = .ok marker
      ∧ resultBody L request (intendedBody L request o).json marker.json commit = .ok result
      ∧ ∀ R : Repository, (R.resolve commit).isSome = true →
        R.tree commit (markerPathFor L request) = some (some marker.json) →
        ∃ body, verifyExecuted L R request (intendedBody L request o).json result.json commit
          = .ok body

/-- An honest denial is verified, in a repository without the marker. -/
def DenialVerifies (request : Json) : Prop :=
  approved request = false → ∀ (o : Options) (R : Repository) (remoteRef sha : PyStr),
    remoteRef.all isTrimmed = false → R.resolve remoteRef = some sha → isSha40 sha = true →
    R.tree sha (markerPathFor L request) = none →
    ∃ body, verifyDenied L R request (denialBody L request o).json remoteRef = .ok body

/-- Whatever is claimed of it, an effect is verified only of the qualified capability, and with
the marker that is derived from the request in the commit. -/
def ExecutionSound (request : Json) : Prop :=
  ∀ (R : Repository) (intent result : Json) (commit : PyStr) (body : Literal),
    verifyExecuted L R request intent result commit = .ok body →
    approved request = true ∧ ∃ marker expected, rederivedMarker L request = .ok expected
      ∧ R.tree commit (markerPathFor L request) = some (some marker)
      ∧ canonical marker = expected.canonical

/-- Whatever is claimed of it, a denial is verified only of what the policy denies. -/
def DenialSound (request : Json) : Prop :=
  ∀ (R : Repository) (result : Json) (remoteRef : PyStr) (body : Literal),
    verifyDenied L R request result remoteRef = .ok body → approved request = false

/-- No repository has evidence for both verdicts. -/
def Exclusive (request : Json) : Prop :=
  ∀ (R : Repository) (intent result denial : Json) (commit remoteRef : PyStr)
    (executed denied : Literal),
    verifyExecuted L R request intent result commit = .ok executed →
    verifyDenied L R request denial remoteRef ≠ .ok denied

variable {L}

-- == completeness

variable {request : Json}

theorem Valid.receiptMatches_eq (v : Valid request) (commit : PyStr) :
    receiptMatches L request (record (v.receiptMembers L commit)) commit = .ok () := by
  simp [receiptMatches, receiptMembers, prop_record_cons, is_iff, demand]
  rfl

theorem Valid.notNull_eq (v : Valid request) : notNull request = .ok () := by
  obtain ⟨ms, rfl⟩ := v.isObject
  rfl

theorem executionVerifies (v : Valid request) : ExecutionVerifies L request := by
  intro h o commit hcommit
  refine ⟨_, _, v.expectedMarker_eq o h, v.resultBody_eq o h hcommit, fun R hresolve htree => ?_⟩
  obtain ⟨hsha, -, hguardian, hkey, hpath, -⟩ := v.prop_intent (L := L) o
  have happroved : ((prop (intendedBody L request o).json "guardian").bind fun g =>
      prop g "approved") = some (.bool true) := by
    rw [hguardian, Option.bind_some, guardianDecision]
    simp [prop_record_cons, h]
  have hresult : verifyHash L (withHash L "result_sha256"
      (defined (v.resultMembers L o commit))).json "result_sha256" = true := by
    refine verifyHash_withHash ?_
    simp only [Valid.resultMembers, List.map_cons, List.map_nil]
    decide
  have hread : remoteMarkerFromCommit L R request commit
      = .ok (markerBody L request v.payload).json := by
    unfold remoteMarkerFromCommit
    rw [demand_true hcommit, demand_true hresolve, v.notNull_eq, bind_ok_eq, htree]
  have hbody : ∃ body, verificationBodyForExecuted L request (intendedBody L request o).json
      (withHash L "result_sha256" (defined (v.resultMembers L o commit))).json
      (markerBody L request v.payload).json commit = .ok body := by
    obtain ⟨hrsha, hstate, hhash, hreceipt, hrkey, hrpath, hmarker⟩ :=
      v.prop_result (L := L) o commit rfl
    unfold verificationBodyForExecuted
    rw [demand_true (v.verifyHash_intent o), demand_true hresult, demand_true v.verifyHash_marker,
      demand_true h, rederivedMarker, v.payloadOf_eq, bind_ok_eq, bind_ok_eq, happroved,
      demand_true (Bool.and_eq_true_iff.mpr ⟨is_iff.mpr hsha, is_iff.mpr hrsha⟩), demand_true rfl,
      demand_true (is_iff.mpr hkey), demand_true (is_iff.mpr hpath),
      demand_true (is_iff.mpr hstate), demand_true (is_iff.mpr hhash)]
    dsimp only
    rw [hreceipt, Option.getD_some, v.receiptMatches_eq, bind_ok_eq,
      demand_true (is_iff.mpr hrkey), demand_true (is_iff.mpr hrpath),
      demand_true (decide_eq_true v.canonical_marker), Option.bind_some,
      demand_true (Bool.and_eq_true_iff.mpr ⟨is_iff.mpr hmarker, is_iff.mpr (v.prop_receipt commit)⟩)]
    exact ⟨_, rfl⟩
  obtain ⟨body, hbody⟩ := hbody
  exact ⟨body, by rw [verifyExecuted, hread, bind_ok_eq, hbody]⟩

variable {R : Repository} {remoteRef sha : PyStr}

theorem verifyDenied_ok (v : Valid request) (guardian : Json) {result : Json}
    (hhash : verifyHash L result "result_sha256" = true)
    (hprotocol : prop result "protocol" = some (.str protocol))
    (hprovider : prop result "provider" = some (.str provider))
    (hstate : prop result "state" = some (.str (py "DENIED")))
    (hsha : prop result "request_sha256" = some (.str (sha256 L request)))
    (hguardian : prop result "guardian" = some guardian)
    (hdenied : prop guardian "approved" = some (.bool false))
    (hreceipt : prop result "provider_receipt" = none) (hpath : prop result "marker_path" = none)
    (href : remoteRef.all isTrimmed = false) (hresolve : R.resolve remoteRef = some sha)
    (hsha40 : isSha40 sha = true) (htree : R.tree sha (markerPathFor L request) = none) :
    ∃ body, verifyDenied L R request result remoteRef = .ok body := by
  have habsence : remoteAbsenceEvidence L R request remoteRef
      = .ok ⟨remoteRef, sha, markerPathFor L request, true⟩ := by
    unfold remoteAbsenceEvidence
    rw [href, Bool.not_false, demand_true rfl, hresolve]
    dsimp only
    rw [demand_true hsha40, v.notNull_eq, bind_ok_eq, htree]
    rfl
  unfold verifyDenied verificationBodyForDenied
  rw [habsence, bind_ok_eq, demand_true hhash,
    demand_true (by simp [is_iff, hprotocol, hprovider, hstate]), demand_true (is_iff.mpr hsha),
    hguardian, Option.bind_some, hdenied, demand_true rfl, hreceipt, hpath,
    Option.isNone_none, Bool.and_self, demand_true rfl,
    demand_true (decide_eq_true rfl), demand_true hsha40, demand_true rfl]
  exact ⟨_, rfl⟩

theorem denialVerifies (v : Valid request) : DenialVerifies L request := by
  intro h o R remoteRef sha href hresolve hsha40 htree
  have hbody : denialBody L request o = withHash L "result_sha256" (defined [
      ("schema", .str (py "frost-effect-result/1.0")), ("protocol", .str protocol),
      ("state", .str (py "DENIED")), ("request_id", .str v.id),
      ("request_sha256", .str (sha256 L request)), ("capability", .str v.capability),
      ("guardian", guardianDecision request o), ("provider", .str provider),
      ("source_attestation", sourceAttestation L o)]) := by
    unfold denialBody given
    rw [v.hid, v.hcapability]
    rfl
  have hhash : verifyHash L (denialBody L request o).json "result_sha256" = true := by
    rw [hbody]
    refine verifyHash_withHash ?_
    simp only [List.map_cons, List.map_nil]
    decide
  refine verifyDenied_ok v
    (guardianDecision request o) hhash ?_ ?_ ?_ ?_ ?_ ?_ ?_ ?_ href hresolve hsha40 htree
  all_goals simp [hbody, withHash, defined, prop_cons, prop_nil, guardianDecision,
    prop_record_cons, h]

-- == soundness

theorem executionSound (L : Libraries) (request : Json) : ExecutionSound L request := by
  intro R intent result commit body h
  obtain ⟨marker, hmarker, h⟩ := of_bind_ok h
  unfold verificationBodyForExecuted at h
  simp only [demand_bind_ok] at h
  obtain ⟨-, -, -, happroved, h⟩ := h
  obtain ⟨expected, hexpected, h⟩ := of_bind_ok h
  simp only [demand_bind_ok] at h
  obtain ⟨-, -, -, -, -, -, h⟩ := h
  obtain ⟨u, -, h⟩ := of_bind_ok h
  simp only [demand_bind_ok] at h
  obtain ⟨-, -, hcontent, -, -⟩ := h
  refine ⟨happroved, marker, expected, hexpected, ?_, of_decide_eq_true hcontent⟩
  unfold remoteMarkerFromCommit at hmarker
  simp only [demand_bind_ok] at hmarker
  obtain ⟨-, -, hmarker⟩ := hmarker
  obtain ⟨u', -, hmarker⟩ := of_bind_ok hmarker
  split at hmarker
  · cases hmarker
  · cases hmarker
  · next m htree =>
    cases hmarker
    exact htree

/-- A denial the policy never made: its guardian says no, and its hash is its own. -/
def forgedDenial (L : Libraries) (request : Json) : Literal :=
  withHash L "result_sha256" (defined [
    ("protocol", .str protocol), ("provider", .str provider), ("state", .str (py "DENIED")),
    ("request_sha256", .str (sha256 L request)), ("guardian", record [("approved", .bool false)])])

theorem forged_verifies (v : Valid request)
    (href : remoteRef.all isTrimmed = false) (hresolve : R.resolve remoteRef = some sha)
    (hsha40 : isSha40 sha = true) (htree : R.tree sha (markerPathFor L request) = none) :
    ∃ body, verifyDenied L R request (forgedDenial L request).json remoteRef = .ok body := by
  have hhash : verifyHash L (forgedDenial L request).json "result_sha256" = true := by
    refine verifyHash_withHash ?_
    simp only [List.map_cons, List.map_nil]
    decide
  refine verifyDenied_ok v
    (record [("approved", .bool false)]) hhash ?_ ?_ ?_ ?_ ?_ ?_ ?_ ?_ href hresolve hsha40 htree
  all_goals simp [forgedDenial, withHash, defined, prop_cons, prop_nil, prop_record_cons]

def twoCommits (path : PyStr) (marker : Json) : Repository where
  resolve ref := if ref = py "HEAD" then some (List.replicate 40 48) else some ref
  tree commit p :=
    if commit = List.replicate 40 49 ∧ p = path then some (some marker) else none

theorem twoCommits_first (path : PyStr) (marker : Json) :
    (twoCommits path marker).tree (List.replicate 40 48) path = none := by
  have hother : ¬ (List.replicate 40 48 = List.replicate 40 49 ∧ path = path) :=
    fun h => absurd h.1 (by decide)
  show (if List.replicate 40 48 = List.replicate 40 49 ∧ path = path then some (some marker)
    else none) = none
  exact if_neg hother

theorem denied_before (v : Valid request) (marker : Json) : ∃ body,
    verifyDenied L (twoCommits (markerPathFor L request) marker) request
      (forgedDenial L request).json (py "HEAD") = .ok body :=
  forged_verifies v (by decide) rfl (by decide) (twoCommits_first ..)

theorem not_exclusive (v : Valid request) (h : approved request = true) :
    ¬ DenialSound L request ∧ ¬ Exclusive L request := by
  obtain ⟨marker, result, -, -, hverifies⟩ := executionVerifies (L := L) v h ⟨none, none⟩
    (List.replicate 40 49) (by decide)
  obtain ⟨denied, hdenied⟩ := denied_before (L := L) v marker.json
  constructor
  · intro hsound
    have hnot := hsound _ _ _ _ hdenied
    rw [h] at hnot
    cases hnot
  · intro hexclusive
    obtain ⟨executed, hexecuted⟩ := hverifies (twoCommits (markerPathFor L request) marker.json) rfl
      (if_pos ⟨rfl, rfl⟩)
    exact hexclusive _ _ _ _ _ _ _ _ hexecuted hdenied

theorem denied_only (h : approved request = false) :
    DenialSound L request ∧ Exclusive L request := by
  refine ⟨fun _ _ _ _ _ => h,
    fun R intent result denial commit remoteRef executed denied hexecuted _ => ?_⟩
  have happroved := (executionSound L request R intent result commit executed hexecuted).1
  rw [h] at happroved
  cases happroved

/-- The verdicts on a valid request: what is honest is verified, what is verified as executed is
so, and a denial is what it says, and excludes the other verdict, exactly if the capability is not
the qualified one. -/
theorem verdicts_exclusive (L : Libraries) (request : Json) (now : Option Rat)
    (h : validateRequest L request now = .ok ()) :
    ExecutionVerifies L request ∧ DenialVerifies L request ∧ ExecutionSound L request
      ∧ (DenialSound L request ∧ Exclusive L request
        ↔ prop request "capability" ≠ some (.str qualificationCapability)) := by
  obtain ⟨v⟩ := valid_of_validateRequest h
  refine ⟨executionVerifies v, denialVerifies v, executionSound L request, ?_⟩
  have happroved : approved request = true
      ↔ prop request "capability" = some (.str qualificationCapability) := is_iff
  constructor
  · intro hsound hqualified
    exact (not_exclusive v (happroved.mpr hqualified)).1 hsound.1
  · intro hnot
    exact denied_only (Bool.eq_false_iff.mpr fun hyes => hnot (happroved.mp hyes))

-- == an example

namespace Sample

def libraries : Libraries where
  sha s := s
  display v := match v with
    | some (.str s) => s
    | _ => []
  display_str _ := rfl
  dateParse _ := some 1
  providerSource := []
  workflowSource := none

/-- A request for an effect the policy allows. -/
def allowed : Json := record [("protocol", .str protocol), ("request_id", .str (py "r")),
  ("capability", .str qualificationCapability), ("idempotency_key", .str (py "k")),
  ("actor", .str (py "a")),
  ("payload", record [("marker", .str (py "m")), ("value", .str (py "v"))]),
  ("expires_at", .str (py "2030-01-01T00:00:00Z"))]

theorem allowed_valid : validateRequest libraries allowed (some 0) = .ok () := by
  decide +kernel

end Sample

theorem verdicts_allowed : DenialSound Sample.libraries Sample.allowed
    ∧ Exclusive Sample.libraries Sample.allowed
    ↔ prop Sample.allowed "capability" ≠ some (.str qualificationCapability) :=
  (verdicts_exclusive Sample.libraries Sample.allowed (some 0) Sample.allowed_valid).2.2.2

/-- A forged denial of a request the policy allows is verified, and so is its execution. -/
theorem not_exclusive_allowed : approved Sample.allowed = true
    ∧ ¬ DenialSound Sample.libraries Sample.allowed
    ∧ ¬ Exclusive Sample.libraries Sample.allowed := by
  have happroved : approved Sample.allowed = true := by decide +kernel
  obtain ⟨v⟩ := valid_of_validateRequest Sample.allowed_valid
  exact ⟨happroved, not_exclusive v happroved⟩

end Centinal26.Provider
