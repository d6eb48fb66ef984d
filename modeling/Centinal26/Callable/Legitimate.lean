/-
What a verified success stands for: a request the policy approves of, the hash and the key of that
request, and an expiry that had not been reached.
-/
import Centinal26.Callable.Verifier

namespace Centinal26.Callable

open Py Js Verifier

variable {L : Libraries} {git : History}

-- == the parts

theorem requestIdentity_some {raw : PyStr} {f : RequestFile} {key : PyStr}
    (h : Verifier.requestIdentity L raw = .ok f) (hkey : f.key = some key) :
    ∃ ms, f.request = .obj ms ∧ L.parse (L.decode raw) = some f.request
      ∧ f.sha256 = L.sha (canonical f.request) ∧ keyOf f.request f.sha256 = some key := by
  unfold Verifier.requestIdentity at h
  split at h
  · cases h
    cases hkey
  · next ms hparse =>
    split at h
    · cases h
    · next key' hkey' =>
      cases h
      cases hkey
      exact ⟨ms, rfl, hparse, rfl, hkey'⟩
  · cases h

variable {check : String} {s : Source} {requestFile resultFile : PyStr}

theorem verifyKey_attested {result : Json} {key : Option PyStr}
    (h : verifyKey result key = .ok check)
    (hattested : truthy (prop result "source_attestation") = true) :
    ∃ k, key = some k ∧ prop result "idempotency_key" = some (.str k) := by
  unfold verifyKey at h
  split at h
  · rw [demand_bind_ok, hattested] at h
    cases h.1
  · next given hgiven =>
    rw [demand_bind_ok] at h
    cases key with
    | none =>
      -- the request is not JSON, and its key is `null`
      have hnull : given = .null := by
        have hsame := h.1
        cases given <;> simp [same, numeric] at hsame ⊢
      cases hprop : prop result "idempotency_key" with
      | none =>
        rw [hprop] at hgiven
        cases hgiven
      | some v =>
        rw [hprop] at hgiven
        cases v <;> simp [nullish, hnull] at hgiven
    | some k =>
      have hk : some given = some (.str k) := same_str.mp h.1
      refine ⟨k, rfl, ?_⟩
      cases hprop : prop result "idempotency_key" with
      | none =>
        rw [hprop] at hgiven
        cases hgiven
      | some v =>
        rw [hprop] at hgiven
        cases v <;> simp_all [nullish]

theorem gitFileAt_ok {commitSha : Option Json} {path bytes : PyStr}
    (h : gitFileAt git commitSha path = .ok bytes) :
    ∃ commit, commitSha = some (.str commit) ∧ git commit path = some bytes := by
  unfold gitFileAt at h
  split at h
  · next commit =>
    rw [demand_bind_ok] at h
    obtain ⟨-, h⟩ := h
    split at h
    · cases h
    · next bytes' hshow =>
      rw [readBounded, demand_bind_ok] at h
      cases h.2
      exact ⟨commit, rfl, hshow⟩
  · cases h

theorem verifySourceAttestation_verified {result : Json}
    (h : verifySourceAttestation L git result = .ok (s, check)) (hs : s.status = "VERIFIED") :
    truthy (prop result "source_attestation") = true
      ∧ ∃ commit worker, prop result "provider_sha" = some (.str commit)
        ∧ git commit workerRepoPath = some worker
        ∧ s.effectPolicyCapable = includes effectPolicyMarker worker := by
  unfold verifySourceAttestation at h
  dsimp only at h
  split at h
  · next hattested =>
    refine ⟨hattested, ?_⟩
    simp only [demand_bind_ok] at h
    obtain ⟨-, -, -, -, -, -, h⟩ := h
    obtain ⟨core, -, h⟩ := of_bind_ok h
    obtain ⟨worker, hworker, h⟩ := of_bind_ok h
    obtain ⟨workflow, -, h⟩ := of_bind_ok h
    simp only [demand_bind_ok] at h
    obtain ⟨-, -, -, -, h⟩ := h
    obtain ⟨commit, hcommit, hshow⟩ := gitFileAt_ok hworker
    cases h
    exact ⟨commit, worker, hcommit, hshow, rfl⟩
  · cases h
    exact absurd hs (by decide)

theorem verifyInstant_success {expiry result : Json} {expires : Rat}
    (h : verifyInstant L expiry expires result = .ok check)
    (hok : prop result "ok" = some (.bool true)) :
    ∃ observedAt observed, read (prop result "request_expiry") "observed_at" = some (.str observedAt)
      ∧ L.dateParse observedAt = some observed ∧ observed < expires := by
  unfold verifyInstant at h
  rw [demand_bind_ok, demand_bind_ok] at h
  obtain ⟨-, -, h⟩ := h
  split at h
  · next observedAt hobservedAt =>
    split at h
    · cases h
    · next observed hobserved =>
      split at h
      · rw [demand_bind_ok, demand_bind_ok, demand_bind_ok, hok] at h
        cases h.2.2.1
      · rw [demand_bind_ok, demand_bind_ok] at h
        exact ⟨observedAt, observed, hobservedAt, hobserved, of_decide_eq_true h.2.1⟩
  · cases h

theorem verifyProviderEffectPolicy_success {request result : Json}
    (h : verifyProviderEffectPolicy request result s = .ok check)
    (hcapable : s.effectPolicyCapable = true) (hok : prop result "ok" = some (.bool true)) :
    Approved request := by
  unfold verifyProviderEffectPolicy at h
  rw [if_pos hcapable, demand_bind_ok] at h
  obtain ⟨expected, hexpected, h⟩ := of_bind_ok h.2
  rw [demand_bind_ok] at h
  refine effectDecision_allowed hexpected ?_
  by_contra hblocked
  have h := h.2
  rw [if_neg hblocked] at h
  obtain ⟨_, hverify, -⟩ := of_bind_ok h
  rw [verifyBlocked, demand_bind_ok, hok] at hverify
  cases hverify.1

theorem verifyFiles_ok {v : Verified} (h : verifyFiles L git requestFile resultFile = .ok v) :
    ∃ f key expiry attestation policy, Verifier.requestIdentity L requestFile = .ok f
      ∧ L.parse (L.decode resultFile) = some v.result
      ∧ prop v.result "request_sha256" = some (.str f.sha256)
      ∧ verifyKey v.result f.key = .ok key
      ∧ verifyRequestExpiry L f.request v.result = .ok expiry
      ∧ verifySourceAttestation L git v.result = .ok (v.source, attestation)
      ∧ verifyProviderEffectPolicy f.request v.result v.source = .ok policy := by
  unfold verifyFiles readBounded at h
  obtain ⟨_, hrequest, h⟩ := of_bind_ok h
  obtain ⟨_, hresult, h⟩ := of_bind_ok h
  rw [demand_bind_ok] at hrequest hresult
  cases hrequest.2
  cases hresult.2
  obtain ⟨f, hf, h⟩ := of_bind_ok h
  split at h
  · cases h
  · next result hparse =>
    rw [demand_bind_ok, demand_bind_ok, demand_bind_ok] at h
    obtain ⟨-, -, hsha, h⟩ := h
    obtain ⟨key, hkey, h⟩ := of_bind_ok h
    obtain ⟨_, -, h⟩ := of_bind_ok h
    obtain ⟨expiry, hexpiry, h⟩ := of_bind_ok h
    obtain ⟨⟨source, attestation⟩, hsource, h⟩ := of_bind_ok h
    obtain ⟨policy, hpolicy, h⟩ := of_bind_ok h
    obtain ⟨_, -, h⟩ := of_bind_ok h
    cases h
    exact ⟨f, key, expiry, attestation, policy, hf, hparse, is_iff.mp hsha, hkey, hexpiry, hsource,
      hpolicy⟩

theorem verifyPaths_ok {verifierSource : PyStr} {verification : Literal}
    (h : verifyPaths L git requestFile resultFile verifierSource = .ok verification)
    (hstatus : ("verification_status", some (.str (py "VERIFIED"))) ∈ verification) :
    ∃ v, verifyFiles L git requestFile resultFile = .ok v ∧ v.source.status = "VERIFIED" := by
  obtain ⟨v, hv, h⟩ := of_bind_ok h
  cases h
  refine ⟨v, hv, ?_⟩
  by_contra hnot
  have hlegacy : v.status = "VERIFIED_LEGACY_LIMITED" := if_neg hnot
  simp only [Verified.body, hlegacy, List.cons_append, List.nil_append, List.mem_cons,
    List.not_mem_nil, Prod.mk.injEq, String.reduceEq, false_and, true_and, false_or, or_false,
    Option.some_inj, Json.str.injEq] at hstatus
  exact absurd hstatus (by decide)

-- == success

/-- The result has the hash and the key of the request. -/
def Bound (L : Libraries) (request result : Json) : Prop :=
  prop result "request_sha256" = some (.str (L.sha (canonical request)))
    ∧ ∃ key, keyOf request (L.sha (canonical request)) = some key
      ∧ prop result "idempotency_key" = some (.str key)

/-- The request had not expired when it was observed, if it is to expire at this instant. -/
def InTime (L : Libraries) (result : Json) (expires : Rat) : Prop :=
  ∃ observedAt observed, read (prop result "request_expiry") "observed_at" = some (.str observedAt)
    ∧ L.dateParse observedAt = some observed ∧ observed < expires

/-- A success that is legitimate in every respect. -/
def Legitimate (L : Libraries) (request result : Json) : Prop :=
  Approved request ∧ Bound L request result ∧ ∀ expiry, expiresAt request = some expiry →
        ∃ expires, instant L expiry = some expires ∧ InTime L result expires

/-- The verifier writes VERIFIED for the files, and the result is a success. -/
structure VerifiedSuccess (L : Libraries) (git : History)
    (requestFile resultFile verifierSource : PyStr) (result : Json) : Prop where
  parsed : L.parse (L.decode resultFile) = some result
  verified : ∃ verification, verifyPaths L git requestFile resultFile verifierSource
      = .ok verification ∧ ("verification_status", some (.str (py "VERIFIED"))) ∈ verification
  ok : prop result "ok" = some (.bool true)

/-- The worker at the commit of the result has the marker of the effect policy. -/
def PolicyCapable (git : History) (result : Json) : Prop :=
  ∃ commit worker, prop result "provider_sha" = some (.str commit)
    ∧ git commit workerRepoPath = some worker ∧ includes effectPolicyMarker worker = true

/-- The request of a verified success is an object, and the result has its hash and its key and
those of no other; it is one the policy approves of, if the worker is one that has the policy; and
it was in time, if the request is to expire at a valid instant. -/
theorem legitimate (L : Libraries) (git : History) (hL : CollisionFree L)
    (requestFile resultFile verifierSource : PyStr) (result : Json)
    (h : VerifiedSuccess L git requestFile resultFile verifierSource result) :
    ∃ ms, L.parse (L.decode requestFile) = some (.obj ms) ∧ Bound L (.obj ms) result
      ∧ (∀ other, Bound L other result → canonical other = canonical (.obj ms))
      ∧ (PolicyCapable git result → Approved (.obj ms))
      ∧ (∀ expiry expires, expiresAt (.obj ms) = some expiry → instant L expiry = some expires →
        InTime L result expires) := by
  obtain ⟨verification, hverify, hstatus⟩ := h.verified
  obtain ⟨v, hfiles, hverified⟩ := verifyPaths_ok hverify hstatus
  obtain ⟨f, _, _, _, _, hf, hresult, hsha, hkey, hexpiry, hsource, hpolicy⟩ := verifyFiles_ok hfiles
  have hok := h.ok
  obtain rfl : v.result = result := Option.some_inj.mp (hresult.symm.trans h.parsed)
  obtain ⟨hattested, commit, worker, hcommit, hworker, hcapable⟩ :=
    verifySourceAttestation_verified hsource hverified
  obtain ⟨key, hfkey, hgiven⟩ := verifyKey_attested hkey hattested
  obtain ⟨ms, hms, hparse, hfsha, hkeyOf⟩ := requestIdentity_some hf hfkey
  rw [hfsha] at hsha hkeyOf
  rw [hms] at hparse hsha hkeyOf hpolicy hexpiry
  refine ⟨ms, hparse, ⟨hsha, key, hkeyOf, hgiven⟩, ?_, ?_, ?_⟩
  · intro other hother
    have hsame := hother.1.symm.trans hsha
    rw [Option.some_inj, Json.str.injEq] at hsame
    exact hL _ _ hsame
  · rintro ⟨commit', worker', hcommit', hworker', hmarker⟩
    rw [hcommit] at hcommit'
    cases hcommit'
    rw [hworker] at hworker'
    cases hworker'
    exact verifyProviderEffectPolicy_success hpolicy (hcapable.trans hmarker) hok
  · intro expiry expires hexpires hinstant
    rw [verifyRequestExpiry, hexpires] at hexpiry
    dsimp only at hexpiry
    rw [hinstant] at hexpiry
    exact verifyInstant_success hexpiry hok

-- == an example

namespace Sample

def commit : PyStr := List.replicate 40 48

def history (worker : PyStr) : History := fun c path =>
  if c = commit then
    if path = fabricRepoPath then some approvedSemanticCoreFileSha256
    else if path = workerRepoPath then some worker
    else if path = workflowRepoPath then some []
    else none
  else none

theorem history_worker (worker : PyStr) : history worker commit workerRepoPath = some worker := by
  rw [history, if_pos rfl, if_neg (by decide +kernel), if_pos rfl]

def request (operation : String) : Json :=
  record [("protocol", .str protocol), ("operation", .str (py operation))]

/-- A success for the request, with these members besides. -/
def result (request : Json) (worker : PyStr) (rest : List (String × Json)) : Json :=
  let body := [
    ("ok", .bool true), ("protocol", .str protocol), ("provider", .str (py "github-actions")),
    ("provider_sha", .str commit), ("request_sha256", .str (canonical request)),
    ("idempotency_key", .str (canonical request)),
    ("source_attestation", record [("schema", .str (py "frost-source-attestation/1.0")),
      ("semantic_core", record [("file_sha256", .str approvedSemanticCoreFileSha256)]),
      ("provider_runtime", record [
        ("worker_source_sha256", .str worker), ("workflow_source_sha256", .str []),
        ("checked_out_sha", .str commit)]),
      ("provider_code_identity_sha256", .str (canonical (record [
        ("provider", .str (py "github-actions")),
        ("semantic_core_file_sha256", .str approvedSemanticCoreFileSha256),
        ("worker_source_sha256", .str worker), ("workflow_source_sha256", .str [])])))])] ++ rest
  record (body ++ [("envelope_hash", .str (canonical (record body)))])

/-- The libraries, where a file is the text of a value. -/
def libraries (request result : Json) : Libraries where
  sha s := s
  digest s := s
  decode s := s
  syntaxError _ := []
  parse s := if s = canonical request then some request
    else if s = canonical result then some result else none
  dateParse _ := none

theorem parse_request (request result : Json) :
    (libraries request result).parse (canonical request) = some request := if_pos rfl

theorem collisionFree (request result : Json) : CollisionFree (libraries request result) :=
  fun _ _ h => h

/-- The files are verified, and the result is a success of the commit. -/
def success (r : Except Thrown Verified) : Bool :=
  match r with
  | .ok v => decide (v.status = "VERIFIED") && (prop v.result "ok" matches some (.bool true))
      && is (prop v.result "provider_sha") commit
  | .error _ => false

theorem of_success {L : Libraries} {git : History} {requestFile resultFile : PyStr}
    (h : success (verifyFiles L git requestFile resultFile) = true) :
    ∃ result, VerifiedSuccess L git requestFile resultFile [] result
      ∧ prop result "provider_sha" = some (.str commit) := by
  cases hv : verifyFiles L git requestFile resultFile with
  | error e =>
    rw [hv] at h
    cases h
  | ok v =>
    rw [hv] at h
    simp only [success, Bool.and_eq_true, decide_eq_true_eq] at h
    obtain ⟨⟨hstatus, hok⟩, hcommit⟩ := h
    obtain ⟨_, _, _, _, _, -, hresult, -⟩ := verifyFiles_ok hv
    refine ⟨v.result, ⟨hresult, ⟨_, by rw [verifyPaths, hv]; rfl, ?_⟩, ?_⟩, is_iff.mp hcommit⟩
    · rw [Verified.body, hstatus]
      simp
    · split at hok
      · next heq => exact heq
      · cases hok

/-- A request for the health of the service, and what a worker with the policy makes of it. -/
def health : Json := request "system.health"

def healthResult : Json := result health effectPolicyMarker [
  ("provider_effect_policy", (allow "READ_ONLY" (some (py "system.health"))
    (.str approvedSemanticCoreFileSha256)).json)]

/-- A request for an effect, and a success that is claimed of a worker without the policy. -/
def effect : Json := request "repository.delete"

def effectResult : Json := result effect [] []

theorem verified : success (verifyFiles (libraries health healthResult)
      (history effectPolicyMarker) (canonical health) (canonical healthResult)) = true
    ∧ success (verifyFiles (libraries effect effectResult) (history [])
      (canonical effect) (canonical effectResult)) = true :=
  ⟨by decide +kernel, by decide +kernel⟩

end Sample

theorem legitimate_health : ∃ result,
    VerifiedSuccess (Sample.libraries Sample.health Sample.healthResult)
      (Sample.history effectPolicyMarker) (canonical Sample.health) (canonical Sample.healthResult)
      [] result
    ∧ Bound (Sample.libraries Sample.health Sample.healthResult) Sample.health result
    ∧ Approved Sample.health := by
  obtain ⟨result, hv, hcommit⟩ := Sample.of_success Sample.verified.1
  obtain ⟨ms, hparse, hbound, -, happroved, -⟩ := legitimate _ _
    (Sample.collisionFree Sample.health Sample.healthResult) _ _ _ result hv
  have hrequest : Sample.health = .obj ms := Option.some_inj.mp
    ((Sample.parse_request ..).symm.trans hparse)
  rw [← hrequest] at hbound happroved
  exact ⟨result, hv, hbound, happroved ⟨Sample.commit, effectPolicyMarker, hcommit,
    Sample.history_worker _, by decide +kernel⟩⟩

/-- A success of a worker without the marker is verified for a request that no policy approves
of. -/
theorem not_legitimate : ¬ ∀ (L : Libraries) (git : History), CollisionFree L →
    ∀ requestFile resultFile verifierSource result,
      VerifiedSuccess L git requestFile resultFile verifierSource result →
        ∃ request, L.parse (L.decode requestFile) = some request ∧ Legitimate L request result := by
  intro hall
  obtain ⟨result, hv, -⟩ := Sample.of_success Sample.verified.2
  obtain ⟨request, hparse, happroved, -⟩ := hall _ _
    (Sample.collisionFree Sample.effect Sample.effectResult) _ _ _ result hv
  have hrequest : Sample.effect = request := Option.some_inj.mp
    ((Sample.parse_request ..).symm.trans hparse)
  rw [← hrequest] at happroved
  rcases happroved with ⟨operation, hoperation, hmem⟩ | hcontrol
  · have heffect : semanticOperation Sample.effect = .ok (some (py "repository.delete")) := rfl
    rw [heffect] at hoperation
    cases hoperation
    exact absurd hmem (by decide)
  · exact absurd (is_iff.mpr hcontrol.1) (by decide +kernel)

end Centinal26.Callable
