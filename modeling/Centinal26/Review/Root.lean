/-
The root a checkpoint pins: which metadata is taken for it, and which Judge keys that makes
active.
-/
import Centinal26.Review.Parts

namespace Centinal26.Review

open Py BigEndian

variable (L : Libraries)

-- == active keys

/-- A signed record of a Judge key, listed under the id of the key. -/
structure JudgeOf (bits : Int) (judge : PyStr × Items) : Prop where
  key : ∃ key, KeyOf bits (.dict judge.2) key ∧ key.keyId = judge.1
  not_before : ∃ t, TimeOf L (itemOf judge.2 "not_before") t
  not_after : ∃ t, TimeOf L (itemOf judge.2 "not_after") t

/-- The active keys of a root: one record an id. -/
structure ActiveOf (bits : Int) (value : PyVal) (active : List (PyStr × Items)) : Prop where
  listed : value = .list (active.map fun judge => .dict judge.2)
  nonempty : active ≠ []
  once : (active.map Prod.fst).Nodup
  judges : ∀ judge ∈ active, JudgeOf L bits judge

variable {L}

section Active

variable {profile : Profile} (hstrong : 3072 ≤ profile.minRsaBits)
  (hexponent : PyVal.int? profile.requiredExponent = some 65537)
  (hequal : profile.requiredExponent.eq (.int 65537) = true)

include hstrong hexponent hequal in
theorem activeKeys_ok {values : List PyVal} : ∀ {index : Nat} {before active},
    (before.map Prod.fst).Nodup → (activeKeys L profile index before values = .ok active
      ↔ ∃ judges, active = before ++ judges
        ∧ values = judges.map (fun judge => .dict judge.2) ∧ (active.map Prod.fst).Nodup
        ∧ ∀ judge ∈ judges, JudgeOf L profile.minRsaBits judge) := by
  induction values with
  | nil =>
    intro index before active hbefore
    simp only [activeKeys, Except.ok.injEq, List.nil_eq, List.map_eq_nil_iff]
    constructor
    · rintro rfl
      exact ⟨[], by simp, rfl, hbefore, by simp⟩
    · rintro ⟨judges, rfl, rfl, -, -⟩
      simp
  | cons value rest ih =>
    intro index before active hbefore
    simp only [activeKeys, bind_ok_iff, require_ok, raiseIf_ok, PyVal.dict?_eq, parseTime_ok,
      parseRsaKey_ok hstrong hequal, hexponent, true_and]
    constructor
    · rintro ⟨judge, rfl, key, hkey, -, hnew, t, ht, t', ht', hrest⟩
      have hnew' : key.keyId ∉ before.map Prod.fst := by
        intro hmem
        obtain ⟨a, ha, hid⟩ := List.mem_map.mp hmem
        rw [List.any_eq_false] at hnew
        exact hnew a ha (decide_eq_true hid)
      have hnodup : ((before ++ [(key.keyId, judge)]).map Prod.fst).Nodup := by
        rw [List.map_append, List.nodup_append]
        refine ⟨hbefore, by simp, fun a ha b hb => ?_⟩
        rw [List.map_singleton, List.mem_singleton] at hb
        rintro rfl
        exact hnew' (by rwa [hb] at ha)
      obtain ⟨judges, rfl, rfl, honce, hjudges⟩ := (ih hnodup).mp hrest
      refine ⟨(key.keyId, judge) :: judges, by simp, rfl, honce, ?_⟩
      intro j hj
      cases List.mem_cons.mp hj with
      | inl heq =>
        subst heq
        exact ⟨⟨key, hkey, rfl⟩, ⟨t, ht⟩, ⟨t', ht'⟩⟩
      | inr hmem => exact hjudges j hmem
    · rintro ⟨judges, rfl, hvalues, honce, hjudges⟩
      cases judges with
      | nil => cases hvalues
      | cons judge judges =>
        obtain ⟨hvalue, hrest⟩ := List.cons.inj hvalues
        obtain ⟨⟨key, hkey, hid⟩, ⟨t, ht⟩, ⟨t', ht'⟩⟩ := hjudges judge (List.mem_cons_self ..)
        have hconcat : before ++ judge :: judges = before ++ [judge] ++ judges := by
          simp
        have hnodup : ((before ++ [judge]).map Prod.fst).Nodup := by
          rw [hconcat, List.map_append] at honce
          exact (List.nodup_append.mp honce).1
        have hnew : before.any (fun a => decide (a.1 = key.keyId)) = false := by
          rw [List.any_eq_false]
          intro a ha hsame
          rw [List.map_append, List.nodup_append] at hnodup
          exact hnodup.2.2 a.1 (List.mem_map_of_mem ha) judge.1 (by simp)
            (by rw [of_decide_eq_true hsame, hid])
        refine ⟨judge.2, hvalue, key, hvalue ▸ hkey, (), hnew, t, ht, t', ht', ?_⟩
        have hpair : (key.keyId, judge.2) = judge := by rw [hid]
        rw [hpair]
        exact (ih hnodup).mpr ⟨judges, hconcat, hrest, hconcat ▸ honce,
          fun j hj => hjudges j (List.mem_cons_of_mem _ hj)⟩

end Active

-- == roots

variable (L)

/-- What a root has to be, and say, to be the one a checkpoint pins. -/
structure RootAccepted (checkpoint metadata : Items) (now : Instant) (root : Root) : Prop where
  checkpoint_schema : itemOf checkpoint "schema" = .str (py "centinal26-review-root-checkpoint-v1")
  provisioned : itemOf checkpoint "provisioned" = .bool true
  profile : ProfileOf checkpoint root.profile
  exponent : PyVal.int? root.profile.requiredExponent = some 65537
  metadata_schema : itemOf metadata "schema" = .str (py "centinal26-review-root-metadata-v1")
  version : ∃ minimum version, PyVal.int? (itemOf checkpoint "min_root_version") = some minimum
    ∧ 1 ≤ minimum ∧ PyVal.int? (itemOf metadata "version") = some version ∧ minimum ≤ version
  pinned : itemOf checkpoint "root_key_fingerprint_sha256" = .str root.fingerprint
    ∧ isHex64 root.fingerprint = true
  in_force : ∃ issuedAt expiresAt, InForce L metadata now issuedAt expiresAt
  /-- the root key has the pinned fingerprint and has signed the metadata -/
  root_key : ∃ key canonical, KeyOf root.profile.minRsaBits (itemOf metadata "root_key") key
    ∧ canonicalJson (keyFields key) = .ok canonical
    ∧ hexdigest (L.sha256 canonical.utf8) = root.fingerprint
    ∧ SignedBy L key.modulus (signedFields metadata rootFields) (itemOf metadata "signature_b64")
    ∧ key.keyId ∉ root.revoked
  revoked : itemOf metadata "revoked_key_ids" = .list (root.revoked.map .str)
  active : ActiveOf L root.profile.minRsaBits (itemOf metadata "active_judge_keys") root.active
  states : root.version = itemOf metadata "version"

variable {L}

theorem keyFingerprint_ok {value : PyVal} {field : String} {profile : Profile} {key : RsaKey}
    (hkey : parseRsaKey value field profile = .ok key) {fingerprint : PyStr} :
    keyFingerprint L value field profile = .ok fingerprint
      ↔ ∃ canonical, canonicalJson (keyFields key) = .ok canonical
        ∧ hexdigest (L.sha256 canonical.utf8) = fingerprint := by
  unfold keyFingerprint
  rw [hkey, bind_ok_eq]
  simp only [bind_ok_iff, Except.ok.injEq]

theorem verifyRootMetadata_ok {checkpoint metadata : Items} {now : Instant} {root : Root} :
    verifyRootMetadata L checkpoint metadata now = .ok root
      ↔ RootAccepted L checkpoint metadata now root := by
  unfold verifyRootMetadata
  simp only [bind_ok_iff, raiseIf_ok, require_ok, Bool.not_eq_false', PyVal.eq_str, PyVal.isTrue_eq,
    parseProfile_ok, PyVal.text?_eq, PyVal.list?_eq,
    mapM_text?, checkInterval_ok, decodeSignature_ok,
    decide_eq_false_iff_not, not_not, not_lt, List.isEmpty_eq_false_iff, Except.ok.injEq]
  constructor
  · rintro ⟨-, hcheckpoint, -, hprovisioned, profile, hprofile, pinned, hpinned, -, hhex, h⟩
    obtain ⟨minimum, hminimum, -, hone, -, hmetadata, version, hversion, -, hleast, h⟩ := h
    obtain ⟨key, hkey, fingerprint, hfingerprint, -, rfl, times, htimes, h⟩ := h
    obtain ⟨signature, ⟨s, hs, hne, hdecoded⟩, message, hmessage, u, hsigned, h⟩ := h
    obtain ⟨revokedValues, hrevoked, revoked, rfl, activeValues, hactive, -, hnonempty, h⟩ := h
    obtain ⟨active, hloop, -, hroot, rfl⟩ := h
    obtain ⟨canonical, hcanonical, hdigest⟩ := (keyFingerprint_ok hkey).mp hfingerprint
    obtain ⟨hexponent, hof⟩ := (parseRsaKey_ok hprofile.strong hprofile.exponent).mp hkey
    have hlarge := hof.large_enough hprofile.strong
    rw [hof.exponent] at hsigned
    obtain ⟨hlength, hrange, hencoded⟩ := (verifyRsa_ok hlarge).mp hsigned
    obtain ⟨judges, hjudges, rfl, honce, hall⟩ :=
      (activeKeys_ok hprofile.strong hexponent hprofile.exponent (by simp)).mp hloop
    rw [List.nil_append] at hjudges
    subst hjudges
    exact {
      checkpoint_schema := hcheckpoint
      provisioned := hprovisioned
      profile := hprofile
      exponent := hexponent
      metadata_schema := hmetadata
      version := ⟨minimum, version, hminimum, hone, hversion, hleast⟩
      pinned := ⟨hpinned, hhex⟩
      in_force := ⟨_, _, htimes⟩
      root_key := ⟨key, canonical, hof, hcanonical, hdigest,
        ⟨s, signature, message, hs, hne, hdecoded, hmessage, hlength, hrange, hencoded⟩, hroot⟩
      revoked := hrevoked
      active := ⟨hactive, by simpa using hnonempty, honce, hall⟩
      states := rfl }
  · rintro ⟨hcheckpoint, hprovisioned, hprofile, hexponent, hmetadata,
      ⟨minimum, version, hminimum, hone, hversion, hleast⟩, ⟨hpinned, hhex⟩,
      ⟨issuedAt, expiresAt, htimes⟩,
      ⟨key, canonical, hof, hcanonical, hdigest,
        ⟨s, signature, message, hs, hne, hdecoded, hmessage, hlength, hrange, hencoded⟩, hroot⟩,
      hrevoked, ⟨hactive, hnonempty, honce, hall⟩, hstates⟩
    have hkey : parseRsaKey (itemOf metadata "root_key") "root_key" root.profile = .ok key :=
      (parseRsaKey_ok hprofile.strong hprofile.exponent).mpr ⟨hexponent, hof⟩
    have hlarge := hof.large_enough hprofile.strong
    refine ⟨(), hcheckpoint, (), hprovisioned, root.profile, hprofile, root.fingerprint, hpinned,
      (), hhex, minimum, hminimum, (), hone, (), hmetadata, version, hversion, (), hleast, key,
      hkey, root.fingerprint, (keyFingerprint_ok hkey).mpr ⟨canonical, hcanonical, hdigest⟩, (),
      rfl, (issuedAt, expiresAt), htimes, signature, ⟨s, hs, hne, hdecoded⟩, message, hmessage,
      (), ?_, _, hrevoked, root.revoked, rfl, _, hactive, (), by simpa using hnonempty,
      root.active, ?_, (), hroot, ?_⟩
    · rw [hof.exponent]
      exact (verifyRsa_ok hlarge).mpr ⟨hlength, hrange, hencoded⟩
    · exact (activeKeys_ok hprofile.strong hexponent hprofile.exponent (by simp)).mpr
        ⟨root.active, rfl, rfl, honce, hall⟩
    · rw [← hstates]

end Centinal26.Review

/-
Attestations are accepted through the pinned root only: `verify` allows exactly what a root
with the pinned fingerprint has signed a Judge key for, and that key a verdict.
-/

namespace Centinal26.Review

open Py BigEndian

-- == verify

variable (L : Libraries)

/-- What `verify` allows: a verdict on exactly these files, by a key that the pinned root has
signed as active, once, and not as revoked. -/
structure Accepted (attestationFile rootMetadataFile checkpointFile : JsonFile)
    (artifactSha256 findingsSha256 : PyStr) (now : Instant) (allowed : Allowed)
    (checkpoint metadata attestation judge : Items) (root : Root) : Prop where
  files : loads checkpointFile.contents = .dict checkpoint
    ∧ loads rootMetadataFile.contents = .dict metadata
    ∧ loads attestationFile.contents = .dict attestation
  clock : 0 ≤ now ∧ now ≤ maxInstant
  pinned : RootAccepted L checkpoint metadata now root
  schema : itemOf attestation "schema" = .str (py "centinal26-reviewed-artifact-attestation-v1")
  names : itemOf attestation "authority_key_id" = .str allowed.authorityKeyId
  active : (allowed.authorityKeyId, judge) ∈ root.active
  not_revoked : allowed.authorityKeyId ∉ root.revoked
  verdict : itemOf attestation "verdict" = .str (py "VERIFIED")
    ∧ itemOf attestation "verifier" = .str (py "Frost Judge")
    ∧ itemOf attestation "verdict_id" = .str allowed.verdictId
    ∧ py "verdict:" <+: allowed.verdictId
  artifact : itemOf attestation "artifact_sha256" = .str (L.lower artifactSha256)
    ∧ isHex64 (L.lower artifactSha256) = true
  findings : itemOf attestation "findings_sha256" = .str (L.lower findingsSha256)
    ∧ isHex64 (L.lower findingsSha256) = true
  in_force : ∃ issuedAt expiresAt notBefore notAfter,
    InForce L attestation now issuedAt expiresAt ∧ TimeOf L (itemOf judge "not_before") notBefore
    ∧ TimeOf L (itemOf judge "not_after") notAfter ∧ notBefore ≤ issuedAt ∧ expiresAt ≤ notAfter
  signed : ∃ key, KeyOf root.profile.minRsaBits (.dict judge) key
    ∧ key.keyId = allowed.authorityKeyId
    ∧ SignedBy L key.modulus (signedFields attestation attestationFields)
      (itemOf attestation "signature_b64")
  states : allowed = ⟨allowed.verdictId, L.lower artifactSha256, L.lower findingsSha256,
    allowed.authorityKeyId, root.version, root.fingerprint, root.profile,
    hexdigest (L.sha256 rootMetadataFile.bytes), hexdigest (L.sha256 attestationFile.bytes)⟩

variable {L}

/-- `verify` allows an attestation just if a root with the pinned fingerprint has signed for the
Judge key, and that key for the verdict. -/
theorem verified_allow_iff (attestationFile rootMetadataFile checkpointFile : JsonFile)
    (artifactSha256 findingsSha256 : PyStr) (now : Instant) (allowed : Allowed) :
    verify L attestationFile rootMetadataFile checkpointFile artifactSha256 findingsSha256 now
        = .ok allowed
      ↔ ∃ checkpoint metadata attestation judge root,
        Accepted L attestationFile rootMetadataFile checkpointFile artifactSha256 findingsSha256
          now allowed checkpoint metadata attestation judge root := by
  unfold verify loadJson
  simp only [bind_ok_iff, raiseIf_ok, require_ok, PyVal.dict?_eq, PyVal.text?_eq,
    Bool.not_eq_false', PyVal.eq_str, Bool.or_eq_false_iff,
    lift_ok, astimezone_ok, verifyRootMetadata_ok, decide_eq_false_iff_not, not_lt,
    not_le, List.isEmpty_eq_false_iff, checkInterval_ok, parseTime_ok, decodeSignature_ok,
    List.isPrefixOf_iff_prefix, Except.ok.injEq]
  constructor
  · rintro ⟨-, ⟨hartifact, hfindings⟩, checkpoint, hcheckpoint, metadata, hmetadata, h⟩
    obtain ⟨attestation, hattestation, _, ⟨hclock, rfl⟩, root, hroot, -, hschema, h⟩ := h
    obtain ⟨keyId, hnames, -, -, -, hrevoked, judge, hjudge, -, ⟨hverdict, hverifier⟩, h⟩ := h
    obtain ⟨verdictId, hverdictId, -, hprefix, -, hisartifact, -, hisfindings, h⟩ := h
    obtain ⟨⟨issuedAt, expiresAt⟩, hforce, notBefore, hbefore, notAfter, hafter, -, -, -, h⟩ := h
    obtain ⟨⟨hnotbefore, hnotafter⟩, key, hkey, signature, ⟨s, hs, hne, hdecoded⟩, h⟩ := h
    obtain ⟨message, hmessage, u, hsigned, rfl⟩ := h
    obtain ⟨-, hof⟩ := (parseRsaKey_ok hroot.profile.strong hroot.profile.exponent).mp hkey
    have hlarge := hof.large_enough hroot.profile.strong
    have hmem := (getItem?_eq_some hroot.active.once).mp hjudge
    rw [hof.exponent] at hsigned
    obtain ⟨hlength, hrange, hencoded⟩ := (verifyRsa_ok hlarge).mp hsigned
    refine ⟨checkpoint, metadata, attestation, judge, root, {
      files := ⟨hcheckpoint, hmetadata, hattestation⟩
      clock := hclock
      pinned := hroot
      schema := hschema
      names := hnames
      active := hmem
      not_revoked := hrevoked
      verdict := ⟨hverdict, hverifier, hverdictId, hprefix⟩
      artifact := ⟨hisartifact, hartifact⟩
      findings := ⟨hisfindings, hfindings⟩
      in_force := ⟨issuedAt, expiresAt, notBefore, notAfter, hforce, hbefore, hafter,
        hnotbefore, hnotafter⟩
      signed := ⟨key, hof, ?_, s, signature, message, hs, hne, hdecoded, hmessage, hlength,
        hrange, hencoded⟩
      states := rfl }⟩
    -- the record is listed under its own key id
    obtain ⟨⟨listed, hlisted, hid⟩, -, -⟩ := hroot.active.judges _ hmem
    rw [hof.unique hlisted, hid]
  · rintro ⟨checkpoint, metadata, attestation, judge, root, h⟩
    obtain ⟨hcheckpoint, hmetadata, hattestation⟩ := h.files
    obtain ⟨hverdict, hverifier, hverdictId, hprefix⟩ := h.verdict
    obtain ⟨issuedAt, expiresAt, notBefore, notAfter, hforce, hbefore, hafter, hnotbefore,
      hnotafter⟩ := h.in_force
    obtain ⟨key, hof, hid, s, signature, message, hs, hne, hdecoded, hmessage, hlength, hrange,
      hencoded⟩ := h.signed
    have hroot := h.pinned
    have hlarge := hof.large_enough hroot.profile.strong
    refine ⟨(), ⟨h.artifact.2, h.findings.2⟩, checkpoint, hcheckpoint, metadata, hmetadata,
      attestation, hattestation, now, ⟨h.clock, rfl⟩, root, hroot, (), h.schema,
      allowed.authorityKeyId, h.names, (), hid ▸ hof.named, (), h.not_revoked, judge,
      (getItem?_eq_some hroot.active.once).mpr h.active, (), ⟨hverdict, hverifier⟩,
      allowed.verdictId, hverdictId, (), hprefix, (), h.artifact.1, (), h.findings.1,
      (issuedAt, expiresAt), hforce, notBefore, hbefore, notAfter, hafter, (),
      lt_of_le_of_lt hnotbefore (lt_of_lt_of_le hforce.ordered hnotafter), (),
      ⟨hnotbefore, hnotafter⟩, key,
      (parseRsaKey_ok hroot.profile.strong hroot.profile.exponent).mpr ⟨hroot.exponent, hof⟩,
      signature, ⟨s, hs, hne, hdecoded⟩, message, hmessage, (), ?_, h.states.symm⟩
    rw [hof.exponent]
    exact (verifyRsa_ok hlarge).mpr ⟨hlength, hrange, hencoded⟩

end Centinal26.Review
