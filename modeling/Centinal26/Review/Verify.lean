/-
Reviewed-risk attestations: a release pins the fingerprint of a root key, the root signs
which Judge keys are active and which are revoked, and a Judge key signs a verdict.
-/
import Centinal26.Lib.BigEndian
import Centinal26.Py.Typed
import Centinal26.Py.Utf8

namespace Centinal26.Review

open Py BigEndian

-- == libraries

/-- What the verification calls. -/
structure Libraries where
  /-- `hashlib.sha256(b).digest()` -/
  sha256 : ByteArray → List UInt8
  length_sha256 : ∀ b, (sha256 b).length = 32
  /-- `base64.b64decode(s, validate=True)`, where it decodes -/
  b64decode : PyStr → Option (List UInt8)
  /-- `datetime.fromisoformat(s)`, where it parses -/
  fromisoformat : PyStr → Option DateTime
  lower : PyStr → PyStr

/-- What the verification raises. -/
inductive ReviewError : Type
  /-- `VerificationError` -/
  | verification (message : String)
  | python (e : PyErr)
deriving DecidableEq

structure JsonFile where
  path : String
  bytes : ByteArray
  contents : Json

def raiseIf (bad : Bool) (message : String) : Except ReviewError Unit :=
  if bad then .error (.verification message) else .ok ()

/-- The value a check of its type has let through. -/
def require {α : Type} (found : Option α) (message : String) : Except ReviewError α :=
  match found with
  | some a => .ok a
  | none => .error (.verification message)

def lift {α : Type} (r : Except PyErr α) : Except ReviewError α := r.mapError .python

def isLowerHex (c : Nat) : Bool := (48 ≤ c && c ≤ 57) || (97 ≤ c && c ≤ 102)

def isHex64 (s : PyStr) : Bool := s.length == 64 && s.all isLowerHex

def isHex (s : PyStr) : Bool := !s.isEmpty && s.all fun c => isLowerHex c || (65 ≤ c && c ≤ 70)

/-- `int(s, 16)`, for a text of hexadecimal digits. -/
def hexNumber (s : PyStr) : Nat :=
  s.foldl (fun n c => 16 * n + if c < 58 then c - 48 else if c < 97 then c - 55 else c - 87) 0

/-- `format(n, "x")`. -/
def hexText (n : Nat) : PyStr := (Nat.toDigits 16 n).map Char.toNat

def hexdigest (digest : List UInt8) : PyStr :=
  digest.flatMap fun b => [hexDigit (b.toNat / 16), hexDigit (b.toNat % 16)]

-- == values

def loadJson (file : JsonFile) : Except ReviewError Items :=
  require (PyVal.dict? (loads file.contents)) ("JSON object required: " ++ file.path)

/-- `separators=(",", ":")`. -/
def compact : Style := ⟨true, py ",", py ":"⟩

def canonicalJson (value : PyVal) : Except ReviewError Text := do
  let document ← lift (dumps value)
  lift (encode (document.text compact))

/-- The members of a dictionary that are signed. -/
def signedFields (d : Items) (names : List String) : PyVal :=
  .dict (names.map fun name => item name (itemOf d name))

/-- What `_canonical_attestation` writes. -/
def attestationFields : List String :=
  ["schema", "authority_key_id", "verdict_id", "verdict", "verifier", "artifact_sha256",
    "findings_sha256", "issued_at", "expires_at"]

/-- What `_canonical_root_metadata` writes. -/
def rootFields : List String :=
  ["schema", "version", "root_key", "active_judge_keys", "revoked_key_ids", "issued_at",
    "expires_at"]

def canonicalAttestation (attestation : Items) : Except ReviewError Text :=
  canonicalJson (signedFields attestation attestationFields)

def canonicalRootMetadata (metadata : Items) : Except ReviewError Text :=
  canonicalJson (signedFields metadata rootFields)

variable (L : Libraries)

def parseTime (value : PyVal) (field : String) : Except ReviewError Instant := do
  let s ← require (PyVal.text? value) (field ++ " must be a non-empty RFC3339 string")
  raiseIf s.isEmpty (field ++ " must be a non-empty RFC3339 string")
  match ← require (L.fromisoformat s) ("invalid " ++ field) with
  | .naive _ => .error (.verification (field ++ " must include timezone"))
  | .aware t => lift (astimezone t)

-- == keys

def profileSchema : PyStr := py "centinal26-rsa-verification-profile-v1"

def profileVersion : Int := 1

def minRsaBits : Int := 3072

def requiredRsaExponent : Int := 65537

/-- What `_parse_profile` returns. -/
structure Profile where
  minRsaBits : Int
  /-- equal to 65537, and perhaps a float -/
  requiredExponent : PyVal

def parseProfile (checkpoint : Items) : Except ReviewError Profile := do
  let profile ← require (PyVal.dict? (itemOf checkpoint "verification_profile"))
    "checkpoint verification_profile missing"
  raiseIf (!(itemOf profile "schema").eq (.str profileSchema)
    || !(itemOf profile "version").eq (.int profileVersion)) "unsupported RSA verification profile"
  let bits ← require (PyVal.int? (itemOf profile "min_rsa_bits"))
    "RSA verification profile is weaker than required policy"
  raiseIf (decide (bits < minRsaBits)
    || !(itemOf profile "required_exponent").eq (.int requiredRsaExponent))
    "RSA verification profile is weaker than required policy"
  .ok ⟨bits, itemOf profile "required_exponent"⟩

structure RsaKey where
  keyId : PyStr
  modulus : Nat
  exponent : Int
deriving DecidableEq

def parseRsaKey (value : PyVal) (field : String) (profile : Profile) :
    Except ReviewError RsaKey := do
  let key ← require (PyVal.dict? value) (field ++ " must be an object")
  let keyId ← require (PyVal.text? (itemOf key "key_id")) (field ++ ".key_id missing")
  raiseIf keyId.isEmpty (field ++ ".key_id missing")
  let nHex ← require (PyVal.text? (itemOf key "n_hex")) (field ++ ".n_hex invalid")
  raiseIf (!isHex nHex) (field ++ ".n_hex invalid")
  let exponent ← require (PyVal.int? (itemOf key "e")) (field ++ ".e invalid")
  let requiredExponent ← require (PyVal.int? profile.requiredExponent)
    "invalid RSA verification profile"
  raiseIf (decide (hexNumber nHex = 0)) (field ++ " contains invalid RSA parameters")
  raiseIf (decide (((hexNumber nHex).size : Int) < profile.minRsaBits))
    (field ++ " RSA modulus below verification profile minimum")
  raiseIf (decide (exponent ≠ requiredExponent))
    (field ++ " RSA exponent violates verification profile")
  .ok ⟨keyId, hexNumber nHex, exponent⟩

/-- What the fingerprint of a key is taken of. -/
def keyFields (key : RsaKey) : PyVal :=
  .dict [item "e" (.int key.exponent), item "key_id" (.str key.keyId),
    item "n_hex" (.str (hexText key.modulus))]

def keyFingerprint (value : PyVal) (field : String) (profile : Profile) :
    Except ReviewError PyStr := do
  let key ← parseRsaKey value field profile
  let canonical ← canonicalJson (keyFields key)
  .ok (hexdigest (L.sha256 canonical.utf8))

-- == signatures

def decodeSignature (value : PyVal) (field : String) : Except ReviewError (List UInt8) := do
  let s ← require (PyVal.text? value) (field ++ " required")
  raiseIf s.isEmpty (field ++ " required")
  require (L.b64decode s) (field ++ " invalid")

def sha256DigestinfoPrefix : List UInt8 :=
  [0x30, 0x31, 0x30, 0x0d, 0x06, 0x09, 0x60, 0x86, 0x48, 0x01, 0x65, 0x03, 0x04, 0x02, 0x01,
    0x05, 0x00, 0x04, 0x20]

def digestInfo (message : Text) : List UInt8 := sha256DigestinfoPrefix ++ L.sha256 message.utf8

def expected (padding : Int) (message : Text) : List UInt8 :=
  [0x00, 0x01] ++ List.replicate padding.toNat 0xff ++ [0x00] ++ digestInfo L message

/-- `_verify_rsa_pkcs1_v15_sha256`. -/
def verifyRsa (message : Text) (signature : List UInt8) (modulus : Nat) (exponent : Int) :
    Except ReviewError Unit := do
  raiseIf (decide (signature.length ≠ width modulus))
    "signature length does not match authority key"
  raiseIf (decide (modulus ≤ ofBytes signature)) "signature integer outside authority key range"
  -- the exponent is the required one, so positive
  let encoded := toBytes (width modulus) (ofBytes signature ^ exponent.toNat % modulus)
  let padding : Int := width modulus - (digestInfo L message).length - 3
  raiseIf (decide (padding < 8)) "authority key too small for SHA-256 signature"
  raiseIf (decide (encoded ≠ expected L padding message)) "invalid signature"

-- == roots

def maxFutureSkew : Int := 300

/-- The loop over `active_judge_keys`. -/
def activeKeys (profile : Profile) :
    Nat → List (PyStr × Items) → List PyVal → Except ReviewError (List (PyStr × Items))
  | _, active, [] => .ok active
  | index, active, value :: rest => do
    let judge ← require (PyVal.dict? value) "active_judge_keys entries must be objects"
    let field := "active_judge_keys[" ++ toString index ++ "]"
    let key ← parseRsaKey value field profile
    raiseIf (active.any fun a => decide (a.1 = key.keyId)) "duplicate active Judge key_id"
    let _ ← parseTime L (itemOf judge "not_before") (field ++ ".not_before")
    let _ ← parseTime L (itemOf judge "not_after") (field ++ ".not_after")
    activeKeys profile (index + 1) (active ++ [(key.keyId, judge)]) rest

/-- What `_verify_root_metadata` returns. -/
structure Root where
  version : PyVal
  active : List (PyStr × Items)
  revoked : List PyStr
  fingerprint : PyStr
  profile : Profile

/-- The two times a signed document is stated to hold between, and the checks on them. -/
def checkInterval (d : Items) (now : Instant) (issued expires future stale : String) :
    Except ReviewError (Instant × Instant) := do
  let issuedAt ← parseTime L (itemOf d "issued_at") issued
  let expiresAt ← parseTime L (itemOf d "expires_at") expires
  let latest ← lift (addSeconds now maxFutureSkew)
  raiseIf (decide (latest < issuedAt)) future
  raiseIf (decide (expiresAt ≤ issuedAt) || decide (expiresAt ≤ now)) stale
  .ok (issuedAt, expiresAt)

def verifyRootMetadata (checkpoint metadata : Items) (now : Instant) : Except ReviewError Root := do
  raiseIf (!(itemOf checkpoint "schema").eq (.str (py "centinal26-review-root-checkpoint-v1")))
    "unsupported review root checkpoint schema"
  raiseIf (!PyVal.isTrue (itemOf checkpoint "provisioned"))
    "review root checkpoint is not provisioned"
  let profile ← parseProfile checkpoint
  let pinned ← require (PyVal.text? (itemOf checkpoint "root_key_fingerprint_sha256"))
    "checkpoint root fingerprint invalid"
  raiseIf (!isHex64 pinned) "checkpoint root fingerprint invalid"
  let minimum ← require (PyVal.int? (itemOf checkpoint "min_root_version"))
    "checkpoint min_root_version invalid"
  raiseIf (decide (minimum < 1)) "checkpoint min_root_version invalid"
  raiseIf (!(itemOf metadata "schema").eq (.str (py "centinal26-review-root-metadata-v1")))
    "unsupported review root metadata schema"
  let version ← require (PyVal.int? (itemOf metadata "version"))
    "review root metadata below release checkpoint"
  raiseIf (decide (version < minimum)) "review root metadata below release checkpoint"
  let rootKey ← parseRsaKey (itemOf metadata "root_key") "root_key" profile
  let fingerprint ← keyFingerprint L (itemOf metadata "root_key") "root_key" profile
  raiseIf (decide (fingerprint ≠ pinned))
    "review root fingerprint does not match release checkpoint"
  let _ ← checkInterval L metadata now "root issued_at" "root expires_at"
    "review root issued_at is in the future" "review root metadata is stale or expired"
  let signature ← decodeSignature L (itemOf metadata "signature_b64") "root signature_b64"
  let message ← canonicalRootMetadata metadata
  verifyRsa L message signature rootKey.modulus rootKey.exponent
  let revokedValues ← require (PyVal.list? (itemOf metadata "revoked_key_ids"))
    "revoked_key_ids must be a string list"
  let revoked ← require (revokedValues.mapM PyVal.text?) "revoked_key_ids must be a string list"
  let activeValues ← require (PyVal.list? (itemOf metadata "active_judge_keys"))
    "active_judge_keys must be a non-empty list"
  raiseIf activeValues.isEmpty "active_judge_keys must be a non-empty list"
  let active ← activeKeys L profile 0 [] activeValues
  raiseIf (decide (rootKey.keyId ∈ revoked)) "pinned root key cannot be listed as revoked Judge key"
  .ok ⟨itemOf metadata "version", active, revoked, fingerprint, profile⟩

-- == verify

/-- What `verify` returns, with the decision `VERIFIED_ALLOW`. -/
structure Allowed where
  verdictId : PyStr
  artifactSha256 : PyStr
  findingsSha256 : PyStr
  authorityKeyId : PyStr
  rootVersion : PyVal
  rootKeyFingerprintSha256 : PyStr
  verificationProfile : Profile
  rootMetadataSha256 : PyStr
  attestationSha256 : PyStr

/-- `verify`, with the time it is called at. -/
def verify (attestationFile rootMetadataFile checkpointFile : JsonFile)
    (artifactSha256 findingsSha256 : PyStr) (now : Instant) : Except ReviewError Allowed := do
  let artifact := L.lower artifactSha256
  let findings := L.lower findingsSha256
  raiseIf (!isHex64 artifact || !isHex64 findings)
    "artifact/findings identities must be lowercase SHA-256"
  let checkpoint ← loadJson checkpointFile
  let metadata ← loadJson rootMetadataFile
  let attestation ← loadJson attestationFile
  let current ← lift (astimezone now)
  let root ← verifyRootMetadata L checkpoint metadata current
  raiseIf (!(itemOf attestation "schema").eq
    (.str (py "centinal26-reviewed-artifact-attestation-v1")))
    "unsupported review attestation schema"
  let keyId ← require (PyVal.text? (itemOf attestation "authority_key_id"))
    "attestation authority_key_id missing"
  raiseIf keyId.isEmpty "attestation authority_key_id missing"
  raiseIf (decide (keyId ∈ root.revoked)) "attestation Judge key is revoked"
  let judge ← require (getItem? root.active keyId)
    "attestation Judge key is not active in signed root metadata"
  raiseIf (!(itemOf attestation "verdict").eq (.str (py "VERIFIED"))
    || !(itemOf attestation "verifier").eq (.str (py "Frost Judge")))
    "attestation is not an independent Frost Judge VERIFIED verdict"
  let verdictId ← require (PyVal.text? (itemOf attestation "verdict_id"))
    "stable Judge verdict_id required"
  raiseIf (!(py "verdict:").isPrefixOf verdictId) "stable Judge verdict_id required"
  raiseIf (!(itemOf attestation "artifact_sha256").eq (.str artifact))
    "attestation artifact identity mismatch"
  raiseIf (!(itemOf attestation "findings_sha256").eq (.str findings))
    "attestation findings identity mismatch"
  let (issuedAt, expiresAt) ← checkInterval L attestation current "issued_at" "expires_at"
    "attestation issued_at is in the future" "attestation is stale or expired"
  let notBefore ← parseTime L (itemOf judge "not_before") "Judge key not_before"
  let notAfter ← parseTime L (itemOf judge "not_after") "Judge key not_after"
  raiseIf (decide (notAfter ≤ notBefore)) "Judge key validity interval invalid"
  raiseIf (decide (issuedAt < notBefore) || decide (notAfter < expiresAt))
    "attestation validity exceeds Judge key validity interval"
  let key ← parseRsaKey (.dict judge) "Judge key" root.profile
  let signature ← decodeSignature L (itemOf attestation "signature_b64")
    "attestation signature_b64"
  let message ← canonicalAttestation attestation
  verifyRsa L message signature key.modulus key.exponent
  .ok ⟨verdictId, artifact, findings, keyId, root.version, root.fingerprint, root.profile,
    hexdigest (L.sha256 rootMetadataFile.bytes), hexdigest (L.sha256 attestationFile.bytes)⟩

end Centinal26.Review
