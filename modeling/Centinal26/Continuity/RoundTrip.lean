/-
What a bundle says when it is read.
-/
import Centinal26.Export.Store
import Centinal26.Py.Utf8
import Mathlib

namespace Centinal26.Continuity

open Py

-- == libraries

structure Member where
  name : PyStr
  payload : ByteArray
  /-- neither a directory nor encrypted -/
  plain : Bool

/-- What the bundle functions call: `zipfile` on files `α`, OpenSSL with private keys `κ` and
public keys `κ'`, `hashlib`, and the parts of `json` that read floats and bytes that are no
plain UTF-8. -/
structure Libraries (α κ κ' : Type) where
  pack : List Member → α
  unpack : α → Option (List Member)
  unpack_pack : ∀ ms, unpack (pack ms) = some ms
  /-- `pkeyutl -sign`, or what it prints -/
  sign : κ → ByteArray → Except String ByteArray
  /-- `pkeyutl -verify` of a message and a signature -/
  verify : κ' → ByteArray → ByteArray → Except String Unit
  sha256 : ByteArray → Export.Hex
  sha256File : α → Export.Hex
  toFloat : PyStr → PyFloat
  other : ByteArray → Except BytesError Json

/-- What the bundle functions raise. -/
inductive BundleError : Type
  /-- `ContinuityBundleError` -/
  | bundle (message : String)
  /-- of `json.dumps` and `encode` -/
  | python (e : PyErr)
  /-- of `json.loads`, where it is no `JSONDecodeError` -/
  | loads (e : BytesError)
  | attributeError
deriving DecidableEq

def maxManifestBytes : Nat := 64 * 1024

def maxProposalBytes : Nat := 64 * 1024 * 1024

def maxSignatureBytes : Nat := 1024

def ed25519SignatureBytes : Nat := 64

def canonicalJson (v : PyVal) : Except BundleError ByteArray :=
  (canonicalBytes v).mapError .python

def regularFile {β : Type} (file : Option β) (label : String) : Except BundleError β :=
  match file with
  | some f => .ok f
  | none => .error (.bundle (label ++ " must be a regular non-symlink file"))

def runOpenssl {β : Type} (r : Except String β) : Except BundleError β :=
  r.mapError fun detail => .bundle ("OpenSSL operation failed: " ++ detail)

-- == create

def manifest (payloadSha256 : PyStr) : PyVal := .dict (strItems [
  (py "schema", .str (py "frost.continuity.portable_bundle.v1")),
  (py "signature_algorithm", .str (py "Ed25519")),
  (py "payload_member", .str (py "proposal.json")),
  (py "payload_sha256", .str payloadSha256)])

/-- What `create_signed_bundle` writes and returns. -/
structure Created (α : Type) where
  bundle : α
  bundleSha256 : PyStr
  payloadSha256 : PyStr

variable {α κ κ' : Type} (L : Libraries α κ κ')

def createSignedBundle (privateKey : Option κ) (proposal : PyVal) :
    Except BundleError (Created α) := do
  let proposalBytes ← canonicalJson proposal
  if maxProposalBytes < proposalBytes.size then
    .error (.bundle "proposal exceeds portable bundle size limit")
  else
    let payloadSha256 := (L.sha256 proposalBytes).str
    let manifestBytes ← canonicalJson (manifest payloadSha256)
    let key ← regularFile privateKey "private signing key"
    let signature ← runOpenssl (L.sign key manifestBytes)
    if signature.size ≠ ed25519SignatureBytes then
      .error (.bundle "OpenSSL returned an invalid Ed25519 signature length")
    else
      let bundle := L.pack [⟨py "manifest.json", manifestBytes, true⟩,
        ⟨py "proposal.json", proposalBytes, true⟩, ⟨py "manifest.sig", signature, true⟩]
      .ok ⟨bundle, (L.sha256File bundle).str, payloadSha256⟩

-- == verify

def required : List PyStr := [py "manifest.json", py "proposal.json", py "manifest.sig"]

def readBoundedMember (members : List Member) (name : String) (limit : Nat) :
    Except BundleError ByteArray :=
  match members.find? fun m => decide (m.name = py name) with
  | none => .error (.bundle ("missing bundle member: " ++ name))
  | some m =>
    if ¬ m.plain then .error (.bundle ("unsupported ZIP member flags: " ++ name))
    else if limit < m.payload.size then
      .error (.bundle ("bundle member exceeds size limit: " ++ name))
    else .ok m.payload

/-- The members of a bundle: the manifest, the proposal and the signature. -/
def readMembers (bundle : α) : Except BundleError (ByteArray × ByteArray × ByteArray) :=
  match L.unpack bundle with
  | none => .error (.bundle "invalid continuity ZIP")
  | some members => do
    let names := members.map Member.name
    if ¬ (names.Nodup ∧ names.isPerm required) then
      .error (.bundle "bundle member set is not canonical")
    else
      let manifestBytes ← readBoundedMember members "manifest.json" maxManifestBytes
      let proposalBytes ← readBoundedMember members "proposal.json" maxProposalBytes
      let signature ← readBoundedMember members "manifest.sig" maxSignatureBytes
      .ok (manifestBytes, proposalBytes, signature)

def loadsJson (b : ByteArray) : Except BundleError Json :=
  (loadsBytes L.toFloat L.other b).mapError fun e =>
    if e = .text .decode then .bundle "bundle JSON is invalid" else .loads e

def requireCanonical (value : Json) (bytes : ByteArray) : Except BundleError Unit := do
  let written ← canonicalJson (loads value)
  if written ≠ bytes then .error (.bundle "bundle JSON is not canonical") else .ok ()

def requireField (manifest : Json) (key : String) (expected : PyStr) (message : String) :
    Except BundleError Unit :=
  match manifest with
  | .obj ms =>
    if ¬ (field ms key).isStr expected then .error (.bundle message) else .ok ()
  | _ => .error .attributeError

/-- What `verify_signed_bundle` returns. -/
structure Verified where
  bundleSha256 : PyStr
  payloadSha256 : PyStr
  proposal : Json

def checkMembers (key : κ') (manifestBytes proposalBytes signature : ByteArray) :
    Except BundleError Json := do
  if signature.size ≠ ed25519SignatureBytes then
    .error (.bundle "invalid Ed25519 signature length")
  else
    let manifest ← loadsJson L manifestBytes
    let proposal ← loadsJson L proposalBytes
    requireCanonical manifest manifestBytes
    requireCanonical proposal proposalBytes
    requireField manifest "schema" (py "frost.continuity.portable_bundle.v1")
      "unsupported portable bundle schema"
    requireField manifest "signature_algorithm" (py "Ed25519") "unsupported signature algorithm"
    requireField manifest "payload_member" (py "proposal.json") "unsupported payload member"
    requireField manifest "payload_sha256" (L.sha256 proposalBytes).str "proposal SHA-256 mismatch"
    runOpenssl (L.verify key manifestBytes signature)
    .ok proposal

def verifySignedBundle (bundlePath : Option α) (publicKey : Option κ') :
    Except BundleError Verified := do
  let key ← regularFile publicKey "public verification key"
  let bundle ← regularFile bundlePath "bundle"
  let (manifestBytes, proposalBytes, signature) ← readMembers L bundle
  let proposal ← checkMembers L key manifestBytes proposalBytes signature
  .ok ⟨(L.sha256File bundle).str, (L.sha256 proposalBytes).str, proposal⟩

end Centinal26.Continuity

namespace Centinal26.Continuity

open Py

variable {α κ κ' : Type} (L : Libraries α κ κ')

-- == manifests

def manifestMembers (payloadSha256 : PyStr) : List (PyStr × Json) :=
  [(py "payload_member", .str (py "proposal.json")), (py "payload_sha256", .str payloadSha256),
    (py "schema", .str (py "frost.continuity.portable_bundle.v1")),
    (py "signature_algorithm", .str (py "Ed25519"))]

theorem dumpsStrict_manifest (h : PyStr) :
    dumpsStrict (manifest h) = .ok (.obj (manifestMembers h)) := by
  have hdumps : dumps (manifest h) = .ok (.obj (manifestMembers h)) := by
    rw [manifest, dumps_strItems]
    simp only [dumpsFields_cons, dumps, bind_ok_eq]
    rfl
  unfold dumpsStrict
  rw [hdumps]
  rfl

theorem scannable_manifest (h : PyStr) : (Json.obj (manifestMembers h)).Scannable L.toFloat := by
  refine ⟨rfl, rfl, ?_⟩
  simp [manifestMembers, Json.ReadsFloats, MembersReadFloats]

theorem flatMap_escape_hex (x : Export.Hex) : x.str.flatMap (escapeChar false) = x.str := by
  have hall : ∀ s : PyStr, (∀ c ∈ s, 48 ≤ c ∧ c ≤ 57 ∨ 97 ≤ c ∧ c ≤ 102) →
      s.flatMap (escapeChar false) = s := by
    intro s hs
    induction s with
    | nil => rfl
    | cons c s ih =>
      have hc := hs c (List.mem_cons_self ..)
      have hself : escapeChar false c = [c] := by
        simp only [escapeChar, Bool.false_and, Bool.false_eq_true, if_false]
        repeat rw [if_neg (by omega)]
      rw [List.flatMap_cons, hself, ih fun d hd => hs d (List.mem_cons_of_mem _ hd)]
      rfl
  exact hall x.str x.digits

theorem encodable_manifest (x : Export.Hex) :
    Encodable ((Json.obj (manifestMembers x.str)).text .canonical) := by
  have hhex : Encodable x.str := by
    intro c hc
    have hdigit := x.digits c hc
    simp only [isScalar, decide_eq_true_eq]
    omega
  rw [encodable_text, Json.isEncodable, allEncodableMembers_eq]
  simp only [manifestMembers, List.all_cons, List.all_nil, Json.isEncodable, Bool.and_true,
    Bool.and_eq_true, decide_eq_true_eq]
  exact ⟨⟨encodable_py _, encodable_py _⟩, ⟨encodable_py _, hhex⟩,
    ⟨encodable_py _, encodable_py _⟩, encodable_py _, encodable_py _⟩

theorem manifest_written (x : Export.Hex) : ∃ t : Text, canonicalBytes (manifest x.str) = .ok t.utf8
      ∧ t.str = (Json.obj (manifestMembers x.str)).text .canonical
      ∧ t.utf8.size ≤ maxManifestBytes := by
  have hlength : ((Json.obj (manifestMembers x.str)).text .canonical).length ≤ 1024 := by
    have hliteral : (stringLiteral false x.str).length = 66 := by
      rw [stringLiteral, flatMap_escape_hex]
      simp [x.length]
    have hconstants : (stringLiteral false (py "payload_member")).length = 16
        ∧ (stringLiteral false (py "proposal.json")).length = 15
        ∧ (stringLiteral false (py "payload_sha256")).length = 16
        ∧ (stringLiteral false (py "schema")).length = 8
        ∧ (stringLiteral false (py "frost.continuity.portable_bundle.v1")).length = 37
        ∧ (stringLiteral false (py "signature_algorithm")).length = 21
        ∧ (stringLiteral false (py "Ed25519")).length = 9
        ∧ (py ",").length = 1 ∧ (py ":").length = 1 := by decide
    simp [manifestMembers, Json.text, memberTexts, joinWith, Style.canonical, hliteral, hconstants]
  refine ⟨⟨_, encodable_manifest x⟩,
    canonicalBytes_ok_iff.mpr ⟨_, _, dumpsStrict_manifest _, rfl, rfl⟩, rfl, ?_⟩
  have hsize := size_utf8_le ⟨_, encodable_manifest x⟩
  unfold maxManifestBytes
  simp only at hsize
  omega

-- == create

variable {L}

variable {k : κ} {v : Verified} {c : Created α} {m p s : ByteArray} {q : Json} {k' : κ'}

theorem createSignedBundle_ok {v : PyVal} (h : createSignedBundle L (some k) v = .ok c) :
    ∃ (b : ByteArray) (t : Text) (s : ByteArray), canonicalBytes v = .ok b
      ∧ b.size ≤ maxProposalBytes
      ∧ canonicalBytes (manifest (L.sha256 b).str) = .ok t.utf8
      ∧ t.str = (Json.obj (manifestMembers (L.sha256 b).str)).text .canonical
      ∧ t.utf8.size ≤ maxManifestBytes
      ∧ L.sign k t.utf8 = .ok s ∧ s.size = ed25519SignatureBytes
      ∧ c.bundle = L.pack [⟨py "manifest.json", t.utf8, true⟩, ⟨py "proposal.json", b, true⟩,
          ⟨py "manifest.sig", s, true⟩] := by
  unfold createSignedBundle at h
  obtain ⟨b, hb, h⟩ := of_bind_ok h
  have hbytes : canonicalBytes v = .ok b := of_mapError_ok hb
  split at h
  · cases h
  · next hsize =>
    obtain ⟨t, hwritten, htext, hsmall⟩ := manifest_written (L.sha256 b)
    obtain ⟨m, hm, h⟩ := of_bind_ok h
    have hm' : canonicalBytes (manifest (L.sha256 b).str) = .ok m := of_mapError_ok hm
    rw [hwritten] at hm'
    cases hm'
    obtain ⟨key, hkey, h⟩ := of_bind_ok h
    cases hkey
    obtain ⟨s, hs, h⟩ := of_bind_ok h
    have hsign : L.sign k t.utf8 = .ok s := of_mapError_ok hs
    split at h
    · cases h
    · next hlength =>
      cases h
      exact ⟨b, t, s, hbytes, not_lt.mp hsize, hwritten, htext, hsmall, hsign,
        not_not.mp hlength, rfl⟩

theorem readMembers_pack (hm : m.size ≤ maxManifestBytes)
    (hp : p.size ≤ maxProposalBytes) (hs : s.size = ed25519SignatureBytes) :
    readMembers L (L.pack [⟨py "manifest.json", m, true⟩, ⟨py "proposal.json", p, true⟩,
      ⟨py "manifest.sig", s, true⟩]) = .ok (m, p, s) := by
  have hnames : (required.Nodup ∧ required.isPerm required) := by decide
  have hread : ∀ {ms : List Member} {name : String} {limit : Nat} {b : ByteArray},
      (ms.find? fun x => decide (x.name = py name)) = some ⟨py name, b, true⟩ →
        b.size ≤ limit → readBoundedMember ms name limit = .ok b := by
    intro ms name limit b hfind hle
    unfold readBoundedMember
    rw [hfind]
    simp only [not_true_eq_false, if_false, if_neg (not_lt.mpr hle)]
  unfold readMembers
  rw [L.unpack_pack]
  show (if ¬ (required.Nodup ∧ required.isPerm required) then _ else _) = _
  rw [if_neg (not_not.mpr hnames), hread (b := m) rfl hm, bind_ok_eq, hread (b := p) rfl hp,
    bind_ok_eq, hread (b := s) rfl (by rw [hs]; decide), bind_ok_eq]

-- == verify

variable (L) in
/-- What the checks of the members have found when they end. -/
structure Checked (key : κ') (m p s : ByteArray) (proposal : Json) : Prop where
  length : s.size = ed25519SignatureBytes
  written : ∃ ms, loadsBytes L.toFloat L.other m = .ok (.obj ms)
    ∧ canonicalBytes (loads (.obj ms)) = .ok m
    ∧ (field ms "schema").isStr (py "frost.continuity.portable_bundle.v1") = true
    ∧ (field ms "signature_algorithm").isStr (py "Ed25519") = true
    ∧ (field ms "payload_member").isStr (py "proposal.json") = true
    ∧ (field ms "payload_sha256").isStr (L.sha256 p).str = true
  proposal : loadsBytes L.toFloat L.other p = .ok proposal ∧ canonicalBytes (loads proposal) = .ok p
  signed : L.verify key m s = .ok ()

variable {u : Unit} {file : α} {items : List (PyKey × PyVal)}

theorem requireCanonical_ok_iff {b : ByteArray} :
    requireCanonical q b = .ok u ↔ canonicalBytes (loads q) = .ok b := by
  unfold requireCanonical
  constructor
  · intro h
    obtain ⟨w, hw, h⟩ := of_bind_ok h
    split at h
    · cases h
    · next heq =>
      rw [← not_not.mp heq]
      exact of_mapError_ok hw
  · intro h
    rw [canonicalJson, h]
    show (if b ≠ b then _ else _) = _
    rw [if_neg (not_not.mpr rfl)]

theorem requireField_ok_iff {key : String} {expected : PyStr} {message : String}
    : requireField q key expected message = .ok u
      ↔ ∃ ms, q = .obj ms ∧ (field ms key).isStr expected = true := by
  unfold requireField
  split
  · next ms =>
    by_cases h : (field ms key).isStr expected = true
    · rw [if_neg (not_not.mpr h)]
      exact iff_of_true rfl ⟨ms, rfl, h⟩
    · rw [if_pos h]
      refine iff_of_false (nofun) ?_
      rintro ⟨ms', heq, hs⟩
      cases heq
      exact h hs
  · next hobj =>
    refine iff_of_false (nofun) ?_
    rintro ⟨ms, heq, -⟩
    exact hobj ms heq

theorem checkMembers_ok_iff {key : κ'} :
    checkMembers L key m p s = .ok q ↔ Checked L key m p s q := by
  unfold checkMembers
  constructor
  · intro h
    split at h
    · cases h
    · next hlength =>
      obtain ⟨mj, hmj, h⟩ := of_bind_ok h
      obtain ⟨pj, hpj, h⟩ := of_bind_ok h
      obtain ⟨_, hmc, h⟩ := of_bind_ok h
      obtain ⟨_, hpc, h⟩ := of_bind_ok h
      obtain ⟨_, hschema, h⟩ := of_bind_ok h
      obtain ⟨_, halgorithm, h⟩ := of_bind_ok h
      obtain ⟨_, hmember, h⟩ := of_bind_ok h
      obtain ⟨_, hsha, h⟩ := of_bind_ok h
      obtain ⟨_, hsigned, h⟩ := of_bind_ok h
      cases h
      obtain ⟨ms, rfl, hschema'⟩ := requireField_ok_iff.mp hschema
      obtain ⟨_, heq, halgorithm'⟩ := requireField_ok_iff.mp halgorithm
      cases heq
      obtain ⟨_, heq, hmember'⟩ := requireField_ok_iff.mp hmember
      cases heq
      obtain ⟨_, heq, hsha'⟩ := requireField_ok_iff.mp hsha
      cases heq
      exact ⟨not_not.mp hlength, ⟨ms, of_mapError_ok hmj, requireCanonical_ok_iff.mp hmc,
        hschema', halgorithm', hmember', hsha'⟩,
        ⟨of_mapError_ok hpj, requireCanonical_ok_iff.mp hpc⟩, of_mapError_ok hsigned⟩
  · rintro ⟨hlength, ⟨ms, hmj, hmc, hschema, halgorithm, hmember, hsha⟩, ⟨hpj, hpc⟩, hsigned⟩
    have hloads : ∀ {b : ByteArray} {d : Json}, loadsBytes L.toFloat L.other b = .ok d →
        loadsJson L b = .ok d := by
      intro b d hd
      rw [loadsJson, hd]
      rfl
    rw [if_neg (not_not.mpr hlength), hloads hmj, bind_ok_eq, hloads hpj, bind_ok_eq,
      (requireCanonical_ok_iff (u := ())).mpr hmc, bind_ok_eq,
      (requireCanonical_ok_iff (u := ())).mpr hpc, bind_ok_eq,
      (requireField_ok_iff (u := ())).mpr ⟨ms, rfl, hschema⟩, bind_ok_eq,
      (requireField_ok_iff (u := ())).mpr ⟨ms, rfl, halgorithm⟩, bind_ok_eq,
      (requireField_ok_iff (u := ())).mpr ⟨ms, rfl, hmember⟩, bind_ok_eq,
      (requireField_ok_iff (u := ())).mpr ⟨ms, rfl, hsha⟩, bind_ok_eq, runOpenssl, hsigned]
    rfl

theorem verifySignedBundle_ok_iff : verifySignedBundle L (some file) (some k') = .ok v
      ↔ ∃ m p s, readMembers L file = .ok (m, p, s) ∧ Checked L k' m p s v.proposal
          ∧ v.bundleSha256 = (L.sha256File file).str ∧ v.payloadSha256 = (L.sha256 p).str := by
  unfold verifySignedBundle
  simp only [regularFile, bind_ok_eq]
  constructor
  · intro h
    obtain ⟨⟨m, p, s⟩, hread, h⟩ := of_bind_ok h
    obtain ⟨q, hq, h⟩ := of_bind_ok h
    cases h
    exact ⟨m, p, s, hread, checkMembers_ok_iff.mp hq, rfl, rfl⟩
  · rintro ⟨m, p, s, hread, hchecked, hbundle, hpayload⟩
    obtain ⟨b, h, q⟩ := v
    cases hbundle
    cases hpayload
    rw [hread, bind_ok_eq]
    show (checkMembers L k' m p s >>= fun q => _) = _
    rw [checkMembers_ok_iff.mpr hchecked]
    rfl

-- == results

/-- Signatures made with one key verify with the other. -/
def Correct (L : Libraries α κ κ') (k : κ) (k' : κ') : Prop :=
  ∀ m s, L.sign k m = .ok s → L.verify k' m s = .ok ()

/-- A signature verifies for one message. -/
def OneMessage (L : Libraries α κ κ') (k' : κ') : Prop :=
  ∀ m m' s, L.verify k' m s = .ok () → L.verify k' m' s = .ok () → m = m'

/-- Every float in what is written of a value is read back by `float`. -/
def FloatsReadBack (L : Libraries α κ κ') (v : PyVal) : Prop :=
  ∀ d, dumpsStrict v = .ok d → d.ReadsFloats L.toFloat

theorem readsBack_of_verified (h : createSignedBundle L (some k) (.dict items) = .ok c)
    (hfloats : FloatsReadBack L (.dict items))
    (hv : verifySignedBundle L (some c.bundle) (some k') = .ok v) :
    readsBack (.dict items) = true := by
  obtain ⟨b, t, s, hb, hbsize, -, -, hsmall, -, hlength, hbundle⟩ := createSignedBundle_ok h
  obtain ⟨d, u, hd, hu, rfl⟩ := canonicalBytes_ok_iff.mp hb
  have hread := readMembers_pack (L := L) hsmall hbsize hlength
  rw [← hbundle] at hread
  obtain ⟨m, p, s', hread', hchecked, -, -⟩ := verifySignedBundle_ok_iff.mp hv
  rw [hread] at hread'
  cases hread'
  unfold readsBack
  rw [hd]
  exact (canonicalBytes_loads_iff L.other hd hu (hfloats d hd)).mp ⟨_, hchecked.proposal⟩

/-- A bundle that was created verifies, with its proposal, just if the names of the
proposal are in order as they are written. -/
theorem roundTrips_iff (hcorrect : Correct L k k')
   
    (h : createSignedBundle L (some k) (.dict items) = .ok c)
    (hfloats : FloatsReadBack L (.dict items)) :
    (∃ v, verifySignedBundle L (some c.bundle) (some k') = .ok v
        ∧ dumpsStrict (.dict items) = .ok v.proposal)
      ↔ readsBack (.dict items) = true := by
  obtain ⟨b, t, s, hb, hbsize, hwritten, htext, hsmall, hsign, hlength, hbundle⟩ :=
    createSignedBundle_ok h
  obtain ⟨d, u, hd, hu, rfl⟩ := canonicalBytes_ok_iff.mp hb
  have hreads : readsBack (.dict items) = d.isNormal := by
    unfold readsBack
    rw [hd]
  have hread := readMembers_pack (L := L) hsmall hbsize hlength
  rw [← hbundle] at hread
  rw [hreads, ← canonicalBytes_loads_iff L.other hd hu (hfloats d hd)]
  constructor
  · rintro ⟨v, hv, -⟩
    rw [canonicalBytes_loads_iff L.other hd hu (hfloats d hd), ← hreads]
    exact readsBack_of_verified h hfloats hv
  · rintro ⟨q, hloads, hcanonical⟩
    have hmanifest : loadsBytes L.toFloat L.other t.utf8
        = .ok (.obj (manifestMembers (L.sha256 u.utf8).str)) :=
      loadsBytes_utf8 (scannable_manifest L _) htext
    have hscan := scannable_manifest L (L.sha256 u.utf8).str
    have hrewritten : canonicalBytes (loads (.obj (manifestMembers (L.sha256 u.utf8).str)))
        = .ok t.utf8 := by
      refine canonicalBytes_ok_iff.mpr ⟨_, t, ?_, htext, rfl⟩
      unfold dumpsStrict
      rw [dumps_loads _ hscan.normal hscan.short, bind_ok_eq, isFinite_loads _ hscan.normal]
      rfl
    refine ⟨⟨_, _, q⟩, verifySignedBundle_ok_iff.mpr ⟨t.utf8, u.utf8, s, hread, ?_, rfl, rfl⟩, ?_⟩
    · refine ⟨hlength, ⟨_, hmanifest, hrewritten, ?_, ?_, ?_, ?_⟩, ⟨hloads, hcanonical⟩,
        hcorrect _ _ hsign⟩
      · rfl
      · rfl
      · rfl
      · show decide ((L.sha256 u.utf8).str = (L.sha256 u.utf8).str) = true
        exact decide_eq_true rfl
    · -- what is read is the document that was written
      have hnormal := (canonicalBytes_loads_iff L.other hd hu (hfloats d hd)).mp
        ⟨q, hloads, hcanonical⟩
      rw [loadsBytes_written L.other hd hu (hfloats d hd) hnormal] at hloads
      cases hloads
      exact hd

/-- Of two bundles that verify under one signature, with proposals whose hashes do not
collide, neither the manifest nor the proposal differs. -/
theorem members_bound (hone : OneMessage L k') {file' : α} {m' p' : ByteArray} {v' : Verified}
    (hm : readMembers L file = .ok (m, p, s)) (hm' : readMembers L file' = .ok (m', p', s))
    (hv : verifySignedBundle L (some file) (some k') = .ok v)
    (hv' : verifySignedBundle L (some file') (some k') = .ok v')
    (hcollision : L.sha256 p = L.sha256 p' → p = p') : m' = m ∧ p' = p := by
  obtain ⟨_, _, _, hread, hchecked, -, -⟩ := verifySignedBundle_ok_iff.mp hv
  rw [hm] at hread
  cases hread
  obtain ⟨_, _, _, hread', hchecked', -, -⟩ := verifySignedBundle_ok_iff.mp hv'
  rw [hm'] at hread'
  cases hread'
  have hsame : m = m' := hone _ _ _ hchecked.signed hchecked'.signed
  subst hsame
  refine ⟨rfl, (hcollision ?_).symm⟩
  -- one manifest, so one hash
  obtain ⟨ms, hms, -, -, -, -, hsha⟩ := hchecked.written
  obtain ⟨ms', hms', -, -, -, -, hsha'⟩ := hchecked'.written
  rw [hms] at hms'
  cases hms'
  have hboth : (L.sha256 p).str = (L.sha256 p').str := by
    revert hsha hsha'
    generalize field ms "payload_sha256" = value
    cases value with
    | str x =>
      intro hsha hsha'
      exact (of_decide_eq_true hsha).symm.trans (of_decide_eq_true hsha')
    | _ => exact nofun
  revert hboth
  generalize L.sha256 p = a
  generalize L.sha256 p' = b
  intro hboth
  cases a
  cases b
  cases hboth
  rfl

/-- A proposal comes back with its bundle just if its names are in order as they are written,
and a bundle that verifies is bound to its signature. -/
theorem bundle_iff (L : Libraries α κ κ') (k : κ) (k' : κ') (hcorrect : Correct L k k')
    (hone : OneMessage L k') : (∀ items c, createSignedBundle L (some k) (.dict items) = .ok c →
      FloatsReadBack L (.dict items) → ((∃ v, verifySignedBundle L (some c.bundle) (some k') = .ok v
            ∧ dumpsStrict (.dict items) = .ok v.proposal)
          ↔ readsBack (.dict items) = true))
    ∧ ∀ file file' m p m' p' s v v', readMembers L file = .ok (m, p, s) →
        readMembers L file' = .ok (m', p', s) →
        verifySignedBundle L (some file) (some k') = .ok v →
        verifySignedBundle L (some file') (some k') = .ok v' →
        (L.sha256 p = L.sha256 p' → p = p') → m' = m ∧ p' = p :=
  ⟨fun _ _ h hfloats => roundTrips_iff hcorrect h hfloats,
    fun _ _ _ _ _ _ _ _ _ hm hm' hv hv' hcollision =>
      members_bound hone hm hm' hv hv' hcollision⟩

-- == bundles of one's own

def flatHash : Export.Hex := ⟨List.replicate 64 48, by decide, by decide⟩

/-- The manifest of all proposals, under the one hash. -/
def flatManifest : ByteArray :=
  Text.utf8 ⟨(Json.obj (manifestMembers flatHash.str)).text .canonical, encodable_manifest flatHash⟩

def blank : ByteArray := (List.replicate 64 (0 : UInt8)).toByteArray

/-- Archives that are their members, and a key that signs the one manifest. -/
def flat : Libraries (List Member) Unit Unit where
  pack ms := ms
  unpack ms := some ms
  unpack_pack _ := rfl
  sign _ m := if m = flatManifest then .ok blank else .error ""
  verify _ m s := if m = flatManifest ∧ s = blank then .ok () else .error ""
  sha256 _ := flatHash
  sha256File _ := flatHash
  toFloat _ := .nan
  other _ := .error .unicodeDecode

theorem flat_correct : Correct flat () () := by
  intro m s h
  change (if m = flatManifest then .ok blank else .error "" : Except String ByteArray) = .ok s at h
  split at h
  · next hm =>
    cases h
    exact if_pos ⟨hm, rfl⟩
  · cases h

theorem flat_oneMessage : OneMessage flat () := by
  have hone : ∀ m s, flat.verify () m s = .ok () → m = flatManifest := by
    intro m s h
    change (if m = flatManifest ∧ s = blank then .ok () else .error "" : Except String Unit)
      = .ok () at h
    split at h
    · next hm => exact hm.1
    · cases h
  intro m m' s h h'
  exact (hone m s h).trans (hone m' s h').symm

theorem flat_sign (h : m = flatManifest) : flat.sign () m = .ok blank := if_pos h

theorem flat_signs (b : ByteArray) : ∃ m signature,
    canonicalJson (manifest (flat.sha256 b).str) = .ok m
      ∧ runOpenssl (flat.sign () m) = .ok signature
      ∧ signature.size = ed25519SignatureBytes := by
  obtain ⟨u, hwritten, htext, -⟩ := manifest_written flatHash
  have hmanifest : u.utf8 = flatManifest :=
    congrArg Text.utf8 (Text.ext (t := ⟨_, encodable_manifest flatHash⟩) htext)
  refine ⟨u.utf8, blank, congrArg (Except.mapError BundleError.python) hwritten, ?_, ?_⟩
  · rw [flat_sign hmanifest]
    rfl
  · unfold blank
    rw [List.size_toByteArray, List.length_replicate]
    rfl

theorem flat_creates {v : PyVal} {d : Json} {t : Text} (hd : dumpsStrict v = .ok d)
    (ht : t.str = d.text .canonical) (hsize : t.str.length ≤ 1024) :
    ∃ c, createSignedBundle flat (some ()) v = .ok c := by
  have hbytes : canonicalJson v = .ok t.utf8 := by
    unfold canonicalJson
    rw [canonicalBytes_ok_iff.mpr ⟨d, t, hd, ht, rfl⟩]
    rfl
  have hsmall : t.utf8.size ≤ maxProposalBytes := by
    have hle := size_utf8_le t
    have hmax : maxProposalBytes = 67108864 := rfl
    omega
  -- the manifest and the signature by what is known of them, so that nothing evaluates them
  obtain ⟨m, signature, hmanifest, hsign, hlength⟩ := flat_signs t.utf8
  unfold createSignedBundle regularFile
  simp only [hbytes, bind_ok_eq, if_neg (not_lt.mpr hsmall), hmanifest, hsign, hlength, ne_eq,
    not_true_eq_false, if_false]
  exact ⟨_, rfl⟩

def numbered : List (PyKey × PyVal) :=
  [(.str (py "records"), .dict [(.int 2, .none), (.int 10, .none)])]

def named : List (PyKey × PyVal) :=
  [(.str (py "records"), .dict [(.str (py "10"), .none), (.str (py "2"), .none)])]

theorem numbered_written : dumpsStrict (.dict numbered) = .ok (.obj [(py "records",
    .obj [(py "2", .null), (py "10", .null)])]) := by
  have htwo : keyText (.int 2) = .ok (py "2") := by decide +kernel
  have hten : keyText (.int 10) = .ok (py "10") := by decide +kernel
  have hinner : dumps (.dict [(.int 2, .none), (.int 10, .none)])
      = .ok (.obj [(py "2", .null), (py "10", .null)]) := by
    have hsorted : sortMembers [(.int 2, .null), (.int 10, .null)]
        = .ok [(.int 2, .null), (.int 10, .null)] := rfl
    have hwritten : writeKeys [(.int 2, .null), (.int 10, .null)]
        = .ok [(py "2", .null), (py "10", .null)] := by
      simp only [writeKeys, htwo, hten, bind_ok_eq]
    simp only [dumps, dumpsItems, bind_ok_eq, hsorted, hwritten]
  unfold dumpsStrict numbered
  rw [dumps, dumpsItems, hinner]
  rfl

theorem named_written : dumpsStrict (.dict named) = .ok (.obj [(py "records",
    .obj [(py "10", .null), (py "2", .null)])]) := by
  rfl

/-- Records under the numbers two and ten are signed, and never verify. -/
theorem numbered_unverifiable : ∃ c, createSignedBundle flat (some ()) (.dict numbered) = .ok c
    ∧ ∀ v, verifySignedBundle flat (some c.bundle) (some ()) ≠ .ok v := by
  obtain ⟨c, hc⟩ := flat_creates numbered_written
    (t := ⟨(Json.obj [(py "records", .obj [(py "2", .null), (py "10", .null)])]).text .canonical,
      by decide +kernel⟩) rfl (by decide +kernel)
  have hfloats : FloatsReadBack flat (.dict numbered) := by
    intro d hd
    rw [numbered_written] at hd
    cases hd
    simp [Json.ReadsFloats, MembersReadFloats]
  refine ⟨c, hc, fun v hv => ?_⟩
  have hreads := readsBack_of_verified hc hfloats hv
  unfold readsBack at hreads
  rw [numbered_written] at hreads
  exact absurd hreads (by decide)

theorem named_verifies : ∃ c v, createSignedBundle flat (some ()) (.dict named) = .ok c
    ∧ verifySignedBundle flat (some c.bundle) (some ()) = .ok v
    ∧ dumpsStrict (.dict named) = .ok v.proposal := by
  obtain ⟨c, hc⟩ := flat_creates named_written
    (t := ⟨(Json.obj [(py "records", .obj [(py "10", .null), (py "2", .null)])]).text .canonical,
      by decide +kernel⟩) rfl (by decide +kernel)
  have hfloats : FloatsReadBack flat (.dict named) := by
    intro d hd
    rw [named_written] at hd
    cases hd
    simp [Json.ReadsFloats, MembersReadFloats]
  have hreads : readsBack (.dict named) = true := by
    unfold readsBack
    rw [named_written]
    decide
  obtain ⟨v, hv, hd⟩ := ((bundle_iff flat () () flat_correct flat_oneMessage).1 _ c hc
    hfloats).mpr hreads
  exact ⟨c, v, hc, hv, hd⟩

end Centinal26.Continuity
