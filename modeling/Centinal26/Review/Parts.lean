/-
What each part of the verification lets through, as a condition on the values it reads: no
message and no order of checks is left in it.
-/
import Centinal26.Review.Verify

namespace Centinal26.Review

open Py BigEndian

-- == checks

variable {message : String} {α : Type} {a : α}

theorem raiseIf_ok {bad : Bool} {u : Unit} : raiseIf bad message = .ok u ↔ bad = false := by
  cases bad with
  | true =>
    constructor <;>
    · intro h
      cases h
  | false => exact ⟨fun _ => rfl, fun _ => rfl⟩

theorem require_ok {found : Option α} : require found message = .ok a ↔ found = some a := by
  cases found with
  | none =>
    constructor <;>
    · intro h
      cases h
  | some b => exact ⟨fun h => congrArg some (Except.ok.inj h),
      fun h => congrArg Except.ok (Option.some.inj h)⟩

theorem lift_ok {r : Except PyErr α} : lift r = .ok a ↔ r = .ok a := by
  constructor
  · exact of_mapError_ok
  · rintro rfl
    rfl

theorem int?_of_eq {v : PyVal} {m n : Int} (h : v.eq (.int n) = true) (hv : PyVal.int? v = some m) :
    m = n := by
  cases v with
  | bool b =>
    simp only [PyVal.int?, Option.some.injEq] at hv
    subst hv
    cases b <;>
    · simp only [PyVal.eq, PyVal.num?, boolNum, Num.eq, decide_eq_true_eq] at h
      exact Rat.intCast_inj.mp h
  | int k =>
    simp only [PyVal.int?, Option.some.injEq] at hv
    subst hv
    simpa [PyVal.eq, PyVal.num?, Num.eq] using h
  | _ => simp [PyVal.int?] at hv

-- == times

section Times

variable (L : Libraries)

def TimeOf (value : PyVal) (t : Instant) : Prop :=
  ∃ s, value = .str s ∧ s ≠ [] ∧ L.fromisoformat s = some (.aware t) ∧ 0 ≤ t ∧ t ≤ maxInstant

variable {L}

theorem parseTime_ok {value : PyVal} {field : String} {t : Instant} :
    parseTime L value field = .ok t ↔ TimeOf L value t := by
  unfold parseTime TimeOf
  simp only [bind_ok_iff, require_ok, raiseIf_ok, PyVal.text?_eq, List.isEmpty_eq_false_iff]
  constructor
  · rintro ⟨s, rfl, -, hs, d, hd, h⟩
    cases d with
    | naive t' => cases h
    | aware t' =>
      obtain ⟨hrange, rfl⟩ := astimezone_ok.mp (lift_ok.mp h)
      exact ⟨s, rfl, hs, hd, hrange⟩
  · rintro ⟨s, rfl, hs, hd, hrange⟩
    exact ⟨s, rfl, (), hs, _, hd, lift_ok.mpr (astimezone_ok.mpr ⟨hrange, rfl⟩)⟩

variable (L)

/-- A document is stated to hold now. -/
structure InForce (d : Items) (now issuedAt expiresAt : Instant) : Prop where
  issued : TimeOf L (itemOf d "issued_at") issuedAt
  expires : TimeOf L (itemOf d "expires_at") expiresAt
  -- the five minutes' skew is added to the time itself
  skew : now + 300 * 1000000 ≤ maxInstant
  not_future : issuedAt ≤ now + 300 * 1000000
  ordered : issuedAt < expiresAt
  unexpired : now < expiresAt

variable {L}

theorem checkInterval_ok {d : Items} {now : Instant} {issued expires future stale : String}
    {times : Instant × Instant} : checkInterval L d now issued expires future stale = .ok times
      ↔ InForce L d now times.1 times.2 := by
  have hadd : ∀ t, addSeconds now maxFutureSkew = .ok t
      ↔ now + 300 * 1000000 ≤ maxInstant ∧ t = now + 300 * 1000000 := by
    intro t
    unfold addSeconds maxFutureSkew
    split
    · next h => exact ⟨fun ht => ⟨h, (Except.ok.inj ht).symm⟩, fun ht => congrArg _ ht.2.symm⟩
    · next h => exact ⟨nofun, fun ht => absurd ht.1 h⟩
  unfold checkInterval
  simp only [bind_ok_iff, raiseIf_ok, lift_ok, parseTime_ok, hadd, Bool.or_eq_false_iff,
    decide_eq_false_iff_not, Except.ok.injEq]
  constructor
  · rintro ⟨i, hi, e, he, t, ⟨hskew, rfl⟩, -, hfuture, -, ⟨horder, hstale⟩, rfl⟩
    exact ⟨hi, he, hskew, not_lt.mp hfuture, not_le.mp horder, not_le.mp hstale⟩
  · rintro ⟨hi, he, hskew, hfuture, horder, hstale⟩
    exact ⟨_, hi, _, he, _, ⟨hskew, rfl⟩, (), not_lt.mpr hfuture, (),
      ⟨not_le.mpr horder, not_le.mpr hstale⟩, rfl⟩

end Times

-- == keys

/-- A checkpoint asks for a profile at least as strong as the policy. -/
structure ProfileOf (checkpoint : Items) (profile : Profile) : Prop where
  stated : ∃ d, itemOf checkpoint "verification_profile" = .dict d
    ∧ itemOf d "schema" = .str profileSchema ∧ (itemOf d "version").eq (.int profileVersion) = true
    ∧ PyVal.int? (itemOf d "min_rsa_bits") = some profile.minRsaBits
    ∧ itemOf d "required_exponent" = profile.requiredExponent
  strong : 3072 ≤ profile.minRsaBits
  exponent : profile.requiredExponent.eq (.int 65537) = true

variable {profile : Profile} {bits : Int} {value : PyVal} {key : RsaKey}

theorem parseProfile_ok {checkpoint : Items} :
    parseProfile checkpoint = .ok profile ↔ ProfileOf checkpoint profile := by
  unfold parseProfile
  simp only [bind_ok_iff, require_ok, raiseIf_ok, PyVal.dict?_eq, Bool.or_eq_false_iff,
    Bool.not_eq_false', PyVal.eq_str, decide_eq_false_iff_not, Except.ok.injEq]
  constructor
  · rintro ⟨d, hd, -, ⟨hschema, hversion⟩, bits, hbits, -, ⟨hstrong, hexponent⟩, rfl⟩
    exact ⟨⟨d, hd, hschema, hversion, hbits, rfl⟩, not_lt.mp hstrong, hexponent⟩
  · rintro ⟨⟨d, hd, hschema, hversion, hbits, hrequired⟩, hstrong, hexponent⟩
    refine ⟨d, hd, (), ⟨hschema, hversion⟩, _, hbits, (), ⟨not_lt.mpr hstrong, ?_⟩, ?_⟩
    · rw [hrequired]
      exact hexponent
    · rw [hrequired]

/-- A value describes an RSA key of so many bits, with the exponent 65537. -/
structure KeyOf (bits : Int) (value : PyVal) (key : RsaKey) : Prop where
  described : ∃ d nHex, value = .dict d ∧ itemOf d "key_id" = .str key.keyId
    ∧ itemOf d "n_hex" = .str nHex ∧ isHex nHex = true ∧ hexNumber nHex = key.modulus
    ∧ PyVal.int? (itemOf d "e") = some 65537
  named : key.keyId ≠ []
  large : bits ≤ key.modulus.size
  exponent : key.exponent = 65537

theorem KeyOf.large_enough (h : KeyOf bits value key)
    (hstrong : 3072 ≤ bits) : 3072 ≤ key.modulus.size := by
  have hbits := h.large
  omega

theorem KeyOf.unique {bits' : Int} {key' : RsaKey}
    (h : KeyOf bits value key) (h' : KeyOf bits' value key') : key = key' := by
  obtain ⟨⟨d, n, hd, hid, hn, -, hmodulus, -⟩, -, -, hexponent⟩ := h
  obtain ⟨⟨d', n', hd', hid', hn', -, hmodulus', -⟩, -, -, hexponent'⟩ := h'
  rw [hd] at hd'
  cases hd'
  rw [hn] at hn'
  cases hn'
  rw [hid] at hid'
  obtain ⟨keyId, modulus, exponent⟩ := key
  obtain ⟨keyId', modulus', exponent'⟩ := key'
  cases hid'
  cases hexponent
  cases hexponent'
  cases hmodulus
  cases hmodulus'
  rfl

theorem parseRsaKey_ok {field : String} (hstrong : 3072 ≤ profile.minRsaBits)
    (hexponent : profile.requiredExponent.eq (.int 65537) = true) :
    parseRsaKey value field profile = .ok key
      ↔ PyVal.int? profile.requiredExponent = some 65537 ∧ KeyOf profile.minRsaBits value key := by
  unfold parseRsaKey
  simp only [bind_ok_iff, require_ok, raiseIf_ok, PyVal.dict?_eq, PyVal.text?_eq,
    List.isEmpty_eq_false_iff, Bool.not_eq_false', decide_eq_false_iff_not, not_not, Except.ok.injEq]
  constructor
  · rintro ⟨d, hd, keyId, hid, -, hnamed, nHex, hhex, -, hishex, e, he, required, hrequired, -,
      -, -, hlarge, -, rfl, rfl⟩
    obtain rfl := int?_of_eq hexponent hrequired
    exact ⟨hrequired, ⟨d, nHex, hd, hid, hhex, hishex, rfl, he⟩, hnamed, not_lt.mp hlarge, rfl⟩
  · rintro ⟨hrequired, ⟨d, nHex, hd, hid, hhex, hishex, hmodulus, he⟩, hnamed, hlarge, hkey⟩
    obtain ⟨keyId, modulus, exponent⟩ := key
    cases hkey
    subst hmodulus
    refine ⟨d, hd, keyId, hid, (), hnamed, nHex, hhex, (), hishex, _, he, _, hrequired, (), ?_,
      (), not_lt.mpr hlarge, (), rfl, rfl⟩
    -- no modulus of so many bits is zero
    intro hzero
    rw [hzero, Nat.size_zero] at hlarge
    omega

-- == signatures

section Signatures

variable (L : Libraries)

/-- The PKCS#1 v1.5 encoding of a message in so many bytes, as a number. -/
def encoding (w : Nat) (message : Text) : Nat :=
  ofBytes ([0x00, 0x01] ++ List.replicate (w - 54) 0xff ++ [0x00] ++ digestInfo L message)

/-- A value is a signature of a document under the key of a modulus. -/
def SignedBy (modulus : Nat) (document value : PyVal) : Prop :=
  ∃ s signature message, value = .str s ∧ s ≠ [] ∧ L.b64decode s = some signature
    ∧ canonicalJson document = .ok message ∧ signature.length = width modulus
    ∧ ofBytes signature < modulus
    ∧ ofBytes signature ^ 65537 % modulus = encoding L (width modulus) message

variable {L}

theorem length_digestInfo (message : Text) : (digestInfo L message).length = 51 := by
  rw [digestInfo, List.length_append, L.length_sha256]
  rfl

variable {value : PyVal} {signature : List UInt8} {modulus : Nat}

theorem decodeSignature_ok {field : String} : decodeSignature L value field = .ok signature
      ↔ ∃ s, value = .str s ∧ s ≠ [] ∧ L.b64decode s = some signature := by
  unfold decodeSignature
  simp only [bind_ok_iff, require_ok, raiseIf_ok, PyVal.text?_eq, List.isEmpty_eq_false_iff]
  constructor
  · rintro ⟨s, hs, -, hne, hdecoded⟩
    exact ⟨s, hs, hne, hdecoded⟩
  · rintro ⟨s, hs, hne, hdecoded⟩
    exact ⟨s, hs, (), hne, hdecoded⟩

theorem verifyRsa_ok {message : Text} {u : Unit}
    (hlarge : 3072 ≤ modulus.size) : verifyRsa L message signature modulus 65537 = .ok u
      ↔ signature.length = width modulus ∧ ofBytes signature < modulus
        ∧ ofBytes signature ^ 65537 % modulus = encoding L (width modulus) message := by
  have hwidth : 384 ≤ width modulus := by
    unfold width
    omega
  have hpadding : (width modulus : Int) - (51 : Nat) - 3 = (width modulus - 54 : Nat) := by
    omega
  have hlength : (expected L (width modulus - 54 : Nat) message).length = width modulus := by
    simp only [expected, List.length_append, List.length_replicate, length_digestInfo,
      Int.toNat_natCast, List.length_cons, List.length_nil]
    omega
  have hpos : 0 < modulus := by
    rw [← Nat.size_pos]
    omega
  have hbound : ofBytes signature ^ 65537 % modulus < 256 ^ width modulus :=
    lt_trans (Nat.mod_lt _ hpos) (lt_width modulus)
  have hexpected : ofBytes (expected L (width modulus - 54 : Nat) message)
      = encoding L (width modulus) message := by
    rw [expected, encoding, Int.toNat_natCast]
  have hsmall : ¬ ((width modulus - 54 : Nat) : Int) < 8 := by
    omega
  unfold verifyRsa
  simp only [bind_ok_iff, raiseIf_ok, length_digestInfo, hpadding, decide_eq_false_iff_not, not_not,
    not_le]
  have hpow : (65537 : Int).toNat = 65537 := rfl
  rw [hpow, toBytes_eq_iff hbound hlength, hexpected]
  constructor
  · rintro ⟨-, hlen, -, hrange, -, -, hencoded⟩
    exact ⟨hlen, hrange, hencoded⟩
  · rintro ⟨hlen, hrange, hencoded⟩
    exact ⟨(), hlen, (), hrange, (), hsmall, hencoded⟩

variable (L)

/-- The canonical texts of two documents do not collide. -/
def NoCollision (d d' : PyVal) : Prop :=
  ∀ m m', canonicalJson d = .ok m → canonicalJson d' = .ok m' →
    L.sha256 m.utf8 = L.sha256 m'.utf8 → m = m'

variable {L}

theorem encoding_inj {w : Nat} {m m' : Text} (h : encoding L w m = encoding L w m') :
    L.sha256 m.utf8 = L.sha256 m'.utf8 := by
  have hlists := ofBytes_inj (by simp [length_digestInfo]) h
  have hinfo : digestInfo L m = digestInfo L m' := List.append_cancel_left hlists
  exact List.append_cancel_left hinfo

theorem SignedBy.unique {d d' : PyVal} (h : SignedBy L modulus d value)
    (h' : SignedBy L modulus d' value) (hd : NoCollision L d d') :
    canonicalJson d = canonicalJson d' := by
  obtain ⟨s, signature, m, hs, -, hdecoded, hm, -, -, hencoded⟩ := h
  obtain ⟨s', signature', m', hs', -, hdecoded', hm', -, -, hencoded'⟩ := h'
  rw [hs] at hs'
  cases hs'
  rw [hdecoded] at hdecoded'
  cases hdecoded'
  have hdigest := encoding_inj (hencoded.symm.trans hencoded')
  rw [hm, hm', hd m m' hm hm' hdigest]

end Signatures

end Centinal26.Review
