/-
Numbers as bytes, most significant first.
-/
import Mathlib.Data.Nat.Size
import Mathlib.Data.List.Induction
import Mathlib.Tactic.Ring

namespace BigEndian

def ofBytes (bs : List UInt8) : Nat := bs.foldl (fun n b => 256 * n + b.toNat) 0

/-- A number in `w` bytes. -/
def toBytes : Nat → Nat → List UInt8
  | 0, _ => []
  | w + 1, n => toBytes w (n / 256) ++ [UInt8.ofNat n]

def width (n : Nat) : Nat := (n.size + 7) / 8

theorem ofBytes_concat (bs : List UInt8) (b : UInt8) :
    ofBytes (bs ++ [b]) = 256 * ofBytes bs + b.toNat := by
  simp [ofBytes]

theorem toBytes_ofBytes (bs : List UInt8) : toBytes bs.length (ofBytes bs) = bs := by
  induction bs using List.reverseRecOn with
  | nil => rfl
  | append_singleton bs b ih =>
    have hb : b.toNat < 256 := b.toNat_lt
    have hdiv : (256 * ofBytes bs + b.toNat) / 256 = ofBytes bs := by omega
    have hlast : UInt8.ofNat (256 * ofBytes bs + b.toNat) = b := by
      apply UInt8.toNat_inj.mp
      rw [UInt8.toNat_ofNat']
      omega
    rw [List.length_append, List.length_singleton, toBytes, ofBytes_concat, hdiv, ih, hlast]

theorem ofBytes_inj {bs cs : List UInt8} (hlength : bs.length = cs.length)
    (h : ofBytes bs = ofBytes cs) : bs = cs := by
  rw [← toBytes_ofBytes bs, ← toBytes_ofBytes cs, hlength, h]

theorem ofBytes_toBytes {w n : Nat} (h : n < 256 ^ w) : ofBytes (toBytes w n) = n := by
  induction w generalizing n with
  | zero =>
    rw [pow_zero] at h
    have hn : n = 0 := by omega
    rw [hn]
    rfl
  | succ w ih =>
    have hdiv : n / 256 < 256 ^ w := by
      rw [pow_succ] at h
      exact Nat.div_lt_of_lt_mul (by rwa [Nat.mul_comm])
    rw [toBytes, ofBytes_concat, ih hdiv, UInt8.toNat_ofNat']
    omega

theorem toBytes_eq_iff {w n : Nat} {bs : List UInt8} (h : n < 256 ^ w) (hw : bs.length = w) :
    toBytes w n = bs ↔ n = ofBytes bs := by
  constructor
  · intro hb
    rw [← hb, ofBytes_toBytes h]
  · intro hn
    rw [hn, ← hw, toBytes_ofBytes]

theorem lt_width (n : Nat) : n < 256 ^ width n := by
  have h : n < 2 ^ n.size := Nat.lt_size_self n
  have hpow : (256 : Nat) ^ width n = 2 ^ (8 * width n) := by
    rw [pow_mul]
    norm_num
  rw [hpow]
  exact lt_of_lt_of_le h (Nat.pow_le_pow_right (by decide) (by unfold width; omega))

end BigEndian
