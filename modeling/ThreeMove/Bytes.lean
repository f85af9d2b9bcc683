/-!
# Numbers written as bytes

Natural numbers are written most significant byte first, either in a fixed width or in the
shortest width that leaves the first bit clear.  Random words are read least significant
byte first.
-/

namespace ThreeMove

abbrev Bytes := List UInt8

/-- The number of binary digits; zero has none. -/
def bitLength (n : Nat) : Nat :=
  if n = 0 then 0 else n.log2 + 1

theorem bitLength_le_iff (n k : Nat) : bitLength n ≤ k ↔ n < 1 <<< k := by
  rw [Nat.one_shiftLeft]
  unfold bitLength
  by_cases hn : n = 0
  · rw [if_pos hn, hn]
    exact ⟨fun _ => Nat.two_pow_pos k, fun _ => Nat.zero_le k⟩
  · rw [if_neg hn]
    exact Nat.log2_lt hn

namespace Bytes

/-- The last `width` digits of `n` to base 256, most significant first. -/
def ofNat : Nat → Nat → Bytes
  | 0, _ => []
  | width + 1, n => ofNat width (n / 256) ++ [UInt8.ofNat n]

/-- The number whose base-256 digits are these bytes, most significant first. -/
def toNat (bytes : Bytes) : Nat :=
  bytes.foldl (fun n byte => 256 * n + byte.toNat) 0

/-- The number whose base-256 digits are these bytes, least significant first. -/
def toNatLittle (bytes : Bytes) : Nat :=
  bytes.foldr (fun byte n => byte.toNat + 256 * n) 0

@[simp] theorem length_ofNat (width n : Nat) : (ofNat width n).length = width := by
  induction width generalizing n with
  | zero => rfl
  | succ width ih => simp [ofNat, ih]

theorem toNat_append_byte (bytes : Bytes) (byte : UInt8) :
    toNat (bytes ++ [byte]) = 256 * toNat bytes + byte.toNat := by
  simp [toNat, List.foldl_append]

/-- A number that has room in the width is read back. -/
theorem toNat_ofNat {width n : Nat} (hfits : bitLength n ≤ 8 * width) :
    toNat (ofNat width n) = n := by
  rw [bitLength_le_iff, Nat.one_shiftLeft] at hfits
  induction width generalizing n with
  | zero =>
      have hn : n = 0 := by omega
      subst hn
      rfl
  | succ width ih =>
      have hpow : 2 ^ (8 * (width + 1)) = 2 ^ (8 * width) * 256 := by
        rw [Nat.mul_succ, Nat.pow_add]
      have hhead : n / 256 < 2 ^ (8 * width) := by
        rw [Nat.div_lt_iff_lt_mul (by omega), ← hpow]
        exact hfits
      have hbyte : (UInt8.ofNat n).toNat = n % 256 := by simp
      rw [ofNat, toNat_append_byte, ih hhead, hbyte]
      omega

/-- Bytes are determined by their count and their number. -/
theorem ofNat_toNat {width : Nat} {bytes : Bytes} (hlen : bytes.length = width) :
    ofNat width (toNat bytes) = bytes := by
  induction width generalizing bytes with
  | zero =>
      rw [List.length_eq_zero_iff.mp hlen]
      rfl
  | succ width ih =>
      rcases List.eq_nil_or_concat bytes with hnil | ⟨front, byte, hconcat⟩
      · simp [hnil] at hlen
      · subst hconcat
        have hfront : front.length = width := by simpa using hlen
        have hbyte : byte.toNat < 256 := byte.toNat_lt
        have hhead : (256 * toNat front + byte.toNat) / 256 = toNat front := by omega
        have hlast : UInt8.ofNat (256 * toNat front + byte.toNat) = byte := by
          apply UInt8.toNat_inj.mp
          simp
        rw [List.concat_eq_append, toNat_append_byte, ofNat, hhead, ih hfront, hlast]

/-- Exactly `width` bytes, if the number has room in them. -/
def ofNat? (width n : Nat) : Option Bytes :=
  if bitLength n ≤ 8 * width then some (ofNat width n) else none

/-- The shortest two's-complement writing of a natural number: its first bit is clear. -/
def shortest (n : Nat) : Bytes :=
  ofNat (bitLength n / 8 + 1) n

/-- The two's-complement number is below zero exactly when the first bit is set. -/
def isNegative : Bytes → Bool
  | [] => false
  | byte :: _ => decide (128 ≤ byte.toNat)

/-- Two's-complement reading that refuses numbers below zero. -/
def toNatural? (bytes : Bytes) : Option Nat :=
  if bytes.isNegative then none else some bytes.toNat

end Bytes

end ThreeMove
