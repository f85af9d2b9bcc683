import Mathlib.Data.Nat.Bitwise
import ThreeMove.Proofs.Parameters

/-!
# Drawn challenges are in range

As many binary digits are drawn as the soundness parameter tells, and so a drawn challenge is
below every order that the parameter leaves room for.
-/

namespace ThreeMove

namespace Bytes

theorem toNatLittle_lt (bytes : Bytes) : bytes.toNatLittle < 256 ^ bytes.length := by
  induction bytes with
  | nil => exact Nat.one_pos
  | cons byte bytes ih =>
      have hbyte : byte.toNat < 256 := byte.toNat_lt
      change byte.toNat + 256 * toNatLittle bytes < 256 ^ (bytes.length + 1)
      rw [Nat.pow_succ]
      omega

theorem add_shiftLeft_lt {low high m k : Nat} (hlow : low < 2 ^ m) (hhigh : high < 2 ^ k) :
    low + high <<< m < 2 ^ (m + k) := by
  rw [Nat.add_comm low, Nat.shiftLeft_add_eq_or_of_lt hlow]
  exact Nat.append_lt hlow hhigh

theorem shiftRight_lt {n width shift : Nat} (hn : n < 2 ^ width) (hle : shift ≤ width) :
    n >>> shift < 2 ^ (width - shift) := by
  rw [Nat.shiftRight_eq_div_pow]
  apply Nat.div_lt_of_lt_mul
  rw [← Nat.pow_add, Nat.add_sub_cancel' hle]
  exact hn

end Bytes

namespace Source

theorem bits_lt (source : Source) (count : Nat) : (source.bits count).1 < 2 ^ count := by
  unfold bits
  dsimp only
  generalize hwords : (count + 31) / 32 = words
  generalize hbytes : (source.take (4 * words)).1 = bytes
  have hlen : bytes.length = 4 * words := by
    rw [← hbytes, take, List.length_map, List.length_range]
  have hlow := Bytes.toNatLittle_lt (bytes.take (4 * (words - 1)))
  have hhigh := Bytes.toNatLittle_lt (bytes.drop (4 * (words - 1)))
  rw [List.length_take, hlen, Nat.min_eq_left (by omega)] at hlow
  rw [List.length_drop, hlen] at hhigh
  rcases Nat.eq_zero_or_pos words with rfl | hpos
  · have hcount : count = 0 := by omega
    subst hcount
    simp_all
  · -- the surplus bits leave `count - 32 * (words - 1)` digits of the last word
    have hword : 4 * words - 4 * (words - 1) = 4 := by omega
    have hdigits : 32 * (words - 1) + (32 - (32 * words - count)) = count := by omega
    have hwords : (256 : Nat) ^ (4 * (words - 1)) = 2 ^ (32 * (words - 1)) := by
      rw [Nat.pow_mul, Nat.pow_mul]
    rw [hwords] at hlow
    rw [hword] at hhigh
    have hsurplus : 32 * words - count ≤ 32 := by omega
    have hsum := Bytes.add_shiftLeft_lt hlow (Bytes.shiftRight_lt hhigh hsurplus)
    rw [hdigits] at hsum
    exact hsum

end Source

namespace Challenge

theorem sample_lt (t : Nat) (source : Source) : (sample t source).1 < 2 ^ t :=
  source.bits_lt t

theorem lt_order {E : Type} {t : Nat} (params : Parameters E t) {challenge : Challenge}
    (hlt : challenge < 2 ^ t) : challenge < params.group.order :=
  Nat.lt_trans hlt params.two_pow_lt_order

end Challenge

end ThreeMove
