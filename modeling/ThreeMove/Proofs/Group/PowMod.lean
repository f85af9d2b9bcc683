import Mathlib.Data.Nat.ModEq
import ThreeMove.Group.PowMod

/-!
# Square and multiply

The loop computes the power that its name promises.
-/

namespace ThreeMove

/-- The accumulator times the base to the digits that are left stays the same residue. -/
theorem powModAux_modEq (modulus digits base exponent acc : Nat)
    (hlt : exponent < 2 ^ digits) :
    powModAux modulus digits base exponent acc ≡ acc * base ^ exponent [MOD modulus] := by
  induction digits generalizing base exponent acc with
  | zero =>
      have hzero : exponent = 0 := by simpa using hlt
      subst hzero
      simp [powModAux, Nat.ModEq.refl]
  | succ digits ih =>
      have hhalf : exponent / 2 < 2 ^ digits := by
        rw [Nat.pow_succ] at hlt
        omega
      have hsquare : (base * base % modulus) ^ (exponent / 2) ≡
          base ^ (2 * (exponent / 2)) [MOD modulus] := by
        rw [Nat.pow_mul, Nat.pow_two]
        exact (Nat.mod_modEq _ _).pow _
      rw [powModAux]
      refine (ih _ _ _ hhalf).trans ?_
      by_cases hodd : exponent % 2 = 1
      · rw [if_pos hodd]
        have hexp : base * base ^ (2 * (exponent / 2)) = base ^ exponent := by
          rw [← Nat.pow_succ']
          congr 1
          omega
        calc acc * base % modulus * (base * base % modulus) ^ (exponent / 2)
            ≡ acc * base * base ^ (2 * (exponent / 2)) [MOD modulus] :=
              (Nat.mod_modEq _ _).mul hsquare
          _ = acc * base ^ exponent := by rw [Nat.mul_assoc, hexp]
      · rw [if_neg hodd]
        have hexp : 2 * (exponent / 2) = exponent := by omega
        rw [hexp] at hsquare
        exact hsquare.mul_left acc

theorem powModAux_lt {modulus : Nat} (hpos : 0 < modulus) (digits base exponent acc : Nat)
    (hacc : acc < modulus) : powModAux modulus digits base exponent acc < modulus := by
  induction digits generalizing base exponent acc with
  | zero => exact hacc
  | succ digits ih =>
      rw [powModAux]
      apply ih
      split
      · exact Nat.mod_lt _ hpos
      · exact hacc

theorem powMod_eq {modulus : Nat} (hpos : 0 < modulus) (base exponent : Nat) :
    powMod modulus base exponent = base ^ exponent % modulus := by
  have hdigits : exponent < 2 ^ bitLength exponent := by
    have hle := (bitLength_le_iff exponent (bitLength exponent)).mp (Nat.le_refl _)
    rwa [Nat.one_shiftLeft] at hle
  have hmod := powModAux_modEq modulus (bitLength exponent) (base % modulus) exponent
    (1 % modulus) hdigits
  have hlt := powModAux_lt hpos (bitLength exponent) (base % modulus) exponent
    (1 % modulus) (Nat.mod_lt _ hpos)
  have hpow : 1 % modulus * (base % modulus) ^ exponent ≡ base ^ exponent [MOD modulus] := by
    simpa using (Nat.mod_modEq 1 modulus).mul ((Nat.mod_modEq base modulus).pow exponent)
  rw [powMod, ← Nat.mod_eq_of_lt hlt]
  exact hmod.trans hpow

end ThreeMove
