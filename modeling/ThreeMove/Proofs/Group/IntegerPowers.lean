import Mathlib.Data.Int.ModEq
import ThreeMove.Proofs.Group.Validity

/-!
# Powers with integer exponents

The members of a lawful group form a commutative group, and the powers with exponents of any sign
are the integer powers in it.  The exponent is reduced to its remainder modulo the order, which is
the remainder of a truncated division, moved up by the order and reduced once more.
-/

namespace ThreeMove

namespace PrimeGroup

variable {E : Type} {group : PrimeGroup E}

/-- The truncated remainder of a negative exponent is not positive; one multiple of the order makes
it so. -/
theorem tmod_add_tmod {order : Int} (hpos : 0 < order) (exponent : Int) :
    (exponent.tmod order + order).tmod order = exponent % order := by
  have hlow := Int.lt_tmod_of_pos exponent hpos
  have hsplit := Int.tmod_add_mul_tdiv exponent order
  rw [Int.tmod_eq_emod_of_nonneg (by omega), Int.add_emod_right]
  calc exponent.tmod order % order
    _ = (exponent.tmod order + order * exponent.tdiv order) % order :=
        (Int.add_mul_emod_self_left _ _ _).symm
    _ = exponent % order := by rw [hsplit]

/-- The operations stay among the members and make them a commutative group, and the powers follow
the laws of exponents modulo the order. -/
structure IntegerPowers (group : PrimeGroup E) : Prop where
  isMember_identity : group.isMember group.identity = true
  isMember_mul : ∀ x y, group.isMember x = true → group.isMember y = true →
    group.isMember (group.mul x y) = true
  isMember_inv : ∀ x, group.isMember x = true → group.isMember (group.inv x) = true
  isMember_pow : ∀ x (n : Nat), group.isMember x = true → group.isMember (group.pow x n) = true
  isMember_powInt : ∀ x (m : Int), group.isMember x = true →
    group.isMember (group.powInt x m) = true
  isMember_sample : ∀ source, group.isMember (group.sample source).1 = true
  mul_assoc : ∀ x y z, group.isMember x = true → group.isMember y = true →
    group.isMember z = true → group.mul (group.mul x y) z = group.mul x (group.mul y z)
  mul_comm : ∀ x y, group.isMember x = true → group.isMember y = true →
    group.mul x y = group.mul y x
  mul_identity : ∀ x, group.isMember x = true → group.mul x group.identity = x
  mul_inv : ∀ x, group.isMember x = true → group.mul x (group.inv x) = group.identity
  powInt_one : ∀ x, group.isMember x = true → group.powInt x 1 = x
  powInt_add : ∀ x (m n : Int), group.isMember x = true →
    group.mul (group.powInt x m) (group.powInt x n) = group.powInt x (m + n)
  powInt_mul : ∀ x y (m : Int), group.isMember x = true → group.isMember y = true →
    group.powInt (group.mul x y) m = group.mul (group.powInt x m) (group.powInt y m)
  powInt_natCast : ∀ x (n : Nat), group.isMember x = true → group.powInt x n = group.pow x n
  pow_congr : ∀ x (m n : Nat), group.isMember x = true → m ≡ n [MOD group.order] →
    group.pow x m = group.pow x n
  powInt_congr : ∀ x (m n : Int), group.isMember x = true → m ≡ n [ZMOD group.order] →
    group.powInt x m = group.powInt x n
  /-- How the exponent is reduced: by truncated divisions. -/
  powInt_eq_pow_tmod : ∀ x (m : Int), group.powInt x m =
    group.pow x ((m.tmod group.order + group.order).tmod group.order).toNat

theorem Lawful.powInt_natCast (laws : group.Lawful) {x : E} (hx : group.isMember x = true)
    (n : Nat) : group.powInt x n = group.pow x n := by
  rw [powInt, ← Int.natCast_mod, Int.toNat_natCast, laws.pow_mod_order hx]

theorem Lawful.integerPowers (laws : group.Lawful)
    (hsample : ∀ source, group.isMember (group.sample source).1 = true) :
    group.IntegerPowers := by
  let _ := laws.commGroup
  have hidentity : ∀ x, group.isMember x = true → group.mul x group.identity = x := by
    intro x hx
    rw [laws.comm hx laws.isMember_identity, laws.identity_mul hx]
  have hinv : ∀ x, group.isMember x = true →
      group.mul x (group.inv x) = group.identity := by
    intro x hx
    rw [laws.comm hx (laws.isMember_inv hx), laws.inv_mul hx]
  have hpos : (0 : Int) < group.order := by
    have horder := laws.order_pos
    omega
  refine {
    isMember_identity := laws.isMember_identity
    isMember_mul := fun x y => laws.isMember_mul
    isMember_inv := fun x => laws.isMember_inv
    isMember_pow := fun x n hx => laws.isMember_pow hx n
    isMember_powInt := fun x m hx => laws.isMember_pow hx _
    isMember_sample := hsample
    mul_assoc := fun x y z => laws.assoc
    mul_comm := fun x y => laws.comm
    mul_identity := hidentity
    mul_inv := hinv
    powInt_one := fun x hx => ?_
    powInt_add := fun x m n hx => ?_
    powInt_mul := fun x y m hx hy => ?_
    powInt_natCast := fun x n hx => laws.powInt_natCast hx n
    pow_congr := fun x m n hx => laws.pow_congr hx
    powInt_congr := fun x m n hx hmod => ?_
    powInt_eq_pow_tmod := fun x m => ?_ }
  · rw [← laws.coe_zpow ⟨x, hx⟩, zpow_one]
  · rw [← laws.coe_zpow ⟨x, hx⟩, ← laws.coe_zpow ⟨x, hx⟩, ← laws.coe_zpow ⟨x, hx⟩, zpow_add]
    rfl
  · have hpower := laws.coe_zpow (⟨x, hx⟩ * ⟨y, hy⟩) m
    rw [mul_zpow] at hpower
    rw [← laws.coe_zpow ⟨x, hx⟩, ← laws.coe_zpow ⟨y, hy⟩]
    exact hpower.symm
  · rw [powInt, powInt, hmod]
  · rw [tmod_add_tmod hpos, powInt]

end PrimeGroup

namespace SafePrime

variable {params : SafePrime} {p q g : Nat}

/-- If the modulus and the order are prime and the generator is a member, the members are a group of
that order in which powers have integer exponents. -/
theorem squares_have_integer_powers (hbuilt : ofNumbers p q g = .ok params) (hp : p.Prime)
    (hq : q.Prime) (hg : params.group.isMember g = true) :
    params.group.order = q ∧ params.group.IntegerPowers := by
  obtain ⟨rfl, rfl, rfl⟩ := of_ofNumbers hbuilt
  exact ⟨rfl, (lawful hq hp hg).integerPowers fun source => isMember_pow hg _⟩

/-- Modulo 23 the squares have order 11: minus 7 counts as 4 and minus 22 as nothing. -/
theorem squares_have_integer_powers_modulo23 :
    ofNumbers 23 11 4 = .ok modulo23 ∧ Nat.Prime 23 ∧ Nat.Prime 11 ∧
      modulo23.group.isMember 4 = true ∧ modulo23.group.IntegerPowers ∧
      modulo23.group.powInt 2 (-7) = modulo23.group.powInt 2 4 ∧
      modulo23.group.mul (modulo23.group.powInt 2 (-7)) (modulo23.group.powInt 2 (-15)) =
        modulo23.group.powInt 2 (-22) ∧
      modulo23.group.powInt 2 (-22) = modulo23.group.identity := by
  have hbuilt : ofNumbers 23 11 4 = .ok modulo23 := rfl
  have hg : modulo23.group.isMember 4 = true := by rfl
  have htwo : modulo23.group.isMember 2 = true := by rfl
  obtain ⟨-, hpowers⟩ := squares_have_integer_powers hbuilt (by decide) (by decide) hg
  refine ⟨hbuilt, by decide, by decide, hg, hpowers, ?_, hpowers.powInt_add 2 (-7) (-15) htwo, rfl⟩
  exact hpowers.powInt_congr 2 (-7) 4 htwo rfl

end SafePrime

end ThreeMove
