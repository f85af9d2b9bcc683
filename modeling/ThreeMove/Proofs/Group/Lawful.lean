import Mathlib.Algebra.Group.MinimalAxioms
import Mathlib.GroupTheory.OrderOfElement
import Mathlib.Data.ZMod.Basic
import ThreeMove.Group.Basic

/-!
# Lawful groups

The protocols only use the operations of `PrimeGroup`.  Their guarantees rest on the laws
below: the members form a cyclic group of prime order, powers count modulo that order, and
every member has exactly one encoding.  Nothing is said about elements that are no members.
-/

namespace ThreeMove.PrimeGroup

variable {E : Type} {group : PrimeGroup E} {x y : E}

structure Lawful (group : PrimeGroup E) : Prop where
  prime_order : group.order.Prime
  isMember_identity : group.isMember group.identity = true
  isMember_mul : ∀ {x y}, group.isMember x = true → group.isMember y = true →
    group.isMember (group.mul x y) = true
  isMember_inv : ∀ {x}, group.isMember x = true → group.isMember (group.inv x) = true
  assoc : ∀ {x y z}, group.isMember x = true → group.isMember y = true →
    group.isMember z = true → group.mul (group.mul x y) z = group.mul x (group.mul y z)
  comm : ∀ {x y}, group.isMember x = true → group.isMember y = true →
    group.mul x y = group.mul y x
  identity_mul : ∀ {x}, group.isMember x = true → group.mul group.identity x = x
  inv_mul : ∀ {x}, group.isMember x = true → group.mul (group.inv x) x = group.identity
  pow_at_zero : ∀ {x}, group.isMember x = true → group.pow x 0 = group.identity
  pow_at_succ : ∀ {x} n, group.isMember x = true →
    group.pow x (n + 1) = group.mul (group.pow x n) x
  pow_order : ∀ {x}, group.isMember x = true → group.pow x group.order = group.identity
  isMember_generator : group.isMember group.generator = true
  generator_ne_identity : group.generator ≠ group.identity
  exists_pow_generator : ∀ {x}, group.isMember x = true →
    ∃ n, group.pow group.generator n = x
  length_encode : ∀ {x}, group.isMember x = true →
    (group.encode x).length = group.elementSize
  decode_encode : ∀ {x}, group.isMember x = true → group.decode (group.encode x) = .ok x
  /-- No bytes but the encoding of a member are read. -/
  of_decode : ∀ {bytes x}, group.decode bytes = .ok x →
    group.isMember x = true ∧ group.encode x = bytes
  /-- The drawn tests strengthen the fixed ones and never refuse a proper group. -/
  checkValid_fst : ∀ source, (group.checkValid source).1 = true

/-- Powers of the generator are encoded in the declared number of bytes. -/
def Sized (group : PrimeGroup E) : Prop :=
  ∀ n, (group.encode (group.pow group.generator n)).length = group.elementSize

abbrev Member (group : PrimeGroup E) : Type :=
  { x : E // group.isMember x = true }

namespace Lawful

@[reducible] def commGroup (laws : group.Lawful) : CommGroup group.Member :=
  letI : Mul group.Member := ⟨fun x y => ⟨group.mul x y, laws.isMember_mul x.2 y.2⟩⟩
  letI : One group.Member := ⟨⟨group.identity, laws.isMember_identity⟩⟩
  letI : Inv group.Member := ⟨fun x => ⟨group.inv x, laws.isMember_inv x.2⟩⟩
  { Group.ofLeftAxioms
      (fun x y z => Subtype.ext (laws.assoc x.2 y.2 z.2))
      (fun x => Subtype.ext (laws.identity_mul x.2))
      (fun x => Subtype.ext (laws.inv_mul x.2)) with
    mul_comm := fun x y => Subtype.ext (laws.comm x.2 y.2) }

theorem order_pos (laws : group.Lawful) : 0 < group.order :=
  laws.prime_order.pos

theorem coe_pow (laws : group.Lawful) (x : group.Member) (n : Nat) :
    letI := laws.commGroup
    ((x ^ n : group.Member) : E) = group.pow x n := by
  let _ := laws.commGroup
  induction n with
  | zero =>
      rw [pow_zero, laws.pow_at_zero x.2]
      rfl
  | succ n ih =>
      rw [pow_succ, laws.pow_at_succ n x.2, ← ih]
      rfl

theorem isMember_pow (laws : group.Lawful) (hx : group.isMember x = true) (n : Nat) :
    group.isMember (group.pow x n) = true := by
  let _ := laws.commGroup
  rw [← laws.coe_pow ⟨x, hx⟩ n]
  exact Subtype.property (p := fun x => group.isMember x = true) _

theorem sized (laws : group.Lawful) : group.Sized := fun n =>
  laws.length_encode (laws.isMember_pow laws.isMember_generator n)

theorem member_pow_order (laws : group.Lawful) (x : group.Member) :
    letI := laws.commGroup
    x ^ group.order = 1 := by
  let _ := laws.commGroup
  apply Subtype.ext
  rw [laws.coe_pow, laws.pow_order x.2]
  rfl

theorem coe_zpow (laws : group.Lawful) (x : group.Member) (n : Int) :
    letI := laws.commGroup
    ((x ^ n : group.Member) : E) = group.powInt x n := by
  let _ := laws.commGroup
  have horder : (group.order : Int) ≠ 0 := by
    have hpos := laws.order_pos
    omega
  have hnonneg := Int.emod_nonneg n horder
  rw [zpow_eq_zpow_emod' n (laws.member_pow_order x), powInt, ← laws.coe_pow, ← zpow_natCast,
    Int.toNat_of_nonneg hnonneg]

theorem pow_congr (laws : group.Lawful) (hx : group.isMember x = true) {m n : Nat}
    (hmod : m ≡ n [MOD group.order]) : group.pow x m = group.pow x n := by
  let _ := laws.commGroup
  rw [← laws.coe_pow ⟨x, hx⟩, ← laws.coe_pow ⟨x, hx⟩]
  have hdvd := orderOf_dvd_of_pow_eq_one (laws.member_pow_order ⟨x, hx⟩)
  exact congrArg _ (pow_eq_pow_iff_modEq.mpr (hmod.of_dvd hdvd))

theorem pow_mod_order (laws : group.Lawful) (hx : group.isMember x = true) (n : Nat) :
    group.pow x (n % group.order) = group.pow x n :=
  laws.pow_congr hx (Nat.mod_modEq n group.order)

/-- The generator tells exponents apart up to multiples of the order. -/
theorem pow_generator_eq_iff (laws : group.Lawful) {m n : Nat} :
    group.pow group.generator m = group.pow group.generator n ↔ m ≡ n [MOD group.order] := by
  refine ⟨fun heq => ?_, laws.pow_congr laws.isMember_generator⟩
  let _ := laws.commGroup
  have : Fact group.order.Prime := ⟨laws.prime_order⟩
  let base : group.Member := ⟨group.generator, laws.isMember_generator⟩
  have hother : base ≠ 1 := fun hone => laws.generator_ne_identity (congrArg Subtype.val hone)
  have hpow : base ^ m = base ^ n := by
    apply Subtype.ext
    rw [laws.coe_pow, laws.coe_pow, heq]
  rw [← orderOf_eq_prime (laws.member_pow_order base) hother]
  exact pow_eq_pow_iff_modEq.mp hpow

theorem mul_pow_pow (laws : group.Lawful) (hx : group.isMember x = true) (m n : Nat) :
    group.mul (group.pow x m) (group.pow x n) = group.pow x (m + n) := by
  let _ := laws.commGroup
  rw [← laws.coe_pow ⟨x, hx⟩, ← laws.coe_pow ⟨x, hx⟩, ← laws.coe_pow ⟨x, hx⟩, pow_add]
  rfl

theorem pow_pow (laws : group.Lawful) (hx : group.isMember x = true) (m n : Nat) :
    group.pow (group.pow x m) n = group.pow x (m * n) := by
  let _ := laws.commGroup
  have hinner : group.pow x m = ((⟨x, hx⟩ ^ m : group.Member) : E) :=
    (laws.coe_pow ⟨x, hx⟩ m).symm
  rw [hinner, ← laws.coe_pow, ← pow_mul, laws.coe_pow]

theorem encode_inj (laws : group.Lawful) (hx : group.isMember x = true)
    (hy : group.isMember y = true) (henc : group.encode x = group.encode y) : x = y := by
  have hdec := laws.decode_encode hx
  rw [henc, laws.decode_encode hy] at hdec
  exact (Except.ok.inj hdec).symm

end Lawful

end ThreeMove.PrimeGroup
