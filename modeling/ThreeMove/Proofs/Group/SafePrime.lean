import Mathlib.RingTheory.RootsOfUnity.PrimitiveRoots
import ThreeMove.Group.SafePrime
import ThreeMove.Proofs.Group.Lawful
import ThreeMove.Proofs.Group.Primality

/-!
# Squares modulo a safe prime are a lawful group

The members are the residues whose `q`-th power is one.  They are the powers of the
generator, since a field has no more than `q` such residues.
-/

namespace ThreeMove.SafePrime

variable {params : SafePrime} {x y : Nat}

theorem modulus_pos (params : SafePrime) : 0 < params.modulus :=
  Nat.succ_pos _

theorem one_lt_modulus (params : SafePrime) : 1 < params.modulus := by
  have hq := params.one_lt_order
  unfold modulus
  omega

theorem natCast_inj (hx : x < params.modulus) (hy : y < params.modulus) :
    (x : ZMod params.modulus) = y ↔ x = y := by
  rw [ZMod.natCast_eq_natCast_iff', Nat.mod_eq_of_lt hx, Nat.mod_eq_of_lt hy]

theorem natCast_powMod (params : SafePrime) (x exponent : Nat) :
    ((powMod params.modulus x exponent : Nat) : ZMod params.modulus) = (x : ZMod _) ^ exponent := by
  rw [powMod_eq params.modulus_pos, ZMod.natCast_mod, Nat.cast_pow]

theorem powMod_lt (params : SafePrime) (x exponent : Nat) :
    powMod params.modulus x exponent < params.modulus := by
  rw [powMod_eq params.modulus_pos]
  exact Nat.mod_lt _ params.modulus_pos

theorem isMember_iff :
    params.isMember x = true ↔
      x < params.modulus ∧ (x : ZMod params.modulus) ^ params.order = 1 := by
  have hpow : powMod params.modulus x params.order = 1 ↔
      (x : ZMod params.modulus) ^ params.order = 1 := by
    rw [← natCast_inj (powMod_lt _ _ _) params.one_lt_modulus, natCast_powMod, Nat.cast_one]
  have hzero : powMod params.modulus 0 params.order ≠ 1 := by
    rw [powMod_eq params.modulus_pos, Nat.zero_pow (by have := params.one_lt_order; omega),
      Nat.zero_mod]
    exact Nat.zero_ne_one
  unfold isMember
  rw [Bool.and_eq_true, Bool.and_eq_true, decide_eq_true_eq, decide_eq_true_eq, beq_iff_eq, ← hpow]
  constructor
  · rintro ⟨⟨_, hlt⟩, hone⟩
    exact ⟨hlt, hone⟩
  · rintro ⟨hlt, hone⟩
    refine ⟨⟨?_, hlt⟩, hone⟩
    rintro rfl
    exact hzero hone

theorem natCast_pow (hx : params.isMember x = true) (n : Nat) :
    ((params.pow x n : Nat) : ZMod params.modulus) = (x : ZMod _) ^ n := by
  rw [pow, natCast_powMod, ← pow_mod_orderOf, ← pow_mod_orderOf _ n]
  have hdvd := orderOf_dvd_of_pow_eq_one (isMember_iff.mp hx).2
  rw [Nat.mod_mod_of_dvd _ hdvd]

theorem isMember_pow (hx : params.isMember x = true) (n : Nat) :
    params.isMember (params.pow x n) = true := by
  refine isMember_iff.mpr ⟨powMod_lt _ _ _, ?_⟩
  rw [natCast_pow hx, ← pow_mul, Nat.mul_comm, pow_mul, (isMember_iff.mp hx).2, one_pow]

theorem isMember_mul (hx : params.isMember x = true) (hy : params.isMember y = true) :
    params.isMember (x * y % params.modulus) = true := by
  refine isMember_iff.mpr ⟨Nat.mod_lt _ params.modulus_pos, ?_⟩
  rw [ZMod.natCast_mod, Nat.cast_mul, mul_pow, (isMember_iff.mp hx).2, (isMember_iff.mp hy).2,
    one_mul]

theorem isMember_one (params : SafePrime) : params.isMember 1 = true :=
  isMember_iff.mpr ⟨params.one_lt_modulus, by rw [Nat.cast_one, one_pow]⟩

theorem isMember_inv (hx : params.isMember x = true) :
    params.isMember (powMod params.modulus x (params.order - 1)) = true := by
  refine isMember_iff.mpr ⟨powMod_lt _ _ _, ?_⟩
  rw [natCast_powMod, ← pow_mul, Nat.mul_comm, pow_mul, (isMember_iff.mp hx).2, one_pow]

theorem eq_of_natCast (hx : x < params.modulus) (hy : y < params.modulus)
    (hcast : (x : ZMod params.modulus) = y) : x = y :=
  (natCast_inj hx hy).mp hcast

theorem exists_pow_generator (hq : params.order.Prime) (hp : params.modulus.Prime)
    (hg : params.isMember params.generator = true) (hx : params.isMember x = true) :
    ∃ n, params.pow params.generator n = x := by
  have : Fact params.modulus.Prime := ⟨hp⟩
  have : Fact params.order.Prime := ⟨hq⟩
  obtain ⟨hglt, hgpow⟩ := isMember_iff.mp hg
  obtain ⟨hxlt, hxpow⟩ := isMember_iff.mp hx
  have hgone : (params.generator : ZMod params.modulus) ≠ 1 := by
    rw [← Nat.cast_one, Ne, natCast_inj hglt params.one_lt_modulus]
    exact Nat.ne_of_gt params.one_lt_generator
  have hroot : IsPrimitiveRoot (params.generator : ZMod params.modulus) params.order := by
    rw [← orderOf_eq_prime hgpow hgone]
    exact IsPrimitiveRoot.orderOf _
  obtain ⟨n, _, hn⟩ := hroot.eq_pow_of_pow_eq_one hxpow
  refine ⟨n, eq_of_natCast (powMod_lt _ _ _) hxlt ?_⟩
  rw [natCast_pow hg, hn]

theorem bitLength_le_elementSize (hx : x < params.modulus) :
    bitLength x ≤ 8 * params.elementSize := by
  have hmod := (bitLength_le_iff params.modulus (bitLength params.modulus)).mp (Nat.le_refl _)
  have hle := (bitLength_le_iff x (bitLength params.modulus)).mpr (Nat.lt_trans hx hmod)
  unfold elementSize
  omega

theorem encode_of_lt (hx : x < params.modulus) :
    params.encode x = Bytes.ofNat params.elementSize x := by
  rw [encode, Bytes.ofNat?, if_pos (bitLength_le_elementSize hx)]
  rfl

theorem length_encode (hx : x < params.modulus) :
    (params.encode x).length = params.elementSize := by
  rw [encode_of_lt hx, Bytes.length_ofNat]

/-- Every power is a residue, whether the numbers are prime or not. -/
theorem sized (params : SafePrime) : params.group.Sized := fun _ =>
  length_encode (powMod_lt params _ _)

theorem decode_encode (hx : params.isMember x = true) :
    params.decode (params.encode x) = .ok x := by
  have hlt := (isMember_iff.mp hx).1
  rw [encode_of_lt hlt, decode, if_pos (Bytes.length_ofNat _ _),
    Bytes.toNat_ofNat (bitLength_le_elementSize hlt), element, if_pos hx]

theorem of_decode {bytes : Bytes} (hdec : params.decode bytes = .ok x) :
    params.isMember x = true ∧ params.encode x = bytes := by
  unfold decode element at hdec
  split at hdec
  · next hlen =>
    split at hdec
    · next hmem =>
      cases hdec
      refine ⟨hmem, ?_⟩
      rw [encode_of_lt (isMember_iff.mp hmem).1, Bytes.ofNat_toNat hlen]
    · cases hdec
  · cases hdec

theorem checkValid_fst (hq : params.order.Prime) (hp : params.modulus.Prime)
    (hg : params.isMember params.generator = true) (source : Source) :
    (params.checkValid source).1 = true := by
  have hgen : params.generates = true := by
    have hone := params.one_lt_generator
    simp only [generates, hg, Bool.true_and, decide_eq_true_eq]
    omega
  have horder := Primality.isPrimeDrawing_of_prime hq source
  unfold checkValid
  generalize Primality.isPrimeDrawing params.order source = first at horder ⊢
  obtain ⟨answer, rest⟩ := first
  cases horder
  have hmodulus := Primality.isPrimeDrawing_of_prime hp rest
  dsimp only
  generalize Primality.isPrimeDrawing params.modulus rest = second at hmodulus ⊢
  obtain ⟨answer, rest⟩ := second
  cases hmodulus
  exact hgen

theorem lawful (hq : params.order.Prime) (hp : params.modulus.Prime)
    (hg : params.isMember params.generator = true) : params.group.Lawful where
  prime_order := hq
  isMember_identity := params.isMember_one
  isMember_mul := isMember_mul
  isMember_inv := isMember_inv
  assoc := fun {x y z} _ _ _ => by
    refine eq_of_natCast (Nat.mod_lt _ params.modulus_pos) (Nat.mod_lt _ params.modulus_pos) ?_
    change ((x * y % params.modulus * z % params.modulus : Nat) : ZMod params.modulus) =
      ((x * (y * z % params.modulus) % params.modulus : Nat) : ZMod params.modulus)
    simp only [ZMod.natCast_mod, Nat.cast_mul, mul_assoc]
  comm := fun {x y} _ _ => congrArg (· % params.modulus) (Nat.mul_comm x y)
  identity_mul := fun {x} hx => by
    change 1 * x % params.modulus = x
    rw [Nat.one_mul, Nat.mod_eq_of_lt (isMember_iff.mp hx).1]
  inv_mul := fun {x} hx => by
    refine eq_of_natCast (Nat.mod_lt _ params.modulus_pos) params.one_lt_modulus ?_
    have hpred : params.order - 1 + 1 = params.order := Nat.sub_add_cancel hq.one_le
    change ((powMod params.modulus x (params.order - 1) * x % params.modulus : Nat) :
      ZMod params.modulus) = ((1 : Nat) : ZMod params.modulus)
    rw [ZMod.natCast_mod, Nat.cast_mul, natCast_powMod, ← pow_succ, hpred,
      (isMember_iff.mp hx).2, Nat.cast_one]
  pow_at_zero := fun {x} hx => by
    refine eq_of_natCast (powMod_lt _ _ _) params.one_lt_modulus ?_
    change ((params.pow x 0 : Nat) : ZMod params.modulus) = ((1 : Nat) : ZMod params.modulus)
    rw [natCast_pow hx, pow_zero, Nat.cast_one]
  pow_at_succ := fun {x} n hx => by
    refine eq_of_natCast (powMod_lt _ _ _) (Nat.mod_lt _ params.modulus_pos) ?_
    change ((params.pow x (n + 1) : Nat) : ZMod params.modulus) =
      ((params.pow x n * x % params.modulus : Nat) : ZMod params.modulus)
    rw [natCast_pow hx, ZMod.natCast_mod, Nat.cast_mul, natCast_pow hx, pow_succ]
  pow_order := fun {x} hx => by
    refine eq_of_natCast (powMod_lt _ _ _) params.one_lt_modulus ?_
    change ((params.pow x params.order : Nat) : ZMod params.modulus) =
      ((1 : Nat) : ZMod params.modulus)
    rw [natCast_pow hx, (isMember_iff.mp hx).2, Nat.cast_one]
  isMember_generator := hg
  generator_ne_identity := Nat.ne_of_gt params.one_lt_generator
  exists_pow_generator := exists_pow_generator hq hp hg
  length_encode := fun {x} hx => SafePrime.length_encode (isMember_iff.mp hx).1
  decode_encode := decode_encode
  of_decode := of_decode
  checkValid_fst := checkValid_fst hq hp hg

def modulo23 : SafePrime :=
  ⟨11, 4, by decide, by decide, by decide⟩

theorem lawful_modulo23 : modulo23.group.Lawful :=
  lawful (by decide : Nat.Prime 11) (by decide : Nat.Prime 23) (by rfl)

end ThreeMove.SafePrime
