import Mathlib.Data.Set.Card
import ThreeMove.Proofs.Group.SafePrime

/-!
# The validity tests are exact

A passed round with the base 2 only tells that `n` is a probable prime.  But if `n - 1` is twice a
prime, the order of 2 modulo a prime factor of `n` leaves no room for a second one, unless that
factor is 3.  So once the order of a group is known to be prime, both validity tests decide
whether the modulus is prime and whether the generator is a member.
-/

namespace ThreeMove

namespace Primality

variable {n : Nat}

/-- A base that passes its round has the power one at `n - 1`, as modulo a prime. -/
theorem pow_eq_one_of_strongRound (hlarge : 2 < n) (hn : n % 2 = 1) {base : Nat}
    (hround : strongRound n base = true) : (base : ZMod n) ^ (n - 1) = 1 := by
  obtain ⟨d, s, hsplit, hodd⟩ := exists_split hlarge
  rw [strongRound_iff hlarge hn hsplit hodd] at hround
  rw [hsplit]
  rcases hround with hone | ⟨r, hr, hlast⟩
  · rw [pow_mul, hone, one_pow]
  · obtain ⟨k, rfl⟩ := Nat.exists_eq_add_of_lt hr
    rw [Nat.pow_succ, Nat.pow_add, Nat.mul_assoc, ← Nat.mul_assoc, pow_mul, hlast,
      Nat.mul_comm, pow_mul, neg_one_sq, one_pow]

/-- Modulo each prime factor of `2q + 1` the order of 2 divides `2q`.  If it is a multiple of `q`,
the factor is larger than half of the number; if not, 2 is a square root of one, and the factor
is 3. -/
theorem prime_of_two_pow_eq_one {q : Nat} (hq : q.Prime) (hthree : ¬ 3 ∣ 2 * q + 1)
    (hpow : (2 : ZMod (2 * q + 1)) ^ (2 * q) = 1) : (2 * q + 1).Prime := by
  have hpos := hq.pos
  obtain ⟨r, hr, hdvd⟩ := Nat.exists_prime_and_dvd (n := 2 * q + 1) (by omega)
  have : Fact r.Prime := ⟨hr⟩
  have horder : orderOf (2 : ZMod r) ∣ 2 * q := by
    refine orderOf_dvd_of_pow_eq_one ?_
    have hcast := congrArg (ZMod.castHom hdvd (ZMod r)) hpow
    rwa [map_pow, map_ofNat, map_one] at hcast
  by_cases hmultiple : q ∣ orderOf (2 : ZMod r)
  · have hunit : (2 : ZMod r) ≠ 0 := by
      intro hzero
      have hfactor : r ∣ 2 := (ZMod.natCast_eq_zero_iff 2 r).mp hzero
      rw [(Nat.prime_dvd_prime_iff_eq hr Nat.prime_two).mp hfactor] at hdvd
      omega
    have hpred : q ∣ r - 1 := hmultiple.trans (ZMod.orderOf_dvd_card_sub_one hunit)
    have hle := Nat.le_of_dvd (by have := hr.two_le; omega) hpred
    rw [Nat.eq_of_dvd_of_lt_two_mul (by omega) hdvd (by omega)]
    exact hr
  · have hcoprime : Nat.Coprime (orderOf (2 : ZMod r)) q :=
      ((Nat.Prime.coprime_iff_not_dvd hq).mpr hmultiple).symm
    have hsquare : (2 : ZMod r) ^ 2 = 1 :=
      orderOf_dvd_iff_pow_eq_one.mp (hcoprime.dvd_of_dvd_mul_right horder)
    have hfactor : r ∣ 3 := by
      rw [← ZMod.natCast_eq_zero_iff, ← sub_eq_zero.mpr hsquare]
      norm_num
    rw [(Nat.prime_dvd_prime_iff_eq hr Nat.prime_three).mp hfactor] at hdvd
    exact (hthree hdvd).elim

/-- The fixed test never errs on the modulus of a prime order. -/
theorem isProbablePrime_iff {q : Nat} (hq : q.Prime) :
    isProbablePrime (2 * q + 1) = true ↔ (2 * q + 1).Prime := by
  refine ⟨fun hpass => ?_, isProbablePrime_of_prime⟩
  rcases isProbablePrime_iff_rounds.mp hpass with hsmall | ⟨-, hrounds⟩
  · exact prime_of_mem_smallPrimes _ hsmall
  · have hlow := hq.two_le
    obtain ⟨-, hround⟩ := hrounds 2 (by decide)
    refine prime_of_two_pow_eq_one hq (hrounds 3 (by decide)).1 ?_
    have hfermat := pow_eq_one_of_strongRound (by omega) (by omega) hround
    rwa [Nat.add_sub_cancel, Nat.cast_ofNat] at hfermat

/-- Drawn bases only confirm the fixed test there. -/
theorem isPrimeDrawing_fst {q : Nat} (hq : q.Prime) (source : Source) :
    (isPrimeDrawing (2 * q + 1) source).1 = isProbablePrime (2 * q + 1) := by
  cases hpass : isProbablePrime (2 * q + 1) with
  | false =>
      unfold isPrimeDrawing
      rw [hpass]
      rfl
  | true => exact isPrimeDrawing_of_prime ((isProbablePrime_iff hq).mp hpass) source

end Primality

namespace SafePrime

variable {params : SafePrime} {p q g x : Nat}

theorem of_ofNumbers (hbuilt : ofNumbers p q g = .ok params) :
    params.order = q ∧ params.generator = g ∧ params.modulus = p := by
  unfold ofNumbers at hbuilt
  split at hbuilt
  · split at hbuilt
    · split at hbuilt
      · next hp _ =>
        cases hbuilt
        exact ⟨rfl, rfl, hp.symm⟩
      · cases hbuilt
    · cases hbuilt
  · cases hbuilt

theorem generates_eq (params : SafePrime) :
    params.generates = params.isMember params.generator := by
  have hone : params.generator ≠ 1 := Nat.ne_of_gt params.one_lt_generator
  rw [generates, decide_eq_true hone, Bool.and_true]

theorem isMember_generator_iff :
    params.isMember params.generator = true ↔
      params.generator ^ params.order % params.modulus = 1 := by
  rw [isMember_iff, ← Nat.cast_pow, ← ZMod.natCast_mod (params.generator ^ params.order),
    Primality.natCast_eq_one_iff params.one_lt_modulus (Nat.mod_lt _ params.modulus_pos)]
  exact and_iff_right params.generator_lt

theorem isValid_iff (hq : params.order.Prime) :
    params.isValid = true ↔
      params.modulus.Prime ∧ params.generator ^ params.order % params.modulus = 1 := by
  unfold isValid
  rw [Bool.and_eq_true, Bool.and_eq_true, generates_eq, isMember_generator_iff]
  refine and_congr_left fun _ => ?_
  rw [and_iff_right (Primality.isProbablePrime_of_prime hq)]
  exact Primality.isProbablePrime_iff hq

theorem checkValid_eq (hq : params.order.Prime) (source : Source) :
    (params.checkValid source).1 = params.isValid := by
  have horder := Primality.isPrimeDrawing_of_prime hq source
  unfold checkValid isValid
  rw [Primality.isProbablePrime_of_prime hq, Bool.true_and]
  generalize Primality.isPrimeDrawing params.order source = first at horder ⊢
  obtain ⟨_, rest⟩ := first
  cases horder
  have hmodulus : (Primality.isPrimeDrawing params.modulus rest).1 =
      Primality.isProbablePrime params.modulus := Primality.isPrimeDrawing_fst hq rest
  dsimp only
  rw [← hmodulus]
  generalize Primality.isPrimeDrawing params.modulus rest = second
  obtain ⟨answer, rest⟩ := second
  cases answer <;> rfl

theorem orderOf_generator (hq : params.order.Prime)
    (hg : params.isMember params.generator = true) :
    orderOf (params.generator : ZMod params.modulus) = params.order := by
  have : Fact params.order.Prime := ⟨hq⟩
  obtain ⟨hlt, hpow⟩ := isMember_iff.mp hg
  refine orderOf_eq_prime hpow ?_
  rw [← Nat.cast_one, Ne, natCast_inj hlt params.one_lt_modulus]
  exact Nat.ne_of_gt params.one_lt_generator

theorem isMember_iff_exists_pow (hq : params.order.Prime) (hp : params.modulus.Prime)
    (hg : params.isMember params.generator = true) :
    params.isMember x = true ↔
      1 ≤ x ∧ x < params.modulus ∧ ∃ n, params.generator ^ n % params.modulus = x := by
  have hresidue : ∀ n, params.pow params.generator n =
      params.generator ^ n % params.modulus := by
    intro n
    refine eq_of_natCast (powMod_lt _ _ _) (Nat.mod_lt _ params.modulus_pos) ?_
    rw [natCast_pow hg, ZMod.natCast_mod, Nat.cast_pow]
  constructor
  · intro hx
    have hlt := (isMember_iff.mp hx).1
    obtain ⟨n, hn⟩ := exists_pow_generator hq hp hg hx
    refine ⟨Nat.pos_of_ne_zero ?_, hlt, n, (hresidue n).symm.trans hn⟩
    rintro rfl
    cases hx
  · rintro ⟨_, _, n, hn⟩
    rw [← hn, ← hresidue]
    exact isMember_pow hg n

/-- There are as many members as exponents below the order. -/
theorem ncard_isMember (hq : params.order.Prime) (hp : params.modulus.Prime)
    (hg : params.isMember params.generator = true) :
    {x | params.isMember x = true}.ncard = params.order := by
  have horder := orderOf_generator hq hg
  have himage : {x | params.isMember x = true} =
      params.pow params.generator '' (Finset.range params.order : Set Nat) := by
    ext x
    constructor
    · intro hx
      obtain ⟨n, hn⟩ := exists_pow_generator hq hp hg hx
      refine ⟨n % params.order, ?_, ?_⟩
      · exact Finset.mem_coe.mpr (Finset.mem_range.mpr (Nat.mod_lt _ hq.pos))
      · rw [← hn, pow, pow, Nat.mod_mod]
    · rintro ⟨n, _, rfl⟩
      exact isMember_pow hg n
  have hinj : Set.InjOn (params.pow params.generator) (Finset.range params.order : Set Nat) := by
    intro m hm n hn heq
    have hcast := congrArg (Nat.cast : Nat → ZMod params.modulus) heq
    rw [natCast_pow hg, natCast_pow hg] at hcast
    refine pow_injOn_Iio_orderOf ?_ ?_ hcast
    · rw [horder]
      exact Finset.mem_range.mp (Finset.mem_coe.mp hm)
    · rw [horder]
      exact Finset.mem_range.mp (Finset.mem_coe.mp hn)
  rw [himage, hinj.ncard_image, Set.ncard_coe_finset, Finset.card_range]

/-- A group whose order is prime is valid exactly if its modulus is prime and its generator has
the power one there, and drawn bases never change the answer.  The generator of a valid group has
that order, and the members are its powers. -/
theorem validity_exact (hbuilt : ofNumbers p q g = .ok params) (hq : q.Prime) :
    (params.group.isValid = true ↔ p = 2 * q + 1 ∧ p.Prime ∧ g ^ q % p = 1) ∧
    (∀ source, (params.group.checkValid source).1 = params.group.isValid) ∧
    (params.group.isValid = true →
      orderOf (g : ZMod p) = q ∧
      (∀ x, params.group.isMember x = true ↔ 1 ≤ x ∧ x < p ∧ ∃ n, g ^ n % p = x) ∧
      {x | params.group.isMember x = true}.ncard = q) := by
  obtain ⟨rfl, rfl, rfl⟩ := of_ofNumbers hbuilt
  have hvalid := isValid_iff hq
  refine ⟨?_, checkValid_eq hq, fun hpass => ?_⟩
  · exact hvalid.trans (and_iff_right rfl).symm
  · obtain ⟨hp, hpow⟩ := hvalid.mp hpass
    have hg := isMember_generator_iff.mpr hpow
    exact ⟨orderOf_generator hq hg, fun x => isMember_iff_exists_pow hq hp hg,
      ncard_isMember hq hp hg⟩

/-- The group modulo 23 is valid, and a group of order 13 never is: its modulus is 27. -/
theorem validity_exact_modulo23 :
    ofNumbers 23 11 4 = .ok modulo23 ∧ Nat.Prime 11 ∧
      (∀ source, (modulo23.group.checkValid source).1 = true) ∧
      orderOf ((4 : Nat) : ZMod 23) = 11 ∧
      {x | modulo23.group.isMember x = true}.ncard = 11 ∧
      ∀ params, ofNumbers 27 13 4 = .ok params → params.group.isValid = false := by
  have hbuilt : ofNumbers 23 11 4 = .ok modulo23 := rfl
  obtain ⟨hvalid, hdrawn, hmembers⟩ := validity_exact hbuilt (by decide)
  have hpass : modulo23.group.isValid = true := hvalid.mpr ⟨rfl, by decide, rfl⟩
  obtain ⟨horder, -, hcard⟩ := hmembers hpass
  refine ⟨hbuilt, by decide, fun source => (hdrawn source).trans hpass, horder, hcard, ?_⟩
  intro params hother
  rw [Bool.eq_false_iff]
  intro hpass
  obtain ⟨-, hprime, -⟩ := (validity_exact hother (by decide)).1.mp hpass
  exact absurd hprime (by decide)

end SafePrime

end ThreeMove
