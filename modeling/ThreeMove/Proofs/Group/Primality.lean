import Mathlib.FieldTheory.Finite.Basic
import Mathlib.Tactic.NormNum.Prime
import ThreeMove.Group.Primality
import ThreeMove.Proofs.Group.PowMod

/-!
# Primes pass the tests

With `n - 1 = d * 2 ^ s` and `d` odd, a round looks for one at the power `d` of its base, and for
minus one at the powers `d * 2 ^ r` with `r < s`.  Modulo a prime the last square of these powers is
one, which has no roots but one and minus one.  So neither the fixed nor the drawn test refuses a
prime.
-/

namespace ThreeMove.Primality

theorem splitTwos_mul_two_pow {fuel d s : Nat} (hodd : d % 2 = 1) (hle : s ≤ fuel) :
    splitTwos fuel (d * 2 ^ s) = (s, d) := by
  induction s generalizing fuel with
  | zero =>
      rw [Nat.pow_zero, Nat.mul_one]
      cases fuel with
      | zero => rfl
      | succ fuel => rw [splitTwos, if_neg (by omega)]
  | succ s ih =>
      obtain ⟨fuel, rfl⟩ := Nat.exists_eq_add_one_of_ne_zero (by omega : fuel ≠ 0)
      have hdouble : d * 2 ^ (s + 1) = 2 * (d * 2 ^ s) := by
        rw [Nat.pow_succ', Nat.mul_left_comm]
      have hhalf : 2 * (d * 2 ^ s) / 2 = d * 2 ^ s := Nat.mul_div_cancel_left _ Nat.two_pos
      rw [hdouble, splitTwos, if_pos (Nat.mul_mod_right 2 _), hhalf,
        ih (Nat.le_of_succ_le_succ hle)]

/-- A round has the fuel for all twos. -/
theorem splitTwos_bitLength {d s : Nat} (hodd : d % 2 = 1) :
    splitTwos (bitLength (d * 2 ^ s)) (d * 2 ^ s) = (s, d) := by
  apply splitTwos_mul_two_pow hodd
  by_contra hshort
  have hlt := (bitLength_le_iff (d * 2 ^ s) s).mp (by omega)
  rw [Nat.one_shiftLeft] at hlt
  have hle : 1 * 2 ^ s ≤ d * 2 ^ s := Nat.mul_le_mul_right _ (by omega)
  omega

theorem natCast_eq_one_iff {n x : Nat} (hn : 1 < n) (hx : x < n) :
    (x : ZMod n) = 1 ↔ x = 1 := by
  have hcast := ZMod.natCast_eq_natCast_iff' x 1 n
  rw [Nat.cast_one, Nat.mod_eq_of_lt hx, Nat.mod_eq_of_lt hn] at hcast
  exact hcast

theorem natCast_eq_neg_one_iff {n x : Nat} (hn : 1 < n) (hx : x < n) :
    (x : ZMod n) = -1 ↔ x = n - 1 := by
  have hlast : ((n - 1 : Nat) : ZMod n) = -1 := by
    rw [Nat.cast_sub (by omega), ZMod.natCast_self, Nat.cast_one, zero_sub]
  rw [← hlast, ZMod.natCast_eq_natCast_iff', Nat.mod_eq_of_lt hx,
    Nat.mod_eq_of_lt (by omega)]

theorem reachesMinusOne_iff {n : Nat} (hn : 1 < n) (squarings x : Nat) :
    reachesMinusOne n squarings x = true ↔
      ∃ r, r < squarings ∧ (x : ZMod n) ^ 2 ^ (r + 1) = -1 := by
  induction squarings generalizing x with
  | zero => simp [reachesMinusOne]
  | succ squarings ih =>
      have hsquare : ((x * x % n : Nat) : ZMod n) = (x : ZMod n) ^ 2 := by
        rw [ZMod.natCast_mod, Nat.cast_mul, sq]
      have hlater : ∀ r, ((x * x % n : Nat) : ZMod n) ^ 2 ^ (r + 1) =
          (x : ZMod n) ^ 2 ^ (r + 2) := by
        intro r
        rw [hsquare, ← pow_mul, ← Nat.pow_succ']
      rw [reachesMinusOne, Bool.or_eq_true, beq_iff_eq,
        ← natCast_eq_neg_one_iff hn (Nat.mod_lt _ (by omega)), hsquare, ih]
      simp only [hlater]
      constructor
      · rintro (hfirst | ⟨r, hr, hpower⟩)
        · exact ⟨0, Nat.succ_pos squarings, hfirst⟩
        · exact ⟨r + 1, Nat.succ_lt_succ hr, hpower⟩
      · rintro ⟨r, hr, hpower⟩
        cases r with
        | zero => exact .inl hpower
        | succ r => exact .inr ⟨r, Nat.lt_of_succ_lt_succ hr, hpower⟩

/-- What a round decides, whichever way the twos of `n - 1` are split off. -/
theorem strongRound_iff {n base d s : Nat} (hlarge : 2 < n) (hn : n % 2 = 1)
    (hsplit : n - 1 = d * 2 ^ s) (hodd : d % 2 = 1) :
    strongRound n base = true ↔
      (base : ZMod n) ^ d = 1 ∨ ∃ r, r < s ∧ (base : ZMod n) ^ (d * 2 ^ r) = -1 := by
  have hone : 1 < n := by omega
  have hlt : base ^ d % n < n := Nat.mod_lt _ (by omega)
  have hcast : ((base ^ d % n : Nat) : ZMod n) = (base : ZMod n) ^ d := by
    rw [ZMod.natCast_mod, Nat.cast_pow]
  have hpos : s ≠ 0 := by
    rintro rfl
    rw [Nat.pow_zero, Nat.mul_one] at hsplit
    omega
  have hfactors : splitTwos (bitLength (n - 1)) (n - 1) = (s, d) := by
    rw [hsplit, splitTwos_bitLength hodd]
  unfold strongRound
  rw [hfactors]
  dsimp only
  rw [powMod_eq (by omega), Bool.or_eq_true, Bool.or_eq_true, beq_iff_eq, beq_iff_eq,
    ← natCast_eq_one_iff hone hlt, ← natCast_eq_neg_one_iff hone hlt, reachesMinusOne_iff hone,
    hcast, or_assoc]
  simp only [← pow_mul]
  refine or_congr_right ⟨?_, ?_⟩
  · rintro (hfirst | ⟨r, hr, hpower⟩)
    · refine ⟨0, by omega, ?_⟩
      rw [Nat.pow_zero, Nat.mul_one, hfirst]
    · exact ⟨r + 1, by omega, hpower⟩
  · rintro ⟨r, hr, hpower⟩
    cases r with
    | zero =>
        rw [Nat.pow_zero, Nat.mul_one] at hpower
        exact .inl hpower
    | succ r => exact .inr ⟨r, by omega, hpower⟩

theorem exists_split {n : Nat} (hlarge : 2 < n) :
    ∃ d s, n - 1 = d * 2 ^ s ∧ d % 2 = 1 := by
  obtain ⟨s, d, hodd, hsplit⟩ := Nat.exists_eq_two_pow_mul_odd (by omega : n - 1 ≠ 0)
  exact ⟨d, s, by rw [hsplit, Nat.mul_comm], Nat.odd_iff.mp hodd⟩

/-- Modulo a prime one has no square roots but one and minus one, so repeated squares come to one
only through minus one. -/
theorem eq_one_or_exists_pow_eq_neg_one {R : Type} [CommRing R] [NoZeroDivisors R] {x : R} {s : Nat}
    (hpow : x ^ 2 ^ s = 1) : x = 1 ∨ ∃ r, r < s ∧ x ^ 2 ^ r = -1 := by
  induction s with
  | zero => exact .inl (by simpa using hpow)
  | succ s ih =>
      rw [Nat.pow_succ, pow_mul, sq_eq_one_iff] at hpow
      rcases hpow with hone | hlast
      · rcases ih hone with hx | ⟨r, hr, hpower⟩
        · exact .inl hx
        · exact .inr ⟨r, Nat.lt_succ_of_lt hr, hpower⟩
      · exact .inr ⟨s, Nat.lt_succ_self s, hlast⟩

theorem strongRound_of_prime {n base : Nat} (hn : n.Prime) (hlarge : 2 < n)
    (hbase : ¬ n ∣ base) : strongRound n base = true := by
  have : Fact n.Prime := ⟨hn⟩
  have hfermat : (base : ZMod n) ^ (n - 1) = 1 :=
    ZMod.pow_card_sub_one_eq_one (mt (ZMod.natCast_eq_zero_iff base n).mp hbase)
  have hodd : n % 2 = 1 := hn.mod_two_eq_one_iff_ne_two.mpr (by omega)
  obtain ⟨d, s, hsplit, hd⟩ := exists_split hlarge
  rw [hsplit, pow_mul] at hfermat
  rw [strongRound_iff hlarge hodd hsplit hd]
  simp only [pow_mul]
  exact eq_one_or_exists_pow_eq_neg_one hfermat

theorem prime_of_mem_smallPrimes : ∀ p ∈ smallPrimes, p.Prime := by
  unfold smallPrimes
  simp only [List.forall_mem_cons]
  norm_num

theorem trialDivision_eq_none_iff {n : Nat} (ps : List Nat) :
    trialDivision n ps = none ↔ ∀ p ∈ ps, ¬ p ∣ n := by
  induction ps with
  | nil => simp [trialDivision]
  | cons p ps ih =>
      rw [trialDivision, List.forall_mem_cons, ← ih, Nat.dvd_iff_mod_eq_zero]
      by_cases heq : n = p
      · simp [heq]
      · by_cases hmod : n % p = 0 <;> simp [heq, hmod]

theorem mem_of_trialDivision {n : Nat} {ps : List Nat} (htrial : trialDivision n ps = some true) :
    n ∈ ps := by
  induction ps with
  | nil => cases htrial
  | cons p ps ih =>
      rw [trialDivision] at htrial
      split at htrial
      · next heq => exact List.mem_cons.mpr (.inl heq)
      · split at htrial
        · cases htrial
        · exact List.mem_cons_of_mem p (ih htrial)

theorem trialDivision_of_mem {n : Nat} {ps : List Nat} (hps : ∀ p ∈ ps, p.Prime) (hmem : n ∈ ps) :
    trialDivision n ps = some true := by
  have hn := hps n hmem
  induction ps with
  | nil => cases hmem
  | cons p ps ih =>
      obtain ⟨hp, hothers⟩ := List.forall_mem_cons.mp hps
      rw [trialDivision]
      by_cases heq : n = p
      · rw [if_pos heq]
      · have hmod : n % p ≠ 0 := fun hmod => heq
          ((Nat.prime_dvd_prime_iff_eq hp hn).mp (Nat.dvd_of_mod_eq_zero hmod)).symm
        rw [if_neg heq, if_neg hmod]
        exact ih hothers (List.mem_of_ne_of_mem heq hmem)

/-- The fixed test accepts the small primes, and numbers that have none of them as a factor and pass
the round of each. -/
theorem isProbablePrime_iff_rounds {n : Nat} : isProbablePrime n = true ↔
    n ∈ smallPrimes ∨ 2 ≤ n ∧ ∀ p ∈ smallPrimes, ¬ p ∣ n ∧ strongRound n p = true := by
  unfold isProbablePrime
  constructor
  · intro hpass
    split at hpass
    · cases hpass
    · next hlow =>
      cases htrial : trialDivision n smallPrimes with
      | some answer =>
          rw [htrial] at hpass
          cases hpass
          exact .inl (mem_of_trialDivision htrial)
      | none =>
          rw [htrial] at hpass
          have hndvd := (trialDivision_eq_none_iff smallPrimes).mp htrial
          have hrounds := List.all_eq_true.mp hpass
          exact .inr ⟨Nat.not_lt.mp hlow, fun p hp => ⟨hndvd p hp, hrounds p hp⟩⟩
  · rintro (hmem | ⟨hlow, hrounds⟩)
    · have hn := prime_of_mem_smallPrimes n hmem
      rw [if_neg (Nat.not_lt.mpr hn.two_le), trialDivision_of_mem prime_of_mem_smallPrimes hmem]
    · have hnone := (trialDivision_eq_none_iff smallPrimes).mpr fun p hp => (hrounds p hp).1
      rw [if_neg (Nat.not_lt.mpr hlow), hnone]
      exact List.all_eq_true.mpr fun p hp => (hrounds p hp).2

theorem isProbablePrime_of_prime {n : Nat} (hn : n.Prime) : isProbablePrime n = true := by
  rw [isProbablePrime_iff_rounds]
  by_cases hmem : n ∈ smallPrimes
  · exact .inl hmem
  · refine .inr ⟨hn.two_le, fun p hp => ?_⟩
    have hndvd : ∀ q ∈ smallPrimes, ¬ n ∣ q ∧ ¬ q ∣ n := by
      intro q hq
      have hprime := prime_of_mem_smallPrimes q hq
      rw [Nat.prime_dvd_prime_iff_eq hn hprime, Nat.prime_dvd_prime_iff_eq hprime hn]
      exact ⟨fun heq => hmem (heq ▸ hq), fun heq => hmem (heq ▸ hq)⟩
    have htwo : n ≠ 2 := fun heq => hmem (heq ▸ List.mem_cons_self)
    obtain ⟨hbase, hfactor⟩ := hndvd p hp
    exact ⟨hfactor, strongRound_of_prime hn (Nat.lt_of_le_of_ne hn.two_le htwo.symm) hbase⟩

def IsBase (n base : Nat) : Prop :=
  2 ≤ base ∧ base ≤ n - 2

/-- The bases of that many rounds, and the source behind them. -/
def drawBases (n : Nat) : Nat → Source → List Nat × Source
  | 0, source => ([], source)
  | rounds + 1, source =>
      let (base, between) := source.below (n - 3)
      let (bases, rest) := drawBases n rounds between
      ((base + 2) :: bases, rest)

theorem drawBases_succ (n rounds : Nat) (source : Source) :
    drawBases n (rounds + 1) source =
      (((source.below (n - 3)).1 + 2) :: (drawBases n rounds (source.below (n - 3)).2).1,
        (drawBases n rounds (source.below (n - 3)).2).2) :=
  rfl

theorem isBase_of_mem_drawBases {n rounds base : Nat} {source : Source} (hlarge : 3 < n)
    (hmem : base ∈ (drawBases n rounds source).1) : IsBase n base := by
  induction rounds generalizing source with
  | zero => cases hmem
  | succ rounds ih =>
      have hbound : 0 < n - 3 := by omega
      have hlt := source.below_lt hbound
      rw [drawBases_succ, List.mem_cons] at hmem
      rcases hmem with rfl | hlater
      · exact ⟨by omega, by omega⟩
      · exact ih hlater

/-- The rounds draw their bases up to the first that fails. -/
theorem exists_drawRounds_eq (n rounds : Nat) (source : Source) :
    ∃ drawn, drawn ≤ rounds ∧
      ((drawBases n drawn source).1.all (strongRound n) = true → drawn = rounds) ∧
      drawRounds n rounds source =
        ((drawBases n drawn source).1.all (strongRound n), (drawBases n drawn source).2) := by
  induction rounds generalizing source with
  | zero => exact ⟨0, Nat.le_refl 0, fun _ => rfl, rfl⟩
  | succ rounds ih =>
      rw [drawRounds]
      dsimp only
      by_cases hround : strongRound n ((source.below (n - 3)).1 + 2) = true
      · obtain ⟨drawn, hle, hall, heq⟩ := ih (source.below (n - 3)).2
        refine ⟨drawn + 1, Nat.succ_le_succ hle, ?_, ?_⟩
        · rw [drawBases_succ, List.all_cons, hround, Bool.true_and]
          exact fun hpass => congrArg Nat.succ (hall hpass)
        · rw [if_pos hround, heq, drawBases_succ, List.all_cons, hround, Bool.true_and]
      · have hfail := Bool.eq_false_iff.mpr hround
        refine ⟨1, Nat.succ_le_succ (Nat.zero_le rounds), ?_, ?_⟩
        · rw [drawBases_succ, List.all_cons, hfail, Bool.false_and]
          nofun
        · rw [if_neg hround, drawBases_succ, List.all_cons, hfail, Bool.false_and]
          rfl

theorem strongRound_of_isBase {n base : Nat} (hn : n.Prime) (hbase : IsBase n base) :
    strongRound n base = true := by
  obtain ⟨hlow, hhigh⟩ := hbase
  apply strongRound_of_prime hn (by omega)
  exact Nat.not_dvd_of_pos_of_lt (by omega) (by omega)

theorem drawRounds_of_prime {n : Nat} (hn : n.Prime) (hlarge : 3 < n) (rounds : Nat)
    (source : Source) : drawRounds n rounds source = (true, (drawBases n rounds source).2) := by
  obtain ⟨drawn, -, hall, heq⟩ := exists_drawRounds_eq n rounds source
  have hpass : (drawBases n drawn source).1.all (strongRound n) = true := by
    rw [List.all_eq_true]
    intro base hmem
    exact strongRound_of_isBase hn (isBase_of_mem_drawBases hlarge hmem)
  rw [heq, hpass, hall hpass]

theorem isPrimeDrawing_eq_of_prime {n : Nat} (hn : n.Prime) (source : Source) :
    isPrimeDrawing n source =
      (true, if n ≤ 37 then source else (drawBases n drawnRounds source).2) := by
  unfold isPrimeDrawing
  rw [isProbablePrime_of_prime hn]
  by_cases hsmall : n ≤ 37
  · simp [hsmall]
  · simp [hsmall, drawRounds_of_prime hn (by omega : 3 < n)]

theorem isPrimeDrawing_of_prime {n : Nat} (hn : n.Prime) (source : Source) :
    (isPrimeDrawing n source).1 = true := by
  rw [isPrimeDrawing_eq_of_prime hn]

end ThreeMove.Primality
