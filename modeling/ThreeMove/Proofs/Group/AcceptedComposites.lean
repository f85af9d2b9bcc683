import ThreeMove.Proofs.Group.DrawnBases
import ThreeMove.Proofs.Group.SignPowers

/-!
# How rarely a composite is accepted

The bases whose round an odd composite passes all have one or minus one as their power `e`, for one
`e` that does not depend on the base.  So they are at most a quarter of the bases that may be drawn.
The drawn test goes through a list of bases, any list may be drawn, and a composite is accepted only
with a list of passed bases, so the accepted lists are at most the fraction `(1 / 4) ^ 64` of all.
-/

namespace ThreeMove.Primality

variable {n d s e base : Nat} {bases : List Nat}

/-! ## One exponent for all bases -/

/-- Some unit comes to minus one after so many squarings of its power `d`. -/
def ComesToMinusOne (n d squarings : Nat) : Prop :=
  ∃ u : (ZMod n)ˣ, u ^ (d * 2 ^ squarings) = -1

/-- Minus one itself is reached without squaring, so there is a last number of squarings. -/
theorem exists_last_comesToMinusOne (n : Nat) (hd : d % 2 = 1) (hs : 0 < s) :
    ∃ last, last < s ∧ ComesToMinusOne n d last ∧
      ∀ r, r < s → ComesToMinusOne n d r → r ≤ last := by
  classical
  have hfirst : ComesToMinusOne n d 0 := by
    refine ⟨-1, ?_⟩
    rw [pow_zero, mul_one]
    exact (Nat.odd_iff.mpr hd).neg_one_pow
  refine ⟨Nat.findGreatest (ComesToMinusOne n d) (s - 1), ?_,
    Nat.findGreatest_spec (Nat.zero_le _) hfirst, fun r hr hcomes => ?_⟩
  · have hle := Nat.findGreatest_le (P := ComesToMinusOne n d) (s - 1)
    omega
  · exact Nat.le_findGreatest (by omega) hcomes

theorem isUnit_of_sign {x : ZMod n} (hpos : e ≠ 0) (hsign : x ^ e = 1 ∨ x ^ e = -1) :
    IsUnit x := by
  rw [← isUnit_pow_iff hpos]
  rcases hsign with hone | hneg
  · exact hone ▸ isUnit_one
  · exact hneg ▸ isUnit_one.neg

theorem two_mul_pow_dvd {r last : Nat} (hlt : r < last) : 2 * (d * 2 ^ r) ∣ d * 2 ^ last := by
  rw [Nat.mul_left_comm, ← Nat.pow_succ']
  exact Nat.mul_dvd_mul_left d (pow_dvd_pow 2 hlt)

/-- A base that passes its round comes to one or minus one at the last exponent at which any unit
comes to minus one. -/
theorem exists_sign_exponent (hlarge : 2 < n) (hodd : n % 2 = 1) :
    ∃ e, 2 * e ∣ n - 1 ∧ (∃ u : (ZMod n)ˣ, u ^ e = -1) ∧
      ∀ base, strongRound n base = true → (base : ZMod n) ^ e = 1 ∨ (base : ZMod n) ^ e = -1 := by
  obtain ⟨d, s, hsplit, hd⟩ := exists_split hlarge
  have hs : 0 < s := by
    by_contra hzero
    obtain rfl : s = 0 := by omega
    rw [Nat.pow_zero, Nat.mul_one] at hsplit
    omega
  obtain ⟨last, hlast, hneg, hmax⟩ := exists_last_comesToMinusOne n hd hs
  refine ⟨d * 2 ^ last, hsplit ▸ two_mul_pow_dvd hlast, hneg, fun base hround => ?_⟩
  rcases (strongRound_iff hlarge hodd hsplit hd).mp hround with hone | ⟨r, hr, hminus⟩
  · exact .inl (by rw [pow_mul, hone, one_pow])
  · have hpos : d * 2 ^ r ≠ 0 := Nat.mul_ne_zero (by omega) (Nat.two_pow_pos r).ne'
    obtain ⟨u, hu⟩ := isUnit_of_sign hpos (.inr hminus)
    have hcomes : ComesToMinusOne n d r :=
      ⟨u, Units.ext (by rw [Units.val_pow_eq_pow_val, hu, hminus, Units.val_neg, Units.val_one])⟩
    rcases (hmax r hr hcomes).eq_or_lt with rfl | hlt
    · exact .inr hminus
    · exact .inl (pow_eq_one_of_sign (two_mul_pow_dvd hlt) (.inr hminus))

/-! ## One round -/

/-- The numbers below `n` with one or minus one as their power `e`. -/
def signBases (n e : Nat) : Finset Nat :=
  {base ∈ Finset.range n | (base : ZMod n) ^ e = 1 ∨ (base : ZMod n) ^ e = -1}

theorem mem_signBases : base ∈ signBases n e ↔
    base < n ∧ ((base : ZMod n) ^ e = 1 ∨ (base : ZMod n) ^ e = -1) := by
  rw [signBases, Finset.mem_filter, Finset.mem_range]

/-- They are the values of units. -/
theorem card_signBases_le (hn : 0 < n) (hpos : e ≠ 0) :
    (signBases n e).card ≤ Nat.card (signPowers (dvd_refl n) e) := by
  have : NeZero n := ⟨hn.ne'⟩
  have : Fintype (signPowers (dvd_refl n) e) := Fintype.ofFinite _
  have hvalues : signBases n e ⊆
      Finset.univ.image fun u : signPowers (dvd_refl n) e => ((u : (ZMod n)ˣ) : ZMod n).val := by
    intro base hbase
    obtain ⟨hlt, hsign⟩ := mem_signBases.mp hbase
    obtain ⟨u, hu⟩ := isUnit_of_sign hpos hsign
    have hmem : u ∈ signPowers (dvd_refl n) e := by
      rw [mem_signPowers_self, Units.ext_iff, Units.ext_iff, Units.val_pow_eq_pow_val, hu,
        Units.val_neg, Units.val_one]
      exact hsign
    have hval : (u : ZMod n).val = base := by rw [hu, ZMod.val_natCast_of_lt hlt]
    exact Finset.mem_image.mpr ⟨⟨u, hmem⟩, Finset.mem_univ _, hval⟩
  calc (signBases n e).card ≤ _ := Finset.card_le_card hvalues
    _ ≤ (Finset.univ : Finset (signPowers (dvd_refl n) e)).card := Finset.card_image_le
    _ = Nat.card (signPowers (dvd_refl n) e) := by
        rw [Finset.card_univ, Nat.card_eq_fintype_card]

def passedBases (n : Nat) : Finset Nat :=
  {base ∈ Finset.Icc 2 (n - 2) | strongRound n base = true}

theorem mem_passedBases : base ∈ passedBases n ↔ IsBase n base ∧ strongRound n base = true := by
  rw [passedBases, Finset.mem_filter, Finset.mem_Icc, IsBase]

/-- One and `n - 1` are signs, and they are not drawn. -/
theorem card_passedBases_add_two_le (hlarge : 2 < n)
    (hsign : ∀ base, strongRound n base = true →
      (base : ZMod n) ^ e = 1 ∨ (base : ZMod n) ^ e = -1) :
    (passedBases n).card + 2 ≤ (signBases n e).card := by
  have hminus : ((n - 1 : Nat) : ZMod n) = -1 :=
    (natCast_eq_neg_one_iff (by omega) (by omega)).mpr rfl
  have hlast : n - 1 ∉ passedBases n := by
    rw [mem_passedBases, IsBase]
    omega
  have hfirst : 1 ∉ insert (n - 1) (passedBases n) := by
    rw [Finset.mem_insert, mem_passedBases, IsBase]
    omega
  have hcard : (insert 1 (insert (n - 1) (passedBases n))).card = (passedBases n).card + 2 := by
    rw [Finset.card_insert_of_notMem hfirst, Finset.card_insert_of_notMem hlast]
  rw [← hcard]
  refine Finset.card_le_card fun base hbase => mem_signBases.mpr ?_
  rw [Finset.mem_insert, Finset.mem_insert, mem_passedBases, IsBase] at hbase
  rcases hbase with rfl | rfl | ⟨⟨hlow, hhigh⟩, hround⟩
  · exact ⟨by omega, .inl (by rw [Nat.cast_one, one_pow])⟩
  · exact ⟨by omega, hminus ▸ neg_one_pow_eq_or (ZMod n) e⟩
  · exact ⟨by omega, hsign base hround⟩

theorem card_bases (n : Nat) : (Finset.Icc 2 (n - 2)).card = n - 3 := by
  rw [Nat.card_Icc]
  omega

theorem four_mul_card_passedBases_le (hlow : 1 < n) (hodd : n % 2 = 1) (hcomposite : ¬ n.Prime) :
    4 * (passedBases n).card ≤ n - 3 := by
  have hlarge : 2 < n := by omega
  have hpositive : 0 < n := by omega
  obtain ⟨e, he, hneg, hsign⟩ := exists_sign_exponent hlarge hodd
  have hpos : e ≠ 0 := by
    rintro rfl
    have hzero := Nat.eq_zero_of_zero_dvd he
    omega
  have hpassed := card_passedBases_add_two_le hlarge hsign
  have hsigns := card_signBases_le hpositive hpos
  have hquarter := four_mul_card_signPowers_le hlow hodd hcomposite he hneg
  omega

/-! ## All rounds -/

/-- The verdict of the drawn rounds is that of all their bases, though they stop at the first that
fails. -/
theorem drawRounds_fst (n rounds : Nat) (source : Source) :
    (drawRounds n rounds source).1 = (drawBases n rounds source).1.all (strongRound n) := by
  induction rounds generalizing source with
  | zero => rfl
  | succ rounds ih =>
      rw [drawRounds, drawBases_succ, List.all_cons]
      dsimp only
      cases hround : strongRound n ((source.below (n - 3)).1 + 2) with
      | true => rw [if_pos rfl, ih, Bool.true_and]
      | false => rfl

theorem isPrimeDrawing_fst_eq_all (n : Nat) (source : Source) :
    (isPrimeDrawing n source).1 = (isProbablePrime n &&
      (decide (n ≤ 37) || (drawBases n drawnRounds source).1.all (strongRound n))) := by
  unfold isPrimeDrawing
  cases isProbablePrime n with
  | false => rfl
  | true =>
      by_cases hsmall : n ≤ 37
      · simp [hsmall]
      · simp [hsmall, drawRounds_fst]

theorem length_drawBases (n rounds : Nat) (source : Source) :
    (drawBases n rounds source).1.length = rounds := by
  induction rounds generalizing source with
  | zero => rfl
  | succ rounds ih => rw [drawBases_succ, List.length_cons, ih]

theorem odd_and_large_of_isProbablePrime (hcomposite : ¬ n.Prime)
    (hpass : isProbablePrime n = true) : n % 2 = 1 ∧ 37 < n := by
  have hfactor : ∀ n, n ≤ 37 → 2 ≤ n → ∃ p ∈ smallPrimes, p ∣ n := by decide
  rcases isProbablePrime_iff_rounds.mp hpass with hmem | ⟨hlow, hrounds⟩
  · exact absurd (prime_of_mem_smallPrimes n hmem) hcomposite
  · have htwo : ¬ 2 ∣ n := (hrounds 2 List.mem_cons_self).1
    refine ⟨by omega, Nat.lt_of_not_le fun hsmall => ?_⟩
    obtain ⟨p, hp, hdvd⟩ := hfactor n hsmall hlow
    exact (hrounds p hp).1 hdvd

/-! ## Lists of bases -/

def listsOver (elements : Finset Nat) (length : Nat) : Finset (List Nat) :=
  (Fintype.piFinset fun _ : Fin length => elements).map ⟨List.ofFn, List.ofFn_injective⟩

theorem mem_listsOver {elements : Finset Nat} {length : Nat} :
    bases ∈ listsOver elements length ↔
      bases.length = length ∧ ∀ base ∈ bases, base ∈ elements := by
  rw [listsOver, Finset.mem_map]
  constructor
  · rintro ⟨f, hf, rfl⟩
    exact ⟨List.length_ofFn, List.forall_mem_ofFn_iff.mpr (Fintype.mem_piFinset.mp hf)⟩
  · rintro ⟨rfl, hbases⟩
    exact ⟨bases.get, Fintype.mem_piFinset.mpr fun i => hbases _ (List.get_mem bases i),
      List.ofFn_get bases⟩

theorem card_listsOver (elements : Finset Nat) (length : Nat) :
    (listsOver elements length).card = elements.card ^ length := by
  rw [listsOver, Finset.card_map, Fintype.card_piFinset_const]

/-- The lists of bases that the drawn test may use, one base for each round. -/
def drawnLists (n : Nat) : Set (List Nat) :=
  Set.range fun source => (drawBases n drawnRounds source).1

def acceptedLists (n : Nat) : Set (List Nat) :=
  {bases | ∃ source, (drawBases n drawnRounds source).1 = bases ∧
    (isPrimeDrawing n source).1 = true}

theorem mem_drawnLists (hlarge : 3 < n) :
    bases ∈ drawnLists n ↔ bases.length = drawnRounds ∧ ∀ base ∈ bases, IsBase n base := by
  constructor
  · rintro ⟨source, rfl⟩
    exact ⟨length_drawBases n drawnRounds source, fun base => isBase_of_mem_drawBases hlarge⟩
  · rintro ⟨hlength, hbases⟩
    obtain ⟨source, hsource⟩ := exists_source_drawBases hbases
    exact ⟨source, hlength ▸ hsource⟩

theorem ncard_drawnLists (hlarge : 3 < n) : (drawnLists n).ncard = (n - 3) ^ drawnRounds := by
  have heq : drawnLists n = listsOver (Finset.Icc 2 (n - 2)) drawnRounds := by
    ext bases
    simp only [mem_drawnLists hlarge, Finset.mem_coe, mem_listsOver, Finset.mem_Icc, IsBase]
  rw [heq, Set.ncard_coe_finset, card_listsOver, card_bases]

/-- The verdict depends on the bases alone. -/
theorem accepts_iff_mem_acceptedLists (n : Nat) (source : Source) :
    (isPrimeDrawing n source).1 = true ↔
      (drawBases n drawnRounds source).1 ∈ acceptedLists n := by
  constructor
  · intro haccepts
    exact ⟨source, rfl, haccepts⟩
  · rintro ⟨other, hsame, haccepts⟩
    rw [isPrimeDrawing_fst_eq_all, ← hsame, ← isPrimeDrawing_fst_eq_all]
    exact haccepts

theorem acceptedLists_subset (hcomposite : ¬ n.Prime) :
    acceptedLists n ⊆ listsOver (passedBases n) drawnRounds := by
  rintro bases ⟨source, rfl, haccepts⟩
  rw [isPrimeDrawing_fst_eq_all, Bool.and_eq_true] at haccepts
  obtain ⟨hpass, hrounds⟩ := haccepts
  obtain ⟨-, hlarge⟩ := odd_and_large_of_isProbablePrime hcomposite hpass
  rw [decide_eq_false (Nat.not_le.mpr hlarge), Bool.false_or, List.all_eq_true] at hrounds
  rw [Finset.mem_coe, mem_listsOver]
  refine ⟨length_drawBases n drawnRounds source, fun base hbase => mem_passedBases.mpr ?_⟩
  exact ⟨isBase_of_mem_drawBases (by omega) hbase, hrounds base hbase⟩

theorem acceptedLists_eq_empty (hcomposite : ¬ n.Prime) (heven : n % 2 ≠ 1) :
    acceptedLists n = ∅ := by
  rw [Set.eq_empty_iff_forall_notMem]
  rintro bases ⟨source, -, haccepts⟩
  rw [isPrimeDrawing_fst_eq_all, Bool.and_eq_true] at haccepts
  exact heven (odd_and_large_of_isProbablePrime hcomposite haccepts.1).1

theorem four_pow_mul_ncard_acceptedLists_le (hlow : 1 < n) (hcomposite : ¬ n.Prime) :
    4 ^ drawnRounds * (acceptedLists n).ncard ≤ (n - 3) ^ drawnRounds := by
  by_cases hodd : n % 2 = 1
  · have hcount := Set.ncard_le_ncard (acceptedLists_subset hcomposite) (Finset.finite_toSet _)
    rw [Set.ncard_coe_finset, card_listsOver] at hcount
    calc 4 ^ drawnRounds * (acceptedLists n).ncard
        ≤ 4 ^ drawnRounds * (passedBases n).card ^ drawnRounds := Nat.mul_le_mul_left _ hcount
      _ = (4 * (passedBases n).card) ^ drawnRounds := (Nat.mul_pow _ _ _).symm
      _ ≤ (n - 3) ^ drawnRounds :=
        Nat.pow_le_pow_left (four_mul_card_passedBases_le hlow hodd hcomposite) _
  · rw [acceptedLists_eq_empty hcomposite hodd, Set.ncard_empty, Nat.mul_zero]
    exact Nat.zero_le _

/-- An odd composite passes the round of at most a quarter of the bases from 2 to `n - 2`.  The
drawn test may use any list of such bases, one for each round, and its verdict depends on the list
alone.  It accepts a composite with at most the fraction `(1 / 4) ^ 64` of these lists. -/
theorem composites_accepted_rarely {n : Nat} (hlow : 1 < n) (hcomposite : ¬ n.Prime) :
    (n % 2 = 1 → 4 * (passedBases n).card ≤ (Finset.Icc 2 (n - 2)).card) ∧
    (∀ bases, bases ∈ drawnLists n ↔
      bases.length = drawnRounds ∧ ∀ base ∈ bases, IsBase n base) ∧
    (∀ source, (isPrimeDrawing n source).1 = true ↔
      (drawBases n drawnRounds source).1 ∈ acceptedLists n) ∧
    (drawnLists n).ncard = (n - 3) ^ drawnRounds ∧
    ((acceptedLists n).ncard : ℚ) / (drawnLists n).ncard ≤ (1 / 4) ^ drawnRounds := by
  have hlarge : 3 < n := by
    by_contra hsmall
    obtain rfl | rfl : n = 2 ∨ n = 3 := by omega
    · exact hcomposite Nat.prime_two
    · exact hcomposite Nat.prime_three
  refine ⟨fun hodd => ?_, fun bases => mem_drawnLists hlarge, accepts_iff_mem_acceptedLists n,
    ncard_drawnLists hlarge, ?_⟩
  · rw [card_bases]
    exact four_mul_card_passedBases_le hlow hodd hcomposite
  · have hcount := four_pow_mul_ncard_acceptedLists_le hlow hcomposite
    rw [← ncard_drawnLists hlarge] at hcount
    have hpos : 0 < (drawnLists n).ncard := by
      rw [ncard_drawnLists hlarge]
      exact pow_pos (by omega) _
    rw [div_le_iff₀ (by exact_mod_cast hpos), one_div, inv_pow, ← div_eq_inv_mul,
      le_div_iff₀ (by positivity), mul_comm]
    exact_mod_cast hcount

/-- A composite that passes the rounds of all small primes. -/
def pseudoprime : Nat := 318665857834031151167461

/-- The fixed test accepts this composite, and the drawn test would if it drew 2 for each round.
The base 41 shows that it is composite. -/
theorem composites_accepted_rarely_pseudoprime :
    1 < pseudoprime ∧ ¬ pseudoprime.Prime ∧ isProbablePrime pseudoprime = true ∧
      strongRound pseudoprime 41 = false ∧
      4 * (passedBases pseudoprime).card ≤ (Finset.Icc 2 (pseudoprime - 2)).card ∧
      List.replicate drawnRounds 2 ∈ acceptedLists pseudoprime ∧
      ((acceptedLists pseudoprime).ncard : ℚ) / (drawnLists pseudoprime).ncard ≤
        (1 / 4) ^ drawnRounds := by
  have hlow : 1 < pseudoprime := by decide
  have hfactors : 399165290221 * 798330580441 = pseudoprime := rfl
  have hcomposite : ¬ pseudoprime.Prime :=
    Nat.not_prime_of_mul_eq hfactors (by norm_num) (by norm_num)
  have hfixed : isProbablePrime pseudoprime = true := by decide +kernel
  have htwo : strongRound pseudoprime 2 = true := by decide +kernel
  obtain ⟨hquarter, hlists, -, -, hfraction⟩ := composites_accepted_rarely hlow hcomposite
  refine ⟨hlow, hcomposite, hfixed, by decide +kernel, hquarter (by decide), ?_, hfraction⟩
  have hbases : ∀ base ∈ List.replicate drawnRounds 2, IsBase pseudoprime base := by
    intro base hbase
    rw [List.eq_of_mem_replicate hbase]
    exact ⟨by decide, by decide⟩
  obtain ⟨source, hsource⟩ := (hlists _).mpr ⟨List.length_replicate, hbases⟩
  dsimp only at hsource
  refine ⟨source, hsource, ?_⟩
  rw [isPrimeDrawing_fst_eq_all, hfixed, hsource]
  simp [htwo]

end ThreeMove.Primality
