import Mathlib.NumberTheory.ArithmeticFunction.Carmichael

/-!
# Powers that are a sign

Let `n` be odd and composite, let `2 * e` divide `n - 1`, and let some unit have minus one as its
power `e`.  Then at most a quarter of the numbers below `n` have one or minus one as their power
`e`.  For a power of a prime `p` there are at most `p - 1` of them.  Otherwise they are a subgroup
of the units with two strictly larger ones above it.  If some unit does not have one as its power
`n - 1`, these are the units that do, and all units.  If there is none, `n` is a Carmichael number,
so it has three coprime factors, and the subgroups ask for a sign modulo two of them and modulo one
of them.
-/

namespace ThreeMove.Primality

variable {n m k l e : Nat}

section Subgroups

variable {G : Type} [Group G] [Finite G] {H K L : Subgroup G}

theorem two_mul_card_le_of_lt (hlt : H < K) : 2 * Nat.card H ≤ Nat.card K := by
  obtain ⟨index, hindex⟩ := Subgroup.card_dvd_of_le hlt.le
  have hpos : 0 < Nat.card K := Nat.card_pos
  have hne : Nat.card K ≠ Nat.card H := fun heq =>
    hlt.ne (Subgroup.eq_of_le_of_card_ge hlt.le heq.le)
  have htwo : 2 ≤ index := by
    rcases index with _ | _ | index
    · omega
    · rw [zero_add, mul_one] at hindex
      exact absurd hindex hne
    · omega
  calc 2 * Nat.card H ≤ index * Nat.card H := Nat.mul_le_mul_right _ htwo
    _ = Nat.card K := by rw [hindex, Nat.mul_comm]

theorem four_mul_card_le_of_lt_of_lt (hHK : H < K) (hKL : K < L) :
    4 * Nat.card H ≤ Nat.card L := by
  have hsmall := two_mul_card_le_of_lt hHK
  have hlarge := two_mul_card_le_of_lt hKL
  omega

end Subgroups

theorem card_units_le (hlow : 1 < n) : Nat.card (ZMod n)ˣ ≤ n - 1 := by
  have : NeZero n := ⟨by omega⟩
  rw [Nat.card_eq_fintype_card, ZMod.card_units_eq_totient]
  have hlt := Nat.totient_lt n hlow
  omega

/-! ## Signs modulo a divisor -/

theorem unitsMap_neg_one (hm : m ∣ n) : ZMod.unitsMap hm (-1) = -1 := by
  apply Units.ext
  simp [ZMod.unitsMap_def]

theorem unitsMap_unitsMap (hmk : m ∣ k) (hk : k ∣ n) (u : (ZMod n)ˣ) :
    ZMod.unitsMap hmk (ZMod.unitsMap hk u) = ZMod.unitsMap (hmk.trans hk) u := by
  rw [← ZMod.unitsMap_comp hmk hk, MonoidHom.comp_apply]

theorem one_ne_neg_one (hlarge : 2 < m) : (1 : (ZMod m)ˣ) ≠ -1 := by
  have : Fact (2 < m) := ⟨hlarge⟩
  intro heq
  have hval : (1 : ZMod m) = -1 := by simpa using congrArg Units.val heq
  exact ZMod.neg_one_ne_one hval.symm

/-- The units modulo `n` whose power `e` is one or minus one modulo a divisor. -/
def signPowers (hm : m ∣ n) (e : Nat) : Subgroup (ZMod n)ˣ where
  carrier := {u | ZMod.unitsMap hm u ^ e = 1 ∨ ZMod.unitsMap hm u ^ e = -1}
  one_mem' := by simp
  mul_mem' := by
    rintro u v (hu | hu) (hv | hv) <;> simp [mul_pow, hu, hv]
  inv_mem' := by
    rintro u (hu | hu) <;> simp [hu]

theorem mem_signPowers {hm : m ∣ n} {u : (ZMod n)ˣ} :
    u ∈ signPowers hm e ↔ ZMod.unitsMap hm u ^ e = 1 ∨ ZMod.unitsMap hm u ^ e = -1 :=
  Iff.rfl

theorem mem_signPowers_self {u : (ZMod n)ˣ} :
    u ∈ signPowers (dvd_refl n) e ↔ u ^ e = 1 ∨ u ^ e = -1 := by
  rw [mem_signPowers, ZMod.unitsMap_self, MonoidHom.id_apply]

theorem signPowers_le (hmk : m ∣ k) (hk : k ∣ n) :
    signPowers hk e ≤ signPowers (hmk.trans hk) e := by
  intro u hu
  rw [mem_signPowers, ← unitsMap_unitsMap hmk hk, ← map_pow]
  rcases hu with hone | hneg
  · exact .inl (by rw [hone, map_one])
  · exact .inr (by rw [hneg, unitsMap_neg_one])

/-! ## Coprime factors -/

def unitResidues (hcop : m.Coprime k) : (ZMod (m * k))ˣ ≃* (ZMod m)ˣ × (ZMod k)ˣ :=
  (Units.mapEquiv (ZMod.chineseRemainder hcop).toMulEquiv).trans MulEquiv.prodUnits

theorem bijective_unitsMap_prod (hcop : m.Coprime k) (hm : m ∣ n) (hk : k ∣ n) (hn : m * k = n) :
    Function.Bijective fun u : (ZMod n)ˣ => (ZMod.unitsMap hm u, ZMod.unitsMap hk u) := by
  subst hn
  have heq : (fun u : (ZMod (m * k))ˣ => (ZMod.unitsMap hm u, ZMod.unitsMap hk u)) =
      unitResidues hcop := by
    funext u
    -- There is only one ring homomorphism from the residues to those modulo a divisor.
    refine Prod.ext (Units.ext ?_) (Units.ext ?_)
    · exact RingHom.congr_fun (Subsingleton.elim (ZMod.castHom hm (ZMod m))
        ((RingHom.fst _ _).comp (ZMod.chineseRemainder hcop).toRingHom)) (u : ZMod (m * k))
    · exact RingHom.congr_fun (Subsingleton.elim (ZMod.castHom hk (ZMod k))
        ((RingHom.snd _ _).comp (ZMod.chineseRemainder hcop).toRingHom)) (u : ZMod (m * k))
  rw [heq]
  exact (unitResidues hcop).bijective

/-- Where a power is minus one, another has different signs modulo the two factors. -/
theorem exists_mixed_signs (hcop : m.Coprime k) (hm : m ∣ n) (hk : k ∣ n) (hn : m * k = n)
    (hneg : ∃ b : (ZMod n)ˣ, b ^ e = -1) :
    ∃ u : (ZMod n)ˣ, ZMod.unitsMap hm u ^ e = -1 ∧ ZMod.unitsMap hk u = 1 := by
  obtain ⟨b, hb⟩ := hneg
  obtain ⟨u, hu⟩ := (bijective_unitsMap_prod hcop hm hk hn).surjective (ZMod.unitsMap hm b, 1)
  obtain ⟨hum, huk⟩ := Prod.mk.inj hu
  refine ⟨u, ?_, huk⟩
  rw [hum, ← map_pow, hb, unitsMap_neg_one]

theorem not_mem_signPowers_of_mixed {u : (ZMod n)ˣ} (hm : m ∣ n) (hk : k ∣ n) (hl : l ∣ n)
    (hmk : m ∣ k) (hlk : l ∣ k) (hmlarge : 2 < m) (hllarge : 2 < l)
    (hum : ZMod.unitsMap hm u ^ e = -1) (hul : ZMod.unitsMap hl u = 1) :
    u ∉ signPowers hk e := by
  intro hmem
  rcases hmem with hone | hneg
  · have hsame : ZMod.unitsMap hm u ^ e = 1 := by
      rw [← unitsMap_unitsMap hmk hk, ← map_pow, hone, map_one]
    exact one_ne_neg_one hmlarge (hsame.symm.trans hum)
  · have hsame : ZMod.unitsMap hl u ^ e = -1 := by
      rw [← unitsMap_unitsMap hlk hk, ← map_pow, hneg, unitsMap_neg_one]
    rw [hul, one_pow] at hsame
    exact one_ne_neg_one hllarge hsame

/-- To have a sign modulo a product is more than to have one modulo a factor. -/
theorem signPowers_mul_lt (hcop : m.Coprime k) (hn : m * k = n) (hlk : l ∣ k) (hml : m * l ∣ n)
    (hmlarge : 2 < m) (hllarge : 2 < l) (hneg : ∃ b : (ZMod n)ˣ, b ^ e = -1) :
    signPowers hml e < signPowers ((Nat.dvd_mul_right m l).trans hml) e := by
  have hm : m ∣ n := Dvd.intro k hn
  have hk : k ∣ n := Dvd.intro_left m hn
  obtain ⟨u, hum, huk⟩ := exists_mixed_signs hcop hm hk hn hneg
  have hul : ZMod.unitsMap (hlk.trans hk) u = 1 := by
    rw [← unitsMap_unitsMap hlk hk, huk, map_one]
  refine lt_of_le_of_ne (signPowers_le (Nat.dvd_mul_right m l) hml) fun heq => ?_
  have hmem : u ∈ signPowers hml e := heq ▸ .inr hum
  exact not_mem_signPowers_of_mixed hm hml (hlk.trans hk) (Nat.dvd_mul_right m l)
    (Nat.dvd_mul_left l m) hmlarge hllarge hum hul hmem

/-- The chain for three coprime factors. -/
theorem four_mul_card_signPowers_le_of_three {a b c : Nat} (hn : a * b * c = n)
    (hab : a.Coprime b) (hac : a.Coprime c) (hbc : b.Coprime c) (ha : 2 < a) (hb : 2 < b)
    (hc : 2 < c) (hneg : ∃ u : (ZMod n)ˣ, u ^ e = -1) :
    4 * Nat.card (signPowers (dvd_refl n) e) ≤ Nat.card (ZMod n)ˣ := by
  subst hn
  have : NeZero (a * b * c) := ⟨by positivity⟩
  have hlarge : 2 < a * b := lt_of_lt_of_le ha (Nat.le_mul_of_pos_right a (by omega))
  have hlower := signPowers_mul_lt (Nat.Coprime.mul_left hac hbc) rfl (dvd_refl c)
    (dvd_refl (a * b * c)) hlarge hc hneg
  have hupper := signPowers_mul_lt (Nat.Coprime.mul_right hab hac) (Nat.mul_assoc a b c).symm
    (Nat.dvd_mul_right b c) (Nat.dvd_mul_right (a * b) c) ha hb hneg
  calc 4 * Nat.card (signPowers (dvd_refl (a * b * c)) e)
      ≤ _ := four_mul_card_le_of_lt_of_lt hlower hupper
    _ ≤ Nat.card (ZMod (a * b * c))ˣ := Subgroup.card_le_card_group _

/-! ## Powers that are one -/

/-- The units modulo `n` whose power `n - 1` is one. -/
def fermatUnits (n : Nat) : Subgroup (ZMod n)ˣ :=
  (powMonoidHom (n - 1)).ker

theorem mem_fermatUnits {u : (ZMod n)ˣ} : u ∈ fermatUnits n ↔ u ^ (n - 1) = 1 :=
  MonoidHom.mem_ker

theorem pow_eq_one_of_sign {M : Type} [Monoid M] [HasDistribNeg M] {x : M} {i : Nat}
    (hi : 2 * e ∣ i) (hx : x ^ e = 1 ∨ x ^ e = -1) : x ^ i = 1 := by
  obtain ⟨times, rfl⟩ := hi
  have hsquare : x ^ (2 * e) = 1 := by
    rw [Nat.mul_comm, pow_mul]
    rcases hx with hone | hneg
    · rw [hone, one_pow]
    · rw [hneg, neg_one_sq]
  rw [pow_mul, hsquare, one_pow]

theorem signPowers_le_fermatUnits (he : 2 * e ∣ n - 1) :
    signPowers (dvd_refl n) e ≤ fermatUnits n := by
  intro u hu
  exact mem_fermatUnits.mpr (pow_eq_one_of_sign he (mem_signPowers_self.mp hu))

/-- The chain for two coprime factors.  Mixed signs are squared away. -/
theorem four_mul_card_signPowers_le_of_two (hcop : m.Coprime k) (hn : m * k = n) (hm : 2 < m)
    (hk : 2 < k) (he : 2 * e ∣ n - 1) (hneg : ∃ u : (ZMod n)ˣ, u ^ e = -1)
    (htop : fermatUnits n ≠ ⊤) :
    4 * Nat.card (signPowers (dvd_refl n) e) ≤ Nat.card (ZMod n)ˣ := by
  have hmn : m ∣ n := Dvd.intro k hn
  have hkn : k ∣ n := Dvd.intro_left m hn
  have : NeZero n := ⟨by rw [← hn]; positivity⟩
  obtain ⟨u, hum, huk⟩ := exists_mixed_signs hcop hmn hkn hn hneg
  have hfermat : u ∈ fermatUnits n := by
    rw [mem_fermatUnits]
    apply (bijective_unitsMap_prod hcop hmn hkn hn).injective
    simp only [map_pow, map_one, huk, one_pow, pow_eq_one_of_sign he (.inr hum)]
  have hlower : signPowers (dvd_refl n) e < fermatUnits n := by
    refine lt_of_le_of_ne (signPowers_le_fermatUnits he) fun heq => ?_
    exact not_mem_signPowers_of_mixed hmn (dvd_refl n) hkn hmn hkn hm hk hum huk (heq ▸ hfermat)
  calc 4 * Nat.card (signPowers (dvd_refl n) e) ≤ Nat.card (⊤ : Subgroup (ZMod n)ˣ) :=
        four_mul_card_le_of_lt_of_lt hlower (lt_top_iff_ne_top.mpr htop)
    _ = Nat.card (ZMod n)ˣ := Subgroup.card_top

/-! ## Powers of a prime -/

theorem coprime_sub_one_of_dvd (hpos : 0 < n) (hm : m ∣ n) : m.Coprime (n - 1) :=
  ((Nat.coprime_self_sub_right hpos).mpr n.coprime_one_right).coprime_dvd_left hm

/-- The units are cyclic, and of their order only `p - 1` can share a factor with `n - 1`. -/
theorem card_fermatUnits_prime_pow {p j : Nat} (hp : p.Prime) (hp2 : p ≠ 2) (hj : 0 < j) :
    Nat.card (fermatUnits (p ^ j)) ≤ p - 1 := by
  have : NeZero (p ^ j) := ⟨pow_ne_zero j hp.ne_zero⟩
  have : IsCyclic (ZMod (p ^ j))ˣ := ZMod.isCyclic_units_of_prime_pow p hp hp2 j
  have hcop : (p ^ (j - 1)).Coprime (p ^ j - 1) :=
    coprime_sub_one_of_dvd (pow_pos hp.pos j) (pow_dvd_pow p (Nat.sub_le j 1))
  rw [fermatUnits, IsCyclic.card_powMonoidHom_ker, Nat.card_eq_fintype_card,
    ZMod.card_units_eq_totient, Nat.totient_prime_pow hp hj, hcop.gcd_mul_left_cancel]
  exact Nat.gcd_le_left _ (Nat.sub_pos_of_lt hp.one_lt)

theorem four_mul_card_signPowers_le_of_prime_pow {p j : Nat} (hp : p.Prime) (hp2 : p ≠ 2)
    (hj : 2 ≤ j) (he : 2 * e ∣ p ^ j - 1) :
    4 * Nat.card (signPowers (dvd_refl (p ^ j)) e) ≤ p ^ j - 1 := by
  have : NeZero (p ^ j) := ⟨pow_ne_zero j hp.ne_zero⟩
  have hfour : 4 ≤ p + 1 := by
    have htwo := hp.two_le
    omega
  have hcard : Nat.card (signPowers (dvd_refl (p ^ j)) e) ≤ p - 1 :=
    (Subgroup.card_le_of_le (signPowers_le_fermatUnits he)).trans
      (card_fermatUnits_prime_pow hp hp2 (by omega))
  calc 4 * Nat.card (signPowers (dvd_refl (p ^ j)) e)
      ≤ (p + 1) * (p - 1) := Nat.mul_le_mul hfour hcard
    _ = p ^ 2 - 1 ^ 2 := (Nat.sq_sub_sq p 1).symm
    _ ≤ p ^ j - 1 := Nat.sub_le_sub_right (Nat.pow_le_pow_right hp.pos hj) 1

/-! ## Carmichael numbers -/

theorem carmichael_dvd_of_fermatUnits_eq_top (hpos : 0 < n) (htop : fermatUnits n = ⊤) :
    ArithmeticFunction.carmichael n ∣ n - 1 := by
  rw [ArithmeticFunction.carmichael_eq_exponent hpos.ne',
    Monoid.exponent_dvd_iff_forall_pow_eq_one]
  intro u
  rw [← mem_fermatUnits, htop]
  exact Subgroup.mem_top u

/-- A Carmichael number is free of squares, and `p - 1` divides `n - 1` for its primes. -/
theorem eq_one_and_sub_one_dvd_of_carmichael {p j : Nat} (hn : 0 < n)
    (hcarmichael : ArithmeticFunction.carmichael n ∣ n - 1) (hp : p.Prime) (hp2 : p ≠ 2)
    (hj : 0 < j) (hdvd : p ^ j ∣ n) : j = 1 ∧ p - 1 ∣ n - 1 := by
  have htotient : p ^ (j - 1) * (p - 1) ∣ n - 1 := by
    rw [← Nat.totient_prime_pow hp hj, ← ArithmeticFunction.carmichael_pow_of_prime_ne_two j hp hp2]
    exact (ArithmeticFunction.carmichael_dvd hdvd).trans hcarmichael
  refine ⟨?_, (Nat.dvd_mul_left _ _).trans htotient⟩
  by_contra hne
  have hpn : p ∣ n := (dvd_pow_self p hj.ne').trans hdvd
  have hpow : p ∣ n - 1 :=
    ((dvd_pow_self p (by omega : j - 1 ≠ 0)).trans (Nat.dvd_mul_right _ _)).trans htotient
  exact hp.one_lt.ne' (Nat.eq_one_of_dvd_coprimes (coprime_sub_one_of_dvd hn hpn) dvd_rfl hpow)

theorem sub_one_dvd_sub_one_of_dvd_mul {p q : Nat} (hp : 0 < p) (hq : 0 < q)
    (hdvd : p - 1 ∣ p * q - 1) : p - 1 ∣ q - 1 := by
  have hsplit : p * q - 1 = (p - 1) * q + (q - 1) := by
    obtain ⟨p, rfl⟩ := Nat.exists_eq_add_one_of_ne_zero hp.ne'
    rw [Nat.add_sub_cancel, Nat.succ_mul]
    omega
  rwa [hsplit, Nat.dvd_add_right (Nat.dvd_mul_right _ _)] at hdvd

/-- A Carmichael number has more than two primes. -/
theorem not_carmichael_of_two_primes {p q i j : Nat} (hp : p.Prime) (hq : q.Prime) (hp2 : p ≠ 2)
    (hq2 : q ≠ 2) (hne : p ≠ q) (hi : 0 < i) (hj : 0 < j) :
    ¬ ArithmeticFunction.carmichael (p ^ i * q ^ j) ∣ p ^ i * q ^ j - 1 := by
  intro hcarmichael
  have hpos : 0 < p ^ i * q ^ j := Nat.mul_pos (pow_pos hp.pos i) (pow_pos hq.pos j)
  obtain ⟨rfl, hpdvd⟩ := eq_one_and_sub_one_dvd_of_carmichael hpos hcarmichael hp hp2 hi
    (Nat.dvd_mul_right _ _)
  obtain ⟨rfl, hqdvd⟩ := eq_one_and_sub_one_dvd_of_carmichael hpos hcarmichael hq hq2 hj
    (Nat.dvd_mul_left _ _)
  rw [pow_one, pow_one] at hpdvd hqdvd
  rw [Nat.mul_comm] at hqdvd
  have heq : p - 1 = q - 1 := Nat.dvd_antisymm
    (sub_one_dvd_sub_one_of_dvd_mul hp.pos hq.pos hpdvd)
    (sub_one_dvd_sub_one_of_dvd_mul hq.pos hp.pos hqdvd)
  have hplow := hp.two_le
  have hqlow := hq.two_le
  omega

/-! ## Odd composites -/

theorem two_lt_of_dvd (hodd : n % 2 = 1) (hm : m ∣ n) (hne : m ≠ 1) : 2 < m := by
  have hmodd := Nat.odd_iff.mp ((Nat.odd_iff.mpr hodd).of_dvd_nat hm)
  omega

theorem two_lt_of_pow_dvd {p j : Nat} (hodd : n % 2 = 1) (hp : p.Prime) (hj : 0 < j)
    (hdvd : p ^ j ∣ n) : 2 < p :=
  two_lt_of_dvd hodd ((dvd_pow_self p hj.ne').trans hdvd) hp.ne_one

theorem exists_prime_pow_mul (hzero : n ≠ 0) (hone : n ≠ 1) :
    ∃ p j m, p.Prime ∧ 0 < j ∧ ¬ p ∣ m ∧ p ^ j * m = n := by
  have hp := Nat.minFac_prime hone
  obtain ⟨j, m, hndvd, hn⟩ := Nat.exists_eq_pow_mul_and_not_dvd hzero n.minFac hp.ne_one
  refine ⟨n.minFac, j, m, hp, Nat.pos_of_ne_zero ?_, hndvd, hn.symm⟩
  rintro rfl
  rw [pow_zero, one_mul] at hn
  exact hndvd (hn ▸ n.minFac_dvd)

theorem exists_coprime_mul_of_carmichael {p j : Nat} (hodd : n % 2 = 1) (hn : p ^ j * m = n)
    (hp : p.Prime) (hj : 0 < j) (hndvd : ¬ p ∣ m) (hm : m ≠ 1)
    (hcarmichael : ArithmeticFunction.carmichael n ∣ n - 1) :
    ∃ b c, b.Coprime c ∧ 2 < b ∧ 2 < c ∧ b * c = m := by
  have hmzero : m ≠ 0 := by
    rintro rfl
    exact hndvd (dvd_zero p)
  obtain ⟨q, i, r, hq, hi, hndvd', rfl⟩ := exists_prime_pow_mul hmzero hm
  have hmn : q ^ i * r ∣ n := Dvd.intro_left _ hn
  have hqn : q ^ i ∣ n := (Nat.dvd_mul_right _ r).trans hmn
  have hr : r ≠ 1 := by
    rintro rfl
    rw [Nat.mul_one] at hn hndvd
    have hne : p ≠ q := fun heq => hndvd (heq ▸ dvd_pow_self q hi.ne')
    have hp2 := two_lt_of_pow_dvd hodd hp hj (Dvd.intro _ hn)
    have hq2 := two_lt_of_pow_dvd hodd hq hi hqn
    exact not_carmichael_of_two_primes hp hq hp2.ne' hq2.ne' hne hj hi (hn ▸ hcarmichael)
  exact ⟨q ^ i, r, Nat.Coprime.pow_left i (hq.coprime_iff_not_dvd.mpr hndvd'),
    two_lt_of_dvd hodd hqn (Nat.one_lt_pow hi.ne' hq.one_lt).ne',
    two_lt_of_dvd hodd ((Nat.dvd_mul_left r _).trans hmn) hr, rfl⟩

theorem four_mul_card_signPowers_le_of_prime_pow_mul {p j : Nat} (hodd : n % 2 = 1)
    (hn : p ^ j * m = n) (hp : p.Prime) (hj : 0 < j) (hndvd : ¬ p ∣ m) (hm : m ≠ 1)
    (he : 2 * e ∣ n - 1) (hneg : ∃ u : (ZMod n)ˣ, u ^ e = -1) :
    4 * Nat.card (signPowers (dvd_refl n) e) ≤ Nat.card (ZMod n)ˣ := by
  have hpow : 2 < p ^ j :=
    two_lt_of_dvd hodd (Dvd.intro m hn) (Nat.one_lt_pow hj.ne' hp.one_lt).ne'
  have hcop : (p ^ j).Coprime m := Nat.Coprime.pow_left j (hp.coprime_iff_not_dvd.mpr hndvd)
  by_cases htop : fermatUnits n = ⊤
  · have hcarmichael := carmichael_dvd_of_fermatUnits_eq_top (by omega) htop
    obtain ⟨b, c, hbc, hb, hc, rfl⟩ :=
      exists_coprime_mul_of_carmichael hodd hn hp hj hndvd hm hcarmichael
    obtain ⟨hpb, hpc⟩ := Nat.coprime_mul_iff_right.mp hcop
    exact four_mul_card_signPowers_le_of_three (by rw [Nat.mul_assoc, hn]) hpb hpc hbc hpow hb hc
      hneg
  · have hmlarge : 2 < m := two_lt_of_dvd hodd (Dvd.intro_left _ hn) hm
    exact four_mul_card_signPowers_le_of_two hcop hn hpow hmlarge he hneg htop

/-- At most a quarter of the numbers below an odd composite have a sign as their power `e`. -/
theorem four_mul_card_signPowers_le (hlow : 1 < n) (hodd : n % 2 = 1) (hcomposite : ¬ n.Prime)
    (he : 2 * e ∣ n - 1) (hneg : ∃ u : (ZMod n)ˣ, u ^ e = -1) :
    4 * Nat.card (signPowers (dvd_refl n) e) ≤ n - 1 := by
  obtain ⟨p, j, m, hp, hj, hndvd, hn⟩ := exists_prime_pow_mul (by omega : n ≠ 0) hlow.ne'
  by_cases hm : m = 1
  · subst hm
    rw [Nat.mul_one] at hn
    subst hn
    have htwo : 2 ≤ j := by
      by_contra hsmall
      obtain rfl : j = 1 := by omega
      rw [pow_one] at hcomposite
      exact hcomposite hp
    have hp2 := two_lt_of_pow_dvd hodd hp hj dvd_rfl
    exact four_mul_card_signPowers_le_of_prime_pow hp hp2.ne' htwo he
  · exact (four_mul_card_signPowers_le_of_prime_pow_mul hodd hn hp hj hndvd hm he hneg).trans
      (card_units_le hlow)

end ThreeMove.Primality
