import ThreeMove.Proofs.Composition.Draws
import ThreeMove.Proofs.Group.Primality

/-!
# The bases that are drawn

The drawn rounds go through a list of bases, one draw for each, up to the first that fails.  Every
base of the list is at least 2 and at most `n - 2`, and every list of such bases comes from some
source.  A prime passes the round of each of them, so no source makes the test refuse a prime.
-/

namespace ThreeMove.Primality

variable {n : Nat} {bases : List Nat}

theorem exists_isPrimeDrawing_eq (n : Nat) (source : Source) :
    ∃ drawn, drawn ≤ drawnRounds ∧ isPrimeDrawing n source =
        (isProbablePrime n && (drawBases n drawn source).1.all (strongRound n),
          (drawBases n drawn source).2) ∧
      ∀ base ∈ (drawBases n drawn source).1, IsBase n base := by
  unfold isPrimeDrawing
  cases hpass : isProbablePrime n with
  | false => exact ⟨0, Nat.zero_le _, rfl, nofun⟩
  | true =>
      by_cases hsmall : n ≤ 37
      · exact ⟨0, Nat.zero_le _, by simp [hsmall, drawBases], nofun⟩
      · obtain ⟨drawn, hle, -, heq⟩ := exists_drawRounds_eq n drawnRounds source
        refine ⟨drawn, hle, by simp [hsmall, heq], fun base hmem => ?_⟩
        exact isBase_of_mem_drawBases (by omega) hmem

/-- No base is left out, and none depends on the bases before it. -/
theorem exists_source_drawBases (hbases : ∀ base ∈ bases, IsBase n base) :
    ∃ source, (drawBases n bases.length source).1 = bases := by
  have hbytes : ∃ bytes : Bytes, ∀ source : Source, source.Starts bytes →
      (drawBases n bases.length source).1 = bases := by
    induction bases with
    | nil => exact ⟨[], fun _ _ => rfl⟩
    | cons base bases ih =>
        obtain ⟨hlow, hhigh⟩ := hbases base List.mem_cons_self
        have hlt : base - 2 < n - 3 := by omega
        obtain ⟨front, hfront⟩ := Source.exists_below hlt
        obtain ⟨back, hback⟩ := ih fun other hmem => hbases other (List.mem_cons_of_mem base hmem)
        refine ⟨front ++ back, fun source hstarts => ?_⟩
        obtain ⟨hstart, hrest⟩ := Source.starts_append.mp hstarts
        rw [List.length_cons, drawBases_succ, hfront source hstart, hback _ hrest,
          Nat.sub_add_cancel hlow]
  obtain ⟨bytes, hdraws⟩ := hbytes
  exact ⟨Source.ofBytes bytes, hdraws _ (Source.starts_ofBytes bytes)⟩

/-- A prime passes the fixed test and the round of every base that may be drawn, so it passes the
drawn test on every source, which takes all rounds unless the prime is a small one.  Of any number
the fixed test asks for a small prime, or for no small factor and the rounds of the small primes,
and the drawn test for further rounds; their bases are at least 2 and at most `n - 2`, and any list
of such bases may be drawn.  The round of an odd number looks for one at the power `d` of the base,
where `n - 1 = d * 2 ^ s` with `d` odd, and for minus one at the powers `d * 2 ^ r` with `r < s`. -/
theorem primes_pass (n : Nat) :
    (n.Prime → isProbablePrime n = true ∧ (∀ base, IsBase n base → strongRound n base = true) ∧
      ∀ source, isPrimeDrawing n source =
        (true, if n ≤ 37 then source else (drawBases n drawnRounds source).2)) ∧
    (isProbablePrime n = true ↔
      n ∈ smallPrimes ∨ 2 ≤ n ∧ ∀ p ∈ smallPrimes, ¬ p ∣ n ∧ strongRound n p = true) ∧
    (∀ source, ∃ drawn, drawn ≤ drawnRounds ∧ isPrimeDrawing n source =
        (isProbablePrime n && (drawBases n drawn source).1.all (strongRound n),
          (drawBases n drawn source).2) ∧
      ∀ base ∈ (drawBases n drawn source).1, IsBase n base) ∧
    (∀ bases : List Nat, (∀ base ∈ bases, IsBase n base) →
      ∃ source, (drawBases n bases.length source).1 = bases) ∧
    ∀ base d s, 2 < n → n % 2 = 1 → n - 1 = d * 2 ^ s → d % 2 = 1 →
      (strongRound n base = true ↔
        (base : ZMod n) ^ d = 1 ∨ ∃ r, r < s ∧ (base : ZMod n) ^ (d * 2 ^ r) = -1) := by
  refine ⟨fun hn => ?_, isProbablePrime_iff_rounds, exists_isPrimeDrawing_eq n,
    fun bases => exists_source_drawBases, fun base d s => strongRound_iff⟩
  exact ⟨isProbablePrime_of_prime hn, fun base => strongRound_of_isBase hn,
    isPrimeDrawing_eq_of_prime hn⟩

/-- The prime 65537 is one more than a power of two.  The base 3 comes to minus one only with the
last square that the round looks at. -/
theorem primes_pass_65537 :
    Nat.Prime 65537 ∧ isProbablePrime 65537 = true ∧
      (∀ source, (isPrimeDrawing 65537 source).1 = true) ∧
      IsBase 65537 3 ∧ strongRound 65537 3 = true ∧ reachesMinusOne 65537 14 3 = false ∧
      ∃ source, (drawBases 65537 2 source).1 = [3, 65535] := by
  have hprime : Nat.Prime 65537 := by norm_num
  have hbase : IsBase 65537 3 := ⟨by decide, by decide⟩
  obtain ⟨hpasses, -, -, hdrawn, -⟩ := primes_pass 65537
  obtain ⟨hfixed, hround, hsource⟩ := hpasses hprime
  refine ⟨hprime, hfixed, fun source => ?_, hbase, hround 3 hbase, by decide, ?_⟩
  · rw [hsource]
  · refine hdrawn [3, 65535] ?_
    simp [IsBase]

end ThreeMove.Primality
