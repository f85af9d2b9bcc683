import ThreeMove.Proofs.Composition.Completeness

/-!
# Provers with any logarithms

A prover answers with whatever logarithms its input names.  The challenge zero asks for none of
them, and every other challenge is answered rightly only with a logarithm of each element.  So a
wrong logarithm leaves a prover with one challenge that it survives.
-/

namespace ThreeMove

open ThreeMove.Composition

variable {E : Type} {t : Nat}

def IsMember (params : Parameters E t) (item : Witnessed E) : Prop :=
  params.group.isMember item.element = true

theorem PrimeGroup.Lawful.add_mul_modEq_iff {group : PrimeGroup E} (laws : group.Lawful)
    {e : Challenge} (he : e < group.order) {n w k : Nat} :
    n + e * w ≡ n + e * k [MOD group.order] ↔ e = 0 ∨ w ≡ k [MOD group.order] := by
  constructor
  · intro hmod
    rcases Nat.eq_zero_or_pos e with hzero | hpos
    · exact .inl hzero
    · have hprime : group.order.Coprime e := laws.prime_order.coprime_iff_not_dvd.mpr
        fun hdvd => Nat.not_le_of_lt he (Nat.le_of_dvd hpos hdvd)
      exact .inr (Nat.ModEq.cancel_left_of_coprime hprime (Nat.ModEq.add_left_cancel' n hmod))
  · rintro (rfl | hmod)
    · rw [Nat.zero_mul, Nat.zero_mul]
    · exact (hmod.mul_left e).add_left n

namespace Begun

theorem holds_view_iff {params : Parameters E t} (laws : params.group.Lawful) {pending : Pending}
    {item : Witnessed E} (hcarries : pending.logarithm = item.logarithm) {e : Challenge}
    (he : e < 2 ^ t) :
    (view e params pending item).Holds e ↔
      IsMember params item ∧ (e = 0 ∨ IsWitness params item) := by
  obtain ⟨element, logarithm⟩ := item
  cases hcarries
  have hmember : (view e params pending ⟨element, pending.logarithm⟩).Holds e →
      IsMember params ⟨element, pending.logarithm⟩ := fun hholds => hholds.1
  rw [← and_iff_right_of_imp hmember]
  refine and_congr_right fun hmember => ?_
  obtain ⟨k, rfl⟩ := laws.exists_pow_generator hmember
  have hmod := Nat.mod_modEq (pending.nonce + e * pending.logarithm) params.group.order
  calc (view e params pending _).Holds e
    _ ↔ pending.nonce + e * pending.logarithm ≡ pending.nonce + e * k [MOD params.group.order] :=
      (View.holds_pow_iff laws).trans ⟨hmod.symm.trans, hmod.trans⟩
    _ ↔ e = 0 ∨ pending.logarithm ≡ k [MOD params.group.order] :=
      laws.add_mul_modEq_iff (Challenge.lt_order params he)
    _ ↔ e = 0 ∨ IsWitness params
        ⟨params.group.pow params.group.generator k, pending.logarithm⟩ :=
      or_congr_right laws.pow_generator_eq_iff.symm

theorem verify_answer_iff [DecidableEq E] {begun : Begun E t} {verifier : Verifier E t}
    {input : ProverInput E} {e : Challenge} (laws : verifier.Lawful)
    (hsame : begun.statements = verifier.statements) (hcarries : begun.Carries input)
    (he : e < 2 ^ t) :
    (verifier.setChallenge e).verify input.common begun.firstMessage (begun.answer e) = .ok true ↔
      begun.AtEach (fun params _ item => IsMember params item) input ∧
        (e = 0 ∨ begun.AtEach (fun params _ item => IsWitness params item) input) := by
  obtain ⟨vs, hviews⟩ := begun.views_answer e hcarries.fits
  have hlaws := lawful_of_statements hsame.symm laws
  rw [Verifier.verify_eq_true_of_views e laws hsame hviews, begun.holds_views_iff e hviews]
  constructor
  · intro hholds
    have heach : begun.AtEach
        (fun params _ item => IsMember params item ∧ (e = 0 ∨ IsWitness params item)) input :=
      (hholds.and hcarries).imp
        fun _ _ _ hmem hitem => (holds_view_iff (hlaws _ hmem) hitem.2 he).mp hitem.1
    refine ⟨heach.imp fun _ _ _ _ hitem => hitem.1, ?_⟩
    rcases eq_or_ne e 0 with hzero | hne
    · exact .inl hzero
    · exact .inr (heach.imp fun _ _ _ _ hitem => hitem.2.resolve_left hne)
  · rintro ⟨hmember, hcase⟩
    have heach : begun.AtEach
        (fun params _ item => IsMember params item ∧ (e = 0 ∨ IsWitness params item)) input := by
      rcases hcase with hzero | hwitness
      · exact hmember.imp fun _ _ _ _ hitem => ⟨hitem, .inl hzero⟩
      · exact (hmember.and hwitness).imp fun _ _ _ _ hitem => ⟨hitem.1, .inr hitem.2⟩
    exact (heach.and hcarries).imp
      fun _ _ _ hmem hitem => (holds_view_iff (hlaws _ hmem) hitem.2 he).mpr hitem.1

end Begun

variable [DecidableEq E] {verifier : Verifier E t} {prover : Prover E t} {input : ProverInput E}

/-- A prover is accepted exactly if all elements are members and the challenge is zero or every
logarithm is right.  With a wrong one, zero is the only challenge that it survives, whatever is
drawn. -/
theorem transcript_accepted_iff (laws : verifier.Lawful)
    (hsame : prover.statements = verifier.statements) (hfits : prover.Fits input) :
    let members := prover.AtEach (fun params _ item => IsMember params item) input
    let witnesses := prover.AtEach (fun params _ item => IsWitness params item) input
    (∀ (e : Challenge) (source : Source), e < 2 ^ t →
      ∃ accepted, (transcript verifier prover input e source).1 = .ok accepted ∧
        (accepted = true ↔ members ∧ (e = 0 ∨ witnesses))) ∧
      (members → ¬ witnesses → ∀ source : Challenge → Source,
        {e | e < 2 ^ t ∧ (transcript verifier prover input e (source e)).1 = .ok true} = {0}) := by
  intro members witnesses
  have hexact : ∀ (e : Challenge) (source : Source), e < 2 ^ t →
      ∃ accepted, (transcript verifier prover input e source).1 = .ok accepted ∧
        (accepted = true ↔ members ∧ (e = 0 ∨ witnesses)) := by
    intro e source he
    obtain ⟨begun, _, _, _, accepted, transcribed⟩ := exists_transcribed laws hsame hfits he source
    have hiff := Begun.verify_answer_iff laws (transcribed.statements.trans hsame)
      transcribed.carries he
    rw [transcribed.verify_eq, Except.ok.injEq] at hiff
    have hbegun := transcribed.statements
    refine ⟨accepted, congrArg Prod.fst transcribed.transcript_eq, hiff.trans (and_congr ?_ ?_)⟩
    · exact ⟨atEach_of_statements hbegun, atEach_of_statements hbegun.symm⟩
    · exact or_congr_right ⟨atEach_of_statements hbegun, atEach_of_statements hbegun.symm⟩
  refine ⟨hexact, fun hmembers hwrong source => Set.ext fun e => ⟨?_, ?_⟩⟩
  · rintro ⟨he, haccepted⟩
    obtain ⟨accepted, hresult, hiff⟩ := hexact e (source e) he
    rw [hresult] at haccepted
    exact (hiff.mp (Except.ok.inj haccepted)).2.resolve_right hwrong
  · rintro rfl
    obtain ⟨accepted, hresult, hiff⟩ := hexact 0 (source 0) (Nat.two_pow_pos t)
    refine ⟨Nat.two_pow_pos t, ?_⟩
    rw [hresult, hiff.mpr ⟨hmembers, .inl rfl⟩]

/-- The second logarithm is 5, and 4 is claimed. -/
theorem transcript_accepted_pairModulo23 :
    let prover : Prover Nat 3 := pairModulo23 none ()
    let verifier : Verifier Nat 3 := pairModulo23 none none
    let input : ProverInput Nat := .all [.one ⟨18, 3⟩, .one ⟨12, 4⟩]
    ∀ source : Challenge → Source,
      {e | e < 2 ^ 3 ∧ (transcript verifier prover input e (source e)).1 = .ok true} = {0} := by
  intro prover verifier input
  have hsame : prover.statements = verifier.statements := rfl
  have hfits : prover.Fits input := ⟨trivial, trivial, trivial⟩
  have hmembers : prover.AtEach (fun params _ item => IsMember params item) input :=
    ⟨rfl, rfl, trivial⟩
  have hwrong : ¬ prover.AtEach (fun params _ item => IsWitness params item) input := by
    rintro ⟨-, hwitness, -⟩
    exact absurd hwitness (by decide : ¬ (SafePrime.modulo23.group.pow 4 4 = 12))
  exact (transcript_accepted_iff (lawful_pairModulo23 none none) hsame hfits).2 hmembers hwrong

end ThreeMove
