import Mathlib.GroupTheory.OrderOfElement
import Mathlib.Algebra.Field.ZMod
import ThreeMove.Proofs.Parameters
import ThreeMove.Proofs.Composition.Verdict

/-!
# Special soundness

Whoever can answer two challenges to one first message knows a logarithm for every statement:
it is read off the two answers.  There are fewer challenges than exponents, so the difference
of two challenges has an inverse modulo each of the orders.
-/

namespace ThreeMove

/-- The exponent that the answers `z` and `z'` to the challenges `e` and `e'` give away. -/
def extractExponent (order : Nat) (e e' : Challenge) (z z' : Nat) : Nat :=
  (((z : ZMod order) - z') * ((e : ZMod order) - e')⁻¹).val

theorem pow_extractExponent {G : Type} [CommGroup G] {q : Nat} (hq : q.Prime) {g h a : G}
    (hg : g ^ q = 1) (hh : h ^ q = 1) {e e' z z' : Nat} (he : e < q) (he' : e' < q)
    (hne : e ≠ e') (hz : g ^ z = a * h ^ e) (hz' : g ^ z' = a * h ^ e') :
    g ^ extractExponent q e e' z z' = h := by
  have : Fact q.Prime := ⟨hq⟩
  have hdiff : (e : ZMod q) - e' ≠ 0 := by
    rw [sub_ne_zero, Ne, ZMod.natCast_eq_natCast_iff', Nat.mod_eq_of_lt he, Nat.mod_eq_of_lt he']
    exact hne
  generalize hw : extractExponent q e e' z z' = w
  -- the exponent times the difference of the challenges is the difference of the answers
  have hmul : (q : Int) ∣ (w : Int) * (e - e') - (z - z') := by
    rw [← ZMod.intCast_zmod_eq_zero_iff_dvd]
    push_cast
    rw [← hw, extractExponent, ZMod.natCast_val, ZMod.cast_id, mul_assoc, inv_mul_cancel₀ hdiff,
      mul_one, sub_self]
  have hquotient : g ^ ((z : Int) - z') = h ^ ((e : Int) - e') := by
    rw [zpow_sub, zpow_sub, zpow_natCast, zpow_natCast, zpow_natCast, zpow_natCast, hz, hz']
    rw [mul_inv, mul_mul_mul_comm, mul_inv_cancel, one_mul]
  have hpow : (g ^ w * h⁻¹) ^ ((e : Int) - e') = 1 := by
    have hone : g ^ ((w : Int) * (e - e') - (z - z')) = 1 := by
      rw [← orderOf_dvd_iff_zpow_eq_one]
      exact (Int.natCast_dvd_natCast.mpr (orderOf_dvd_of_pow_eq_one hg)).trans hmul
    rw [zpow_sub, zpow_mul, zpow_natCast, hquotient] at hone
    rw [mul_zpow, inv_zpow]
    exact hone
  have horder : (g ^ w * h⁻¹) ^ q = 1 := by
    rw [mul_pow, inv_pow, hh, ← pow_mul, Nat.mul_comm, pow_mul, hg, one_pow, inv_one, mul_one]
  have hone : g ^ w * h⁻¹ = 1 := by
    by_contra hother
    have hdvd := orderOf_dvd_iff_zpow_eq_one.mpr hpow
    rw [orderOf_eq_prime horder hother] at hdvd
    have hsub := Int.eq_zero_of_abs_lt_dvd hdvd (by rw [abs_lt]; omega)
    omega
  exact mul_inv_eq_one.mp hone

namespace View

variable {E : Type} {t : Nat}

/-- Two answers to one first message give the logarithm of the element away. -/
theorem pow_extractExponent_of_holds {params : Parameters E t} {h : E} {first : Bytes}
    {z z' : Nat} (laws : params.group.Lawful) {e e' : Challenge} (he : e < 2 ^ t)
    (he' : e' < 2 ^ t) (hne : e ≠ e') (hholds : Holds e ⟨params, h, first, z⟩)
    (hholds' : Holds e' ⟨params, h, first, z'⟩) :
    params.group.pow params.group.generator (extractExponent params.group.order e e' z z') = h := by
  obtain ⟨hh, a, hdecode, ha, hz⟩ := hholds
  obtain ⟨_, a', hdecode', _, hz'⟩ := hholds'
  dsimp only at *
  rw [hdecode] at hdecode'
  cases hdecode'
  have hcount := params.two_pow_lt_order
  let _ := laws.commGroup
  let G : params.group.Member := ⟨params.group.generator, laws.isMember_generator⟩
  let H : params.group.Member := ⟨h, hh⟩
  let A : params.group.Member := ⟨a, ha⟩
  have hlift : ∀ n (f : Challenge), params.group.pow params.group.generator n =
      params.group.mul a (params.group.pow h f) → G ^ n = A * H ^ f := by
    intro n f heq
    apply Subtype.ext
    rw [laws.coe_pow, heq, ← laws.coe_pow H]
    rfl
  have hextract := pow_extractExponent laws.prime_order (laws.member_pow_order G)
    (laws.member_pow_order H) (Nat.lt_trans he hcount) (Nat.lt_trans he' hcount) hne
    (hlift z e hz) (hlift z' e' hz')
  rw [← laws.coe_pow G, hextract]

end View

namespace Composition

variable {E : Type} {t : Nat} {σ ν : Type}

mutual

/-- The prover's input that the answers `z` and `z'` to one first message give away: at each
statement the element of the input with the extracted exponent. -/
def extract (e e' : Challenge) :
    Composition E t σ ν → CommonInput E → Message → Message → ProverInput E
  | .one params _, .one h, .integer z _, .integer z' _ =>
      .one ⟨h, extractExponent params.group.order e e' z z'⟩
  | .all _ _ parts, .all inputs, .tuple seconds, .tuple seconds' =>
      .all (extractAll e e' parts inputs seconds seconds')
  | _, _, _, _ => .all []

def extractAll (e e' : Challenge) : List (Composition E t σ ν) → List (CommonInput E) →
    List Message → List Message → List (ProverInput E)
  | part :: parts, input :: inputs, z :: seconds, z' :: seconds' =>
      extract e e' part input z z' :: extractAll e e' parts inputs seconds seconds'
  | _, _, _, _ => []

end

def IsWitness (params : Parameters E t) (item : Witnessed E) : Prop :=
  params.group.pow params.group.generator item.logarithm = item.element

variable {e e' : Challenge}

mutual

theorem isWitness_extract (he : e < 2 ^ t) (he' : e' < 2 ^ t) (hne : e ≠ e') :
    ∀ {c : Composition E t σ ν} {input : CommonInput E} {a z z' : Message}
      {vs vs' : List (View E t)}, c.Lawful →
      c.views input a z = some vs → c.views input a z' = some vs' →
      (∀ view ∈ vs, view.Holds e) → (∀ view ∈ vs', view.Holds e') →
      (c.extract e e' input z z').common = input ∧
        c.AtEach (fun params _ item => IsWitness params item) (c.extract e e' input z z')
  | .one params _, .one h, .element a, .integer z _, .integer z' _, vs, vs', laws, hviews,
      hviews', hholds, hholds' => by
      cases hviews
      cases hviews'
      have hhere : View.Holds e ⟨params, h, a, z⟩ := hholds _ (List.mem_singleton.mpr rfl)
      have hhere' : View.Holds e' ⟨params, h, a, z'⟩ := hholds' _ (List.mem_singleton.mpr rfl)
      have lawful := laws params.group (List.mem_singleton.mpr rfl)
      exact ⟨rfl, View.pow_extractExponent_of_holds lawful he he' hne hhere hhere'⟩
  | .all _ _ _, .all _, .tuple _, .tuple _, .tuple _, vs, vs', laws, hviews, hviews', hholds,
      hholds' => by
      obtain ⟨hcommon, hwitness⟩ := isWitness_extractAll he he' hne
        (fun group hgroup => laws group (List.mem_cons_of_mem _ hgroup)) hviews hviews' hholds
        hholds'
      exact ⟨congrArg Input.all hcommon, hwitness⟩

theorem isWitness_extractAll (he : e < 2 ^ t) (he' : e' < 2 ^ t) (hne : e ≠ e') :
    ∀ {parts : List (Composition E t σ ν)} {inputs : List (CommonInput E)}
      {firsts seconds seconds' : List Message} {vs vs' : List (View E t)},
      (∀ group ∈ groupsAll parts, group.Lawful) →
      viewsAll parts inputs firsts seconds = some vs →
      viewsAll parts inputs firsts seconds' = some vs' →
      (∀ view ∈ vs, view.Holds e) → (∀ view ∈ vs', view.Holds e') →
      Input.mapAll Witnessed.element (extractAll e e' parts inputs seconds seconds') = inputs ∧
        AtEachAll (fun params _ item => IsWitness params item) parts
          (extractAll e e' parts inputs seconds seconds')
  | [], [], [], [], [], _, _, _, _, _, _, _ => ⟨rfl, trivial⟩
  | _ :: _, _ :: _, _ :: _, _ :: _, _ :: _, vs, vs', laws, hviews, hviews', hholds, hholds' => by
      obtain ⟨here, others, hhere, hothers, rfl⟩ := viewsAll_cons_eq_some_iff.mp hviews
      obtain ⟨here', others', hhere', hothers', rfl⟩ := viewsAll_cons_eq_some_iff.mp hviews'
      obtain ⟨hcommon, hwitness⟩ := isWitness_extract he he' hne
        (fun group hgroup => laws group (List.mem_append_left _ hgroup)) hhere hhere'
        (fun view hview => hholds view (List.mem_append_left _ hview))
        (fun view hview => hholds' view (List.mem_append_left _ hview))
      obtain ⟨hcommons, hwitnesses⟩ := isWitness_extractAll he he' hne
        (fun group hgroup => laws group (List.mem_append_right _ hgroup)) hothers hothers'
        (fun view hview => hholds view (List.mem_append_right _ hview))
        (fun view hview => hholds' view (List.mem_append_right _ hview))
      exact ⟨congrArg₂ List.cons hcommon hcommons, hwitness, hwitnesses⟩

end

end Composition

namespace Verifier

open ThreeMove.Composition

variable {E : Type} {t : Nat} [DecidableEq E]

/-- Two accepted transcripts with the same first message and different challenges give a
logarithm for every statement. -/
theorem special_soundness {verifier : Verifier E t} (laws : verifier.Lawful)
    {input : CommonInput E} {a z z' : Message} {e e' : Challenge} (he : e < 2 ^ t)
    (he' : e' < 2 ^ t) (hne : e ≠ e')
    (haccepts : (verifier.setChallenge e).verify input a z = .ok true)
    (haccepts' : (verifier.setChallenge e').verify input a z' = .ok true) :
    (verifier.extract e e' input z z').common = input ∧
      verifier.AtEach (fun params _ item => IsWitness params item)
        (verifier.extract e e' input z z') := by
  obtain ⟨vs, hviews, hholds⟩ := (verify_eq_true_iff e laws).mp haccepts
  obtain ⟨vs', hviews', hholds'⟩ := (verify_eq_true_iff e' laws).mp haccepts'
  exact isWitness_extract he he' hne laws hviews hviews' hholds hholds'

theorem special_soundness_pairModulo23 :
    let input : CommonInput Nat := .all [.one 18, .one 12]
    let z := Message.tuple [.integer 5 1, .integer 1 1]
    let z' := Message.tuple [.integer 9 1, .integer 4 1]
    ((pairModulo23 none none : Verifier Nat 3).extract 1 6 input z z').common = input ∧
      (pairModulo23 none none : Verifier Nat 3).AtEach
        (fun params _ item => IsWitness params item)
        ((pairModulo23 none none : Verifier Nat 3).extract 1 6 input z z') :=
  special_soundness (lawful_pairModulo23 none none) (a := .tuple [.element [16], .element [8]])
    (by decide) (by decide) (by decide) rfl rfl

end Verifier

end ThreeMove
