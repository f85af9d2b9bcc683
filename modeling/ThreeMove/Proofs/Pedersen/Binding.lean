import ThreeMove.Proofs.Composition.SpecialSoundness
import ThreeMove.Proofs.Group.SafePrime
import ThreeMove.Proofs.Pedersen.Receiver

/-!
# Binding

Whoever opens one commitment to two values knows the logarithm of the receiver's key.  The
randomness of an opening may be any number, only its remainder modulo the order counts.
-/

namespace ThreeMove.Pedersen

variable {E : Type} {group : PrimeGroup E} {key : E} {r r' x x' : Nat}

theorem coe_hide (laws : group.Lawful) (hkey : group.isMember key = true) (r x : Nat) :
    letI := laws.commGroup
    (((⟨group.generator, laws.isMember_generator⟩ ^ r * ⟨key, hkey⟩ ^ x : group.Member)) : E) =
      hide group key r x := by
  let _ := laws.commGroup
  rw [hide, ← laws.coe_pow ⟨group.generator, laws.isMember_generator⟩,
    ← laws.coe_pow ⟨key, hkey⟩]
  rfl

theorem modEq_of_hide (laws : group.Lawful) (hkey : group.isMember key = true)
    (hhide : hide group key r x = hide group key r' x) : r ≡ r' [MOD group.order] := by
  let _ := laws.commGroup
  rw [← coe_hide laws hkey, ← coe_hide laws hkey] at hhide
  have hpow := mul_right_cancel (Subtype.ext hhide)
  rw [← laws.pow_generator_eq_iff, ← laws.coe_pow ⟨group.generator, laws.isMember_generator⟩,
    hpow, laws.coe_pow]

/-- Two values that are hidden in one element give the logarithm of the key away. -/
theorem pow_extractExponent_of_hide (laws : group.Lawful) (hkey : group.isMember key = true)
    (hx : x < group.order) (hx' : x' < group.order) (hne : x ≠ x')
    (hhide : hide group key r x = hide group key r' x') :
    group.pow group.generator (extractExponent group.order x' x r r') = key := by
  let _ := laws.commGroup
  let G : group.Member := ⟨group.generator, laws.isMember_generator⟩
  let H : group.Member := ⟨key, hkey⟩
  rw [← coe_hide laws hkey, ← coe_hide laws hkey] at hhide
  have hsame : G ^ r * H ^ x = G ^ r' * H ^ x' := Subtype.ext hhide
  have hfirst : G ^ r = G ^ r * (H ^ x')⁻¹ * H ^ x' := (inv_mul_cancel_right _ _).symm
  have hsecond : G ^ r' = G ^ r * (H ^ x')⁻¹ * H ^ x := by
    rw [mul_right_comm, hsame, mul_inv_cancel_right]
  have hextract := pow_extractExponent laws.prime_order (laws.member_pow_order G)
    (laws.member_pow_order H) hx' hx (Ne.symm hne) hfirst hsecond
  rw [← laws.coe_pow G, hextract]

namespace Receiver

variable {receiver receiver' : Receiver E} {element : E} {opening opening' : Opening}

/-- The element is kept for the opening, and its verification gives a value. -/
def Accepts (receiver : Receiver E) (element : E) (opening : Opening) : Prop :=
  receiver.commitments.get? opening.id = some element ∧
    ∃ value, (verifyOpening opening receiver).1 = .ok value

theorem accepts_iff_opens : receiver.Accepts element opening ↔
    receiver.commitments.get? opening.id = some element ∧
      Opens receiver.group receiver.key opening.id element opening := by
  constructor
  · intro haccepts
    obtain ⟨hkept, value, hverify⟩ := haccepts
    rw [verifyOpening, hkept] at hverify
    exact ⟨hkept, (opens_eq_ok hverify).2⟩
  · intro hopens
    obtain ⟨hkept, hright⟩ := hopens
    refine ⟨hkept, opening.value, ?_⟩
    rw [verifyOpening, hkept]
    dsimp only
    rw [opens, if_neg (Nat.not_le.mpr hright.value_lt), if_pos hright.encode_eq]

/-- Receivers with one key accept two openings of one element only if the openings agree, or if
they give the logarithm of the key away. -/
theorem accepts_binding (laws : receiver.group.Lawful)
    (hmember : receiver.group.isMember receiver.key = true)
    (hgroup : receiver'.group = receiver.group) (hkey : receiver'.key = receiver.key)
    (haccepts : receiver.Accepts element opening)
    (haccepts' : receiver'.Accepts element opening') :
    opening.value = opening'.value ∧
        opening.randomness ≡ opening'.randomness [MOD receiver.group.order] ∨
      opening.value ≠ opening'.value ∧
        receiver.key = receiver.group.pow receiver.group.generator
          (extractExponent receiver.group.order opening'.value opening.value opening.randomness
            opening'.randomness) := by
  obtain ⟨-, hright⟩ := accepts_iff_opens.mp haccepts
  obtain ⟨-, hright'⟩ := accepts_iff_opens.mp haccepts'
  rw [hgroup, hkey] at hright'
  have hmembers := isMember_hide laws hmember
  -- only the encodings are compared, but each element has one encoding
  have hhide := laws.encode_inj (hmembers opening.randomness opening.value)
    (hmembers opening'.randomness opening'.value)
    (hright.encode_eq.symm.trans hright'.encode_eq)
  by_cases hvalue : opening.value = opening'.value
  · rw [← hvalue] at hhide
    exact .inl ⟨hvalue, modEq_of_hide laws hmember hhide⟩
  · have hextract := pow_extractExponent_of_hide laws hmember hright.value_lt hright'.value_lt
      hvalue hhide
    exact .inr ⟨hvalue, hextract.symm⟩

def modulo23 (commitments : Ledger Nat) : Receiver Nat :=
  { ofTrapdoor SafePrime.modulo23.group 3 with commitments }

/-- The second randomness is not reduced. -/
theorem accepts_binding_modulo23 :
    (modulo23 (Ledger.empty.insert 1 1)).Accepts 1 ⟨1, 5, 2⟩ ∧
      (modulo23 (Ledger.empty.insert 1 1)).Accepts 1 ⟨1, 12, 7⟩ ∧
      18 = SafePrime.modulo23.group.pow 4 (extractExponent 11 7 2 5 12) := by
  have haccepts : (modulo23 (Ledger.empty.insert 1 1)).Accepts 1 ⟨1, 5, 2⟩ := ⟨rfl, 2, by rfl⟩
  have haccepts' : (modulo23 (Ledger.empty.insert 1 1)).Accepts 1 ⟨1, 12, 7⟩ := ⟨rfl, 7, by rfl⟩
  have hbinding := accepts_binding SafePrime.lawful_modulo23 (by rfl) rfl rfl haccepts haccepts'
  have hother : 2 ≠ 7 := by decide
  exact ⟨haccepts, haccepts', (hbinding.resolve_left fun hsame => hother hsame.1).2⟩

end Receiver

end ThreeMove.Pedersen
