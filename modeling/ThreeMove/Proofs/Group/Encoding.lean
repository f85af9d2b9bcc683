import Mathlib.NumberTheory.LegendreSymbol.Basic
import ThreeMove.Proofs.Group.Validity
import ThreeMove.Proofs.Wire

/-!
# One encoding for each member

If the order and the modulus are prime, the members are the squares modulo `p` other than zero,
and there are as many as the order tells.  The encoding writes a number below the modulus in the
least number of bytes that has room for the modulus, zeros in front included, and the decoder
accepts the encodings of the members and nothing else.
-/

namespace ThreeMove.SafePrime

variable {params : SafePrime} {p q g x y : Nat} {bytes : Bytes}

/-- By Euler's criterion, since the order is half of `p - 1`. -/
theorem isMember_iff_isSquare (hp : params.modulus.Prime) :
    params.isMember x = true ↔
      x ≠ 0 ∧ x < params.modulus ∧ IsSquare (x : ZMod params.modulus) := by
  have : Fact params.modulus.Prime := ⟨hp⟩
  have hhalf : params.modulus / 2 = params.order := by
    unfold modulus
    omega
  by_cases hzero : x = 0
  · subst hzero
    simp [isMember]
  rw [isMember_iff, and_iff_right hzero]
  refine and_congr_right fun hlt => ?_
  have hunit : (x : ZMod params.modulus) ≠ 0 := by
    rw [Ne, ZMod.natCast_eq_zero_iff]
    exact Nat.not_dvd_of_pos_of_lt (Nat.pos_of_ne_zero hzero) hlt
  rw [ZMod.euler_criterion params.modulus hunit, hhalf]

/-- Whatever the generator of the parameters is, four generates the members. -/
theorem ncard_isMember_of_prime (hq : params.order.Prime) (hp : params.modulus.Prime) :
    {x | params.isMember x = true}.ncard = params.order := by
  have hlow := params.one_lt_order
  obtain ⟨squares, horder, hfour⟩ : ∃ squares : SafePrime,
      squares.order = params.order ∧ squares.generator = 4 :=
    ⟨⟨params.order, 4, hlow, by decide, by omega⟩, rfl, rfl⟩
  have hmodulus : squares.modulus = params.modulus := by rw [modulus, modulus, horder]
  have hmember : ∀ x, squares.isMember x = params.isMember x := by
    intro x
    rw [isMember, isMember, hmodulus, horder]
  rw [← horder] at hq
  rw [← hmodulus] at hp
  have hgenerator : squares.isMember squares.generator = true := by
    rw [isMember_iff_isSquare hp]
    refine ⟨?_, squares.generator_lt, 2, ?_⟩
    · rw [hfour]
      decide
    · rw [hfour]
      norm_num
  rw [← horder, ← ncard_isMember hq hp hgenerator]
  simp only [hmember]

theorem elementSize_le_iff (params : SafePrime) (width : Nat) :
    params.elementSize ≤ width ↔ params.modulus < 256 ^ width := by
  have hdigits : params.modulus < 256 ^ width ↔ bitLength params.modulus ≤ 8 * width := by
    rw [← lt_two_pow_iff, Nat.pow_mul]
  rw [hdigits, elementSize]
  omega

theorem toNat_encode (hx : x < params.modulus) : (params.encode x).toNat = x := by
  rw [encode_of_lt hx, Bytes.toNat_ofNat (bitLength_le_elementSize hx)]

theorem encode_eq_iff (hx : x < params.modulus) (hy : y < params.modulus) :
    params.encode x = params.encode y ↔ x = y := by
  constructor
  · intro hsame
    rw [← toNat_encode hx, hsame, toNat_encode hy]
  · rintro rfl
    rfl

theorem decode_eq_ok_iff :
    params.decode bytes = .ok x ↔ params.isMember x = true ∧ bytes = params.encode x := by
  constructor
  · intro hread
    obtain ⟨hmem, henc⟩ := of_decode hread
    exact ⟨hmem, henc.symm⟩
  · rintro ⟨hmem, rfl⟩
    exact decode_encode hmem

theorem decode_of_wrong_size (hlen : bytes.length ≠ params.elementSize) :
    params.decode bytes = .error (.noElement .elementWrongSize) := by
  rw [decode, if_neg hlen]

/-- Of the bytes of the right size those are refused whose number is no member, such as all numbers
from the modulus on. -/
theorem decode_of_no_member (hlen : bytes.length = params.elementSize)
    (hother : params.isMember bytes.toNat = false) :
    params.decode bytes = .error (.noElement .notQuadraticResidue) := by
  rw [decode, if_pos hlen, element, hother]
  rfl

theorem ncard_decodes (hq : params.order.Prime) (hp : params.modulus.Prime) :
    {bytes | ∃ x, params.decode bytes = .ok x}.ncard = params.order := by
  have himage : {bytes | ∃ x, params.decode bytes = .ok x} =
      params.encode '' {x | params.isMember x = true} := by
    ext bytes
    constructor
    · rintro ⟨x, hread⟩
      obtain ⟨hmem, henc⟩ := of_decode hread
      exact ⟨x, hmem, henc⟩
    · rintro ⟨x, hmem, rfl⟩
      exact ⟨x, decode_encode hmem⟩
  have hinj : Set.InjOn params.encode {x | params.isMember x = true} := by
    intro x hx y hy hsame
    exact (encode_eq_iff (isMember_iff.mp hx).1 (isMember_iff.mp hy).1).mp hsame
  rw [himage, hinj.ncard_image, ncard_isMember_of_prime hq hp]

/-- If the modulus and the order are prime, exactly the encodings of the members are read, the
members being the squares modulo `p` other than zero, and all other bytes are refused for their
size or for their number.  The encoding of a number below the modulus, and so of each member, is
that number in the least number of bytes with room for the modulus, and it tells the number. -/
theorem encoding_canonical (hbuilt : ofNumbers p q g = .ok params) (hp : p.Prime) (hq : q.Prime) :
    (∀ bytes x, params.group.decode bytes = .ok x ↔
      params.group.isMember x = true ∧ bytes = params.group.encode x) ∧
    (∀ bytes, bytes.length ≠ params.group.elementSize →
      params.group.decode bytes = .error (.noElement .elementWrongSize)) ∧
    (∀ bytes, bytes.length = params.group.elementSize →
      params.group.isMember bytes.toNat = false →
      params.group.decode bytes = .error (.noElement .notQuadraticResidue)) ∧
    (∀ x, params.group.isMember x = true ↔ x ≠ 0 ∧ x < p ∧ IsSquare (x : ZMod p)) ∧
    {bytes | ∃ x, params.group.decode bytes = .ok x}.ncard = q ∧
    (∀ width, params.group.elementSize ≤ width ↔ p < 256 ^ width) ∧
    (∀ x, x < p → (params.group.encode x).length = params.group.elementSize ∧
      (params.group.encode x).toNat = x) ∧
    ∀ x y, x < p → y < p → (params.group.encode x = params.group.encode y ↔ x = y) := by
  obtain ⟨rfl, rfl, rfl⟩ := of_ofNumbers hbuilt
  exact ⟨fun bytes x => decode_eq_ok_iff, fun bytes => decode_of_wrong_size,
    fun bytes => decode_of_no_member, fun x => isMember_iff_isSquare hp, ncard_decodes hq hp,
    params.elementSize_le_iff, fun x hx => ⟨length_encode hx, toNat_encode hx⟩,
    fun x y => encode_eq_iff⟩

/-- The squares modulo 263, with the generator 9.  Their encodings have two bytes. -/
def modulo263 : SafePrime :=
  ⟨131, 9, by decide, by decide, by decide⟩

/-- The member 4 has a zero in front, and 267, which is the same residue, is refused. -/
theorem encoding_canonical_modulo263 :
    ofNumbers 263 131 9 = .ok modulo263 ∧ Nat.Prime 263 ∧ Nat.Prime 131 ∧
      modulo263.group.decode [0, 4] = .ok 4 ∧ modulo263.group.encode 4 = [0, 4] ∧
      modulo263.group.decode [4] = .error (.noElement .elementWrongSize) ∧
      modulo263.group.decode [1, 11] = .error (.noElement .notQuadraticResidue) ∧
      {bytes | ∃ x, modulo263.group.decode bytes = .ok x}.ncard = 131 := by
  have hbuilt : ofNumbers 263 131 9 = .ok modulo263 := rfl
  have hp : Nat.Prime 263 := by norm_num
  have hq : Nat.Prime 131 := by norm_num
  obtain ⟨hread, hsize, hother, -, hcount, -⟩ := encoding_canonical hbuilt hp hq
  have hfour : modulo263.group.encode 4 = [0, 4] := rfl
  refine ⟨hbuilt, hp, hq, (hread _ _).mpr ⟨rfl, hfour.symm⟩, hfour, hsize _ (by decide),
    hother _ rfl rfl, hcount⟩

end ThreeMove.SafePrime
