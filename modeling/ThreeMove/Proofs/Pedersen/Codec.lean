import Mathlib.Data.Set.Function
import ThreeMove.Proofs.Wire

/-!
# Messages of the commitment scheme as bytes

Commitments and records correspond one-to-one to the bytes of one length.  An opening has its
randomness in a fixed width, and its value takes what is left: it is written exactly if the
randomness fits, and bytes are read as an opening exactly if they reach up to the value and
the value is not negative.
-/

namespace ThreeMove.Pedersen

/-- The messages that fit are written one-to-one as the bytes of one length, are read back from
them, and all other bytes are refused. -/
structure FixedLength {α : Type} (fits : α → Prop) (encode : α → Bytes)
    (decode : Bytes → Except MessageFault α) (length : Nat) (refusal : MessageFault) : Prop where
  bijOn_encode : Set.BijOn encode {message | fits message} {bytes | bytes.length = length}
  decode_encode : ∀ message, fits message → decode (encode message) = .ok message
  encode_decode : ∀ bytes, bytes.length = length →
    ∃ message, decode bytes = .ok message ∧ fits message ∧ encode message = bytes
  refused : ∀ bytes, bytes.length ≠ length → decode bytes = .error refusal

/-- It is enough that the decoder inverts the encoder and looks at nothing but the length. -/
theorem FixedLength.of_decode {α : Type} {fits : α → Prop} {encode : α → Bytes}
    {decode : Bytes → Except MessageFault α} {length : Nat} {refusal : MessageFault}
    (hdecode : ∀ {bytes message}, decode bytes = .ok message ↔
      bytes = encode message ∧ fits message)
    (hreads : ∀ bytes, bytes.length = length → ∃ message, decode bytes = .ok message)
    (hrefused : ∀ bytes, bytes.length ≠ length → decode bytes = .error refusal) :
    FixedLength fits encode decode length refusal := by
  have hback : ∀ message, fits message → decode (encode message) = .ok message :=
    fun message hfits => hdecode.mpr ⟨rfl, hfits⟩
  have hrestored : ∀ bytes, bytes.length = length →
      ∃ message, decode bytes = .ok message ∧ fits message ∧ encode message = bytes := by
    intro bytes hlen
    obtain ⟨message, hmessage⟩ := hreads bytes hlen
    obtain ⟨hbytes, hfits⟩ := hdecode.mp hmessage
    exact ⟨message, hmessage, hfits, hbytes.symm⟩
  refine ⟨⟨?_, ?_, ?_⟩, hback, hrestored, hrefused⟩
  · intro message hfits
    by_contra hlen
    have hread := hback message hfits
    rw [hrefused _ hlen] at hread
    cases hread
  · intro first hfirst second hsecond hsame
    have hread := hback first hfirst
    rw [hsame, hback second hsecond] at hread
    cases hread
    rfl
  · intro bytes hlen
    obtain ⟨message, -, hfits, hbytes⟩ := hrestored bytes hlen
    exact ⟨message, hfits, hbytes⟩

theorem Commitment.fixedLength (elementSize : Nat) :
    FixedLength (fun commitment : Commitment => commitment.element.length = elementSize)
      encode (decode elementSize) (8 + elementSize) (.malformed .commitmentWrongSize) := by
  apply FixedLength.of_decode decode_eq_ok_iff
  · intro bytes hlen
    obtain ⟨id, hsplit⟩ := exists_splitId bytes (by omega)
    unfold decode
    rw [if_neg (not_not_intro hlen), hsplit]
    exact ⟨_, rfl⟩
  · intro bytes hlen
    unfold decode
    rw [if_pos hlen]
    rfl

theorem Record.fixedLength (elementSize : Nat) :
    FixedLength (fun record : Record =>
        record.key.length = elementSize ∧ record.element.length = elementSize)
      encode (decode elementSize) (8 + 2 * elementSize) (.malformed .recordWrongSize) := by
  apply FixedLength.of_decode decode_eq_ok_iff
  · intro bytes hlen
    obtain ⟨id, hsplit⟩ := exists_splitId bytes (by omega)
    unfold decode
    rw [if_neg (not_not_intro hlen), hsplit]
    exact ⟨_, rfl⟩
  · intro bytes hlen
    unfold decode
    rw [if_pos hlen]
    rfl

namespace Opening

theorem encodes_iff (scalarSize : Nat) (opening : Opening) :
    (∃ bytes, opening.encode scalarSize = .ok bytes) ↔
      opening.randomness < 256 ^ scalarSize := by
  have hfits : opening.randomness < 256 ^ scalarSize ↔
      bitLength opening.randomness ≤ 8 * scalarSize := by
    rw [← lt_two_pow_iff, Nat.pow_mul]
  rw [hfits]
  constructor
  · rintro ⟨bytes, hbytes⟩
    by_contra hwide
    rw [encode, Bytes.ofNat?, if_neg hwide] at hbytes
    cases hbytes
  · intro hroom
    exact ⟨_, encode_of_fits opening hroom⟩

theorem decodes_iff (scalarSize : Nat) (bytes : Bytes) :
    (∃ opening, decode scalarSize bytes = .ok opening) ↔
      8 + scalarSize ≤ bytes.length ∧ (bytes.drop (8 + scalarSize) = [] ∨
        ∃ byte rest, bytes.drop (8 + scalarSize) = byte :: rest ∧ byte.toNat < 128) := by
  rw [← Bytes.exists_toNatural?_iff]
  constructor
  · rintro ⟨opening, hopening⟩
    obtain ⟨randomness, value, hlen, hvalue, -, rfl⟩ := decode_eq_ok_iff.mp hopening
    have hfront : (encodeId opening.id ++ randomness).length = 8 + scalarSize := by
      rw [List.length_append, length_encodeId, hlen]
    rw [← List.append_assoc, List.drop_left' hfront, List.length_append, hfront]
    exact ⟨Nat.le_add_right _ _, opening.value, hvalue⟩
  · rintro ⟨hlong, value, hvalue⟩
    obtain ⟨id, hsplit⟩ := exists_splitId bytes (by omega)
    have hwidth : ((bytes.drop 8).take scalarSize).length = scalarSize := by
      apply List.length_take_of_le
      rw [List.length_drop]
      omega
    have hbytes : bytes =
        encodeId id ++ ((bytes.drop 8).take scalarSize ++ bytes.drop (8 + scalarSize)) := by
      rw [← List.drop_drop, List.take_append_drop]
      exact eq_encodeId_of_splitId hsplit
    exact ⟨⟨id, Bytes.toNat ((bytes.drop 8).take scalarSize), value⟩,
      decode_eq_ok_iff.mpr ⟨_, _, hwidth, hvalue, rfl, hbytes⟩⟩

end Opening

/-- Commitments and records whose elements have the right size correspond to the bytes of one
length.  An opening is written exactly if its randomness has room in the width, and then it is
read back; bytes are read as an opening exactly if they reach up to the value and what is left
for the value is empty or leaves its first bit clear. -/
theorem messages_correspond_to_bytes :
    (∀ elementSize, FixedLength
      (fun commitment : Commitment => commitment.element.length = elementSize)
      Commitment.encode (Commitment.decode elementSize) (8 + elementSize)
      (.malformed .commitmentWrongSize)) ∧
    (∀ elementSize, FixedLength
      (fun record : Record =>
        record.key.length = elementSize ∧ record.element.length = elementSize)
      Record.encode (Record.decode elementSize) (8 + 2 * elementSize)
      (.malformed .recordWrongSize)) ∧
    ∀ scalarSize,
      (∀ opening : Opening,
        ((∃ bytes, opening.encode scalarSize = .ok bytes) ↔
          opening.randomness < 256 ^ scalarSize) ∧
        ∀ bytes, opening.encode scalarSize = .ok bytes →
          Opening.decode scalarSize bytes = .ok opening) ∧
      ∀ bytes : Bytes, (∃ opening, Opening.decode scalarSize bytes = .ok opening) ↔
        8 + scalarSize ≤ bytes.length ∧ (bytes.drop (8 + scalarSize) = [] ∨
          ∃ byte rest, bytes.drop (8 + scalarSize) = byte :: rest ∧ byte.toNat < 128) := by
  refine ⟨Commitment.fixedLength, Record.fixedLength, fun scalarSize => ⟨fun opening => ?_, ?_⟩⟩
  · exact ⟨opening.encodes_iff scalarSize, fun bytes => Opening.decode_encode⟩
  · exact Opening.decodes_iff scalarSize

end ThreeMove.Pedersen
