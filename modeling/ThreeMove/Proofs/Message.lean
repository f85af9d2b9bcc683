import ThreeMove.Proofs.Wire

/-!
# Decoding undoes encoding

The bytes of a message carry no framing, so one byte more or less in a part would shift all
parts behind it.  A message has bytes exactly when every integer inside leaves the first bit
of its width clear, the bytes are as many as the layout tells, and the layout reads the
message back.  No other bytes are read as the same message.
-/

namespace ThreeMove

namespace Message

mutual

def integers : Message → List (Nat × Nat)
  | element _ => []
  | integer value size => [(value, size)]
  | tuple parts => integersAll parts

def integersAll : List Message → List (Nat × Nat)
  | [] => []
  | part :: parts => part.integers ++ integersAll parts

end

/-- Every integer leaves the first bit of its width clear. -/
def AllFit (integers : List (Nat × Nat)) : Prop :=
  ∀ field ∈ integers, bitLength field.1 < 8 * field.2

mutual

theorem encodes_iff : ∀ message : Message,
    (∃ bytes, message.encode = .ok bytes) ↔ AllFit message.integers
  | element bytes => by
      have hnone : AllFit (element bytes).integers := List.forall_mem_nil _
      exact iff_of_true ⟨bytes, by rw [encode]⟩ hnone
  | integer value size => by
      rw [integers, AllFit, List.forall_mem_singleton, encode]
      split
      · next hfits => exact iff_of_true ⟨_, rfl⟩ hfits
      · next hfits => exact iff_of_false (by rintro ⟨bytes, ⟨⟩⟩) hfits
  | tuple parts => by
      rw [integers, encode]
      exact encodesAll_iff parts

theorem encodesAll_iff : ∀ parts : List Message,
    (∃ bytes, encodeAll parts = .ok bytes) ↔ AllFit (integersAll parts)
  | [] => by
      have hnone : AllFit (integersAll []) := List.forall_mem_nil _
      exact iff_of_true ⟨[], by rw [encodeAll]⟩ hnone
  | part :: parts => by
      have hparts : AllFit (integersAll (part :: parts)) ↔
          AllFit part.integers ∧ AllFit (integersAll parts) := List.forall_mem_append
      rw [hparts, ← encodes_iff part, ← encodesAll_iff parts]
      simp only [encodeAll_cons_eq_ok_iff]
      constructor
      · rintro ⟨bytes, first, rest, hfirst, hrest, -⟩
        exact ⟨⟨first, hfirst⟩, rest, hrest⟩
      · rintro ⟨⟨first, hfirst⟩, rest, hrest⟩
        exact ⟨first ++ rest, first, rest, hfirst, hrest, rfl⟩

end

mutual

/-- An integer that has no room is the only thing that keeps a message from being written. -/
theorem fault_of_encode : ∀ {message : Message} {fault : MessageFault},
    message.encode = .error fault → fault = .malformed .integerTooWide
  | element bytes, fault, herror => by
      rw [encode] at herror
      cases herror
  | integer value size, fault, herror => by
      rw [encode] at herror
      split at herror <;> cases herror
      rfl
  | tuple parts, fault, herror => by
      rw [encode] at herror
      exact fault_of_encodeAll herror

theorem fault_of_encodeAll : ∀ {parts : List Message} {fault : MessageFault},
    encodeAll parts = .error fault → fault = .malformed .integerTooWide
  | [], fault, herror => by
      rw [encodeAll] at herror
      cases herror
  | part :: parts, fault, herror => by
      rw [encodeAll] at herror
      cases hfirst : part.encode with
      | error other =>
          rw [hfirst] at herror
          cases herror
          exact fault_of_encode hfirst
      | ok first =>
          rw [hfirst] at herror
          cases hrest : encodeAll parts with
          | error other =>
              simp only [hrest] at herror
              cases herror
              exact fault_of_encodeAll hrest
          | ok rest =>
              simp only [hrest] at herror
              cases herror

end

mutual

theorem length_encode : ∀ {message : Message} {bytes : Bytes},
    message.encode = .ok bytes → bytes.length = message.layout.size
  | element field, bytes, hbytes => by
      rw [encode] at hbytes
      cases hbytes
      rfl
  | integer value size, bytes, hbytes => by
      rw [encode] at hbytes
      split at hbytes <;> cases hbytes
      exact Bytes.length_ofNat size value
  | tuple parts, bytes, hbytes => by
      rw [encode] at hbytes
      exact length_encodeAll hbytes

theorem length_encodeAll : ∀ {parts : List Message} {bytes : Bytes},
    encodeAll parts = .ok bytes → bytes.length = Layout.sizeAll (layoutAll parts)
  | [], bytes, hbytes => by
      rw [encodeAll] at hbytes
      cases hbytes
      rfl
  | part :: parts, bytes, hbytes => by
      obtain ⟨first, rest, hfirst, hrest, rfl⟩ := encodeAll_cons_eq_ok_iff.mp hbytes
      rw [List.length_append, length_encode hfirst, length_encodeAll hrest]
      rfl

end

/-- A message is written exactly when its integers fit, and nothing else can keep it from
being written.  Its layout then tells the number of its bytes and reads it back from them. -/
theorem decode_undoes_encode (message : Message) :
    ((∃ bytes, message.encode = .ok bytes) ↔
      ∀ value size, (value, size) ∈ message.integers → bitLength value < 8 * size) ∧
    (∀ fault, message.encode = .error fault → fault = .malformed .integerTooWide) ∧
    ∀ bytes, message.encode = .ok bytes →
      bytes.length = message.size ∧ message.size = message.layout.size ∧
        decode message.layout bytes = .ok message := by
  refine ⟨(encodes_iff message).trans Prod.forall, fun fault => fault_of_encode, ?_⟩
  intro bytes hbytes
  exact ⟨length_encode hbytes, rfl, decode_encode hbytes⟩

theorem eq_ofNat_of_toNatural? {field : Bytes} {value : Nat}
    (hvalue : field.toNatural? = some value) : field = Bytes.ofNat field.length value := by
  unfold Bytes.toNatural? at hvalue
  split at hvalue <;> cases hvalue
  exact (Bytes.ofNat_toNat rfl).symm

mutual

theorem front_of_read : ∀ {layout : Layout} {bytes rest bytes' rest' : Bytes} {message : Message},
    read layout bytes = .ok (message, rest) → read layout bytes' = .ok (message, rest') →
    ∃ front, bytes = front ++ rest ∧ bytes' = front ++ rest'
  | .element size, bytes, rest, bytes', rest', message, hread, hread' => by
      obtain ⟨field, -, rfl, hbytes⟩ := read_element_eq_ok_iff.mp hread
      obtain ⟨field', -, hsame, hbytes'⟩ := read_element_eq_ok_iff.mp hread'
      cases hsame
      exact ⟨field, hbytes, hbytes'⟩
  | .integer size, bytes, rest, bytes', rest', message, hread, hread' => by
      obtain ⟨field, value, hlen, hvalue, rfl, hbytes⟩ := read_integer_eq_ok_iff.mp hread
      obtain ⟨field', value', hlen', hvalue', hsame, hbytes'⟩ := read_integer_eq_ok_iff.mp hread'
      cases hsame
      have hfield : field = field' := by
        rw [eq_ofNat_of_toNatural? hvalue, eq_ofNat_of_toNatural? hvalue', hlen, hlen']
      exact ⟨field, hbytes, hfield ▸ hbytes'⟩
  | .tuple parts, bytes, rest, bytes', rest', message, hread, hread' => by
      obtain ⟨messages, hparts, rfl⟩ := read_tuple_eq_ok_iff.mp hread
      obtain ⟨messages', hparts', hsame⟩ := read_tuple_eq_ok_iff.mp hread'
      cases hsame
      exact front_of_readAll hparts hparts'

theorem front_of_readAll : ∀ {parts : List Layout} {bytes rest bytes' rest' : Bytes}
    {messages : List Message}, readAll parts bytes = .ok (messages, rest) →
    readAll parts bytes' = .ok (messages, rest') →
    ∃ front, bytes = front ++ rest ∧ bytes' = front ++ rest'
  | [], bytes, rest, bytes', rest', messages, hread, hread' => by
      obtain ⟨-, rfl⟩ := readAll_nil_eq_ok_iff.mp hread
      obtain ⟨-, rfl⟩ := readAll_nil_eq_ok_iff.mp hread'
      exact ⟨[], rfl, rfl⟩
  | part :: parts, bytes, rest, bytes', rest', messages, hread, hread' => by
      obtain ⟨message, others, behind, hpart, hparts, rfl⟩ := readAll_cons_eq_ok_iff.mp hread
      obtain ⟨message', others', behind', hpart', hparts', hsame⟩ :=
        readAll_cons_eq_ok_iff.mp hread'
      cases hsame
      obtain ⟨front, rfl, rfl⟩ := front_of_read hpart hpart'
      obtain ⟨back, rfl, rfl⟩ := front_of_readAll hparts hparts'
      exact ⟨front ++ back, (List.append_assoc _ _ _).symm, (List.append_assoc _ _ _).symm⟩

end

theorem decode_eq_ok_iff {layout : Layout} {bytes : Bytes} {message : Message} :
    decode layout bytes = .ok message ↔ read layout bytes = .ok (message, []) := by
  rw [decode, except_bind_eq_ok_iff]
  constructor
  · rintro ⟨⟨other, rest⟩, hread, hdone⟩
    dsimp only at hdone
    split at hdone
    · next hempty =>
      cases hdone
      rw [hread, List.isEmpty_iff.mp hempty]
    · cases hdone
  · intro hread
    exact ⟨_, hread, rfl⟩

theorem decode_inj {layout : Layout} {bytes bytes' : Bytes} {message : Message}
    (hdecode : decode layout bytes = .ok message)
    (hdecode' : decode layout bytes' = .ok message) : bytes = bytes' := by
  obtain ⟨front, hbytes, hbytes'⟩ :=
    front_of_read (decode_eq_ok_iff.mp hdecode) (decode_eq_ok_iff.mp hdecode')
  exact hbytes.trans hbytes'.symm

end Message

end ThreeMove
