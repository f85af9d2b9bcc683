import Mathlib.Algebra.Order.Group.Nat
import Mathlib.Data.List.Induction
import ThreeMove.Group.Basic
import ThreeMove.Message
import ThreeMove.Pedersen.Message

/-!
# What is written is read back

Every message that crosses a channel has an encoder and a decoder.  The decoder gives back
what the encoder was given, and a decoded commitment or record determines its bytes.
-/

namespace ThreeMove

theorem except_bind_eq_ok_iff {ε α β : Type} {x : Except ε α} {f : α → Except ε β} {b : β} :
    (x >>= f) = .ok b ↔ ∃ a, x = .ok a ∧ f a = .ok b := by
  cases x with
  | error e => simp [bind, Except.bind]
  | ok a => simp [bind, Except.bind]

theorem toOption_eq_some_iff {ε α : Type} {x : Except ε α} {a : α} :
    x.toOption = some a ↔ x = .ok a := by
  cases x <;> simp [Except.toOption]

theorem bitLength_le_bitLength {m n : Nat} (hle : m ≤ n) : bitLength m ≤ bitLength n := by
  rw [bitLength_le_iff]
  exact Nat.lt_of_le_of_lt hle ((bitLength_le_iff n _).mp (Nat.le_refl _))

theorem lt_two_pow_iff (n k : Nat) : n < 2 ^ k ↔ bitLength n ≤ k := by
  rw [bitLength_le_iff, Nat.one_shiftLeft]

namespace Bytes

theorem toNat_lt (bytes : Bytes) : toNat bytes < 256 ^ bytes.length := by
  induction bytes using List.reverseRecOn with
  | nil => exact Nat.one_pos
  | append_singleton front last ih =>
      have hlast : last.toNat < 256 := last.toNat_lt
      rw [toNat_append_byte, List.length_append, List.length_singleton, Nat.pow_succ]
      omega

/-- The first bit is the highest one of the leading digit. -/
theorem isNegative_ofNat (width n : Nat) :
    (ofNat (width + 1) n).isNegative = decide (128 ≤ n / 256 ^ width % 256) := by
  induction width generalizing n with
  | zero => simp [ofNat, isNegative]
  | succ width ih =>
      have hhead : (ofNat (width + 2) n).isNegative = (ofNat (width + 1) (n / 256)).isNegative := by
        rw [ofNat]
        cases hdigits : ofNat (width + 1) (n / 256) with
        | nil =>
            have hlen := length_ofNat (width + 1) (n / 256)
            simp [hdigits] at hlen
        | cons byte bytes => rfl
      rw [hhead, ih, Nat.div_div_eq_div_mul, Nat.pow_succ']

theorem toNatural?_ofNat {width n : Nat} (hroom : bitLength n < 8 * width) :
    (ofNat width n).toNatural? = some n := by
  cases width with
  | zero => omega
  | succ width =>
      have hbound : n < 256 ^ width * 128 := by
        have hle : bitLength n ≤ 8 * width + 7 := by omega
        rw [← lt_two_pow_iff, Nat.pow_add, Nat.pow_mul] at hle
        exact hle
      have hdigit : n / 256 ^ width < 128 := Nat.div_lt_of_lt_mul hbound
      have hclear : (ofNat (width + 1) n).isNegative = false := by
        have hmod := Nat.lt_of_le_of_lt (Nat.mod_le (n / 256 ^ width) 256) hdigit
        rw [isNegative_ofNat, decide_eq_false_iff_not]
        omega
      rw [toNatural?, hclear, toNat_ofNat (by omega)]
      rfl

/-- A number is read unless the first byte sets its first bit. -/
theorem exists_toNatural?_iff (bytes : Bytes) :
    (∃ value, bytes.toNatural? = some value) ↔
      bytes = [] ∨ ∃ byte rest, bytes = byte :: rest ∧ byte.toNat < 128 := by
  cases bytes with
  | nil => simp [toNatural?, isNegative]
  | cons byte rest => simp [toNatural?, isNegative]

@[simp] theorem toNatural?_shortest (n : Nat) : (shortest n).toNatural? = some n :=
  toNatural?_ofNat (by omega)

end Bytes

theorem PrimeGroup.bitLength_lt_scalarSize {E : Type} (group : PrimeGroup E) {n : Nat}
    (hlt : n < group.order) : bitLength n < 8 * group.scalarSize := by
  have hle := bitLength_le_bitLength (Nat.le_of_lt hlt)
  unfold scalarSize
  omega

namespace Challenge

theorem decode_encode (challenge : Challenge) : decode challenge.encode = .ok challenge := by
  rw [decode, encode, Bytes.toNatural?_shortest]

@[simp] theorem inRange_iff (challenge : Challenge) (t : Nat) :
    challenge.inRange t = true ↔ challenge < 2 ^ t := by
  rw [inRange, decide_eq_true_eq, lt_two_pow_iff]

theorem check_of_lt {challenge : Challenge} {t : Nat} (hlt : challenge < 2 ^ t) :
    challenge.check t = .ok () := by
  rw [check, if_pos ((inRange_iff _ _).mpr hlt)]

theorem check_of_le {challenge : Challenge} {t : Nat} (hle : 2 ^ t ≤ challenge) :
    challenge.check t = .error (.cheating .challengeOutOfRange) := by
  rw [check, if_neg fun hrange => Nat.not_le.mpr ((inRange_iff _ _).mp hrange) hle]

end Challenge

namespace Pedersen

@[simp] theorem length_encodeId (id : Id) : (encodeId id).length = 8 :=
  Bytes.length_ofNat 8 id.toNat

@[simp] theorem splitId_encodeId (id : Id) (rest : Bytes) :
    splitId (encodeId id ++ rest) = .ok (id, rest) := by
  have hlen := length_encodeId id
  have hroom : bitLength id.toNat ≤ 8 * 8 := by
    rw [← lt_two_pow_iff]
    exact id.toNat_lt
  rw [splitId, if_neg (by rw [List.length_append]; omega), List.take_left' hlen,
    List.drop_left' hlen, encodeId, Bytes.toNat_ofNat hroom, UInt64.ofNat_toNat]

theorem exists_splitId (bytes : Bytes) (hlong : 8 ≤ bytes.length) :
    ∃ id, splitId bytes = .ok (id, bytes.drop 8) := by
  rw [splitId, if_neg (by omega)]
  exact ⟨_, rfl⟩

theorem eq_encodeId_of_splitId {bytes rest : Bytes} {id : Id}
    (hsplit : splitId bytes = .ok (id, rest)) : bytes = encodeId id ++ rest := by
  unfold splitId at hsplit
  split at hsplit
  · cases hsplit
  · next hlong =>
    cases hsplit
    have hlen : (bytes.take 8).length = 8 := by
      rw [List.length_take]
      omega
    have hlt : Bytes.toNat (bytes.take 8) < 2 ^ 64 := by
      have hbound := Bytes.toNat_lt (bytes.take 8)
      rw [hlen] at hbound
      exact hbound
    rw [encodeId, UInt64.toNat_ofNat_of_lt' hlt, Bytes.ofNat_toNat hlen, List.take_append_drop]

theorem splitId_eq_ok_iff {bytes rest : Bytes} {id : Id} :
    splitId bytes = .ok (id, rest) ↔ bytes = encodeId id ++ rest := by
  constructor
  · exact eq_encodeId_of_splitId
  · rintro rfl
    exact splitId_encodeId id rest

namespace Commitment

/-- Exactly the encodings with an element of the right size are read. -/
theorem decode_eq_ok_iff {elementSize : Nat} {bytes : Bytes} {commitment : Commitment} :
    decode elementSize bytes = .ok commitment ↔
      bytes = commitment.encode ∧ commitment.element.length = elementSize := by
  unfold decode encode
  obtain ⟨id, element⟩ := commitment
  by_cases hlen : bytes.length = 8 + elementSize
  · rw [if_neg (not_not_intro hlen)]
    dsimp only
    rw [except_bind_eq_ok_iff]
    constructor
    · rintro ⟨⟨id', rest⟩, hsplit, hpair⟩
      cases hpair
      have hbytes := eq_encodeId_of_splitId hsplit
      refine ⟨hbytes, ?_⟩
      rw [hbytes, List.length_append, length_encodeId] at hlen
      exact Nat.add_left_cancel hlen
    · rintro ⟨hbytes, -⟩
      exact ⟨(id, element), splitId_eq_ok_iff.mpr hbytes, rfl⟩
  · rw [if_pos hlen]
    constructor
    · rintro ⟨⟩
    · rintro ⟨rfl, rfl⟩
      rw [List.length_append, length_encodeId] at hlen
      exact (hlen rfl).elim

theorem decode_encode {elementSize : Nat} {commitment : Commitment}
    (hlen : commitment.element.length = elementSize) :
    decode elementSize commitment.encode = .ok commitment :=
  decode_eq_ok_iff.mpr ⟨rfl, hlen⟩

theorem length_of_decode {elementSize : Nat} {bytes : Bytes} {commitment : Commitment}
    (hdecode : decode elementSize bytes = .ok commitment) : bytes.length = 8 + elementSize := by
  obtain ⟨rfl, rfl⟩ := decode_eq_ok_iff.mp hdecode
  rw [encode, List.length_append, length_encodeId]

theorem length_ne_of_decode {elementSize : Nat} {bytes : Bytes} {fault : MessageFault}
    (hdecode : decode elementSize bytes = .error fault) : bytes.length ≠ 8 + elementSize := by
  intro hlen
  obtain ⟨id, hsplit⟩ := exists_splitId bytes (by omega)
  unfold decode at hdecode
  rw [if_neg (not_not_intro hlen), hsplit] at hdecode
  cases hdecode

end Commitment

namespace Opening

theorem decode_eq_ok_iff {scalarSize : Nat} {bytes : Bytes} {opening : Opening} :
    decode scalarSize bytes = .ok opening ↔
      ∃ randomness value : Bytes, randomness.length = scalarSize ∧
        value.toNatural? = some opening.value ∧ randomness.toNat = opening.randomness ∧
        bytes = encodeId opening.id ++ (randomness ++ value) := by
  rw [decode, except_bind_eq_ok_iff]
  constructor
  · rintro ⟨⟨id, rest⟩, hsplit, hrest⟩
    dsimp only at hrest
    split at hrest
    · cases hrest
    · next hlong =>
      split at hrest
      · next value hvalue =>
        cases hrest
        refine ⟨rest.take scalarSize, rest.drop scalarSize, ?_, hvalue, rfl, ?_⟩
        · exact List.length_take_of_le (Nat.not_lt.mp hlong)
        · rw [List.take_append_drop]
          exact eq_encodeId_of_splitId hsplit
      · cases hrest
  · rintro ⟨randomness, value, hlen, hvalue, hrandomness, rfl⟩
    refine ⟨(opening.id, randomness ++ value), splitId_encodeId .., ?_⟩
    dsimp only
    rw [if_neg (by rw [List.length_append]; omega), List.take_left' hlen, List.drop_left' hlen,
      hvalue, hrandomness]
    rfl

theorem decode_encode {scalarSize : Nat} {opening : Opening} {bytes : Bytes}
    (hbytes : opening.encode scalarSize = .ok bytes) : decode scalarSize bytes = .ok opening := by
  unfold encode Bytes.ofNat? at hbytes
  split at hbytes
  · next written hroom =>
    split at hroom
    · next hfits =>
      cases hroom
      cases hbytes
      rw [List.append_assoc]
      exact decode_eq_ok_iff.mpr ⟨_, _, Bytes.length_ofNat scalarSize opening.randomness,
        Bytes.toNatural?_shortest opening.value, Bytes.toNat_ofNat hfits, rfl⟩
    · cases hroom
  · cases hbytes

theorem encode_of_fits {scalarSize : Nat} (opening : Opening)
    (hfits : bitLength opening.randomness ≤ 8 * scalarSize) :
    opening.encode scalarSize = .ok (encodeId opening.id ++
      Bytes.ofNat scalarSize opening.randomness ++ Bytes.shortest opening.value) := by
  rw [encode, Bytes.ofNat?, if_pos hfits]

end Opening

namespace Record

theorem decode_eq_ok_iff {elementSize : Nat} {bytes : Bytes} {record : Record} :
    decode elementSize bytes = .ok record ↔
      bytes = record.encode ∧ record.key.length = elementSize ∧
        record.element.length = elementSize := by
  unfold decode encode
  obtain ⟨id, key, element⟩ := record
  by_cases hlen : bytes.length = 8 + 2 * elementSize
  · rw [if_neg (not_not_intro hlen)]
    dsimp only
    rw [except_bind_eq_ok_iff]
    constructor
    · rintro ⟨⟨id', rest⟩, hsplit, hpair⟩
      cases hpair
      have hbytes := eq_encodeId_of_splitId hsplit
      rw [hbytes, List.length_append, length_encodeId] at hlen
      have hrest : rest.length = 2 * elementSize := Nat.add_left_cancel hlen
      refine ⟨?_, ?_, ?_⟩
      · rw [hbytes, List.append_assoc, List.take_append_drop]
      · rw [List.length_take, hrest]
        omega
      · rw [List.length_drop, hrest]
        omega
    · rintro ⟨hbytes, hkey, helement⟩
      rw [List.append_assoc] at hbytes
      refine ⟨(id, key ++ element), splitId_eq_ok_iff.mpr hbytes, ?_⟩
      dsimp only
      rw [List.take_left' hkey, List.drop_left' hkey]
      rfl
  · rw [if_pos hlen]
    constructor
    · rintro ⟨⟩
    · rintro ⟨rfl, hkey, helement⟩
      rw [List.length_append, List.length_append, length_encodeId, hkey, helement] at hlen
      omega

end Record

end Pedersen

namespace Message

theorem takeField_eq_ok_iff {size : Nat} {bytes field rest : Bytes} :
    takeField size bytes = .ok (field, rest) ↔ field.length = size ∧ bytes = field ++ rest := by
  unfold takeField
  constructor
  · intro htake
    split at htake
    · cases htake
    · next hlong =>
      cases htake
      exact ⟨List.length_take_of_le (by omega), (List.take_append_drop size bytes).symm⟩
  · rintro ⟨hlen, rfl⟩
    rw [if_neg (by rw [List.length_append]; omega), List.take_left' hlen, List.drop_left' hlen]

section Read

variable {size : Nat} {part : Layout} {parts : List Layout} {bytes rest : Bytes}
  {message : Message} {messages : List Message}

theorem read_element_eq_ok_iff : read (.element size) bytes = .ok (message, rest) ↔
    ∃ field : Bytes, field.length = size ∧ message = .element field ∧ bytes = field ++ rest := by
  rw [read, except_bind_eq_ok_iff]
  constructor
  · rintro ⟨⟨field, behind⟩, htake, hdone⟩
    cases hdone
    obtain ⟨hlen, hbytes⟩ := takeField_eq_ok_iff.mp htake
    exact ⟨field, hlen, rfl, hbytes⟩
  · rintro ⟨field, hlen, rfl, hbytes⟩
    exact ⟨(field, rest), takeField_eq_ok_iff.mpr ⟨hlen, hbytes⟩, rfl⟩

theorem read_integer_eq_ok_iff : read (.integer size) bytes = .ok (message, rest) ↔
    ∃ (field : Bytes) (value : Nat), field.length = size ∧ field.toNatural? = some value ∧
      message = .integer value size ∧ bytes = field ++ rest := by
  rw [read, except_bind_eq_ok_iff]
  constructor
  · rintro ⟨⟨field, behind⟩, htake, hdone⟩
    dsimp only at hdone
    split at hdone
    · next value hvalue =>
      cases hdone
      obtain ⟨hlen, hbytes⟩ := takeField_eq_ok_iff.mp htake
      exact ⟨field, value, hlen, hvalue, rfl, hbytes⟩
    · cases hdone
  · rintro ⟨field, value, hlen, hvalue, rfl, hbytes⟩
    refine ⟨(field, rest), takeField_eq_ok_iff.mpr ⟨hlen, hbytes⟩, ?_⟩
    dsimp only
    rw [hvalue]
    rfl

theorem read_tuple_eq_ok_iff : read (.tuple parts) bytes = .ok (message, rest) ↔
    ∃ messages, readAll parts bytes = .ok (messages, rest) ∧ message = .tuple messages := by
  rw [read, except_bind_eq_ok_iff]
  constructor
  · rintro ⟨⟨messages, behind⟩, hparts, hdone⟩
    cases hdone
    exact ⟨messages, hparts, rfl⟩
  · rintro ⟨messages, hparts, rfl⟩
    exact ⟨(messages, rest), hparts, rfl⟩

theorem readAll_nil_eq_ok_iff : readAll [] bytes = .ok (messages, rest) ↔
    messages = [] ∧ bytes = rest := by
  rw [readAll]
  constructor
  · rintro ⟨⟩
    exact ⟨rfl, rfl⟩
  · rintro ⟨rfl, rfl⟩
    rfl

theorem readAll_cons_eq_ok_iff : readAll (part :: parts) bytes = .ok (messages, rest) ↔
    ∃ message others behind, read part bytes = .ok (message, behind) ∧
      readAll parts behind = .ok (others, rest) ∧ messages = message :: others := by
  rw [readAll, except_bind_eq_ok_iff]
  constructor
  · rintro ⟨⟨message, behind⟩, hpart, hread⟩
    obtain ⟨⟨others, last⟩, hparts, hdone⟩ := except_bind_eq_ok_iff.mp hread
    cases hdone
    exact ⟨message, others, behind, hpart, hparts, rfl⟩
  · rintro ⟨message, others, behind, hpart, hparts, rfl⟩
    exact ⟨(message, behind), hpart, except_bind_eq_ok_iff.mpr ⟨(others, rest), hparts, rfl⟩⟩

end Read

theorem encodeAll_cons_eq_ok_iff {part : Message} {parts : List Message} {bytes : Bytes} :
    encodeAll (part :: parts) = .ok bytes ↔
      ∃ first rest, part.encode = .ok first ∧ encodeAll parts = .ok rest ∧
        bytes = first ++ rest := by
  rw [encodeAll, except_bind_eq_ok_iff]
  constructor
  · rintro ⟨first, hfirst, hbytes⟩
    obtain ⟨rest, hrest, hbytes⟩ := except_bind_eq_ok_iff.mp hbytes
    cases hbytes
    exact ⟨first, rest, hfirst, hrest, rfl⟩
  · rintro ⟨first, rest, hfirst, hrest, rfl⟩
    exact ⟨first, hfirst, except_bind_eq_ok_iff.mpr ⟨rest, hrest, rfl⟩⟩

mutual

/-- A message that has bytes is read off their front under its own layout. -/
theorem read_encode : ∀ (message : Message) {bytes : Bytes}, message.encode = .ok bytes →
    ∀ rest, read message.layout (bytes ++ rest) = .ok (message, rest)
  | .element field, bytes, hbytes, rest => by
      cases hbytes
      exact read_element_eq_ok_iff.mpr ⟨field, rfl, rfl, rfl⟩
  | .integer value size, bytes, hbytes, rest => by
      unfold encode at hbytes
      split at hbytes
      · next hroom =>
        cases hbytes
        exact read_integer_eq_ok_iff.mpr ⟨_, value, Bytes.length_ofNat size value,
          Bytes.toNatural?_ofNat hroom, rfl, rfl⟩
      · cases hbytes
  | .tuple parts, bytes, hbytes, rest => by
      rw [encode] at hbytes
      exact read_tuple_eq_ok_iff.mpr ⟨parts, readAll_encodeAll parts hbytes rest, rfl⟩

theorem readAll_encodeAll : ∀ (parts : List Message) {bytes : Bytes},
    encodeAll parts = .ok bytes →
    ∀ rest, readAll (layoutAll parts) (bytes ++ rest) = .ok (parts, rest)
  | [], bytes, hbytes, rest => by
      cases hbytes
      rfl
  | part :: parts, bytes, hbytes, rest => by
      obtain ⟨first, others, hfirst, hothers, rfl⟩ := encodeAll_cons_eq_ok_iff.mp hbytes
      rw [List.append_assoc]
      exact readAll_cons_eq_ok_iff.mpr ⟨part, parts, others ++ rest, read_encode part hfirst _,
        readAll_encodeAll parts hothers rest, rfl⟩

end

theorem decode_encode {message : Message} {bytes : Bytes}
    (hbytes : message.encode = .ok bytes) : decode message.layout bytes = .ok message := by
  have hread := read_encode message hbytes []
  rw [List.append_nil] at hread
  rw [decode, hread]
  rfl

mutual

theorem layout_of_read : ∀ {layout : Layout} {bytes rest : Bytes} {message : Message},
    read layout bytes = .ok (message, rest) → message.layout = layout
  | .element size, bytes, rest, message, hread => by
      obtain ⟨field, rfl, rfl, -⟩ := read_element_eq_ok_iff.mp hread
      rfl
  | .integer size, bytes, rest, message, hread => by
      obtain ⟨field, value, -, -, rfl, -⟩ := read_integer_eq_ok_iff.mp hread
      rfl
  | .tuple parts, bytes, rest, message, hread => by
      obtain ⟨messages, hparts, rfl⟩ := read_tuple_eq_ok_iff.mp hread
      exact congrArg Layout.tuple (layoutAll_of_readAll hparts)

theorem layoutAll_of_readAll : ∀ {parts : List Layout} {bytes rest : Bytes}
    {messages : List Message}, readAll parts bytes = .ok (messages, rest) →
    layoutAll messages = parts
  | [], bytes, rest, messages, hread => by
      obtain ⟨rfl, -⟩ := readAll_nil_eq_ok_iff.mp hread
      rfl
  | part :: parts, bytes, rest, messages, hread => by
      obtain ⟨message, others, behind, hpart, hparts, rfl⟩ := readAll_cons_eq_ok_iff.mp hread
      exact congrArg₂ List.cons (layout_of_read hpart) (layoutAll_of_readAll hparts)

end

theorem layout_of_decode {layout : Layout} {bytes : Bytes} {message : Message}
    (hdecode : decode layout bytes = .ok message) : message.layout = layout := by
  rw [decode, except_bind_eq_ok_iff] at hdecode
  obtain ⟨⟨other, rest⟩, hread, hdone⟩ := hdecode
  dsimp only at hdone
  split at hdone <;> cases hdone
  exact layout_of_read hread

end Message

end ThreeMove
