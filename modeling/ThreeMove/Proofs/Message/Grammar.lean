import ThreeMove.Proofs.Message

/-!
# The grammar of message bytes

The decoder accepts the bytes that are as many as the layout tells and in which every integer
of at least one byte leaves its first bit clear.  An integer of no bytes is read as zero, but
it cannot be written, since it has no room for a clear bit; all other messages that are read
are written as the bytes they came from.
-/

namespace ThreeMove

namespace Bytes

theorem toNat_cons (byte : UInt8) (bytes : Bytes) :
    toNat (byte :: bytes) = byte.toNat * 256 ^ bytes.length + toNat bytes := by
  induction bytes using List.reverseRecOn with
  | nil => simp [toNat]
  | append_singleton bytes last ih =>
      have hshift : byte.toNat * (256 ^ bytes.length * 256) =
          256 * (byte.toNat * 256 ^ bytes.length) := by
        rw [← Nat.mul_assoc, Nat.mul_comm]
      rw [← List.cons_append, toNat_append_byte, toNat_append_byte, ih, List.length_append,
        List.length_singleton, Nat.pow_succ, hshift]
      omega

theorem bitLength_lt_of_toNatural? {bytes : Bytes} {value : Nat}
    (hvalue : bytes.toNatural? = some value) (hpos : 0 < bytes.length) :
    bitLength value < 8 * bytes.length := by
  cases bytes with
  | nil => exact absurd hpos (Nat.lt_irrefl 0)
  | cons byte rest =>
      unfold toNatural? at hvalue
      split at hvalue
      · cases hvalue
      · next hclear =>
        cases hvalue
        have hbyte : byte.toNat < 128 := by simpa [isNegative] using hclear
        have hbound : toNat (byte :: rest) < 2 ^ (8 * rest.length + 7) := by
          calc toNat (byte :: rest)
            _ = byte.toNat * 256 ^ rest.length + toNat rest := toNat_cons byte rest
            _ < byte.toNat * 256 ^ rest.length + 256 ^ rest.length :=
                Nat.add_lt_add_left (toNat_lt rest) _
            _ = (byte.toNat + 1) * 256 ^ rest.length := (Nat.succ_mul _ _).symm
            _ ≤ 128 * 256 ^ rest.length := Nat.mul_le_mul_right _ hbyte
            _ = 2 ^ (8 * rest.length + 7) := by rw [Nat.pow_add, Nat.pow_mul, Nat.mul_comm]
        rw [lt_two_pow_iff] at hbound
        rw [List.length_cons]
        omega

end Bytes

namespace Layout

mutual

/-- Where the integers of a layout start and how many bytes they have, if the layout starts at
this offset. -/
def integersFrom (offset : Nat) : Layout → List (Nat × Nat)
  | element _ => []
  | integer size => [(offset, size)]
  | tuple parts => integersFromAll offset parts

def integersFromAll (offset : Nat) : List Layout → List (Nat × Nat)
  | [] => []
  | part :: parts => part.integersFrom offset ++ integersFromAll (offset + part.size) parts

end

end Layout

namespace Message

/-- Each of these integers has a first byte whose first bit is clear, unless it has no bytes. -/
def AllClear (bytes : Bytes) (integers : List (Nat × Nat)) : Prop :=
  ∀ field ∈ integers, 0 < field.2 → ∃ byte, bytes[field.1]? = some byte ∧ byte.toNat < 128

mutual

theorem rest_of_read : ∀ {layout : Layout} {bytes rest : Bytes} {message : Message},
    read layout bytes = .ok (message, rest) → rest = bytes.drop layout.size
  | .element size, bytes, rest, message, hread => by
      obtain ⟨field, rfl, -, rfl⟩ := read_element_eq_ok_iff.mp hread
      exact List.drop_left.symm
  | .integer size, bytes, rest, message, hread => by
      obtain ⟨field, value, rfl, -, -, rfl⟩ := read_integer_eq_ok_iff.mp hread
      exact List.drop_left.symm
  | .tuple parts, bytes, rest, message, hread => by
      obtain ⟨messages, hparts, -⟩ := read_tuple_eq_ok_iff.mp hread
      exact rest_of_readAll hparts

theorem rest_of_readAll : ∀ {parts : List Layout} {bytes rest : Bytes} {messages : List Message},
    readAll parts bytes = .ok (messages, rest) → rest = bytes.drop (Layout.sizeAll parts)
  | [], bytes, rest, messages, hread => by
      obtain ⟨-, rfl⟩ := readAll_nil_eq_ok_iff.mp hread
      rfl
  | part :: parts, bytes, rest, messages, hread => by
      obtain ⟨message, others, behind, hpart, hparts, -⟩ := readAll_cons_eq_ok_iff.mp hread
      rw [rest_of_readAll hparts, rest_of_read hpart, List.drop_drop, Layout.sizeAll]

end

theorem exists_toNatural?_take_iff {bytes : Bytes} {offset size : Nat}
    (hlong : size ≤ (bytes.drop offset).length) :
    (∃ value, Bytes.toNatural? ((bytes.drop offset).take size) = some value) ↔
      (0 < size → ∃ byte, bytes[offset]? = some byte ∧ byte.toNat < 128) := by
  cases size with
  | zero => exact iff_of_true ⟨0, rfl⟩ (fun hpos => absurd hpos (Nat.lt_irrefl 0))
  | succ size =>
      have hoffset : offset < bytes.length := by
        rw [List.length_drop] at hlong
        omega
      rw [List.drop_eq_getElem_cons hoffset, List.take_succ_cons, List.getElem?_eq_getElem hoffset]
      rw [Bytes.exists_toNatural?_iff]
      simp

mutual

/-- A message can be read at an offset if there are bytes enough and no integer is negative. -/
theorem reads_iff : ∀ (layout : Layout) (bytes : Bytes) (offset : Nat),
    (∃ result, read layout (bytes.drop offset) = .ok result) ↔
      layout.size ≤ (bytes.drop offset).length ∧ AllClear bytes (layout.integersFrom offset)
  | .element size, bytes, offset => by
      have hnone : AllClear bytes (Layout.integersFrom offset (.element size)) :=
        List.forall_mem_nil _
      rw [and_iff_left hnone, Layout.size]
      constructor
      · rintro ⟨⟨message, rest⟩, hread⟩
        obtain ⟨field, rfl, -, hbytes⟩ := read_element_eq_ok_iff.mp hread
        rw [hbytes, List.length_append]
        exact Nat.le_add_right _ _
      · intro hlong
        exact ⟨(element _, _), read_element_eq_ok_iff.mpr
          ⟨_, List.length_take_of_le hlong, rfl, (List.take_append_drop size _).symm⟩⟩
  | .integer size, bytes, offset => by
      rw [Layout.integersFrom, AllClear, List.forall_mem_singleton, Layout.size]
      constructor
      · rintro ⟨⟨message, rest⟩, hread⟩
        obtain ⟨field, value, rfl, hvalue, -, hbytes⟩ := read_integer_eq_ok_iff.mp hread
        have hlong : field.length ≤ (bytes.drop offset).length := by
          rw [hbytes, List.length_append]
          exact Nat.le_add_right _ _
        refine ⟨hlong, (exists_toNatural?_take_iff hlong).mp ⟨value, ?_⟩⟩
        rw [hbytes, List.take_left]
        exact hvalue
      · rintro ⟨hlong, hclear⟩
        obtain ⟨value, hvalue⟩ := (exists_toNatural?_take_iff hlong).mpr hclear
        exact ⟨(integer value size, _), read_integer_eq_ok_iff.mpr
          ⟨_, value, List.length_take_of_le hlong, hvalue, rfl,
            (List.take_append_drop size _).symm⟩⟩
  | .tuple parts, bytes, offset => by
      rw [Layout.integersFrom, Layout.size, ← readsAll_iff parts bytes offset]
      constructor
      · rintro ⟨⟨message, rest⟩, hread⟩
        obtain ⟨messages, hparts, -⟩ := read_tuple_eq_ok_iff.mp hread
        exact ⟨_, hparts⟩
      · rintro ⟨⟨messages, rest⟩, hparts⟩
        exact ⟨(tuple messages, rest), read_tuple_eq_ok_iff.mpr ⟨messages, hparts, rfl⟩⟩

theorem readsAll_iff : ∀ (parts : List Layout) (bytes : Bytes) (offset : Nat),
    (∃ result, readAll parts (bytes.drop offset) = .ok result) ↔
      Layout.sizeAll parts ≤ (bytes.drop offset).length ∧
        AllClear bytes (Layout.integersFromAll offset parts)
  | [], bytes, offset => by
      have hnone : AllClear bytes (Layout.integersFromAll offset []) := List.forall_mem_nil _
      exact iff_of_true ⟨_, by rw [readAll]⟩ ⟨Nat.zero_le _, hnone⟩
  | part :: parts, bytes, offset => by
      have hclear : AllClear bytes (Layout.integersFromAll offset (part :: parts)) ↔
          AllClear bytes (part.integersFrom offset) ∧
            AllClear bytes (Layout.integersFromAll (offset + part.size) parts) :=
        List.forall_mem_append
      have hsize : Layout.sizeAll (part :: parts) ≤ (bytes.drop offset).length ↔
          part.size ≤ (bytes.drop offset).length ∧
            Layout.sizeAll parts ≤ (bytes.drop (offset + part.size)).length := by
        rw [Layout.sizeAll, List.length_drop, List.length_drop]
        omega
      rw [hclear, hsize, and_and_and_comm, ← reads_iff part bytes offset,
        ← readsAll_iff parts bytes (offset + part.size)]
      constructor
      · rintro ⟨⟨messages, rest⟩, hread⟩
        obtain ⟨message, others, behind, hpart, hparts, -⟩ := readAll_cons_eq_ok_iff.mp hread
        rw [rest_of_read hpart, List.drop_drop] at hparts
        exact ⟨⟨_, hpart⟩, _, hparts⟩
      · rintro ⟨⟨⟨message, behind⟩, hpart⟩, ⟨others, rest⟩, hparts⟩
        rw [← List.drop_drop, ← rest_of_read hpart] at hparts
        exact ⟨(message :: others, rest), readAll_cons_eq_ok_iff.mpr
          ⟨message, others, behind, hpart, hparts, rfl⟩⟩

end

theorem decodes_iff (layout : Layout) (bytes : Bytes) :
    (∃ message, decode layout bytes = .ok message) ↔
      bytes.length = layout.size ∧ AllClear bytes (layout.integersFrom 0) := by
  have hreads := reads_iff layout bytes 0
  rw [List.drop_zero] at hreads
  simp only [decode_eq_ok_iff]
  constructor
  · rintro ⟨message, hread⟩
    obtain ⟨hlong, hclear⟩ := hreads.mp ⟨_, hread⟩
    have hrest := List.drop_eq_nil_iff.mp (rest_of_read hread).symm
    exact ⟨Nat.le_antisymm hrest hlong, hclear⟩
  · rintro ⟨hlen, hclear⟩
    obtain ⟨⟨message, rest⟩, hread⟩ := hreads.mpr ⟨Nat.le_of_eq hlen.symm, hclear⟩
    have hrest : rest = [] := by
      rw [rest_of_read hread, ← hlen, List.drop_length]
    exact ⟨message, hrest ▸ hread⟩

/-- The decoder accepts exactly the bytes of the right number in which every integer that has
bytes leaves the first bit clear.  It gives a message of the layout it was asked for, and no
other bytes give the same message. -/
theorem decode_accepts_grammar (layout : Layout) (bytes : Bytes) :
    ((∃ message, decode layout bytes = .ok message) ↔
      bytes.length = layout.size ∧
        ∀ offset width, (offset, width) ∈ layout.integersFrom 0 → 0 < width →
          ∃ byte, bytes[offset]? = some byte ∧ byte.toNat < 128) ∧
    ∀ message, decode layout bytes = .ok message →
      message.layout = layout ∧
        ∀ others, decode layout others = .ok message → others = bytes := by
  refine ⟨(decodes_iff layout bytes).trans (and_congr_right fun _ => Prod.forall), ?_⟩
  intro message hdecode
  exact ⟨layout_of_decode hdecode, fun others hothers => decode_inj hothers hdecode⟩

mutual

theorem widths_integersFrom : ∀ (message : Message) (offset : Nat),
    (message.layout.integersFrom offset).map Prod.snd = message.integers.map Prod.snd
  | .element _, _ => rfl
  | .integer _ _, _ => rfl
  | .tuple parts, offset => widths_integersFromAll parts offset

theorem widths_integersFromAll : ∀ (parts : List Message) (offset : Nat),
    (Layout.integersFromAll offset (layoutAll parts)).map Prod.snd =
      (integersAll parts).map Prod.snd
  | [], _ => rfl
  | part :: parts, offset => by
      rw [layoutAll, Layout.integersFromAll, integersAll, List.map_append, List.map_append,
        widths_integersFrom part, widths_integersFromAll parts]

end

mutual

/-- An integer that was read has room in its width, unless the width is zero. -/
theorem integers_fit_of_read : ∀ {layout : Layout} {bytes rest : Bytes} {message : Message},
    read layout bytes = .ok (message, rest) →
      ∀ field ∈ message.integers, 0 < field.2 → bitLength field.1 < 8 * field.2
  | .element size, bytes, rest, message, hread => by
      obtain ⟨field, -, rfl, -⟩ := read_element_eq_ok_iff.mp hread
      exact List.forall_mem_nil _
  | .integer size, bytes, rest, message, hread => by
      obtain ⟨field, value, rfl, hvalue, rfl, -⟩ := read_integer_eq_ok_iff.mp hread
      rw [integers, List.forall_mem_singleton]
      exact Bytes.bitLength_lt_of_toNatural? hvalue
  | .tuple parts, bytes, rest, message, hread => by
      obtain ⟨messages, hparts, rfl⟩ := read_tuple_eq_ok_iff.mp hread
      exact integers_fit_of_readAll hparts

theorem integers_fit_of_readAll : ∀ {parts : List Layout} {bytes rest : Bytes}
    {messages : List Message}, readAll parts bytes = .ok (messages, rest) →
      ∀ field ∈ integersAll messages, 0 < field.2 → bitLength field.1 < 8 * field.2
  | [], bytes, rest, messages, hread => by
      obtain ⟨rfl, -⟩ := readAll_nil_eq_ok_iff.mp hread
      exact List.forall_mem_nil _
  | part :: parts, bytes, rest, messages, hread => by
      obtain ⟨message, others, behind, hpart, hparts, rfl⟩ := readAll_cons_eq_ok_iff.mp hread
      exact List.forall_mem_append.mpr
        ⟨integers_fit_of_read hpart, integers_fit_of_readAll hparts⟩

end

/-- A message that was read can be written unless one of its integers has no bytes. -/
theorem allFit_of_decode_iff {layout : Layout} {bytes : Bytes} {message : Message}
    (hdecode : decode layout bytes = .ok message) :
    AllFit message.integers ↔ ∀ field ∈ layout.integersFrom 0, 0 < field.2 := by
  have hfit : AllFit message.integers ↔ ∀ width ∈ message.integers.map Prod.snd, 0 < width := by
    rw [List.forall_mem_map]
    constructor
    · intro hfit field hmem
      have hroom := hfit field hmem
      omega
    · intro hwide field hmem
      exact integers_fit_of_read (decode_eq_ok_iff.mp hdecode) field hmem (hwide field hmem)
  rw [hfit, ← widths_integersFrom message 0, layout_of_decode hdecode, List.forall_mem_map]

/-- A message that was read is written as the bytes it was read from, unless one of its integers
has no bytes; such a message cannot be written at all. -/
theorem encode_restores_decoded {layout : Layout} {bytes : Bytes} {message : Message}
    (hdecode : decode layout bytes = .ok message) :
    (message.encode = .ok bytes ↔
      ∀ offset width, (offset, width) ∈ layout.integersFrom 0 → 0 < width) ∧
    (message.encode = .error (.malformed .integerTooWide) ↔
      ∃ offset, (offset, 0) ∈ layout.integersFrom 0) := by
  have hwide := (encodes_iff message).trans (allFit_of_decode_iff hdecode)
  have hrestores : message.encode = .ok bytes ↔
      ∀ field ∈ layout.integersFrom 0, 0 < field.2 := by
    rw [← hwide]
    constructor
    · intro hencode
      exact ⟨bytes, hencode⟩
    · rintro ⟨others, hothers⟩
      have hread := decode_encode hothers
      rw [layout_of_decode hdecode] at hread
      rwa [decode_inj hdecode hread]
  refine ⟨hrestores.trans Prod.forall, ?_⟩
  constructor
  · intro hfault
    by_contra hnone
    have hok : message.encode = .ok bytes := by
      refine hrestores.mpr fun field hmem => Nat.pos_of_ne_zero fun hzero => ?_
      exact hnone ⟨field.1, hzero ▸ hmem⟩
    rw [hok] at hfault
    cases hfault
  · rintro ⟨offset, hmem⟩
    cases hencode : message.encode with
    | error fault => rw [fault_of_encode hencode]
    | ok others => exact absurd (hwide.mp ⟨others, hencode⟩ _ hmem) (Nat.lt_irrefl 0)

theorem encode_restores_decoded_nested :
    let layout : Layout := .tuple [.element 3, .tuple [.integer 3, .element 1]]
    let bytes : Bytes := [1, 2, 3, 0, 18, 52, 4]
    ∃ message, decode layout bytes = .ok message ∧ message.encode = .ok bytes := by
  have hdecode : decode (.tuple [.element 3, .tuple [.integer 3, .element 1]])
      [1, 2, 3, 0, 18, 52, 4] =
        .ok (.tuple [.element [1, 2, 3], .tuple [.integer 4660 3, .element [4]]]) := rfl
  refine ⟨_, hdecode, (encode_restores_decoded hdecode).1.mpr fun offset width hmem => ?_⟩
  have hfield : (offset, width) = (3, 3) := List.mem_singleton.mp hmem
  cases hfield
  decide

/-- No bytes are read as zero, and zero has no writing in no bytes. -/
theorem empty_integer_not_restored :
    decode (.integer 0) [] = .ok (.integer 0 0) ∧
      (Message.integer 0 0).encode = .error (.malformed .integerTooWide) :=
  ⟨rfl, rfl⟩

end Message

end ThreeMove
