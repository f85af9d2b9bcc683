import ThreeMove.Proofs.Message.Grammar

/-!
# The shortest writing of a number

Challenges and committed values are natural numbers in two's complement, and they are read from
bytes of any length.  So a number has many writings, which differ in the zeros in front.  It is
always written without those that the sign does not need, and no other writing but the empty one
for zero is as short.
-/

namespace ThreeMove

namespace Bytes

variable {bytes rest : Bytes} {byte next : UInt8} {n k : Nat}

/-- The two's-complement number that the bytes hold, most significant first. -/
def toInt (bytes : Bytes) : Int :=
  bytes.toNat - (if bytes.isNegative then 256 ^ bytes.length else 0 : Nat)

def trimmed : Bytes → Bytes
  | [] => [0]
  | [byte] => [byte]
  | byte :: next :: rest =>
      if byte = 0 ∧ next.toNat < 128 then trimmed (next :: rest) else byte :: next :: rest

theorem toNatural?_eq_some_iff_toInt : bytes.toNatural? = some n ↔ bytes.toInt = n := by
  have hlt := toNat_lt bytes
  unfold toNatural? toInt
  cases bytes.isNegative with
  | false =>
      simp only [Bool.false_eq_true, if_false, Option.some.injEq]
      omega
  | true =>
      simp only [if_true]
      constructor
      · nofun
      · intro hn
        omega

theorem toNat_of_toNatural? (hread : bytes.toNatural? = some n) : bytes.toNat = n := by
  unfold toNatural? at hread
  split at hread
  · cases hread
  · exact Option.some.inj hread

theorem toNatural?_cons_zero (hclear : next.toNat < 128) :
    toNatural? (0 :: next :: rest) = toNatural? (next :: rest) := by
  have hnext : ¬ 128 ≤ next.toNat := Nat.not_le.mpr hclear
  have hvalue : toNat (0 :: next :: rest) = toNat (next :: rest) := by
    rw [toNat_cons 0, UInt8.toNat_zero, Nat.zero_mul, Nat.zero_add]
  simp [toNatural?, isNegative, hnext, hvalue]

theorem lt_bitLength_iff : k < bitLength n ↔ 2 ^ k ≤ n := by
  rw [← Nat.not_le, ← lt_two_pow_iff, Nat.not_lt]

/-- If the first byte is needed, the number has more digits than the other bytes have bits but
one. -/
theorem le_bitLength_of_needed (rest : Bytes) (hneeded : ¬ (byte = 0 ∧ next.toNat < 128)) :
    8 * (rest.length + 1) ≤ bitLength (toNat (byte :: next :: rest)) := by
  have hlead : 128 ≤ 256 * byte.toNat + next.toNat := by
    by_cases hzero : byte = 0
    · have hset : ¬ next.toNat < 128 := fun hclear => hneeded ⟨hzero, hclear⟩
      omega
    · have hpos : byte.toNat ≠ 0 := fun h => hzero (UInt8.toNat_inj.mp h)
      omega
  have hvalue : toNat (byte :: next :: rest) =
      (256 * byte.toNat + next.toNat) * 256 ^ rest.length + toNat rest := by
    rw [toNat_cons, toNat_cons, List.length_cons, Nat.pow_succ', Nat.add_mul, Nat.add_assoc,
      ← Nat.mul_assoc, Nat.mul_comm byte.toNat]
  apply lt_bitLength_iff.mpr
  rw [hvalue]
  calc 2 ^ (8 * rest.length + 7)
    _ = 128 * 256 ^ rest.length := by rw [Nat.pow_add, Nat.pow_mul, Nat.mul_comm]
    _ ≤ (256 * byte.toNat + next.toNat) * 256 ^ rest.length := Nat.mul_le_mul_right _ hlead
    _ ≤ (256 * byte.toNat + next.toNat) * 256 ^ rest.length + toNat rest := Nat.le_add_right _ _

theorem length_shortest (n : Nat) : (shortest n).length = bitLength n / 8 + 1 :=
  length_ofNat _ n

/-- Bytes that are as many as in the shortest writing of their number are this writing. -/
theorem eq_shortest_of_length (hread : bytes.toNatural? = some n)
    (hlen : bytes.length = (shortest n).length) : bytes = shortest n := by
  rw [Message.eq_ofNat_of_toNatural? hread, hlen, length_shortest, shortest]

theorem length_shortest_le (hread : bytes.toNatural? = some n) (hpos : 0 < bytes.length) :
    (shortest n).length ≤ bytes.length := by
  have hlt := bitLength_lt_of_toNatural? hread hpos
  rw [length_shortest]
  omega

theorem shortest_eq_trimmed (hread : bytes.toNatural? = some n) : shortest n = trimmed bytes := by
  induction bytes using trimmed.induct with
  | case1 =>
      cases hread
      rfl
  | case2 byte =>
      refine (eq_shortest_of_length hread (Nat.le_antisymm ?_ ?_)).symm
      · rw [length_shortest]
        exact Nat.le_add_left 1 _
      · exact length_shortest_le hread Nat.one_pos
  | case3 byte next rest hspare ih =>
      obtain ⟨rfl, hclear⟩ := hspare
      rw [toNatural?_cons_zero hclear] at hread
      rw [ih hread, trimmed, if_pos ⟨rfl, hclear⟩]
  | case4 byte next rest hneeded =>
      have hle := le_bitLength_of_needed rest hneeded
      rw [toNat_of_toNatural? hread] at hle
      rw [trimmed, if_neg hneeded]
      refine (eq_shortest_of_length hread (Nat.le_antisymm ?_ ?_)).symm
      · rw [length_shortest, List.length_cons, List.length_cons]
        omega
      · exact length_shortest_le hread (Nat.succ_pos _)

end Bytes

/-- Numbers are read in two's complement from bytes of any length, unless they are below zero, and
written in the one way that is not empty and shorter than all others. -/
structure ShortestCodec {ε : Type} (encode : Nat → Bytes) (decode : Bytes → Except ε Nat)
    (refusal : ε) : Prop where
  decode_encode : ∀ n, decode (encode n) = .ok n
  decode_eq_ok_iff : ∀ bytes n, decode bytes = .ok n ↔ bytes.toInt = n
  decodes_iff : ∀ bytes, (∃ n, decode bytes = .ok n) ↔
    bytes = [] ∨ ∃ byte rest, bytes = byte :: rest ∧ byte.toNat < 0x80
  refused : ∀ bytes, (∀ n, decode bytes ≠ .ok n) → decode bytes = .error refusal
  encode_ne_nil : ∀ n, encode n ≠ []
  encode_zero : encode 0 = [0]
  encode_eq_trimmed : ∀ bytes n, decode bytes = .ok n → encode n = bytes.trimmed
  /-- Among the writings of a number that are not empty, its own is the only one of least length. -/
  encode_shortest : ∀ bytes n, decode bytes = .ok n → bytes ≠ [] →
    (encode n).length ≤ bytes.length ∧ (bytes.length = (encode n).length → bytes = encode n)
  encode_eq_iff : ∀ m n, encode m = encode n ↔ m = n

theorem ShortestCodec.of_toNatural? {ε : Type} {decode : Bytes → Except ε Nat} {refusal : ε}
    (hdecode : ∀ bytes, decode bytes =
      match bytes.toNatural? with
      | some n => .ok n
      | none => .error refusal) :
    ShortestCodec Bytes.shortest decode refusal := by
  have hread : ∀ {bytes n}, decode bytes = .ok n ↔ bytes.toNatural? = some n := by
    intro bytes n
    rw [hdecode]
    cases bytes.toNatural? <;> simp
  have hback : ∀ n, decode (Bytes.shortest n) = .ok n :=
    fun n => hread.mpr (Bytes.toNatural?_shortest n)
  have hpos : ∀ n, 0 < (Bytes.shortest n).length := by
    intro n
    rw [Bytes.length_shortest]
    exact Nat.succ_pos _
  refine ⟨hback, fun bytes n => hread.trans Bytes.toNatural?_eq_some_iff_toInt, fun bytes => ?_,
    fun bytes hnone => ?_, fun n => List.ne_nil_of_length_pos (hpos n), rfl,
    fun bytes n hn => Bytes.shortest_eq_trimmed (hread.mp hn), fun bytes n hn hfull => ⟨?_, ?_⟩,
    fun m n => ⟨fun hsame => ?_, fun heq => heq ▸ rfl⟩⟩
  · simp only [hread]
    exact Bytes.exists_toNatural?_iff bytes
  · rw [hdecode]
    cases hvalue : bytes.toNatural? with
    | none => rfl
    | some n => exact absurd (hread.mpr hvalue) (hnone n)
  · exact Bytes.length_shortest_le (hread.mp hn) (List.length_pos_iff.mpr hfull)
  · exact Bytes.eq_shortest_of_length (hread.mp hn)
  · have hm := hback m
    rw [hsame, hback n] at hm
    exact (Except.ok.inj hm).symm

/-- Challenges and committed values have one writing each that is shorter than all others, are
written so, and are read from all bytes but those of a number below zero. -/
theorem challenges_and_values_shortest :
    ShortestCodec Challenge.encode Challenge.decode (.malformed .challengeNegative) ∧
    ShortestCodec Bytes.shortest Pedersen.decodeValue (.unsuitable .commitValueNegative) :=
  ⟨.of_toNatural? fun _ => rfl, .of_toNatural? fun _ => rfl⟩

example : Challenge.encode 128 = [0, 128] ∧ Bytes.trimmed [0, 0, 128] = [0, 128] := by decide

end ThreeMove
