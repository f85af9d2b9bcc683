import ThreeMove.Challenge

/-!
# Messages of the commitment scheme

Every message starts with the identifier in eight bytes.  A commitment goes on with an
encoded element, an opening with the randomness in a fixed width and the value in its
shortest writing, and the record of a commit phase with the receiver's key and the
commitment.

The size of an encoded element is a natural number.  In machine words of 64 bits the lengths
`8 + elementSize` and `8 + 2 * elementSize` are exact for sizes below 2⁶³ - 4, and no element of
any group has an encoding of more bytes than that.
-/

namespace ThreeMove

namespace Pedersen

/-- A committed value is written as `Bytes.shortest` writes it; leading zeros are read too. -/
def decodeValue (bytes : Bytes) : Except CommitmentFault Nat :=
  match bytes.toNatural? with
  | some value => .ok value
  | none => .error (.unsuitable .commitValueNegative)

def encodeId (id : Id) : Bytes :=
  Bytes.ofNat 8 id.toNat

/-- Splits the identifier off the front. -/
def splitId (bytes : Bytes) : Except MessageFault (Id × Bytes) :=
  if bytes.length < 8 then .error (.malformed .identifierMissing)
  else .ok (UInt64.ofNat (Bytes.toNat (bytes.take 8)), bytes.drop 8)

structure Commitment where
  id : Id
  element : Bytes
deriving DecidableEq

structure Opening where
  id : Id
  randomness : Nat
  value : Nat
deriving DecidableEq

/-- What the receiver has seen of a commit phase: its own key and the commitment. -/
structure Record where
  id : Id
  key : Bytes
  element : Bytes
deriving DecidableEq

namespace Commitment

def encode (commitment : Commitment) : Bytes :=
  encodeId commitment.id ++ commitment.element

/-- In words the expected length is exact for element sizes below 2⁶⁴ - 8. -/
def decode (elementSize : Nat) (bytes : Bytes) : Except MessageFault Commitment := do
  if bytes.length ≠ 8 + elementSize then throw (.malformed .commitmentWrongSize)
  let (id, element) ← splitId bytes
  return ⟨id, element⟩

end Commitment

namespace Opening

def encode (scalarSize : Nat) (opening : Opening) : Except MessageFault Bytes :=
  match Bytes.ofNat? scalarSize opening.randomness with
  | some randomness =>
      .ok (encodeId opening.id ++ randomness ++ Bytes.shortest opening.value)
  | none => .error (.malformed .randomnessTooWide)

def decode (scalarSize : Nat) (bytes : Bytes) : Except MessageFault Opening := do
  let (id, rest) ← splitId bytes
  if rest.length < scalarSize then throw (.malformed .decommitmentTruncated)
  match Bytes.toNatural? (rest.drop scalarSize) with
  | some value => return ⟨id, Bytes.toNat (rest.take scalarSize), value⟩
  | none => throw (.malformed .committedValueNegative)

end Opening

namespace Record

def encode (record : Record) : Bytes :=
  encodeId record.id ++ record.key ++ record.element

/-- In words the expected length is exact for element sizes below 2⁶³ - 4. -/
def decode (elementSize : Nat) (bytes : Bytes) : Except MessageFault Record := do
  if bytes.length ≠ 8 + 2 * elementSize then throw (.malformed .recordWrongSize)
  let (id, rest) ← splitId bytes
  return ⟨id, rest.take elementSize, rest.drop elementSize⟩

end Record

end Pedersen

end ThreeMove
