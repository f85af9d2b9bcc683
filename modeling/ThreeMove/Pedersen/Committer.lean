import ThreeMove.Action
import ThreeMove.Group.Basic
import ThreeMove.Pedersen.Ledger
import ThreeMove.Pedersen.Message

/-!
# The committer

A commitment to `x` with randomness `r` is the element `g ^ r * h ^ x`, where `h` is the
receiver's key.  The committer keeps what it needs for the opening until the commitment is
removed; a new commitment under an identifier takes the place of the old one.
-/

namespace ThreeMove.Pedersen

variable {E : Type}

/-- The element that hides `value` with the given randomness. -/
def hide (group : PrimeGroup E) (key : E) (randomness value : Nat) : E :=
  group.mul (group.pow group.generator randomness) (group.pow key value)

/-- Commitments need a valid group in which logarithms are declared to be hard. -/
def checkGroup (group : PrimeGroup E) : Except CommitmentFault Unit :=
  if !group.hidesLogarithms then .error (.unsuitable .hardnessUndeclared)
  else if !group.isValid then .error (.unsuitable .groupInvalid)
  else .ok ()

/-- The same check with drawn witnesses. -/
def checkGroupDrawing (group : PrimeGroup E) (source : Source) :
    Except CommitmentFault Unit × Source :=
  if !group.hidesLogarithms then (.error (.unsuitable .hardnessUndeclared), source)
  else
    match group.checkValid source with
    | (true, rest) => (.ok (), rest)
    | (false, rest) => (.error (.unsuitable .groupInvalid), rest)

/-- Whoever sends an encoding of no element is cheating. -/
def decodeElement (group : PrimeGroup E) (bytes : Bytes) : Except CommitmentFault E :=
  match group.decode bytes with
  | .ok element => .ok element
  | .error _ => .error (.cheating .elementInvalid)

/-- A commitment and its opening. -/
structure Secret (E : Type) where
  randomness : Nat
  value : Nat
  element : E

structure Committer (E : Type) where
  group : PrimeGroup E
  key : E
  secrets : Ledger (Secret E)

namespace Committer

/-- A committer for the encoded key of a receiver. -/
def ofKey (group : PrimeGroup E) (key : Bytes) : Except CommitmentFault (Committer E) := do
  checkGroup group
  let key ← decodeElement group key
  return ⟨group, key, .empty⟩

/-- Receives the key. -/
def create (group : PrimeGroup E) : Action Unit CommitmentFault (Committer E) := do
  let key ← Action.receive .channel
  Action.ofExcept (ofKey group key)

def erase (committer : Committer E) (id : Id) : Committer E :=
  { committer with secrets := committer.secrets.erase id }

def sampleValue (committer : Committer E) (source : Source) : Nat × Source :=
  source.below committer.group.order

/-- Commits to a value below the order. -/
def commitTo (value : Nat) (id : Id) (committer : Committer E) (source : Source) :
    Outcome CommitmentFault Commitment (Committer E) :=
  let group := committer.group
  if group.order ≤ value then
    (.error (.unsuitable .commitValueOutOfRange), committer, source)
  else
    let (randomness, rest) := source.below group.order
    let element := hide group committer.key randomness value
    let secrets := committer.secrets.insert id ⟨randomness, value, element⟩
    (.ok ⟨id, group.encode element⟩, { committer with secrets }, rest)

/-- Opens a commitment, which stays open to be opened again. -/
def openingOf (id : Id) (committer : Committer E) : Except CommitmentFault Opening :=
  match committer.secrets.get? id with
  | some secret => .ok ⟨id, secret.randomness, secret.value⟩
  | none => .error (.unsuitable .nothingCommitted)

def commit (value : Nat) (id : Id) : Action (Committer E) CommitmentFault Unit := do
  let commitment ← Action.ofStep (commitTo value id)
  Action.send .channel commitment.encode

def decommit (id : Id) : Action (Committer E) CommitmentFault Unit := do
  let committer ← Action.get
  let opening ← Action.ofExcept (committer.openingOf id)
  let bytes ← Action.ofExcept
    ((opening.encode committer.group.scalarSize).mapError CommitmentFault.message)
  Action.send .channel bytes

/-- The record tells the key and the commitment that the committer keeps under its
identifier. -/
def confirms (committer : Committer E) (record : Record) : Bool :=
  match committer.secrets.get? record.id with
  | some secret =>
      committer.group.encode committer.key == record.key
        && committer.group.encode secret.element == record.element
  | none => false

end Committer

end ThreeMove.Pedersen
