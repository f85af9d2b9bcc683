import ThreeMove.Pedersen.Committer

/-!
# The receiver

The receiver draws the logarithm of its key, the trapdoor with which a commitment could be
opened to any value.  It keeps each commitment until its opening has been checked, whether
the opening was right or not.
-/

namespace ThreeMove.Pedersen

structure Receiver (E : Type) where
  group : PrimeGroup E
  trapdoor : Nat
  key : E
  commitments : Ledger E

namespace Receiver

variable {E : Type}

def generate (group : PrimeGroup E) (source : Source) :
    Except CommitmentFault (Receiver E) × Source :=
  match checkGroupDrawing group source with
  | (.error e, rest) => (.error e, rest)
  | (.ok (), rest) =>
      let (trapdoor, rest) := rest.below group.order
      (.ok ⟨group, trapdoor, group.pow group.generator trapdoor, .empty⟩, rest)

/-- Sends the key. -/
def create (group : PrimeGroup E) : Action Unit CommitmentFault (Receiver E) := do
  let receiver ← Action.ofStep fun _ source =>
    let (result, rest) := generate group source
    (result, (), rest)
  Action.send .channel (group.encode receiver.key)
  return receiver

def record (commitment : Commitment) (receiver : Receiver E) :
    Except CommitmentFault Id × Receiver E :=
  match decodeElement receiver.group commitment.element with
  | .error e => (.error e, receiver)
  | .ok element =>
      (.ok commitment.id,
        { receiver with commitments := receiver.commitments.insert commitment.id element })

/-- The opening of a commitment: its value is below the order and it gives the same bytes. -/
def opens (group : PrimeGroup E) (key element : E) (opening : Opening) :
    Except CommitmentFault Nat :=
  if group.order ≤ opening.value then .error (.cheating .openedValueOutOfRange)
  else if group.encode element =
      group.encode (hide group key opening.randomness opening.value) then .ok opening.value
  else .error (.cheating .openingMismatch)

def verifyOpening (opening : Opening) (receiver : Receiver E) :
    Except CommitmentFault Nat × Receiver E :=
  match receiver.commitments.get? opening.id with
  | none => (.error (.cheating .nothingReceived), receiver)
  | some element =>
      (opens receiver.group receiver.key element opening,
        { receiver with commitments := receiver.commitments.erase opening.id })

def receiveCommitment : Action (Receiver E) CommitmentFault Id := do
  let bytes ← Action.receive .channel
  let receiver ← Action.get
  let commitment ← Action.ofExcept
    ((Commitment.decode receiver.group.elementSize bytes).mapError CommitmentFault.message)
  Action.ofPure (record commitment)

/-- Receives the opening of the commitment under `id`.  An opening under another identifier
uses that commitment up. -/
def receiveOpening (id : Id) : Action (Receiver E) CommitmentFault Nat := do
  let bytes ← Action.receive .channel
  let receiver ← Action.get
  let opening ← Action.ofExcept
    ((Opening.decode receiver.group.scalarSize bytes).mapError CommitmentFault.message)
  if opening.id = id then Action.ofPure (verifyOpening opening)
  else
    Action.modify fun receiver =>
      { receiver with commitments := receiver.commitments.erase id }
    Action.fail (.cheating .identifierMismatch)

/-- Receives a commitment and gives the record of it. -/
def receiveRecord : Action (Receiver E) CommitmentFault Record := do
  let id ← receiveCommitment
  let receiver ← Action.get
  match receiver.commitments.get? id with
  | some element =>
      return ⟨id, receiver.group.encode receiver.key, receiver.group.encode element⟩
  | none => Action.fail (.unsuitable .commitmentNotRecorded)

end Receiver

end ThreeMove.Pedersen
