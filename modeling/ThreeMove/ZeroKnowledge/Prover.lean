import ThreeMove.Pedersen.Receiver
import ThreeMove.Prover

/-!
# The prover against a committed challenge

The verifier commits to its challenge before the first message and opens it afterwards, so
that it cannot choose the challenge by the message.  The commitments are made under a key of
the prover.
-/

namespace ThreeMove.ZeroKnowledge

structure Prover (E : Type) (t : Nat) where
  computation : ThreeMove.Prover E t
  receiver : Pedersen.Receiver E

namespace Prover

variable {E : Type} {t : Nat}

/-- Makes a key in the group of the first statement and sends it. -/
def create (computation : ThreeMove.Prover E t) : Action Unit ProofFault (Prover E t) := do
  let receiver ← Action.within id (fun _ state => state) ProofFault.ofCommitment
    (Pedersen.Receiver.create computation.group)
  return ⟨computation, receiver⟩

def onReceiver {α : Type} (x : Action (Pedersen.Receiver E) CommitmentFault α) :
    Action (Prover E t) ProofFault α :=
  Action.within receiver (fun party receiver => { party with receiver }) .ofCommitment x

def compute {α : Type}
    (step : ThreeMove.Prover E t → Source → Outcome SigmaFault α (ThreeMove.Prover E t)) :
    Action (Prover E t) ProofFault α :=
  Action.within computation (fun party computation => { party with computation }) .ofSigma
    (Action.ofStep step)

def sendMessage (message : Message) : Action (Prover E t) ProofFault Unit := do
  let bytes ← Action.ofExcept (message.encode.mapError ProofFault.message)
  Action.send .channel bytes

/-- Computes the first message and sends it. -/
def sendFirst (input : ProverInput E) : Action (Prover E t) ProofFault Unit := do
  let message ← compute fun computation source => computation.first input source
  sendMessage message

/-- Computes the answer to the challenge and sends it. -/
def sendSecond (challenge : Challenge) : Action (Prover E t) ProofFault Unit := do
  let message ← compute fun computation source =>
    let (result, computation) := computation.second challenge
    (result, computation, source)
  sendMessage message

def prove (input : ProverInput E) : Action (Prover E t) ProofFault Unit := do
  let record ← onReceiver Pedersen.Receiver.receiveRecord
  sendFirst input
  let challenge ← onReceiver (Pedersen.Receiver.receiveOpening record.id)
  sendSecond challenge

end Prover

end ThreeMove.ZeroKnowledge
