import ThreeMove.Pedersen.Committer
import ThreeMove.Verifier

/-!
# The verifier with a committed challenge

Commits to a fresh challenge, reads the first message, opens the commitment and reads the
answer.  A malformed message is rejected once the exchange is over.  Nothing is kept from
one run to the next.
-/

namespace ThreeMove.ZeroKnowledge

structure Verifier (E : Type) (t : Nat) where
  computation : ThreeMove.Verifier E t
  committer : Pedersen.Committer E

namespace Verifier

variable {E : Type} {t : Nat}

/-- Receives a key in the group of the first statement. -/
def create (computation : ThreeMove.Verifier E t) : Action Unit ProofFault (Verifier E t) := do
  let committer ← Action.within id (fun _ state => state) ProofFault.ofCommitment
    (Pedersen.Committer.create computation.group)
  return ⟨computation, committer⟩

def onCommitter {α : Type} (x : Action (Pedersen.Committer E) CommitmentFault α) :
    Action (Verifier E t) ProofFault α :=
  Action.within committer (fun party committer => { party with committer }) .ofCommitment x

def sampleChallenge : Action (Verifier E t) ProofFault Challenge := do
  let party ← Action.get
  let (challenge, computation) ← Action.draw fun source =>
    let (challenge, computation, rest) := party.computation.sampleChallenge source
    ((challenge, computation), rest)
  Action.modify fun party => { party with computation }
  return challenge

/-- The exchange of the messages `a` and `z`; a malformed one is given as `none`. -/
def exchange (id : Id) : Action (Verifier E t) ProofFault (Option Message × Option Message) := do
  let challenge ← sampleChallenge
  onCommitter (Pedersen.Committer.commit challenge id)
  let computation := (← Action.get).computation
  let first ← Action.receive .channel
  let a := (Message.decode computation.firstLayout first).toOption
  onCommitter (Pedersen.Committer.decommit id)
  let second ← Action.receive .channel
  let z := (Message.decode computation.secondLayout second).toOption
  return (a, z)

/-- The verdict on two messages that are not malformed. -/
def judge [DecidableEq E] (input : CommonInput E) (a z : Message) :
    Action (Verifier E t) ProofFault Bool := do
  let computation := (← Action.get).computation
  Action.ofExcept ((computation.verify input a z).mapError ProofFault.ofSigma)

/-- Removes the commitment and the challenge. -/
def clear (id : Id) (party : Verifier E t) : Verifier E t :=
  ⟨party.computation.clearChallenge, party.committer.erase id⟩

/-- Runs under a drawn identifier and clears what the run has left, however it ends. -/
def underFreshId {α : Type} (run : Id → Action (Verifier E t) ProofFault α) :
    Action (Verifier E t) ProofFault α := do
  let id ← Action.draw Source.word
  (run id).afterwards (clear id)

def verify [DecidableEq E] (input : CommonInput E) : Action (Verifier E t) ProofFault Bool :=
  underFreshId fun id => do
    match ← exchange id with
    | (some a, some z) => judge input a z
    | _ => return false

end Verifier

end ThreeMove.ZeroKnowledge
