import ThreeMove.ZeroKnowledge.Prover

/-!
# The prover of knowledge

As in the zero-knowledge protocol the verifier commits to its challenge, and at the end the
prover also gives the record of the commit phase.  The run is divided into four steps; a step
out of order is refused and changes nothing, and a step that fails ends the run.
-/

namespace ThreeMove.KnowledgeProof

namespace Prover

inductive Phase where
  | idle
  | committed (record : Pedersen.Record)
  | firstSent (record : Pedersen.Record)
  | opened (record : Pedersen.Record) (challenge : Challenge)

end Prover

structure Prover (E : Type) (t : Nat) where
  base : ZeroKnowledge.Prover E t
  phase : Prover.Phase

namespace Prover

variable {E : Type} {t : Nat}

def create (computation : ThreeMove.Prover E t) : Action Unit ProofFault (Prover E t) := do
  let base ← ZeroKnowledge.Prover.create computation
  return ⟨base, .idle⟩

def onBase {α : Type} (x : Action (ZeroKnowledge.Prover E t) ProofFault α) :
    Action (Prover E t) ProofFault α :=
  Action.within base (fun party base => { party with base }) id x

def setPhase (phase : Phase) : Action (Prover E t) ProofFault Unit :=
  Action.modify fun party => { party with phase }

def refuse {α : Type} (reason : Reason) : Action (Prover E t) ProofFault α :=
  Action.fail (.ofSigma (.outOfOrder reason))

def receiveCommitment : Action (Prover E t) ProofFault Pedersen.Record := do
  match (← Action.get).phase with
  | .idle =>
      let record ← onBase (ZeroKnowledge.Prover.onReceiver Pedersen.Receiver.receiveRecord)
      setPhase (.committed record)
      return record
  | _ => refuse .commitmentDuringRun

def first (input : ProverInput E) : Action (Prover E t) ProofFault Unit := do
  match (← Action.get).phase with
  | .committed record =>
      setPhase .idle
      onBase (ZeroKnowledge.Prover.sendFirst input)
      setPhase (.firstSent record)
  | _ => refuse .firstBeforeCommitment

def receiveOpening : Action (Prover E t) ProofFault Challenge := do
  match (← Action.get).phase with
  | .firstSent record =>
      setPhase .idle
      let challenge ← onBase
        (ZeroKnowledge.Prover.onReceiver (Pedersen.Receiver.receiveOpening record.id))
      setPhase (.opened record challenge)
      return challenge
  | _ => refuse .openedBeforeFirst

def second : Action (Prover E t) ProofFault Unit := do
  match (← Action.get).phase with
  | .opened record challenge =>
      setPhase .idle
      onBase (ZeroKnowledge.Prover.sendSecond challenge)
      Action.send .channel record.encode
  | _ => refuse .secondBeforeOpening

def prove (input : ProverInput E) : Action (Prover E t) ProofFault Unit := do
  let _ ← receiveCommitment
  first input
  let _ ← receiveOpening
  second

end Prover

end ThreeMove.KnowledgeProof
