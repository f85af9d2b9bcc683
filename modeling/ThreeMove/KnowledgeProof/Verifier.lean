import ThreeMove.ZeroKnowledge.Verifier

/-!
# The verifier of knowledge

Runs the exchange of the zero-knowledge protocol and then reads the record of the commit
phase, which has to tell the key and the commitment of this run.
-/

namespace ThreeMove.KnowledgeProof

abbrev Verifier (E : Type) (t : Nat) := ZeroKnowledge.Verifier E t

namespace Verifier

variable {E : Type} {t : Nat}

def create (computation : ThreeMove.Verifier E t) : Action Unit ProofFault (Verifier E t) :=
  ZeroKnowledge.Verifier.create computation

def verify [DecidableEq E] (input : CommonInput E) : Action (Verifier E t) ProofFault Bool :=
  ZeroKnowledge.Verifier.underFreshId fun id => do
    let (a, z) ← ZeroKnowledge.Verifier.exchange id
    let bytes ← Action.receive .channel
    let party ← Action.get
    let record := Pedersen.Record.decode party.computation.group.elementSize bytes
    match a, z, record with
    | some a, some z, .ok record =>
        let accepted ← ZeroKnowledge.Verifier.judge input a z
        return record.id == id && party.committer.confirms record && accepted
    | _, _, _ => return false

end Verifier

end ThreeMove.KnowledgeProof
