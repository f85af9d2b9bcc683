import ThreeMove.Prover

/-!
# The simulator

Transcripts made without a logarithm: the answer is drawn first, and the first message is
solved from the verifier's equation.
-/

namespace ThreeMove

structure Transcript where
  first : Message
  challenge : Challenge
  second : Message

abbrev Simulator (E : Type) (t : Nat) := Composition E t Unit Unit

/-- The simulator of the prover's statements. -/
def Prover.simulator {E : Type} {t : Nat} (prover : Prover E t) : Simulator E t :=
  prover.map (fun _ => ()) (fun _ => ())

namespace Simulator

variable {E : Type} {t : Nat}

def single (group : PrimeGroup E) (t : Nat) :
    Except ParameterFault (Component E Unit Unit) :=
  Component.one group t ()

/-- The first message that makes the answer `z` to the challenge `e` right. -/
def solve (group : PrimeGroup E) (h : E) (e : Challenge) (z : Nat) : E :=
  group.mul (group.pow group.generator z) (group.powInt h (-(e : Int)))

mutual

/-- The first and the second message of a transcript with the given challenge. -/
def messages : Simulator E t → CommonInput E → Challenge → Source →
    Except SigmaFault (Message × Message) × Source
  | .one params _, .one h, e, source =>
      match e.check t with
      | .error e => (.error e, source)
      | .ok () =>
          let group := params.group
          let (z, rest) := source.below group.order
          (.ok (.element (group.encode (solve group h e z)), .integer z group.scalarSize), rest)
  | .one _ _, .all _, _, source =>
      (.error (.misshapen .logarithmCommonInputExpected), source)
  | .all _ _ _, .one _, _, source =>
      (.error (.misshapen .compositeCommonInputExpected), source)
  | .all _ _ parts, .all inputs, e, source =>
      if inputs.length = parts.length then
        match e.check t with
        | .error e => (.error e, source)
        | .ok () =>
            let (result, rest) := messagesAll parts inputs e source
            (result.map fun (firsts, seconds) => (.tuple firsts, .tuple seconds), rest)
      else (.error (.misshapen .componentCountMismatch), source)

def messagesAll : List (Simulator E t) → List (CommonInput E) → Challenge → Source →
    Except SigmaFault (List Message × List Message) × Source
  | part :: parts, input :: inputs, e, source =>
      match messages part input e source with
      | (.error e, rest) => (.error e, rest)
      | (.ok (a, z), rest) =>
          let (result, rest) := messagesAll parts inputs e rest
          (result.map fun (firsts, seconds) => (a :: firsts, z :: seconds), rest)
  | _, _, _, source => (.ok ([], []), source)

end

def simulate (simulator : Simulator E t) (input : CommonInput E) (challenge : Challenge)
    (source : Source) : Except SigmaFault Transcript × Source :=
  let (result, rest) := simulator.messages input challenge source
  (result.map fun (a, z) => ⟨a, challenge, z⟩, rest)

/-- Simulates under a challenge that is drawn first. -/
def simulateRandom (simulator : Simulator E t) (input : CommonInput E) (source : Source) :
    Except SigmaFault Transcript × Source :=
  let (challenge, rest) := Challenge.sample t source
  simulator.simulate input challenge rest

end Simulator

end ThreeMove
