import ThreeMove.Composition
import ThreeMove.Input
import ThreeMove.Outcome

/-!
# The prover's moves

For each statement the prover draws a nonce and sends its power of the generator; under a
challenge it answers with the nonce plus the challenge times the logarithm.  An answer uses
the nonce up.  A conjunction makes the moves of its components from left to right and stops
at the first that fails.
-/

namespace ThreeMove

/-- A first message that is still to be answered. -/
structure Pending where
  nonce : Nat
  logarithm : Nat

abbrev Prover (E : Type) (t : Nat) := Composition E t (Option Pending) Unit

namespace Prover

variable {E : Type} {t : Nat}

def single (group : PrimeGroup E) (t : Nat) :
    Except ParameterFault (Component E (Option Pending) Unit) :=
  Component.one group t none

mutual

def first : Prover E t → ProverInput E → Source → Outcome SigmaFault Message (Prover E t)
  | .one params _, .one item, source =>
      let group := params.group
      let (nonce, rest) := source.below group.order
      (.ok (.element (group.encode (group.pow group.generator nonce))),
        .one params (some ⟨nonce, item.logarithm⟩), rest)
  | .one params state, .all _, source =>
      (.error (.misshapen .logarithmProverInputExpected), .one params state, source)
  | .all params state parts, .all inputs, source =>
      if parts.length = inputs.length then
        let (result, parts, rest) := firstAll parts inputs source
        (result.map .tuple, .all params state parts, rest)
      else
        (.error (.misshapen .componentCountMismatch), .all params state parts, source)
  | .all params state parts, .one _, source =>
      (.error (.misshapen .compositeProverInputExpected), .all params state parts, source)

def firstAll : List (Prover E t) → List (ProverInput E) → Source →
    Outcome SigmaFault (List Message) (List (Prover E t))
  | part :: parts, input :: inputs, source =>
      match first part input source with
      | (.error e, part, rest) => (.error e, part :: parts, rest)
      | (.ok message, part, rest) =>
          let (result, parts, rest) := firstAll parts inputs rest
          (result.map (message :: ·), part :: parts, rest)
  | parts, _, source => (.ok [], parts, source)

end

/-- The answer to a challenge, as an exponent modulo the order. -/
def answer (params : Parameters E t) (pending : Pending) (challenge : Challenge) : Message :=
  .integer ((pending.nonce + challenge * pending.logarithm) % params.group.order)
    params.group.scalarSize

mutual

def second : Prover E t → Challenge → Except SigmaFault Message × Prover E t
  | .one params none, _ =>
      (.error (.outOfOrder .secondBeforeFirst), .one params none)
  | .one params (some pending), challenge =>
      ((challenge.check t).map fun _ => answer params pending challenge, .one params none)
  | .all params state parts, challenge =>
      match challenge.check t with
      | .error e => (.error e, .all params state parts)
      | .ok () =>
          let (result, parts) := secondAll parts challenge
          (result.map .tuple, .all params state parts)

def secondAll : List (Prover E t) → Challenge →
    Except SigmaFault (List Message) × List (Prover E t)
  | [], _ => (.ok [], [])
  | part :: parts, challenge =>
      match second part challenge with
      | (.error e, part) => (.error e, part :: parts)
      | (.ok message, part) =>
          let (result, parts) := secondAll parts challenge
          (result.map (message :: ·), part :: parts)

end

end Prover

end ThreeMove
