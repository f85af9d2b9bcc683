import ThreeMove.Composition
import ThreeMove.Input

/-!
# The verifier's moves

The verifier keeps a challenge at every node.  It accepts an answer `z` to the message `a`
under the challenge `e` if the element `h` and `a` are members of the group and
`g ^ z = a * h ^ e`.  A conjunction accepts if all of its components do.
-/

namespace ThreeMove

abbrev Verifier (E : Type) (t : Nat) := Composition E t (Option Challenge) (Option Challenge)

namespace Verifier

variable {E : Type} {t : Nat}

def single (group : PrimeGroup E) (t : Nat) :
    Except ParameterFault (Component E (Option Challenge) (Option Challenge)) :=
  Component.one group t none

/-- The challenge at the root. -/
def challenge : Verifier E t → Option Challenge
  | .one _ challenge => challenge
  | .all _ challenge _ => challenge

def setChallenge (verifier : Verifier E t) (challenge : Challenge) : Verifier E t :=
  verifier.map (fun _ => some challenge) (fun _ => some challenge)

/-- Removes the challenge from every node. -/
def clearChallenge (verifier : Verifier E t) : Verifier E t :=
  verifier.map (fun _ => none) (fun _ => none)

@[simp] theorem challenge_setChallenge (verifier : Verifier E t) (e : Challenge) :
    (verifier.setChallenge e).challenge = some e := by
  cases verifier <;> rfl

@[simp] theorem challenge_clearChallenge (verifier : Verifier E t) :
    verifier.clearChallenge.challenge = none := by
  cases verifier <;> rfl

def sampleChallenge (verifier : Verifier E t) (source : Source) :
    Challenge × Verifier E t × Source :=
  let (challenge, rest) := Challenge.sample t source
  (challenge, verifier.setChallenge challenge, rest)

/-- The equation of a single statement. -/
def accepts [DecidableEq E] (group : PrimeGroup E) (h : E) (a : Bytes) (e : Challenge)
    (z : Nat) : Bool :=
  if group.isMember h then
    match group.decode a with
    | .ok a => group.pow group.generator z = group.mul a (group.pow h e)
    | .error _ => false
  else false

/-- The parts of a composite message for `count` components. -/
def components (count : Nat) : Message → Except SigmaFault (List Message)
  | .tuple parts =>
      if parts.length = count then .ok parts
      else .error (.misshapen .componentCountMismatch)
  | _ => .error (.misshapen .compositeMessageExpected)

mutual

def verify [DecidableEq E] :
    Verifier E t → CommonInput E → Message → Message → Except SigmaFault Bool
  | .one params challenge, .one h, .element a, .integer z _ =>
      match challenge with
      | some e => .ok (accepts params.group h a e z)
      | none => .error (.outOfOrder .verifiedWithoutChallenge)
  | .one _ _, .one _, _, _ => .error (.misshapen .elementAndIntegerExpected)
  | .one _ _, .all _, _, _ => .error (.misshapen .logarithmCommonInputExpected)
  | .all _ none _, _, _, _ => .error (.outOfOrder .verifiedWithoutChallenge)
  | .all _ (some _) _, .one _, _, _ =>
      .error (.misshapen .compositeCommonInputExpected)
  | .all _ (some _) parts, .all inputs, a, z =>
      if inputs.length = parts.length then do
        let firsts ← components parts.length a
        let seconds ← components parts.length z
        verifyAll parts inputs firsts seconds
      else .error (.misshapen .componentCountMismatch)

/-- Goes on after a rejection, so that a later component of the wrong shape is reported. -/
def verifyAll [DecidableEq E] : List (Verifier E t) → List (CommonInput E) → List Message →
    List Message → Except SigmaFault Bool
  | part :: parts, input :: inputs, a :: firsts, z :: seconds => do
      let accepted ← verify part input a z
      let others ← verifyAll parts inputs firsts seconds
      return accepted && others
  | _, _, _, _ => .ok true

end

end Verifier

end ThreeMove
