import ThreeMove.Action
import ThreeMove.Verifier

/-!
# The interactive verifier

Runs the verifier's moves on a channel.  A challenge is fixed before the first message is
read, sent after it, and used for one verdict only.  A malformed message is rejected and not
reported as a failure.  A step out of order is refused and changes nothing.
-/

namespace ThreeMove.Interactive

namespace Verifier

inductive Phase where
  | idle
  | challengeFixed
  | firstReceived
  | challengeSent
deriving DecidableEq, Repr

end Verifier

structure Verifier (E : Type) (t : Nat) where
  computation : ThreeMove.Verifier E t
  phase : Verifier.Phase
  /-- The first message, unless it was malformed. -/
  firstMessage : Option Message

namespace Verifier

variable {E : Type} {t : Nat}

def create (computation : ThreeMove.Verifier E t) : Verifier E t :=
  ⟨computation, .idle, none⟩

def setPhase (phase : Phase) : Action (Verifier E t) SigmaFault Unit :=
  Action.modify fun party => { party with phase }

/-- Goes on only in one of the given phases. -/
def inPhase (phases : List Phase) (reason : Reason) : Action (Verifier E t) SigmaFault Unit := do
  if phases.contains (← Action.get).phase then return ()
  else Action.fail (.outOfOrder reason)

def sampleChallenge : Action (Verifier E t) SigmaFault Challenge := do
  inPhase [.idle, .challengeFixed] .challengeChanged
  let party ← Action.get
  let (challenge, computation) ← Action.draw fun source =>
    let (challenge, computation, rest) := party.computation.sampleChallenge source
    ((challenge, computation), rest)
  Action.modify fun party => { party with computation, phase := .challengeFixed }
  return challenge

def setChallenge (challenge : Challenge) : Action (Verifier E t) SigmaFault Unit := do
  inPhase [.idle, .challengeFixed] .challengeChanged
  Action.modify fun party =>
    { party with
      computation := party.computation.setChallenge challenge
      phase := .challengeFixed }

def receiveFirst : Action (Verifier E t) SigmaFault Unit := do
  inPhase [.challengeFixed] .receivedBeforeSampling
  let bytes ← Action.receive .channel
  Action.modify fun party =>
    { party with
      firstMessage := (Message.decode party.computation.firstLayout bytes).toOption
      phase := .firstReceived }

def sendChallenge : Action (Verifier E t) SigmaFault Unit := do
  inPhase [.firstReceived] .sentBeforeReceiving
  match (← Action.get).computation.challenge with
  | none => Action.fail (.outOfOrder .sentBeforeSampling)
  | some challenge =>
      Action.send .channel challenge.encode
      setPhase .challengeSent

/-- The verdict on the two messages; a malformed one is rejected. -/
def judge [DecidableEq E] (computation : ThreeMove.Verifier E t) (input : CommonInput E)
    (a : Option Message) (z : Option Message) : Except SigmaFault Bool :=
  match a, z with
  | some a, some z => computation.verify input a z
  | _, _ => .ok false

/-- Reads the answer and judges it.  The challenge is gone afterwards. -/
def process [DecidableEq E] (input : CommonInput E) : Action (Verifier E t) SigmaFault Bool := do
  inPhase [.challengeSent] .verifiedBeforeSending
  let a := (← Action.get).firstMessage
  Action.modify fun party => { party with phase := .idle, firstMessage := none }
  let verdict : Action (Verifier E t) SigmaFault Bool := do
    let bytes ← Action.receive .channel
    let computation := (← Action.get).computation
    let z := (Message.decode computation.secondLayout bytes).toOption
    Action.ofExcept (judge computation input a z)
  verdict.afterwards fun party =>
    { party with computation := party.computation.clearChallenge }

def verify [DecidableEq E] (input : CommonInput E) : Action (Verifier E t) SigmaFault Bool := do
  let _ ← sampleChallenge
  receiveFirst
  sendChallenge
  process input

end Verifier

end ThreeMove.Interactive
