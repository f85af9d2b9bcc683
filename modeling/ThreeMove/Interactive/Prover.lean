import ThreeMove.Action
import ThreeMove.Prover

/-!
# The interactive prover

Runs the prover's moves on a channel: it sends the first message, receives the challenge in
the clear and sends the answer.  A step out of order is refused and changes nothing.
-/

namespace ThreeMove.Interactive

structure Prover (E : Type) (t : Nat) where
  computation : ThreeMove.Prover E t
  /-- The first message was sent, and its challenge is due. -/
  awaiting : Bool

namespace Prover

variable {E : Type} {t : Nat}

def create (computation : ThreeMove.Prover E t) : Prover E t :=
  ⟨computation, false⟩

/-- A step of the computation within the party. -/
def compute {α : Type}
    (step : ThreeMove.Prover E t → Source → Outcome SigmaFault α (ThreeMove.Prover E t)) :
    Action (Prover E t) SigmaFault α :=
  Action.within computation (fun party computation => { party with computation }) id
    (Action.ofStep step)

def sendMessage (message : Message) : Action (Prover E t) SigmaFault Unit := do
  let bytes ← Action.ofExcept (message.encode.mapError SigmaFault.message)
  Action.send .channel bytes

def setAwaiting (awaiting : Bool) : Action (Prover E t) SigmaFault Unit :=
  Action.modify fun party => { party with awaiting }

/-- The prover awaits a challenge only if its first message was sent. -/
def first (input : ProverInput E) : Action (Prover E t) SigmaFault Unit := do
  if (← Action.get).awaiting then Action.fail (.outOfOrder .firstWhileAwaiting)
  else
    let message ← compute fun computation source => computation.first input source
    sendMessage message
    setAwaiting true

/-- Whatever the challenge is, the prover awaits no other one. -/
def second : Action (Prover E t) SigmaFault Unit := do
  if (← Action.get).awaiting then
    setAwaiting false
    let bytes ← Action.receive .channel
    let challenge ← Action.ofExcept
      ((Challenge.decode bytes).mapError fun _ => .cheating .challengeNegative)
    let message ← compute fun computation source =>
      let (result, computation) := computation.second challenge
      (result, computation, source)
    sendMessage message
  else Action.fail (.outOfOrder .secondBeforeFirst)

def prove (input : ProverInput E) : Action (Prover E t) SigmaFault Unit := do
  first input
  second

end Prover

end ThreeMove.Interactive
