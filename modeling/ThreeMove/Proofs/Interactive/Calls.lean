import ThreeMove.Interactive.Prover
import ThreeMove.Proofs.Talk.History

/-!
# Calls of the interactive prover

The prover is asked for a step or for a whole run.  A call that does not go with the state is
refused and changes nothing; any other call makes its steps one after the other.
-/

namespace ThreeMove.Interactive.Prover

open ThreeMove.Action

variable {E : Type} {t : Nat} {party : Prover E t}

inductive Step (E : Type) where
  | first (input : ProverInput E)
  | second

namespace Step

def act : Step E → Action (Prover E t) SigmaFault Unit
  | first input => Prover.first input
  | second => Prover.second

/-- The step can be made when a challenge is due, or when none is. -/
def awaits : Step E → Bool
  | first _ => false
  | second => true

def refusal : Step E → Reason
  | first _ => .firstWhileAwaiting
  | second => .secondBeforeFirst

end Step

theorem Step.act_of_ne {step : Step E} (hawaits : party.awaiting ≠ step.awaits)
    (source : Source) :
    step.act party source = .done (.error (.outOfOrder step.refusal), party, source) := by
  obtain ⟨computation, awaiting⟩ := party
  cases step with
  | first input =>
      cases awaiting with
      | false => exact (hawaits rfl).elim
      | true => rfl
  | second =>
      cases awaiting with
      | false => rfl
      | true => exact (hawaits rfl).elim

inductive Call (E : Type) where
  | step (step : Step E)
  | prove (input : ProverInput E)

namespace Call

def act : Call E → Action (Prover E t) SigmaFault Unit
  | step single => single.act
  | prove input => Prover.prove input

def awaits : Call E → Bool
  | step single => single.awaits
  | prove _ => false

def refusal : Call E → Reason
  | step single => single.refusal
  | prove _ => .firstWhileAwaiting

def steps : Call E → List (Step E)
  | step single => [single]
  | prove input => [.first input, .second]

end Call

theorem Call.act_of_ne {call : Call E} (hawaits : party.awaiting ≠ call.awaits)
    (source : Source) :
    call.act party source = .done (.error (.outOfOrder call.refusal), party, source) := by
  cases call with
  | step single => exact Step.act_of_ne hawaits source
  | prove input =>
      have hrefused : (Step.first input).act party source =
          .done (.error (.outOfOrder .firstWhileAwaiting), party, source) :=
        Step.act_of_ne hawaits source
      exact bind_of_failed hrefused _

theorem Call.act_eq_acts (call : Call E) :
    (call.act : Action (Prover E t) SigmaFault Unit) = acts Step.act call.steps := by
  cases call with
  | step single => exact (Action.bind_pure single.act).symm
  | prove input =>
      have hlast : (second : Action (Prover E t) SigmaFault Unit) =
          Action.bind second fun _ => Action.pure () := (Action.bind_pure second).symm
      exact congrArg (Action.bind (Prover.first input)) (funext fun _ => hlast)

abbrev StepEntry (E : Type) (t : Nat) := Entry (Step E) (Prover E t) SigmaFault

abbrev CallEntry (E : Type) (t : Nat) := Entry (Call E) (Prover E t) SigmaFault

/-- The block lists the steps of the call, with the same events. -/
def Spells (call : CallEntry E t) (block : List (StepEntry E t)) : Prop :=
  block.map Entry.call <+: call.call.steps ∧ block.flatMap Entry.events = call.events

end ThreeMove.Interactive.Prover
