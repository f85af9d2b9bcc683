import Mathlib.Data.List.DropRight
import ThreeMove.Proofs.Composition.Verdict
import ThreeMove.Proofs.Interactive.Steps
import ThreeMove.Proofs.Talk.History

/-!
# Logs of an interactive verifier

A log lists the steps that were called, with their events.  The run that is going on consists of
the calls since the last verdict was due, and the challenge of the run is the one that was fixed
last.
-/

namespace ThreeMove.Interactive.Verifier

open ThreeMove.Action

variable {E : Type} {t : Nat}

abbrev StepEntry (E : Type) (t : Nat) := Entry (Step E) (Verifier E t) SigmaFault

variable {log run : List (StepEntry E t)} {entry : StepEntry E t} {e : Challenge}
  {exchanged : List Event}

def concludes (entry : StepEntry E t) : Bool :=
  match entry.call with
  | .process _ => entry.state.phase == .challengeSent
  | _ => false

/-- The calls since the last one that ended a run. -/
def currentRun (log : List (StepEntry E t)) : List (StepEntry E t) :=
  log.rtakeWhile fun entry => !concludes entry

theorem currentRun_snoc (hentry : concludes entry = false) :
    currentRun (log ++ [entry]) = currentRun log ++ [entry] := by
  unfold currentRun
  rw [List.rtakeWhile_concat, if_pos (by simp [hentry])]

theorem currentRun_concluded (hentry : concludes entry = true) :
    currentRun (log ++ [entry]) = [] := by
  unfold currentRun
  rw [List.rtakeWhile_concat, if_neg (by simp [hentry])]

/-- What was done on the channel without a failure. -/
def exchange (log : List (StepEntry E t)) : List Event :=
  (log.flatMap Entry.events).filter Event.succeeded

theorem exchange_append (front back : List (StepEntry E t)) :
    exchange (front ++ back) = exchange front ++ exchange back := by
  unfold exchange
  rw [List.flatMap_append, List.filter_append]

structure Fixes (e : Challenge) (entry : StepEntry E t) : Prop where
  call : entry.call = .setChallenge e ∨
    entry.call = .sampleChallenge ∧ (Challenge.sample t entry.source).1 = e
  result : entry.result = .ok ()

theorem Fixes.phases_eq (hfixes : Fixes e entry) :
    entry.call.phases = [.idle, .challengeFixed] := by
  rcases hfixes.call with hcall | ⟨hcall, _⟩ <;> rw [hcall, Step.phases]

/-- The challenge was fixed in the run before anything was exchanged, and it has been the
challenge of every node since then. -/
def FixedIn (e : Challenge) (run : List (StepEntry E t)) (exchanged : List Event) : Prop :=
  ∃ front fixing back, run = front ++ fixing :: back ∧ Fixes e fixing ∧
    exchange (front ++ [fixing]) = [] ∧ exchange back = exchanged ∧
    ∀ entry ∈ back, (∀ other, ¬ Fixes other entry) ∧
      ∀ held ∈ entry.state.computation.remembered, held = some e

namespace FixedIn

theorem exchange_eq (hfixed : FixedIn e run exchanged) : exchange run = exchanged := by
  obtain ⟨front, fixing, back, rfl, _, hsilent, rfl, _⟩ := hfixed
  rw [List.append_cons, exchange_append, hsilent]
  rfl

/-- A challenge that is fixed before anything is exchanged replaces the one before. -/
theorem fix (hsilent : exchange run = []) (hfixes : Fixes e entry) (hevents : entry.events = []) :
    FixedIn e (run ++ [entry]) [] := by
  -- all calls so far, those that fixed another challenge too, come before the one that counts
  refine ⟨run, entry, [], rfl, hfixes, ?_, rfl, fun _ hmem => (List.not_mem_nil hmem).elim⟩
  rw [exchange_append, hsilent]
  simp [exchange, hevents]

theorem snoc {more : List Event} (hfixed : FixedIn e run exchanged)
    (hkeeps : ∀ other, ¬ Fixes other entry)
    (hheld : ∀ held ∈ entry.state.computation.remembered, held = some e)
    (hmore : entry.events.filter Event.succeeded = more) :
    FixedIn e (run ++ [entry]) (exchanged ++ more) := by
  obtain ⟨front, fixing, back, rfl, hfixes, hsilent, rfl, hkept⟩ := hfixed
  refine ⟨front, fixing, back ++ [entry], by simp, hfixes, hsilent, ?_, ?_⟩
  · rw [exchange_append, ← hmore]
    simp [exchange]
  · intro other hother
    rcases List.mem_append.mp hother with hother | hother
    · exact hkept other hother
    · rw [List.mem_singleton.mp hother]
      exact ⟨hkeeps, hheld⟩

end FixedIn

inductive Call (E : Type) where
  | step (step : Step E)
  | verify (input : CommonInput E)

namespace Call

def act [DecidableEq E] : Call E → Action (Verifier E t) SigmaFault Unit
  | step single => single.act
  | verify input => do
      let _ ← Verifier.verify input

def phases : Call E → List Phase
  | step single => single.phases
  | verify _ => [.idle, .challengeFixed]

def refusal : Call E → Reason
  | step single => single.refusal
  | verify _ => .challengeChanged

def steps : Call E → List (Step E)
  | step single => [single]
  | verify input => [.sampleChallenge, .receiveFirst, .sendChallenge, .process input]

end Call

abbrev CallEntry (E : Type) (t : Nat) := Entry (Call E) (Verifier E t) SigmaFault

def Spells (call : CallEntry E t) (block : List (StepEntry E t)) : Prop :=
  block.map Entry.call <+: call.call.steps ∧ block.flatMap Entry.events = call.events

variable [DecidableEq E]

theorem Call.act_of_notMem {call : Call E} {party : Verifier E t}
    (hphase : party.phase ∉ call.phases) (source : Source) :
    call.act party source = .done (.error (.outOfOrder call.refusal), party, source) := by
  cases call with
  | step single => exact Step.act_of_notMem hphase source
  | verify input => exact bind_of_failed (verify_of_notMem hphase source) _

theorem Call.act_eq_acts (call : Call E) :
    (call.act : Action (Verifier E t) SigmaFault Unit) = acts Step.act call.steps := by
  have hdone : ∀ x : Action (Verifier E t) SigmaFault Unit,
      x = Action.bind x fun _ => Action.pure () := fun x => (Action.bind_pure x).symm
  cases call with
  | step single => exact hdone single.act
  | verify input =>
      change Action.bind (Action.bind sampleChallenge fun _ => Action.bind receiveFirst fun _ =>
        Action.bind sendChallenge fun _ => process input) (fun _ => Action.pure ()) =
        Action.bind (Action.bind sampleChallenge fun _ => Action.pure ()) fun _ =>
          Action.bind receiveFirst fun _ => Action.bind sendChallenge fun _ =>
            Action.bind (Action.bind (process input) fun _ => Action.pure ()) fun _ =>
              Action.pure ()
      simp only [Action.bind_assoc, Action.pure_bind]

theorem blocks_of_history {start party : Verifier E t} {origin source : Source}
    {calls : List (CallEntry E t)} (history : History Call.act start origin calls party source) :
    ∃ blocks : List (List (StepEntry E t)), List.Forall₂ Spells calls blocks ∧
      History Step.act start origin blocks.flatten party source :=
  history.exists_blocks Call.act_eq_acts

end ThreeMove.Interactive.Verifier
