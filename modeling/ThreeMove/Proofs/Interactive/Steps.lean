import ThreeMove.Interactive.Verifier
import ThreeMove.Proofs.Composition.Statements
import ThreeMove.Proofs.Talk.Runs

/-!
# The steps of an interactive verifier

Each step has its phases, and in any other phase it is refused and leaves everything as it is.
In its own phases a step does exactly what is said here, for every answer of the channel.
-/

namespace ThreeMove.Interactive.Verifier

open ThreeMove.Action

variable {E : Type} {t : Nat} {party : Verifier E t} {source : Source} {events : List Event}

inductive Step (E : Type) where
  | sampleChallenge
  | setChallenge (challenge : Challenge)
  | receiveFirst
  | sendChallenge
  | process (input : CommonInput E)

namespace Step

def act [DecidableEq E] : Step E → Action (Verifier E t) SigmaFault Unit
  | sampleChallenge => do
      let _ ← Verifier.sampleChallenge
  | setChallenge challenge => Verifier.setChallenge challenge
  | receiveFirst => Verifier.receiveFirst
  | sendChallenge => Verifier.sendChallenge
  | process input => do
      let _ ← Verifier.process input

/-- The phases in which the step can be made. -/
def phases : Step E → List Phase
  | sampleChallenge => [.idle, .challengeFixed]
  | setChallenge _ => [.idle, .challengeFixed]
  | receiveFirst => [.challengeFixed]
  | sendChallenge => [.firstReceived]
  | process _ => [.challengeSent]

def refusal : Step E → Reason
  | sampleChallenge => .challengeChanged
  | setChallenge _ => .challengeChanged
  | receiveFirst => .receivedBeforeSampling
  | sendChallenge => .sentBeforeReceiving
  | process _ => .verifiedBeforeSending

end Step

theorem inPhase_of_mem {phases : List Phase} {reason : Reason} (hphase : party.phase ∈ phases) :
    inPhase phases reason party source = .done (.ok (), party, source) := by
  change (if phases.contains party.phase then _ else _ : Action (Verifier E t) _ _) _ _ = _
  rw [if_pos (List.contains_iff_mem.mpr hphase)]
  rfl

theorem inPhase_of_notMem {phases : List Phase} {reason : Reason} (hphase : party.phase ∉ phases) :
    inPhase phases reason party source = .done (.error (.outOfOrder reason), party, source) := by
  change (if phases.contains party.phase then _ else _ : Action (Verifier E t) _ _) _ _ = _
  rw [if_neg (mt List.contains_iff_mem.mp hphase)]
  rfl

theorem Step.act_of_notMem [DecidableEq E] {step : Step E} (hphase : party.phase ∉ step.phases)
    (source : Source) :
    step.act party source = .done (.error (.outOfOrder step.refusal), party, source) := by
  have hrefused : inPhase step.phases step.refusal party source =
      .done (.error (.outOfOrder step.refusal), party, source) := inPhase_of_notMem hphase
  cases step with
  | sampleChallenge => exact bind_of_failed (bind_of_failed hrefused _) _
  | setChallenge challenge => exact bind_of_failed hrefused _
  | receiveFirst => exact bind_of_failed hrefused _
  | sendChallenge => exact bind_of_failed hrefused _
  | process input => exact bind_of_failed (bind_of_failed hrefused _) _

theorem verify_of_notMem [DecidableEq E] {input : CommonInput E}
    (hphase : party.phase ∉ [.idle, .challengeFixed]) (source : Source) :
    verify input party source = .done (.error (.outOfOrder .challengeChanged), party, source) :=
  bind_of_failed (bind_of_failed (inPhase_of_notMem hphase) _) _

theorem sampleChallenge_eq_done (hphase : party.phase ∈ [.idle, .challengeFixed]) :
    sampleChallenge party source = .done (.ok (Challenge.sample t source).1,
      ⟨party.computation.setChallenge (Challenge.sample t source).1, .challengeFixed,
        party.firstMessage⟩, (Challenge.sample t source).2) :=
  bind_of_done (inPhase_of_mem hphase) _

theorem setChallenge_eq_done (hphase : party.phase ∈ [.idle, .challengeFixed])
    (challenge : Challenge) :
    setChallenge challenge party source = .done (.ok (),
      ⟨party.computation.setChallenge challenge, .challengeFixed, party.firstMessage⟩, source) :=
  bind_of_done (inPhase_of_mem hphase) _

theorem runs_receiveFirst (hphase : party.phase ∈ [.challengeFixed])
    {outcome : Outcome SigmaFault Unit (Verifier E t)} :
    receiveFirst.Runs party source events outcome ↔
      (∃ fault, events = [.received (.error fault)] ∧
        outcome = (.error (.channel fault), party, source)) ∨
      ∃ bytes, events = [.received (.ok bytes)] ∧
        outcome = (.ok (), ⟨party.computation, .firstReceived,
          (Message.decode party.computation.firstLayout bytes).toOption⟩, source) := by
  unfold receiveFirst
  rw [runs_bind_of_done (inPhase_of_mem hphase), runs_receive_bind]
  refine or_congr Iff.rfl ?_
  constructor
  · intro h
    obtain ⟨bytes, rest, rfl, hstored⟩ := h
    obtain ⟨rfl, hout⟩ := Talk.trace_done.mp hstored
    exact ⟨bytes, rfl, hout⟩
  · intro h
    obtain ⟨bytes, rfl, hout⟩ := h
    exact ⟨bytes, [], rfl, Talk.trace_done.mpr ⟨rfl, hout⟩⟩

theorem runs_sendChallenge (hphase : party.phase ∈ [.firstReceived]) {challenge : Challenge}
    (hchallenge : party.computation.challenge = some challenge)
    {outcome : Outcome SigmaFault Unit (Verifier E t)} :
    sendChallenge.Runs party source events outcome ↔
      (∃ fault, events = [.sent challenge.encode (.error fault)] ∧
        outcome = (.error (.channel fault), party, source)) ∨
      events = [.sent challenge.encode (.ok ())] ∧
        outcome = (.ok (), { party with phase := .challengeSent }, source) := by
  unfold sendChallenge
  rw [runs_bind_of_done (inPhase_of_mem hphase), runs_get_bind, hchallenge]
  dsimp only
  rw [runs_send_bind]
  refine or_congr Iff.rfl ?_
  constructor
  · intro h
    obtain ⟨rest, rfl, hdone⟩ := h
    obtain ⟨rfl, hout⟩ := Talk.trace_done.mp hdone
    exact ⟨rfl, hout⟩
  · intro h
    obtain ⟨rfl, hout⟩ := h
    exact ⟨[], rfl, Talk.trace_done.mpr ⟨rfl, hout⟩⟩

theorem runs_process [DecidableEq E] {input : CommonInput E}
    (hphase : party.phase ∈ [.challengeSent])
    {outcome : Outcome SigmaFault Bool (Verifier E t)} :
    (process input).Runs party source events outcome ↔
      ∃ reply, events = [.received reply] ∧
        outcome = ((reply.mapError SigmaFault.channel).bind fun bytes =>
            judge party.computation input party.firstMessage
              (Message.decode party.computation.secondLayout bytes).toOption,
          ⟨party.computation.clearChallenge, .idle, none⟩, source) := by
  unfold process
  rw [runs_bind_of_done (inPhase_of_mem hphase), runs_get_bind, runs_modify_bind,
    runs_afterwards]
  constructor
  · intro h
    obtain ⟨result, state, rest, hverdict, rfl⟩ := h
    rcases runs_receive_bind.mp hverdict with ⟨fault, rfl, hout⟩ | ⟨bytes, others, rfl, hjudge⟩
    · cases hout
      exact ⟨.error fault, rfl, rfl⟩
    · rw [runs_get_bind] at hjudge
      obtain ⟨rfl, hout⟩ := Talk.trace_done.mp hjudge
      cases hout
      exact ⟨.ok bytes, rfl, rfl⟩
  · intro h
    obtain ⟨reply, rfl, rfl⟩ := h
    cases reply with
    | error fault =>
        exact ⟨_, _, _, runs_receive_bind.mpr (.inl ⟨fault, rfl, rfl⟩), rfl⟩
    | ok bytes => exact ⟨_, _, _, Runs.receive_bind (Talk.trace_done.mpr ⟨rfl, rfl⟩), rfl⟩

/-- How a whole run goes on until the verdict or the first failure, and what it leaves behind. -/
inductive Course [DecidableEq E] (computation : ThreeMove.Verifier E t) (kept : Option Message)
    (challenge : Challenge) (input : CommonInput E) :
    List Event → Except SigmaFault Bool → Verifier E t → Prop where
  | firstLost (fault : ChannelFault) :
      Course computation kept challenge input [.received (.error fault)] (.error (.channel fault))
        ⟨computation.setChallenge challenge, .challengeFixed, kept⟩
  | challengeLost (first : Bytes) (fault : ChannelFault) :
      Course computation kept challenge input
        [.received (.ok first), .sent challenge.encode (.error fault)] (.error (.channel fault))
        ⟨computation.setChallenge challenge, .firstReceived,
          (Message.decode computation.firstLayout first).toOption⟩
  | judged (first : Bytes) (reply : Except ChannelFault Bytes) :
      Course computation kept challenge input
        [.received (.ok first), .sent challenge.encode (.ok ()), .received reply]
        ((reply.mapError SigmaFault.channel).bind fun second =>
          judge (computation.setChallenge challenge) input
            (Message.decode computation.firstLayout first).toOption
            (Message.decode computation.secondLayout second).toOption)
        ⟨computation.clearChallenge, .idle, none⟩

theorem course_after_first [DecidableEq E] {computation : ThreeMove.Verifier E t}
    {kept : Option Message} {challenge : Challenge} {input : CommonInput E} {first : Bytes}
    {outcome : Outcome SigmaFault Bool (Verifier E t)}
    (hruns : (sendChallenge >>= fun _ => process input).Runs
      ⟨computation.setChallenge challenge, .firstReceived,
        (Message.decode computation.firstLayout first).toOption⟩ source events outcome) :
    outcome.2.2 = source ∧ Course computation kept challenge input
      (.received (.ok first) :: events) outcome.1 outcome.2.1 := by
  have hchallenge := computation.challenge_setChallenge challenge
  have hsecond : (computation.setChallenge challenge).secondLayout = computation.secondLayout :=
    Composition.secondLayout_map _ _ _
  have hcleared : (computation.setChallenge challenge).clearChallenge =
      computation.clearChallenge := Composition.map_map _ _ _ _ _
  rcases runs_bind.mp hruns with ⟨e, _, _, hsend, rfl⟩ |
    ⟨_, _, _, front, _, rfl, hsend, hprocess⟩
  · rcases (runs_sendChallenge List.mem_cons_self hchallenge).mp hsend with
      ⟨fault, rfl, hout⟩ | ⟨_, hout⟩
    · cases hout
      exact ⟨rfl, .challengeLost first fault⟩
    · cases hout
  · rcases (runs_sendChallenge List.mem_cons_self hchallenge).mp hsend with
      ⟨_, _, hout⟩ | ⟨rfl, hout⟩
    · cases hout
    · cases hout
      obtain ⟨reply, rfl, rfl⟩ := (runs_process List.mem_cons_self).mp hprocess
      dsimp only
      rw [hsecond, hcleared]
      exact ⟨rfl, .judged first reply⟩

/-- However the channel answers, a whole run draws a challenge and takes one of the courses. -/
theorem course_of_verify [DecidableEq E] {input : CommonInput E}
    (hphase : party.phase ∈ [.idle, .challengeFixed])
    {outcome : Outcome SigmaFault Bool (Verifier E t)}
    (hruns : (verify input).Runs party source events outcome) :
    outcome.2.2 = (Challenge.sample t source).2 ∧
      Course party.computation party.firstMessage (Challenge.sample t source).1 input events
        outcome.1 outcome.2.1 := by
  have hfirst : (party.computation.setChallenge (Challenge.sample t source).1).firstLayout =
      party.computation.firstLayout := Composition.firstLayout_map _ _ _
  have hrun := (runs_bind_of_done (sampleChallenge_eq_done hphase)).mp hruns
  rcases runs_bind.mp hrun with ⟨e, _, _, hreceive, rfl⟩ |
    ⟨_, _, _, front, _, rfl, hreceive, hanswer⟩
  · rcases (runs_receiveFirst List.mem_cons_self).mp hreceive with ⟨fault, rfl, hout⟩ | ⟨_, _, hout⟩
    · cases hout
      exact ⟨rfl, .firstLost fault⟩
    · cases hout
  · rcases (runs_receiveFirst List.mem_cons_self).mp hreceive with ⟨_, _, hout⟩ | ⟨first, rfl, hout⟩
    · cases hout
    · cases hout
      dsimp only at hanswer
      rw [hfirst] at hanswer
      exact course_after_first hanswer

end ThreeMove.Interactive.Verifier
