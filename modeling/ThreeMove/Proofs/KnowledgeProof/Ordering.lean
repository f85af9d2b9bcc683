import ThreeMove.Proofs.KnowledgeProof.Course
import ThreeMove.Proofs.KnowledgeProof.Safety

/-!
# Calls out of order

A call that does not fit the phase of the run is refused and leaves no trace, so the run goes on
as if the call had not been made.  A call that fits and fails ends the run, and is never told to
be out of order.
-/

namespace ThreeMove.KnowledgeProof.Prover

open ThreeMove.Action
open ZeroKnowledge.Prover (onReceiver sendFirst sendSecond runs_onReceiver runs_sendFirst
  runs_sendSecond)

variable {E : Type} {t : Nat} {origin party party' : Prover E t} {source source' : Source}
  {events : List Event}

namespace Step

def allowed : Step E → Phase → Bool
  | receiveCommitment, .idle => true
  | first _, .committed _ => true
  | receiveOpening, .firstSent _ => true
  | second, .opened _ _ => true
  | _, _ => false

def leadsTo : Step E → Phase → Bool
  | receiveCommitment, .committed _ => true
  | first _, .firstSent _ => true
  | receiveOpening, .opened _ _ => true
  | second, .idle => true
  | _, _ => false

def refusal : Step E → Reason
  | receiveCommitment => .commitmentDuringRun
  | first _ => .firstBeforeCommitment
  | receiveOpening => .openedBeforeFirst
  | second => .secondBeforeOpening

theorem act_of_not_allowed (step : Step E) (hrefused : step.allowed party.phase = false)
    (source : Source) :
    step.act party source =
      .done (.error (.sigma (.outOfOrder step.refusal)), party, source) := by
  obtain ⟨base, phase⟩ := party
  cases step <;> cases phase <;> first | rfl | cases hrefused

end Step

namespace Call

def allowed : Call E → Phase → Bool
  | step single, phase => single.allowed phase
  | prove _, phase => Step.receiveCommitment.allowed (E := E) phase

def refusal : Call E → Reason
  | step single => single.refusal
  | prove _ => Step.receiveCommitment.refusal (E := E)

theorem act_of_not_allowed (call : Call E) (hrefused : call.allowed party.phase = false)
    (source : Source) :
    call.act party source =
      .done (.error (.sigma (.outOfOrder call.refusal)), party, source) := by
  cases call with
  | step single => exact single.act_of_not_allowed hrefused source
  | prove input =>
      obtain ⟨base, phase⟩ := party
      cases phase <;> first | rfl | cases hrefused

end Call

/-- The computation has a proof to go on with whenever the run is past its first message. -/
def Pends (party : Prover E t) : Prop :=
  match party.phase with
  | .idle | .committed _ => True
  | .firstSent _ | .opened _ _ => ∃ begun : Begun E t, party.base.computation = begun.prover

def InOrder (e : ProofFault) : Prop :=
  ∀ reason, e ≠ .sigma (.outOfOrder reason)

theorem inOrder_ofCommitment (e : CommitmentFault) : InOrder (.ofCommitment e) := by
  cases e <;> nofun

theorem inOrder_of_onReceiver {α : Type} {x : Action (Pedersen.Receiver E) CommitmentFault α}
    {base base' : ZeroKnowledge.Prover E t} {e : ProofFault}
    (hruns : (onReceiver x).Runs base source events (.error e, base', source')) : InOrder e := by
  obtain ⟨answer, _, _, hanswer, -⟩ := runs_onReceiver.mp hruns
  cases answer with
  | ok _ => cases hanswer
  | error fault =>
      cases hanswer
      exact inOrder_ofCommitment fault

theorem inOrder_of_sendFirst {base base' : ZeroKnowledge.Prover E t} {input : ProverInput E}
    {e : ProofFault}
    (hruns : (sendFirst input).Runs base source events (.error e, base', source')) :
    InOrder e := by
  rcases (runs_sendFirst hruns).2.2 with ⟨fault, hfailed, -, hfault⟩ |
    ⟨_, _, reply, -, -, -, -, -, hfault, -⟩
  · obtain ⟨reason, rfl⟩ := Prover.misshapen_of_first _ _ _ (Prod.ext hfailed rfl)
    cases hfault
    nofun
  · cases reply with
    | ok _ => cases hfault
    | error fault =>
        cases hfault
        nofun

theorem inOrder_of_sendSecond {base base' : ZeroKnowledge.Prover E t} {challenge : Challenge}
    {begun : Begun E t} (hbegun : base.computation = begun.prover) {e : ProofFault}
    (hruns : (sendSecond challenge).Runs base source events (.error e, base', source')) :
    InOrder e := by
  rcases (runs_sendSecond hbegun hruns).2.2 with ⟨-, -, hfault⟩ | ⟨-, _, reply, -, -, hfault⟩
  · cases hfault
    nofun
  · cases reply with
    | ok _ => cases hfault
    | error fault =>
        cases hfault
        nofun

inductive Ends (step : Step E) : Except ProofFault Unit → Prover E t → Prop where
  | failed {e : ProofFault} {party : Prover E t} (hphase : party.phase = .idle)
      (horder : InOrder e) : Ends step (.error e) party
  | done {party : Prover E t} (hphase : step.leadsTo party.phase = true)
      (hpends : Pends party) : Ends step (.ok ()) party

theorem Ends.pends {step : Step E} {result : Except ProofFault Unit}
    (hends : Ends step result party) : Pends party := by
  cases hends with
  | failed hphase _ =>
      unfold Pends
      rw [hphase]
      trivial
  | done _ hpends => exact hpends

section Steps

variable {base : ZeroKnowledge.Prover E t} {record : Pedersen.Record} {challenge : Challenge}
  {result : Except ProofFault Unit}

theorem ends_receiveCommitment
    (hruns : (Step.act .receiveCommitment).Runs ⟨base, .idle⟩ source events
      (result, party', source')) : Ends .receiveCommitment result party' := by
  obtain ⟨answer, _, _, hstep, hout⟩ := runs_discard.mp hruns
  cases hout
  rcases runs_onBase_advance hstep with ⟨e, base', hrecord, rfl, rfl⟩ | ⟨_, base', _, rfl, rfl⟩
  · exact .failed rfl (inOrder_of_onReceiver hrecord)
  · exact .done rfl trivial

theorem ends_first {input : ProverInput E}
    (hruns : (Step.act (.first input)).Runs ⟨base, .committed record⟩ source events
      (result, party', source')) : Ends (.first input) result party' := by
  have hadvance : (do
      let done ← onBase (sendFirst input)
      setPhase (.firstSent record)
      return done : Action (Prover E t) ProofFault Unit).Runs ⟨base, .idle⟩ source events
        (result, party', source') := hruns
  rcases runs_onBase_advance hadvance with ⟨e, base', hsend, rfl, rfl⟩ | ⟨_, base', hsend, rfl, rfl⟩
  · exact .failed rfl (inOrder_of_sendFirst hsend)
  · obtain ⟨-, -, hsent⟩ := runs_sendFirst hsend
    rcases hsent with ⟨_, -, -, hfailed⟩ | ⟨begun, _, _, -, -, -, -, -, -, rfl⟩
    · cases hfailed
    · exact .done rfl ⟨begun, rfl⟩

theorem ends_receiveOpening (hpends : Pends ⟨base, .firstSent record⟩)
    (hruns : (Step.act .receiveOpening).Runs ⟨base, .firstSent record⟩ source events
      (result, party', source')) : Ends .receiveOpening result party' := by
  obtain ⟨answer, _, _, hstep, hout⟩ := runs_discard.mp hruns
  cases hout
  have hadvance : (do
      let challenge ← onBase (onReceiver (Pedersen.Receiver.receiveOpening record.id))
      setPhase (.opened record challenge)
      return challenge : Action (Prover E t) ProofFault Challenge).Runs ⟨base, .idle⟩ source events
        (answer, party', source') := hstep
  rcases runs_onBase_advance hadvance with ⟨e, base', hopening, rfl, rfl⟩ |
    ⟨_, base', hopening, rfl, rfl⟩
  · exact .failed rfl (inOrder_of_onReceiver hopening)
  · obtain ⟨_, _, _, _, rfl⟩ := runs_onReceiver.mp hopening
    exact .done rfl hpends

theorem ends_second (hpends : Pends ⟨base, .opened record challenge⟩)
    (hruns : (Step.act .second).Runs ⟨base, .opened record challenge⟩ source events
      (result, party', source')) : Ends .second result party' := by
  obtain ⟨begun, hbegun⟩ := hpends
  obtain ⟨base', rfl, hanswer⟩ := mirrors_second _ _ _ _ _ hruns
  rcases runs_bind.mp hanswer with ⟨e, _, _, hsecond, hout⟩ |
    ⟨_, _, _, front, back, rfl, _, hsend⟩
  · cases hout
    exact .failed rfl (inOrder_of_sendSecond hbegun hsecond)
  · obtain ⟨reply, -, hout⟩ := runs_send.mp hsend
    cases reply with
    | ok _ =>
        cases hout
        exact .done rfl trivial
    | error fault =>
        cases hout
        exact .failed rfl nofun

theorem ends_of_allowed {step : Step E} (hallowed : step.allowed party.phase = true)
    (hpends : Pends party)
    (hruns : step.act.Runs party source events (result, party', source')) :
    Ends step result party' := by
  obtain ⟨base, phase⟩ := party
  cases step with
  | receiveCommitment =>
      cases phase with
      | idle => exact ends_receiveCommitment hruns
      | _ => cases hallowed
  | first input =>
      cases phase with
      | committed record => exact ends_first hruns
      | _ => cases hallowed
  | receiveOpening =>
      cases phase with
      | firstSent record => exact ends_receiveOpening hpends hruns
      | _ => cases hallowed
  | second =>
      cases phase with
      | opened record challenge => exact ends_second hpends hruns
      | _ => cases hallowed

end Steps

theorem pends_of_history (hpends : Pends origin) {log : List (StepEntry E t)} {start : Source}
    (history : History Step.act origin start log party source) : Pends party := by
  refine history.invariant (fun _ party => Pends party) hpends ?_
  intro _ state source step events result state' source' hstate hruns
  cases hallowed : step.allowed state.phase with
  | true => exact (ends_of_allowed hallowed hstate hruns).pends
  | false =>
      obtain ⟨-, hout⟩ := (runs_of_done (step.act_of_not_allowed hallowed _)).mp hruns
      cases hout
      exact hstate

/-- Each of the steps fits where the one before it leads. -/
def Fit : List (Step E) → Phase → Prop
  | [], _ => True
  | step :: steps, phase =>
      step.allowed phase = true ∧ ∀ phase', step.leadsTo phase' = true → Fit steps phase'

theorem Call.fit_steps (call : Call E) {phase : Phase} (hallowed : call.allowed phase = true) :
    Fit call.steps phase := by
  cases call with
  | step single => exact ⟨hallowed, fun _ _ => trivial⟩
  | prove input =>
      refine ⟨hallowed, fun committed hcommitted => ⟨?_, fun sent hsent => ⟨?_,
        fun opened hopened => ⟨?_, fun _ _ => trivial⟩⟩⟩⟩
      · cases committed <;> first | rfl | cases hcommitted
      · cases sent <;> first | rfl | cases hsent
      · cases opened <;> first | rfl | cases hopened

theorem ended_of_acts {steps : List (Step E)} {e : ProofFault} (hfit : Fit steps party.phase)
    (hpends : Pends party)
    (hruns : (acts Step.act steps).Runs party source events (.error e, party', source')) :
    party'.phase = .idle ∧ InOrder e := by
  induction steps generalizing party source events with
  | nil =>
      obtain ⟨-, hout⟩ := runs_pure.mp hruns
      cases hout
  | cons step steps ih =>
      obtain ⟨hallowed, hrest⟩ := hfit
      rcases runs_bind.mp hruns with ⟨_, _, _, hstep, hout⟩ |
        ⟨_, next, _, front, back, rfl, hstep, hback⟩
      · cases hout
        cases ends_of_allowed hallowed hpends hstep with
        | failed hphase horder => exact ⟨hphase, horder⟩
      · cases ends_of_allowed hallowed hpends hstep with
        | done hphase hnext => exact ih (hrest _ hphase) hnext hback

def refusedEntry (call : Call E) (party : Prover E t) (source : Source) : CallEntry E t :=
  ⟨call, party, source, [], .error (.sigma (.outOfOrder call.refusal))⟩

theorem history_refused {call : Call E} (hrefused : call.allowed party.phase = false) :
    History Call.act party source [refusedEntry call party source] party source := by
  have hruns : call.act.Runs party source []
      (.error (.sigma (.outOfOrder call.refusal)), party, source) := by
    rw [Runs, call.act_of_not_allowed hrefused]
    exact .done _
  exact .single hruns

def taken (calls : List (CallEntry E t)) : List (CallEntry E t) :=
  calls.filter fun entry => entry.call.allowed entry.state.phase

theorem taken_snoc (calls : List (CallEntry E t)) (entry : CallEntry E t) :
    taken (calls ++ [entry]) =
      if entry.call.allowed entry.state.phase = true then taken calls ++ [entry]
      else taken calls := by
  unfold taken
  split
  · next hallowed => simp [List.filter_append, hallowed]
  · next hrefused => simp [List.filter_append, hrefused]

/-- Without its refused calls a history is a history with the same events. -/
theorem history_taken {calls : List (CallEntry E t)} {start : Source}
    (history : History Call.act origin start calls party source) :
    History Call.act origin start (taken calls) party source ∧
      (taken calls).flatMap Entry.events = calls.flatMap Entry.events := by
  induction history with
  | nil => exact ⟨.nil, rfl⟩
  | @snoc calls state _ source _ _ _ _ call ran ih =>
      obtain ⟨hhistory, hevents⟩ := ih
      rw [taken_snoc, List.flatMap_append]
      dsimp only
      cases hallowed : call.allowed state.phase with
      | true =>
          rw [if_pos rfl, List.flatMap_append, hevents]
          exact ⟨hhistory.snoc call ran, rfl⟩
      | false =>
          obtain ⟨rfl, hout⟩ := (runs_of_done (call.act_of_not_allowed hallowed _)).mp ran
          cases hout
          rw [if_neg Bool.false_ne_true, hevents]
          exact ⟨hhistory, (List.append_nil _).symm⟩

/-- After any calls, a call that does not fit the phase is refused with nothing changed, drawn, read
or sent, and a call that fits and fails leaves the party ready for a new run, for another reason
than its order.  The refused calls of a history may be left out, and others may be put in, and all
other calls take the same course. -/
theorem calls_atomic_in_order {computation : ThreeMove.Prover E t} {start : Source}
    {creation : List Event} {calls : List (CallEntry E t)}
    (created : (create computation).Runs () start creation (.ok origin, (), source))
    (history : History Call.act origin source calls party source') :
    (∀ call : Call E, call.allowed party.phase = false → call.act party source' =
      .done (.error (.sigma (.outOfOrder call.refusal)), party, source')) ∧
    (∀ (call : Call E) events e party' rest, call.allowed party.phase = true →
      call.act.Runs party source' events (.error e, party', rest) →
      party'.phase = .idle ∧ ∀ reason, e ≠ .sigma (.outOfOrder reason)) ∧
    (History Call.act origin source (taken calls) party source' ∧
      (taken calls).flatMap Entry.events = calls.flatMap Entry.events) ∧
    ∀ (call : Call E) later last rest, call.allowed party.phase = false →
      History Call.act party source' later last rest →
      History Call.act origin source (calls ++ refusedEntry call party source' :: later) last
        rest := by
  obtain ⟨-, -, -, -, hphase⟩ := runs_create created
  have hstart : Pends origin := by
    unfold Pends
    rw [hphase]
    trivial
  obtain ⟨blocks, -, hsteps⟩ := blocks_of_history history
  have hpends := pends_of_history hstart hsteps
  refine ⟨fun call hrefused => call.act_of_not_allowed hrefused source', ?_,
    history_taken history, ?_⟩
  · intro call events e party' rest hallowed hruns
    rw [Call.act_eq_acts] at hruns
    exact ended_of_acts (call.fit_steps hallowed) hpends hruns
  · intro call later last rest hrefused hlater
    exact history.append ((history_refused hrefused).append hlater)

/-- Between the steps of a run others are refused, and the run goes on until its input has another
shape. -/
theorem calls_atomic_in_order_pairModulo23 :
    let input : ProverInput Nat := .all [.one ⟨18, 3⟩, .one ⟨12, 5⟩]
    let misshapen : Call Nat := .step (.first (.one ⟨18, 3⟩))
    ∃ (origin party party' : Prover Nat 3) (source source' rest : Source)
      (calls : List (CallEntry Nat 3)),
      calls.map Entry.call = [.step .second, .step .receiveCommitment, .prove input] ∧
      calls.map Entry.result = [.error (.sigma (.outOfOrder .secondBeforeOpening)), .ok (),
        .error (.sigma (.outOfOrder .commitmentDuringRun))] ∧
      History Call.act origin source calls party source' ∧
      (taken calls).map Entry.call = [.step .receiveCommitment] ∧
      History Call.act origin source (taken calls) party source' ∧
      misshapen.act.Runs party source' []
        (.error (.sigma (.misshapen .compositeProverInputExpected)), party', rest) ∧
      party'.phase = .idle := by
  intro input misshapen
  have hcalls : ∃ (origin party party' : Prover Nat 3) (source source' rest : Source),
      (create (.pairModulo23 none ())).Runs () ⟨fun i => UInt8.ofNat (37 * i + 5), 0⟩
        [.sent [8] (.ok ())] (.ok origin, (), source) ∧
      origin.phase = .idle ∧
      (Call.act (.step .receiveCommitment)).Runs origin source
        [.received (.ok [0, 0, 0, 0, 0, 0, 0, 1, 12])] (.ok (), party, source') ∧
      Call.allowed (.prove input) party.phase = false ∧ misshapen.allowed party.phase = true ∧
      misshapen.act.Runs party source' []
        (.error (.sigma (.misshapen .compositeProverInputExpected)), party', rest) :=
    ⟨_, _, _, _, _, _, .send (.ok ()) (.done _), rfl, .receive _ (.done _), rfl, rfl, .done _⟩
  obtain ⟨origin, party, party', source, source', rest, created, hphase, hcommitted, hrefused,
    hallowed, hfails⟩ := hcalls
  have hsecond : Call.allowed (.step .second : Call Nat) origin.phase = false := by
    rw [hphase]
    rfl
  have hfirst : Call.allowed (.step .receiveCommitment : Call Nat) origin.phase = true := by
    rw [hphase]
    rfl
  have history := ((history_refused hsecond).snoc _ hcommitted).append
    (history_refused hrefused)
  obtain ⟨-, hends, ⟨htaken, -⟩, -⟩ := calls_atomic_in_order created history
  refine ⟨origin, party, party', source, source', rest, _, rfl, rfl, history, ?_, htaken, hfails,
    (hends _ _ _ _ _ hallowed hfails).1⟩
  simp [taken, refusedEntry, hsecond, hfirst, hrefused]

end ThreeMove.KnowledgeProof.Prover
