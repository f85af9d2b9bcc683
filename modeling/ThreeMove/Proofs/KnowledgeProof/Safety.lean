import ThreeMove.Proofs.KnowledgeProof.Log

/-!
# Safety of a prover of knowledge

Whatever is called, in whatever order, and whatever the channel delivers: an answer is only
written for an opening that was read after the first message, and the opened commitment was
read before it.  Runs do not overlap, so that no first message is answered twice.
-/

namespace ThreeMove.KnowledgeProof.Prover

open ThreeMove.Action

variable {E : Type} {t : Nat} {origin party party' : Prover E t} {source source' : Source}
  {events : List Event} {log front middle : List (StepEntry E t)} {entry : StepEntry E t}

/-- What the log tells about a run that has not ended. -/
def Progress (origin : Prover E t) (log : List (StepEntry E t)) (party : Prover E t) : Prop :=
  let key := origin.base.receiver.group.encode origin.base.receiver.key
  match party.phase with
  | .idle => True
  | .committed record => ∃ id bytes commitment, record = ⟨id, key, bytes⟩ ∧
      party.base.receiver.commitments.get? id = some commitment ∧
      Committed origin id bytes commitment log
  | .firstSent record => ∃ exchange : Exchange E t, record = ⟨exchange.id, key, exchange.bytes⟩ ∧
      party.base.receiver.commitments.get? exchange.id = some exchange.commitment ∧
      party.base.computation = exchange.begun.prover ∧ exchange.Sent origin log
  | .opened record challenge => ∃ exchange : Exchange E t,
      record = ⟨exchange.id, key, exchange.bytes⟩ ∧
      party.base.computation = exchange.begun.prover ∧ exchange.Opened origin challenge log

structure Reached (origin : Prover E t) (log : List (StepEntry E t)) (party : Prover E t) :
    Prop where
  keeps : Keeps origin party
  progress : Progress origin log party

theorem Progress.refused (hprogress : Progress origin log party)
    (hentry : IsRefusal entry.events entry.result) :
    Progress origin (log ++ [entry]) party := by
  unfold Progress at hprogress ⊢
  dsimp only at hprogress ⊢
  cases hphase : party.phase with
  | idle => trivial
  | committed record =>
      rw [hphase] at hprogress
      obtain ⟨id, bytes, commitment, hrecord, hkept, hlog⟩ := hprogress
      exact ⟨id, bytes, commitment, hrecord, hkept, hlog.refused hentry⟩
  | firstSent record =>
      rw [hphase] at hprogress
      obtain ⟨exchange, hrecord, hkept, hbegun, hlog⟩ := hprogress
      exact ⟨exchange, hrecord, hkept, hbegun, hlog.refused hentry⟩
  | opened record challenge =>
      rw [hphase] at hprogress
      obtain ⟨exchange, hrecord, hbegun, hlog⟩ := hprogress
      exact ⟨exchange, hrecord, hbegun, hlog.refused hentry⟩

theorem IsRefusal.discard {α : Type} {result : Except ProofFault α}
    (hrefused : IsRefusal events result) : IsRefusal events (result.map fun _ => ()) := by
  obtain ⟨hevents, reason, rfl⟩ := hrefused
  exact ⟨hevents, reason, rfl⟩

theorem reached_of_idle (hkeeps : Keeps origin party) (hphase : party.phase = .idle) :
    Reached origin log party := by
  refine ⟨hkeeps, ?_⟩
  unfold Progress
  rw [hphase]
  trivial

theorem reached_receiveCommitment (laws : origin.base.receiver.group.Lawful)
    {result : Except ProofFault Unit} (hreached : Reached origin log party)
    (hruns : (Step.act .receiveCommitment).Runs party source events (result, party', source')) :
    Reached origin (log ++ [⟨.receiveCommitment, party, source, events, result⟩]) party' := by
  obtain ⟨answer, _, _, hstep, hout⟩ := runs_discard.mp hruns
  cases hout
  rcases runs_receiveCommitment hstep with ⟨hrefused, rfl⟩ | ⟨hkeeps, hphase, -⟩ |
    ⟨id, bytes, element, rfl, hdecode, hkeeps, hkept, hphase⟩
  · exact ⟨hreached.keeps, hreached.progress.refused hrefused.discard⟩
  · exact reached_of_idle (hreached.keeps.trans hkeeps) hphase
  · rw [hreached.keeps.group] at hdecode hphase
    rw [hreached.keeps.key] at hphase
    obtain ⟨hmember, hbytes⟩ := laws.of_decode hdecode
    rw [hbytes] at hphase
    refine ⟨hreached.keeps.trans hkeeps, ?_⟩
    unfold Progress
    rw [hphase]
    exact ⟨id, bytes, element, rfl, hkept, Last.here ⟨rfl, rfl, hdecode, hmember⟩⟩

theorem reached_first {input : ProverInput E} {result : Except ProofFault Unit}
    (hreached : Reached origin log party)
    (hruns : (Step.act (.first input)).Runs party source events (result, party', source')) :
    Reached origin (log ++ [⟨.first input, party, source, events, result⟩]) party' := by
  rcases runs_first hruns with ⟨hrefused, rfl⟩ | ⟨hkeeps, hphase, -⟩ |
    ⟨record, bytes, begun, hphase, hfirst, hstatements, hcarries, hbytes, rfl, rfl⟩
  · exact ⟨hreached.keeps, hreached.progress.refused hrefused⟩
  · exact reached_of_idle (hreached.keeps.trans hkeeps) hphase
  · have hprogress := hreached.progress
    unfold Progress at hprogress
    rw [hphase] at hprogress
    obtain ⟨id, commitmentBytes, commitment, rfl, hkept, hlog⟩ := hprogress
    have hsame := hstatements.trans hreached.keeps.statements
    have hkeeps : Keeps party ⟨⟨begun.prover, party.base.receiver⟩, .firstSent ⟨id,
        origin.base.receiver.group.encode origin.base.receiver.key, commitmentBytes⟩⟩ :=
      ⟨begun.statements_prover.trans hstatements, rfl, rfl⟩
    refine ⟨hreached.keeps.trans hkeeps, ?_⟩
    exact ⟨⟨id, commitmentBytes, commitment, input, begun⟩, rfl, hkept, rfl,
      Last.here ⟨⟨rfl, ⟨_, hfirst⟩, hsame, hcarries, bytes, hbytes, rfl⟩, hlog⟩⟩

theorem reached_receiveOpening (laws : origin.base.receiver.group.Lawful)
    (hkey : origin.base.receiver.group.isMember origin.base.receiver.key = true)
    {result : Except ProofFault Unit} (hreached : Reached origin log party)
    (hruns : (Step.act .receiveOpening).Runs party source events (result, party', source')) :
    Reached origin (log ++ [⟨.receiveOpening, party, source, events, result⟩]) party' := by
  obtain ⟨answer, _, _, hstep, hout⟩ := runs_discard.mp hruns
  cases hout
  rcases runs_receiveOpening hstep with ⟨hrefused, rfl⟩ | ⟨hkeeps, hphase, -⟩ |
    ⟨record, bytes, randomness, value, element, hphase, rfl, hdecode, hkept, hsame, hkeeps,
      hcomputation, hopened⟩
  · exact ⟨hreached.keeps, hreached.progress.refused hrefused.discard⟩
  · exact reached_of_idle (hreached.keeps.trans hkeeps) hphase
  · have hprogress := hreached.progress
    unfold Progress at hprogress
    rw [hphase] at hprogress
    obtain ⟨exchange, rfl, hcommitment, hbegun, hlog⟩ := hprogress
    rw [hcommitment] at hkept
    cases hkept
    rw [hreached.keeps.group] at hdecode hsame
    rw [hreached.keeps.key] at hsame
    have hmember : origin.base.receiver.group.isMember exchange.commitment = true := by
      obtain ⟨front, sent, _, _, ⟨_, before, committed, _, _, hread, _⟩, _⟩ := hlog
      exact hread.member
    have hhide := laws.encode_inj hmember (Pedersen.isMember_hide laws hkey _ _) hsame
    refine ⟨hreached.keeps.trans hkeeps, ?_⟩
    unfold Progress
    rw [hopened]
    exact ⟨exchange, rfl, hcomputation.trans hbegun,
      Last.here ⟨⟨rfl, bytes, randomness, rfl, hdecode, hhide⟩, hlog⟩⟩

/-- A step that writes an answer does so for the run of the log. -/
theorem answered_of_reached {result : Except ProofFault Unit} (hreached : Reached origin log party)
    (hruns : (Step.act .second).Runs party source events (result, party', source')) :
    Reached origin (log ++ [⟨.second, party, source, events, result⟩]) party' ∧
      (events ≠ [] → ∃ (exchange : Exchange E t) (challenge : Challenge),
        exchange.Opened origin challenge log ∧
        exchange.AnswerWritten origin challenge ⟨.second, party, source, events, result⟩) := by
  cases hphase : party.phase with
  | opened record challenge =>
      have hprogress := hreached.progress
      unfold Progress at hprogress
      rw [hphase] at hprogress
      obtain ⟨exchange, rfl, hbegun, hlog⟩ := hprogress
      obtain ⟨hkeeps, hidle, hevents⟩ := runs_second hphase hbegun hruns
      refine ⟨reached_of_idle (hreached.keeps.trans hkeeps) hidle, fun hwritten => ?_⟩
      rcases hevents with hnone | ⟨hlt, hbytes⟩
      · exact (hwritten hnone).elim
      · exact ⟨exchange, challenge, hlog, hlt, hbytes⟩
  | _ =>
      have hother : ∀ record challenge, party.phase ≠ .opened record challenge := by
        intro record challenge hopened
        rw [hphase] at hopened
        cases hopened
      obtain ⟨hrefused, rfl⟩ := runs_second_refused hother hruns
      exact ⟨⟨hreached.keeps, hreached.progress.refused hrefused⟩,
        fun hwritten => (hwritten hrefused.1).elim⟩

theorem reached_of_history (laws : origin.base.receiver.group.Lawful)
    (hkey : origin.base.receiver.group.isMember origin.base.receiver.key = true)
    {start : Source} (hphase : origin.phase = .idle)
    (history : History Step.act origin start log party source) : Reached origin log party := by
  refine history.invariant (Reached origin) (reached_of_idle Keeps.rfl hphase) ?_
  intro entries state source step events result state' source' hreached hruns
  cases step with
  | receiveCommitment => exact reached_receiveCommitment laws hreached hruns
  | first input => exact reached_first hreached hruns
  | receiveOpening => exact reached_receiveOpening laws hkey hreached hruns
  | second => exact (answered_of_reached hreached hruns).1

/-- A call of the last step that wrote something. -/
def IsAnswer (entry : StepEntry E t) : Prop :=
  entry.call = .second ∧ entry.events ≠ []

theorem IsAnswer.not_refused (hanswer : IsAnswer entry) :
    ¬ IsRefusal entry.events entry.result :=
  fun hrefused => hanswer.2 hrefused.1

theorem IsAnswer.call_ne (hanswer : IsAnswer entry) {step : Step E} (hcall : entry.call = step)
    (hstep : step ≠ .second) : False :=
  hstep (hcall.symm.trans hanswer.1)

/-- What is done on the channel by a call that answers nothing. -/
inductive IsPreparation (entry : StepEntry E t) : Prop where
  | silent (hevents : entry.events = [])
  | read (hcall : entry.call = .receiveCommitment ∨ entry.call = .receiveOpening)
      {reply : Except ChannelFault Bytes} (hevents : entry.events = [.received reply])
  | began {input : ProverInput E} {bytes : Bytes} {reply : Except ChannelFault Unit}
      (hcall : entry.call = .first input)
      (hfirst : entry.state.base.computation.BeginsWith input entry.source bytes)
      (hevents : entry.events = [.sent bytes reply])

/-- Wherever a step fails, it has written its own message at most: the steps that receive write
nothing, and the first message is the one of the proof that was begun. -/
theorem preparation_or_answer {step : Step E} {result : Except ProofFault Unit}
    (hruns : step.act.Runs party source events (result, party', source')) :
    IsPreparation ⟨step, party, source, events, result⟩ ∨
      IsAnswer ⟨step, party, source, events, result⟩ := by
  cases step with
  | receiveCommitment =>
      obtain ⟨_, _, _, hstep, -⟩ := runs_discard.mp hruns
      rcases runs_receiveCommitment hstep with ⟨hrefused, -⟩ | ⟨-, -, _, hread⟩ |
        ⟨_, _, _, hread, -⟩
      · exact .inl (.silent hrefused.1)
      · exact .inl (.read (.inl rfl) hread)
      · exact .inl (.read (.inl rfl) hread)
  | first input =>
      rcases runs_first hruns with ⟨hrefused, -⟩ | ⟨-, -, hnone | ⟨_, _, hfirst, hwritten⟩⟩ |
        ⟨_, _, begun, -, hfirst, -, -, hbytes, hwritten, -⟩
      · exact .inl (.silent hrefused.1)
      · exact .inl (.silent hnone)
      · exact .inl (.began rfl hfirst hwritten)
      · exact .inl (.began rfl ⟨begun, _, hfirst, hbytes⟩ hwritten)
  | receiveOpening =>
      obtain ⟨_, _, _, hstep, -⟩ := runs_discard.mp hruns
      rcases runs_receiveOpening hstep with ⟨hrefused, -⟩ | ⟨-, -, _, hread⟩ |
        ⟨_, _, _, _, _, -, hread, -⟩
      · exact .inl (.silent hrefused.1)
      · exact .inl (.read (.inr rfl) hread)
      · exact .inl (.read (.inr rfl) hread)
  | second =>
      by_cases hnone : events = []
      · exact .inl (.silent hnone)
      · exact .inr ⟨rfl, hnone⟩

/-- A run that has reached its opening lies behind every answer that was written before. -/
theorem Exchange.Opened.after {exchange : Exchange E t} {challenge : Challenge}
    (hopened : exchange.Opened origin challenge (front ++ entry :: middle))
    (hanswer : IsAnswer entry) : exchange.Opened origin challenge middle := by
  have hrefused := hanswer.not_refused
  refine (Last.after hopened hrefused fun _ h => hanswer.call_ne h.1.call nofun).mono ?_
  rintro between opened ⟨hread, hsent⟩
  refine ⟨hread, (Last.after hsent hrefused fun _ h => hanswer.call_ne h.1.call nofun).mono ?_⟩
  rintro between' sent ⟨hwritten, hcommitted⟩
  exact ⟨hwritten, Last.after hcommitted hrefused fun _ h => hanswer.call_ne h.call nofun⟩

inductive Call (E : Type) where
  | step (step : Step E)
  | prove (input : ProverInput E)

namespace Call

def act : Call E → Action (Prover E t) ProofFault Unit
  | step single => single.act
  | prove input => Prover.prove input

def steps : Call E → List (Step E)
  | step single => [single]
  | prove input => [.receiveCommitment, .first input, .receiveOpening, .second]

end Call

theorem Call.act_eq_acts (call : Call E) :
    (call.act : Action (Prover E t) ProofFault Unit) = acts Step.act call.steps := by
  have hdone : ∀ x : Action (Prover E t) ProofFault Unit,
      x = Action.bind x fun _ => Action.pure () := fun x => (Action.bind_pure x).symm
  cases call with
  | step single => exact hdone single.act
  | prove input =>
      change Action.bind receiveCommitment (fun _ => Action.bind (Prover.first input) fun _ =>
        Action.bind receiveOpening fun _ => second) =
        Action.bind (Action.bind receiveCommitment fun _ => Action.pure ()) fun _ =>
          Action.bind (Prover.first input) fun _ =>
            Action.bind (Action.bind receiveOpening fun _ => Action.pure ()) fun _ =>
              Action.bind second fun _ => Action.pure ()
      rw [← hdone second]
      simp only [Action.bind_assoc, Action.pure_bind]

abbrev CallEntry (E : Type) (t : Nat) := Entry (Call E) (Prover E t) ProofFault

/-- The block lists the steps of the call, with the same events. -/
def Spells (call : CallEntry E t) (block : List (StepEntry E t)) : Prop :=
  block.map Entry.call <+: call.call.steps ∧ block.flatMap Entry.events = call.events

theorem blocks_of_history {calls : List (CallEntry E t)} {start : Source}
    (history : History Call.act origin start calls party source) :
    ∃ blocks : List (List (StepEntry E t)), List.Forall₂ Spells calls blocks ∧
      History Step.act origin start blocks.flatten party source :=
  history.exists_blocks Call.act_eq_acts

/-- A party that was created is called again and again.  What it writes, wherever a step fails, is
the first message of a proof that the step begins, or an answer.  Every answer belongs to a run of
its own: the commitment was read before the first message, and its opening afterwards. -/
theorem answer_follows_opening {computation : ThreeMove.Prover E t} {start : Source}
    {creation : List Event} {calls : List (CallEntry E t)} (laws : computation.group.Lawful)
    (created : (create computation).Runs () start creation (.ok origin, (), source))
    (history : History Call.act origin source calls party source') :
    origin.base.computation = computation ∧ origin.base.receiver.group = computation.group ∧
      creation = [.sent (computation.group.encode origin.base.receiver.key) (.ok ())] ∧
      ∃ blocks : List (List (StepEntry E t)), List.Forall₂ Spells calls blocks ∧
        History Step.act origin source blocks.flatten party source' ∧
        (∀ entry ∈ blocks.flatten, IsPreparation entry ∨ IsAnswer entry) ∧
        ∀ earlier answer later, blocks.flatten = earlier ++ answer :: later → IsAnswer answer →
          ∃ (exchange : Exchange E t) (challenge : Challenge),
            exchange.Opened origin challenge earlier ∧
            exchange.AnswerWritten origin challenge answer ∧
            ∀ front other middle, earlier = front ++ other :: middle → IsAnswer other →
              exchange.Opened origin challenge middle := by
  obtain ⟨hcomputation, hgroup, hkey, hevents, hphase⟩ := runs_create created
  have lawful : origin.base.receiver.group.Lawful := hgroup ▸ laws
  have hmember : origin.base.receiver.group.isMember origin.base.receiver.key = true := by
    rw [hkey, hgroup]
    exact laws.isMember_pow laws.isMember_generator _
  obtain ⟨blocks, hspells, hsteps⟩ := blocks_of_history history
  refine ⟨hcomputation, hgroup, hevents, blocks, hspells, hsteps, fun entry hentry => ?_, ?_⟩
  · obtain ⟨_, _, hblocks⟩ := List.append_of_mem hentry
    obtain ⟨-, _, _, hruns⟩ := hsteps.split hblocks
    exact preparation_or_answer hruns
  intro earlier answer later hblocks hanswer
  obtain ⟨hearlier, state', between, hruns⟩ := hsteps.split hblocks
  have hreached := reached_of_history lawful hmember hphase hearlier
  obtain ⟨call, state, drawn, events, result⟩ := answer
  obtain ⟨rfl, hwritten⟩ := hanswer
  obtain ⟨exchange, challenge, hopened, hanswered⟩ :=
    (answered_of_reached hreached hruns).2 hwritten
  refine ⟨exchange, challenge, hopened, hanswered, ?_⟩
  rintro front other middle rfl hother
  exact hopened.after hother

theorem answer_follows_opening_pairModulo23 :
    ∃ (origin party : Prover Nat 3) (source source' : Source) (calls : List (CallEntry Nat 3)),
      calls.map Entry.call = [.prove (.all [.one ⟨18, 3⟩, .one ⟨12, 5⟩])] ∧
      calls.flatMap Entry.events = [.received (.ok [0, 0, 0, 0, 0, 0, 0, 1, 12]),
        .sent [1, 13] (.ok ()), .received (.ok [0, 0, 0, 0, 0, 0, 0, 1, 3, 5]),
        .sent [4, 1] (.ok ()), .sent [0, 0, 0, 0, 0, 0, 0, 1, 8, 12] (.ok ())] ∧
      History Call.act origin source calls party source' ∧
      ∃ blocks : List (List (StepEntry Nat 3)), List.Forall₂ Spells calls blocks ∧
        (∀ entry ∈ blocks.flatten, IsPreparation entry ∨ IsAnswer entry) ∧
        ∀ earlier answer later, blocks.flatten = earlier ++ answer :: later → IsAnswer answer →
          ∃ (exchange : Exchange Nat 3) (challenge : Challenge),
            exchange.Opened origin challenge earlier ∧
            exchange.AnswerWritten origin challenge answer := by
  obtain ⟨origin, party, source, source', created, history⟩ :
      ∃ (origin party : Prover Nat 3) (source source' : Source),
        (create (.pairModulo23 none ())).Runs () ⟨fun i => UInt8.ofNat (37 * i + 5), 0⟩
          [.sent [8] (.ok ())] (.ok origin, (), source) ∧
        History Call.act origin source [⟨.prove (.all [.one ⟨18, 3⟩, .one ⟨12, 5⟩]), origin,
          source, [.received (.ok [0, 0, 0, 0, 0, 0, 0, 1, 12]), .sent [1, 13] (.ok ()),
            .received (.ok [0, 0, 0, 0, 0, 0, 0, 1, 3, 5]), .sent [4, 1] (.ok ()),
            .sent [0, 0, 0, 0, 0, 0, 0, 1, 8, 12] (.ok ())], .ok ()⟩] party source' := by
    exact ⟨_, _, _, _, .send (.ok ()) (.done _), .single (.receive _ (.send (.ok ())
      (.receive _ (.send (.ok ()) (.send (.ok ()) (.done _))))))⟩
  have lawful := Composition.lawful_pairModulo23 (none : Option Pending) () _
    (Composition.group_mem_groups _)
  obtain ⟨_, _, _, blocks, hspells, _, hwritten, hanswers⟩ :=
    answer_follows_opening lawful created history
  refine ⟨origin, party, source, source', _, rfl, rfl, history, blocks, hspells, hwritten, ?_⟩
  intro earlier answer later hblocks hanswer
  obtain ⟨exchange, challenge, hopened, hwritten, _⟩ := hanswers _ _ _ hblocks hanswer
  exact ⟨exchange, challenge, hopened, hwritten⟩

end ThreeMove.KnowledgeProof.Prover
