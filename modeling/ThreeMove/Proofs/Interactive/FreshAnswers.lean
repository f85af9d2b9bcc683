import ThreeMove.Proofs.Composition.Draws
import ThreeMove.Proofs.Interactive.Calls
import ThreeMove.Proofs.Interactive.Course

/-!
# Answers of the interactive prover

Whatever is called, in whatever order, and whatever the channel delivers: an answer belongs to
the first message that was written last, and no first message is answered twice.
-/

namespace ThreeMove.Interactive.Prover

open ThreeMove.Action

variable {E : Type} {t : Nat} {party party' : Prover E t} {source source' : Source}
  {events : List Event} {log front : List (StepEntry E t)} {entry sent : StepEntry E t}
  {begun : Begun E t}

/-- The step has written the first message of a proof, and its draws end here. -/
structure Writes (entry : StepEntry E t) (begun : Begun E t) (rest : Source) : Prop where
  computed : ∃ input, entry.call = .first input ∧
    entry.state.computation.first input entry.source =
      (.ok begun.firstMessage, begun.prover, rest)
  written : ∃ bytes, begun.firstMessage.encode = .ok bytes ∧
    entry.events = [.sent bytes (.ok ())]

def Refused (entry : StepEntry E t) : Prop :=
  entry.events = [] ∧ ∃ reason, entry.result = .error (.outOfOrder reason)

/-- After the first message that was written last, all steps were refused. -/
structure Outstanding (log front : List (StepEntry E t)) (sent : StepEntry E t)
    (begun : Begun E t) (source : Source) : Prop where
  split : ∃ pause, log = front ++ sent :: pause ∧ ∀ entry ∈ pause, Refused entry
  writes : Writes sent begun source

theorem Outstanding.snoc (houtstanding : Outstanding log front sent begun source)
    (hrefused : Refused entry) : Outstanding (log ++ [entry]) front sent begun source := by
  obtain ⟨pause, rfl, hpause⟩ := houtstanding.split
  refine ⟨⟨pause ++ [entry], by simp, ?_⟩, houtstanding.writes⟩
  intro other hother
  rcases List.mem_append.mp hother with hother | hother
  · exact hpause other hother
  · rw [List.mem_singleton.mp hother]
    exact hrefused

/-- Whatever was answered before was answered before the first message. -/
theorem Outstanding.mem_front {other : StepEntry E t} {answer : Bytes}
    {reply : Except ChannelFault Unit} (houtstanding : Outstanding log front sent begun source)
    (hother : other ∈ log) (hcall : other.call = .second)
    (hwritten : .sent answer reply ∈ other.events) : other ∈ front := by
  obtain ⟨pause, rfl, hpause⟩ := houtstanding.split
  obtain ⟨input, hfirst, -⟩ := houtstanding.writes.computed
  rcases List.mem_append.mp hother with hfront | hother
  · exact hfront
  · rcases List.mem_cons.mp hother with rfl | hpaused
    · rw [hcall] at hfirst
      cases hfirst
    · rw [(hpause other hpaused).1] at hwritten
      cases hwritten

/-- The invariant: whenever a challenge is due, the party holds exactly the nonces of the first
message that was written last.  Nothing is said of the nonces of an idle party. -/
def Reached (log : List (StepEntry E t)) (party : Prover E t) (source : Source) : Prop :=
  party.awaiting = true → ∃ front sent begun, Outstanding log front sent begun source ∧
    party.computation = begun.prover

structure Advances (log : List (StepEntry E t)) (entry : StepEntry E t) (party' : Prover E t)
    (source' : Source) : Prop where
  reached : Reached (log ++ [entry]) party' source'
  refused_iff : (∃ reason, entry.result = .error (.outOfOrder reason)) ↔
    entry.state.awaiting ≠ entry.call.awaits
  forward : ∃ count, source' = entry.source.skip count

variable {result : Except SigmaFault Unit}

theorem advances_refused {step : Step E} (hreached : Reached log party source)
    (hawaits : party.awaiting ≠ step.awaits)
    (hruns : step.act.Runs party source events (result, party', source')) :
    Advances log ⟨step, party, source, events, result⟩ party' source' := by
  obtain ⟨rfl, hout⟩ := (runs_of_done (Step.act_of_ne hawaits source)).mp hruns
  cases hout
  refine ⟨fun hawaiting => ?_, ⟨fun _ => hawaits, fun _ => ⟨_, rfl⟩⟩, ⟨0, rfl⟩⟩
  obtain ⟨front, sent, begun, houtstanding, hcomputation⟩ := hreached hawaiting
  exact ⟨front, sent, begun, houtstanding.snoc ⟨rfl, _, rfl⟩, hcomputation⟩

theorem Advances.of_eq (hreached : Reached (log ++ [entry]) party' source')
    (hawaits : entry.state.awaiting = entry.call.awaits)
    (hordered : ∀ reason, entry.result ≠ .error (.outOfOrder reason))
    (hforward : ∃ count, source' = entry.source.skip count) :
    Advances log entry party' source' := by
  refine ⟨hreached, ⟨?_, fun hrefused => (hrefused hawaits).elim⟩, hforward⟩
  intro houtOfOrder
  obtain ⟨reason, hresult⟩ := houtOfOrder
  exact (hordered reason hresult).elim

theorem advances_first {input : ProverInput E} (hidle : party.awaiting = false)
    (hruns : (Step.act (.first input)).Runs party source events (result, party', source')) :
    Advances log ⟨.first input, party, source, events, result⟩ party' source' := by
  obtain ⟨computation, awaiting⟩ := party
  subst hidle
  obtain ⟨count, hforward⟩ := computation.exists_skip_first input source
  have hcourse := course_of_first hruns
  generalize hout : (result, party', source') = outcome at hcourse
  cases hcourse with
  | misshapen hfirst =>
      cases hout
      rw [hfirst] at hforward
      exact .of_eq nofun rfl nofun ⟨count, hforward⟩
  | @written begun bytes _ hfirst _ hbytes reply =>
      cases hout
      rw [hfirst] at hforward
      refine .of_eq (fun hawaiting => ?_) rfl ?_ ⟨count, hforward⟩
      · cases reply with
        | error fault => cases hawaiting
        | ok _ =>
            exact ⟨log, _, begun, ⟨⟨[], rfl, nofun⟩, ⟨input, rfl, hfirst⟩, bytes, hbytes, rfl⟩, rfl⟩
      · intro reason hresult
        cases reply <;> cases hresult

theorem advances_second (hreached : Reached log party source) (hawaiting : party.awaiting = true)
    (hruns : (Step.act .second).Runs party source events (result, party', source')) :
    Advances log ⟨.second, party, source, events, result⟩ party' source' := by
  obtain ⟨computation, awaiting⟩ := party
  subst hawaiting
  obtain ⟨front, sent, begun, houtstanding, hcomputation⟩ := hreached rfl
  cases hcomputation
  have hcourse := course_of_second hruns
  generalize hout : (result, party', source') = outcome at hcourse
  cases hcourse with
  | lost fault =>
      cases hout
      exact .of_eq nofun rfl nofun ⟨0, rfl⟩
  | refused hrefused reason hsame =>
      cases hout
      exact .of_eq nofun rfl nofun ⟨0, rfl⟩
  | answered hread hlt hmessage reply =>
      cases hout
      refine .of_eq nofun rfl ?_ ⟨0, rfl⟩
      intro reason hresult
      cases reply <;> cases hresult

theorem advances_of_reached {step : Step E} (hreached : Reached log party source)
    (hruns : step.act.Runs party source events (result, party', source')) :
    Advances log ⟨step, party, source, events, result⟩ party' source' := by
  by_cases hawaits : party.awaiting = step.awaits
  · cases step with
    | first input => exact advances_first hawaits hruns
    | second => exact advances_second hreached hawaits hruns
  · exact advances_refused hreached hawaits hruns

variable {computation : ThreeMove.Prover E t} {origin : Source}

/-- The invariant holds after every history, and the source is behind the one of each step. -/
theorem reached_of_history
    (history : History Step.act (create computation) origin log party source) :
    Reached log party source ∧ ∀ entry ∈ log, ∃ count, source = entry.source.skip count := by
  induction history with
  | nil => exact ⟨nofun, nofun⟩
  | snoc prior step hruns ih =>
      obtain ⟨hreached, hbehind⟩ := ih
      have hadvances := advances_of_reached hreached hruns
      obtain ⟨more, hforward⟩ := hadvances.forward
      refine ⟨hadvances.reached, fun entry hentry => ?_⟩
      rcases List.mem_append.mp hentry with hentry | hentry
      · obtain ⟨count, hcount⟩ := hbehind entry hentry
        rw [hforward, hcount, Source.skip_skip]
        exact ⟨_, rfl⟩
      · rw [List.mem_singleton.mp hentry]
        exact ⟨more, hforward⟩

/-- The step has written the answer of a begun proof to the challenge that it has read. -/
structure Answers (entry : StepEntry E t) (begun : Begun E t) (challenge : Challenge)
    (message : Bytes) : Prop where
  exchanged : ∃ bytes reply, Challenge.decode bytes = .ok challenge ∧
    entry.events = [.received (.ok bytes), .sent message reply]
  challenge_lt : challenge < 2 ^ t
  message_eq : (begun.answer challenge).encode = .ok message

/-- An answer belongs to the first message that was written last. -/
theorem answers_of_sent {message : Bytes} {reply : Except ChannelFault Unit}
    (hreached : Reached log party source)
    (hruns : (Step.act .second).Runs party source events (result, party', source'))
    (hsent : .sent message reply ∈ events) :
    ∃ front sent begun challenge, Outstanding log front sent begun source ∧
      Answers ⟨.second, party, source, events, result⟩ begun challenge message := by
  by_cases hawaiting : party.awaiting = true
  · obtain ⟨front, sent, begun, houtstanding, hcomputation⟩ := hreached hawaiting
    obtain ⟨computation, awaiting⟩ := party
    cases hcomputation
    cases hawaiting
    have hcourse := course_of_second hruns
    generalize (result, party', source') = outcome at hcourse
    cases hcourse with
    | lost fault => simp at hsent
    | refused hrefused reason hsame => simp at hsent
    | @answered bytes _ challenge hread hlt hmessage reply =>
        obtain ⟨rfl, rfl⟩ : message = _ ∧ _ = reply := by simpa using hsent
        exact ⟨front, sent, begun, challenge, houtstanding, ⟨bytes, _, hread, rfl⟩, hlt, hmessage⟩
  · have hidle : party.awaiting ≠ Step.awaits (.second : Step E) := hawaiting
    obtain ⟨rfl, -⟩ := (runs_of_done (Step.act_of_ne hidle source)).mp hruns
    cases hsent

theorem events_of_first {input : ProverInput E}
    (hruns : (Step.act (.first input)).Runs party source events (result, party', source')) :
    events = [] ∨ ∃ bytes reply, party.computation.BeginsWith input source bytes ∧
      events = [.sent bytes reply] := by
  by_cases hawaits : party.awaiting = Step.awaits (.first input : Step E)
  · obtain ⟨computation, awaiting⟩ := party
    cases hawaits
    have hcourse := course_of_first hruns
    generalize (result, party', source') = outcome at hcourse
    cases hcourse with
    | misshapen hfirst => exact .inl rfl
    | @written begun bytes rest hfirst _ hbytes reply =>
        exact .inr ⟨bytes, reply, ⟨begun, rest, hfirst, hbytes⟩, rfl⟩
  · obtain ⟨rfl, -⟩ := (runs_of_done (Step.act_of_ne hawaits source)).mp hruns
    exact .inl rfl

/-- Whatever the input of the right shape and the source are, the party can begin a run. -/
def Startable (computation : ThreeMove.Prover E t) (party : Prover E t) : Prop :=
  ∀ input source, computation.Fits input → ∃ bytes party' rest,
    (first input).Runs party source [.sent bytes (.ok ())] (.ok (), party', rest)

theorem startable_of_idle (hidle : party.awaiting = false)
    (hsame : party.computation.statements = computation.statements) :
    Startable computation party := by
  intro input source hfits
  obtain ⟨current, awaiting⟩ := party
  subst hidle
  obtain ⟨message, prover', rest, hfirst⟩ :=
    Prover.first_of_fits current input source (Composition.fits_of_statements hsame.symm hfits)
  obtain ⟨begun, rfl, rfl, -, -⟩ := Prover.begun_of_first _ _ _ hfirst
  obtain ⟨bytes, hbytes⟩ := begun.encode_firstMessage
  exact ⟨bytes, _, rest, (runs_first_of_begun hfirst hbytes).mpr ⟨.ok (), rfl, rfl⟩⟩

theorem startable_of_prove {input : ProverInput E}
    {outcome : Outcome SigmaFault Unit (Prover E t)} (hidle : party.awaiting = false)
    (hruns : (prove input).Runs party source events outcome) :
    Startable party.computation outcome.2.1 := by
  obtain ⟨current, awaiting⟩ := party
  subst hidle
  rcases runs_prove hruns with ⟨hfirst, hlast⟩ | ⟨begun, _, _, _, _, hsame, _, hsecond⟩
  · exact startable_of_idle hlast hfirst.statements_eq
  · obtain ⟨hlast, hleft⟩ := hsecond.statements_eq
    exact startable_of_idle hlast (hleft.trans hsame)

/-- A prover is called again and again.  A call out of order is refused and changes nothing, and
no step in order is refused as such.  After a run that was begun in order, another one can be
begun, whatever the outcome.  A first step writes at most the first message of the proof that it
begins.  Every answer belongs to the first message that was written last, after which nothing
happened, and to the challenge that was read just before the answer; and the answers before it
belong to first messages whose nonces were drawn before. -/
theorem fresh_answers (computation : ThreeMove.Prover E t) :
    (∀ (call : Call E) (party : Prover E t) (source : Source), party.awaiting ≠ call.awaits →
      call.act party source = .done (.error (.outOfOrder call.refusal), party, source)) ∧
    (∀ (input : ProverInput E) (party : Prover E t) (source : Source) (events : List Event)
      (outcome : Outcome SigmaFault Unit (Prover E t)), party.awaiting = false →
      (prove input).Runs party source events outcome →
      Startable party.computation outcome.2.1) ∧
    ∀ {origin source : Source} {calls : List (CallEntry E t)} {party : Prover E t},
      History Call.act (create computation) origin calls party source →
      ∃ blocks : List (List (StepEntry E t)), List.Forall₂ Spells calls blocks ∧
        History Step.act (create computation) origin blocks.flatten party source ∧
        ∀ earlier entry later, blocks.flatten = earlier ++ entry :: later →
          ((∃ reason, entry.result = .error (.outOfOrder reason)) ↔
            entry.state.awaiting ≠ entry.call.awaits) ∧
          (∀ input, entry.call = .first input → entry.events = [] ∨
            ∃ bytes reply, entry.state.computation.BeginsWith input entry.source bytes ∧
              entry.events = [.sent bytes reply]) ∧
          ∀ message reply, entry.call = .second → .sent message reply ∈ entry.events →
            ∃ front sent begun challenge, Outstanding earlier front sent begun entry.source ∧
              Answers entry begun challenge message ∧
              ∀ other ∈ earlier, other.call = .second →
                ∀ answer written, .sent answer written ∈ other.events →
                other ∈ front ∧ ∃ count, sent.source = other.source.skip count := by
  refine ⟨fun call party source hawaits => Call.act_of_ne hawaits source,
    fun input party source events outcome => startable_of_prove, ?_⟩
  intro origin source calls party history
  obtain ⟨blocks, hspells, hsteps⟩ := history.exists_blocks Call.act_eq_acts
  refine ⟨blocks, hspells, hsteps, fun earlier entry later hblocks => ?_⟩
  obtain ⟨hearlier, state', between, hruns⟩ := hsteps.split hblocks
  obtain ⟨hreached, -⟩ := reached_of_history hearlier
  obtain ⟨call, party, source, events, result⟩ := entry
  refine ⟨(advances_of_reached hreached hruns).refused_iff, ?_, ?_⟩
  · intro input hcall
    cases hcall
    exact events_of_first hruns
  intro message reply hcall hsent
  cases hcall
  obtain ⟨front, sent, begun, challenge, houtstanding, hanswers⟩ :=
    answers_of_sent hreached hruns hsent
  refine ⟨front, sent, begun, challenge, houtstanding, hanswers, ?_⟩
  intro other hother hcall answer written hwritten
  have hfront := houtstanding.mem_front hother hcall hwritten
  obtain ⟨pause, hsplit, -⟩ := houtstanding.split
  obtain ⟨hbefore, -⟩ := hearlier.split hsplit
  exact ⟨hfront, (reached_of_history hbefore).2 other hfront⟩

/-- The first input is misshapen, and the second challenge is asked for too early. -/
theorem fresh_answers_pairModulo23 :
    let original : ThreeMove.Prover Nat 3 := .pairModulo23 none ()
    let input : ProverInput Nat := .all [.one ⟨18, 3⟩, .one ⟨12, 5⟩]
    let source : Source := ⟨fun i => UInt8.ofNat (37 * i + 5), 0⟩
    ∃ (calls : List (CallEntry Nat 3)) (blocks : List (List (StepEntry Nat 3)))
      (party : Prover Nat 3) (rest : Source),
      calls.map Entry.call = [.prove (.one ⟨18, 3⟩), .step .second, .prove input] ∧
      calls.flatMap Entry.events =
        [.sent [8, 1] (.ok ()), .received (.ok [5]), .sent [0, 3] (.ok ())] ∧
      History Call.act (create original) source calls party rest ∧
      List.Forall₂ Spells calls blocks ∧
      ∀ earlier entry later, blocks.flatten = earlier ++ entry :: later → entry.call = .second →
        ∀ message reply, .sent message reply ∈ entry.events →
        ∃ front sent begun challenge, Outstanding earlier front sent begun entry.source ∧
          Answers entry begun challenge message := by
  have hmisshapen : (Call.act (.prove (.one ⟨18, 3⟩))).Runs
      (create (.pairModulo23 none ()) : Prover Nat 3) ⟨fun i => UInt8.ofNat (37 * i + 5), 0⟩ []
      (.error (.misshapen .compositeProverInputExpected), create (.pairModulo23 none ()),
        ⟨fun i => UInt8.ofNat (37 * i + 5), 0⟩) := .done _
  have hrefused : (Call.act (.step .second)).Runs
      (create (.pairModulo23 none ()) : Prover Nat 3) ⟨fun i => UInt8.ofNat (37 * i + 5), 0⟩ []
      (.error (.outOfOrder .secondBeforeFirst), create (.pairModulo23 none ()),
        ⟨fun i => UInt8.ofNat (37 * i + 5), 0⟩) := .done _
  have hanswered : (Call.act (.prove (.all [.one ⟨18, 3⟩, .one ⟨12, 5⟩]))).Runs
      (create (.pairModulo23 none ()) : Prover Nat 3) ⟨fun i => UInt8.ofNat (37 * i + 5), 0⟩
      [.sent [8, 1] (.ok ()), .received (.ok [5]), .sent [0, 3] (.ok ())]
      (.ok (), create (.pairModulo23 none ()), ⟨fun i => UInt8.ofNat (37 * i + 5), 8⟩) :=
    .send (.ok ()) (.receive (.ok [5]) (.send (.ok ()) (.done _)))
  have history := ((History.single hmisshapen).snoc _ hrefused).snoc _ hanswered
  intro original input source
  obtain ⟨blocks, hspells, -, hsteps⟩ := (fresh_answers original).2.2 history
  refine ⟨_, blocks, _, _, rfl, rfl, history, hspells, ?_⟩
  intro earlier entry later hblocks hcall message reply hsent
  obtain ⟨front, sent, begun, challenge, houtstanding, hanswers, -⟩ :=
    (hsteps earlier entry later hblocks).2.2 message reply hcall hsent
  exact ⟨front, sent, begun, challenge, houtstanding, hanswers⟩

/-- While a challenge is due, a run that is asked for is refused and leaves the challenge due. -/
theorem refused_prove_not_startable_pairModulo23 :
    let original : ThreeMove.Prover Nat 3 := .pairModulo23 none ()
    let input : ProverInput Nat := .all [.one ⟨18, 3⟩, .one ⟨12, 5⟩]
    let source : Source := ⟨fun i => UInt8.ofNat (37 * i + 5), 0⟩
    ∃ (calls : List (CallEntry Nat 3)) (party : Prover Nat 3) (rest : Source),
      calls.map Entry.call = [.step (.first input), .prove input] ∧
      calls.map Entry.result = [.ok (), .error (.outOfOrder .firstWhileAwaiting)] ∧
      History Call.act (create original) source calls party rest ∧
      ¬ Startable original party := by
  have hfirst : ∃ left rest, (Call.act (.step (.first (.all [.one ⟨18, 3⟩, .one ⟨12, 5⟩])))).Runs
      (create (.pairModulo23 none ()) : Prover Nat 3) ⟨fun i => UInt8.ofNat (37 * i + 5), 0⟩
      [.sent [8, 1] (.ok ())] (.ok (), ⟨left, true⟩, rest) :=
    ⟨_, _, .send (.ok ()) (.done _)⟩
  intro original input source
  obtain ⟨left, rest, hfirst⟩ := hfirst
  have hawaits : (⟨left, true⟩ : Prover Nat 3).awaiting ≠ (Call.prove input).awaits := nofun
  have hprove : (Call.act (.prove input)).Runs ⟨left, true⟩ rest []
      (.error (.outOfOrder .firstWhileAwaiting), ⟨left, true⟩, rest) := by
    unfold Runs
    rw [Call.act_of_ne hawaits]
    exact .done _
  refine ⟨_, _, _, rfl, rfl, (History.single hfirst).snoc _ hprove, fun hstartable => ?_⟩
  obtain ⟨bytes, party', rest', hruns⟩ := hstartable input rest ⟨trivial, trivial, trivial⟩
  have hawaits : (⟨left, true⟩ : Prover Nat 3).awaiting ≠ (Step.first input).awaits := nofun
  change Talk.Trace ((Step.first input).act _ _) _ _ at hruns
  rw [Step.act_of_ne hawaits] at hruns
  cases hruns

end ThreeMove.Interactive.Prover
