import ThreeMove.Proofs.Interactive.Log

/-!
# The discipline of challenges

Whatever is called, in whatever order, and whatever the channel delivers: the challenge of a
verdict was fixed in its own run before the first message was read, it was sent once after that
and before the answer was read, and it serves no other verdict.
-/

namespace ThreeMove.Interactive.Verifier

open ThreeMove.Action

variable {E : Type} {t : Nat} {original : ThreeMove.Verifier E t} {party party' : Verifier E t}
  {source source' : Source} {events exchanged : List Event} {log : List (StepEntry E t)}
  {entry : StepEntry E t} {e : Challenge}

/-- How far the exchange of a run has come in a phase, and which first message is kept there. -/
inductive Stage (layout : Layout) (e : Challenge) : Phase → Option Message → List Event → Prop where
  | fixed (stale : Option Message) : Stage layout e .challengeFixed stale []
  | received (first : Bytes) : Stage layout e .firstReceived
      (Message.decode layout first).toOption [.received (.ok first)]
  | sent (first : Bytes) : Stage layout e .challengeSent (Message.decode layout first).toOption
      [.received (.ok first), .sent e.encode (.ok ())]

theorem Stage.exchanged_eq_nil {layout : Layout} {phase : Phase} {kept : Option Message}
    (hstage : Stage layout e phase kept exchanged) (hphase : phase ∈ [.idle, .challengeFixed]) :
    exchanged = [] := by
  cases hstage with
  | fixed stale => rfl
  | _ => simp at hphase

structure Engaged (original : ThreeMove.Verifier E t) (log : List (StepEntry E t))
    (party : Verifier E t) (e : Challenge) (exchanged : List Event) : Prop where
  computation : party.computation = original.setChallenge e
  stage : Stage original.firstLayout e party.phase party.firstMessage exchanged
  fixed : FixedIn e (currentRun log) exchanged

structure Reached (original : ThreeMove.Verifier E t) (log : List (StepEntry E t))
    (party : Verifier E t) : Prop where
  statements : party.computation.statements = original.statements
  progress : party.phase = .idle ∧ exchange (currentRun log) = [] ∨
    ∃ e exchanged, Engaged original log party e exchanged

theorem Engaged.held (hengaged : Engaged original log party e exchanged) :
    ∀ held ∈ party.computation.remembered, held = some e := by
  rw [hengaged.computation]
  exact original.held_of_setChallenge e

/-- A call that does not fix a challenge and does not end the run goes on with the exchange. -/
theorem Engaged.snoc {more : List Event} (hengaged : Engaged original log party e exchanged)
    (hstate : entry.state = party) (hopen : concludes entry = false)
    (hkeeps : ∀ other, ¬ Fixes other entry) (hmore : entry.events.filter Event.succeeded = more) :
    FixedIn e (currentRun (log ++ [entry])) (exchanged ++ more) := by
  rw [currentRun_snoc hopen]
  refine hengaged.fixed.snoc hkeeps ?_ hmore
  rw [hstate]
  exact hengaged.held

theorem Reached.pause (hreached : Reached original log party) (hstate : entry.state = party)
    (hopen : concludes entry = false) (hkeeps : ∀ other, ¬ Fixes other entry)
    (hsilent : entry.events.filter Event.succeeded = []) :
    Reached original (log ++ [entry]) party := by
  refine ⟨hreached.statements, ?_⟩
  rcases hreached.progress with ⟨hphase, hidle⟩ | ⟨e, exchanged, hengaged⟩
  · -- an idle party refuses such a call, and its run stays empty of events
    refine .inl ⟨hphase, ?_⟩
    rw [currentRun_snoc hopen, exchange_append, hidle]
    simp [exchange, hsilent]
  · have hfixed := hengaged.snoc hstate hopen hkeeps hsilent
    rw [List.append_nil] at hfixed
    exact .inr ⟨e, exchanged, hengaged.computation, hengaged.stage, hfixed⟩

theorem Reached.silent (hreached : Reached original log party)
    (hphase : party.phase ∈ [.idle, .challengeFixed]) : exchange (currentRun log) = [] := by
  rcases hreached.progress with ⟨_, hidle⟩ | ⟨e, exchanged, hengaged⟩
  · exact hidle
  · rw [hengaged.fixed.exchange_eq]
    exact hengaged.stage.exchanged_eq_nil hphase

theorem Reached.engaged (hreached : Reached original log party) (hphase : party.phase ≠ .idle) :
    ∃ e exchanged, Engaged original log party e exchanged := by
  rcases hreached.progress with ⟨hidle, _⟩ | hengaged
  · exact (hphase hidle).elim
  · exact hengaged

/-- A challenge that is fixed holds at every node, and opens a run. -/
theorem Reached.fix (hreached : Reached original log party)
    (hphase : party.phase ∈ [.idle, .challengeFixed]) (hfixes : Fixes e entry)
    (hevents : entry.events = []) :
    Reached original (log ++ [entry])
      ⟨party.computation.setChallenge e, .challengeFixed, party.firstMessage⟩ := by
  have hopen : concludes entry = false := by
    unfold concludes
    rcases hfixes.call with hcall | ⟨hcall, _⟩ <;> rw [hcall]
  refine ⟨(Composition.statements_map _ _ _).trans hreached.statements, .inr ⟨e, [], ?_⟩⟩
  refine ⟨Composition.map_const_of_statements hreached.statements _ _, .fixed _, ?_⟩
  rw [currentRun_snoc hopen]
  exact .fix (hreached.silent hphase) hfixes hevents

theorem concludes_eq_false (hrefused : entry.state.phase ∉ entry.call.phases) :
    concludes entry = false := by
  unfold concludes
  cases hcall : entry.call with
  | process input =>
      rw [hcall, Step.phases, List.mem_singleton] at hrefused
      exact beq_false_of_ne hrefused
  | _ => rfl

/-- After a step the invariant holds again, and only steps out of order were refused as such. -/
structure Advances (original : ThreeMove.Verifier E t) (log : List (StepEntry E t))
    (entry : StepEntry E t) (party' : Verifier E t) : Prop where
  reached : Reached original (log ++ [entry]) party'
  refused_iff : (∃ reason, entry.result = .error (.outOfOrder reason)) ↔
    entry.state.phase ∉ entry.call.phases

theorem Advances.of_mem (hreached : Reached original (log ++ [entry]) party')
    (hphase : entry.state.phase ∈ entry.call.phases)
    (hordered : ∀ reason, entry.result ≠ .error (.outOfOrder reason)) :
    Advances original log entry party' := by
  refine ⟨hreached, ⟨?_, fun hrefused => (hrefused hphase).elim⟩⟩
  intro houtOfOrder
  obtain ⟨reason, hresult⟩ := houtOfOrder
  exact (hordered reason hresult).elim

variable [DecidableEq E] {result : Except SigmaFault Unit}

theorem advances_refused {step : Step E} (hreached : Reached original log party)
    (hphase : party.phase ∉ step.phases)
    (hruns : step.act.Runs party source events (result, party', source')) :
    Advances original log ⟨step, party, source, events, result⟩ party' := by
  obtain ⟨rfl, hout⟩ := (runs_of_done (Step.act_of_notMem hphase source)).mp hruns
  cases hout
  refine ⟨?_, ⟨fun _ => hphase, fun _ => ⟨_, rfl⟩⟩⟩
  exact hreached.pause rfl (concludes_eq_false hphase) (fun _ hfixes => nomatch hfixes.result) rfl

theorem advances_sampleChallenge (hreached : Reached original log party)
    (hphase : party.phase ∈ [.idle, .challengeFixed])
    (hruns : (Step.act .sampleChallenge).Runs party source events (result, party', source')) :
    Advances original log ⟨.sampleChallenge, party, source, events, result⟩ party' := by
  obtain ⟨answer, _, _, hstep, hout⟩ := runs_discard.mp hruns
  cases hout
  obtain ⟨rfl, hout⟩ := (runs_of_done (sampleChallenge_eq_done hphase)).mp hstep
  cases hout
  exact .of_mem (hreached.fix hphase ⟨.inr ⟨rfl, rfl⟩, rfl⟩ rfl) hphase nofun

theorem advances_setChallenge {challenge : Challenge} (hreached : Reached original log party)
    (hphase : party.phase ∈ [.idle, .challengeFixed])
    (hruns : (Step.act (.setChallenge challenge)).Runs party source events
      (result, party', source')) :
    Advances original log ⟨.setChallenge challenge, party, source, events, result⟩ party' := by
  obtain ⟨rfl, hout⟩ := (runs_of_done (setChallenge_eq_done hphase _)).mp hruns
  cases hout
  exact .of_mem (hreached.fix hphase ⟨.inl rfl, rfl⟩ rfl) hphase nofun

theorem advances_receiveFirst (hreached : Reached original log party)
    (hphase : party.phase ∈ [.challengeFixed])
    (hruns : (Step.act .receiveFirst).Runs party source events (result, party', source')) :
    Advances original log ⟨.receiveFirst, party, source, events, result⟩ party' := by
  have hkeeps : ∀ other, ¬ Fixes other
      (⟨.receiveFirst, party, source, events, result⟩ : StepEntry E t) :=
    fun _ hfixes => nomatch hfixes.phases_eq
  rcases (runs_receiveFirst hphase).mp hruns with ⟨fault, rfl, hout⟩ | ⟨first, rfl, hout⟩
  · cases hout
    exact .of_mem (hreached.pause rfl rfl hkeeps rfl) hphase nofun
  · cases hout
    refine .of_mem ?_ hphase nofun
    obtain ⟨current, phase, kept⟩ := party
    cases List.mem_singleton.mp hphase
    obtain ⟨e, exchanged, hengaged⟩ := hreached.engaged nofun
    -- the message was read under the layout of the party, the stage speaks of the original's
    have hlayout : current.firstLayout = original.firstLayout :=
      Composition.firstLayout_of_statements hreached.statements
    cases hengaged.stage with
    | fixed stale =>
        have hfixed := hengaged.snoc rfl rfl hkeeps rfl
        refine ⟨hreached.statements, .inr ⟨e, _, hengaged.computation, ?_, hfixed⟩⟩
        rw [← hlayout]
        exact .received first

theorem advances_sendChallenge (hreached : Reached original log party)
    (hphase : party.phase ∈ [.firstReceived])
    (hruns : (Step.act .sendChallenge).Runs party source events (result, party', source')) :
    Advances original log ⟨.sendChallenge, party, source, events, result⟩ party' := by
  have hkeeps : ∀ other, ¬ Fixes other
      (⟨.sendChallenge, party, source, events, result⟩ : StepEntry E t) :=
    fun _ hfixes => nomatch hfixes.phases_eq
  obtain ⟨current, phase, kept⟩ := party
  cases List.mem_singleton.mp hphase
  obtain ⟨e, exchanged, hengaged⟩ := hreached.engaged nofun
  have hcomputation : current = original.setChallenge e := hengaged.computation
  have hchallenge : current.challenge = some e := by
    rw [hcomputation]
    exact original.challenge_setChallenge e
  rcases (runs_sendChallenge hphase hchallenge).mp hruns with ⟨fault, rfl, hout⟩ | ⟨rfl, hout⟩
  · cases hout
    exact .of_mem (hreached.pause rfl rfl hkeeps rfl) hphase nofun
  · cases hout
    cases hengaged.stage with
    | received first =>
        have hfixed := hengaged.snoc rfl rfl hkeeps rfl
        exact .of_mem
          ⟨hreached.statements, .inr ⟨e, _, hengaged.computation, .sent first, hfixed⟩⟩ hphase nofun

/-- The verdict on two messages: each statement is judged under the challenge, and what cannot be
read is rejected. -/
inductive Judged (original : ThreeMove.Verifier E t) (e : Challenge) (input : CommonInput E)
    (first second : Bytes) : Bool → Prop where
  | views {a z : Message} {vs : List (View E t)}
      (hfirst : Message.decode original.firstLayout first = .ok a)
      (hsecond : Message.decode original.secondLayout second = .ok z)
      (hviews : original.views input a z = some vs) :
      Judged original e input first second (vs.all (View.accepts e))
  | unreadable
      (hunreadable : ∀ a z, Message.decode original.firstLayout first = .ok a →
        Message.decode original.secondLayout second ≠ .ok z) :
      Judged original e input first second false

/-- Both messages can be read, and what is seen of them at each statement holds under the
challenge. -/
def Convinces (original : ThreeMove.Verifier E t) (e : Challenge) (input : CommonInput E)
    (first second : Bytes) : Prop :=
  ∃ a z vs, Message.decode original.firstLayout first = .ok a ∧
    Message.decode original.secondLayout second = .ok z ∧
    original.views input a z = some vs ∧ ∀ view ∈ vs, view.Holds e

theorem Judged.eq_true_iff (laws : original.Lawful) {input : CommonInput E} {first second : Bytes}
    {accepted : Bool} (hjudged : Judged original e input first second accepted) :
    accepted = true ↔ Convinces original e input first second := by
  cases hjudged with
  | @views a z vs hfirst hsecond hviews =>
      have hall : vs.all (View.accepts e) = true ↔ ∀ view ∈ vs, view.Holds e := by
        rw [List.all_eq_true]
        refine forall₂_congr fun view hview => View.accepts_eq_true_iff ?_
        exact laws _ (Composition.group_mem_of_views hviews view hview)
      rw [hall]
      constructor
      · exact fun hholds => ⟨a, z, vs, hfirst, hsecond, hviews, hholds⟩
      · rintro ⟨a', z', vs', hfirst', hsecond', hviews', hholds⟩
        cases hfirst.symm.trans hfirst'
        cases hsecond.symm.trans hsecond'
        cases hviews.symm.trans hviews'
        exact hholds
  | unreadable hunreadable =>
      refine ⟨nofun, fun hconvinces => ?_⟩
      obtain ⟨a, z, _, hfirst, hsecond, -⟩ := hconvinces
      exact (hunreadable a z hfirst hsecond).elim

/-- With a challenge at every node there is a verdict, unless the shape of the input is wrong. -/
theorem judged_or_misshapen (original : ThreeMove.Verifier E t) (e : Challenge)
    (input : CommonInput E) (first second : Bytes) :
    (∃ accepted, Judged original e input first second accepted ∧
      judge (original.setChallenge e) input (Message.decode original.firstLayout first).toOption
        (Message.decode original.secondLayout second).toOption = .ok accepted) ∨
    ∃ reason, judge (original.setChallenge e) input
      (Message.decode original.firstLayout first).toOption
      (Message.decode original.secondLayout second).toOption = .error (.misshapen reason) := by
  cases hfirst : Message.decode original.firstLayout first with
  | error fault => exact .inl ⟨false, .unreadable (by simp [hfirst]), rfl⟩
  | ok a =>
      cases hsecond : Message.decode original.secondLayout second with
      | error fault => exact .inl ⟨false, .unreadable (by simp [hsecond]), rfl⟩
      | ok z =>
          cases hviews : original.views input a z with
          | none =>
              exact .inr (ThreeMove.Verifier.verify_of_no_views e original input a z hviews)
          | some vs =>
              exact .inl ⟨_, .views hfirst hsecond hviews,
                ThreeMove.Verifier.verify_of_views e original input a z hviews⟩

/-- A run of the last step: the party was in a run, and the messages were judged under its
challenge. -/
theorem course_of_process {input : CommonInput E} (hreached : Reached original log party)
    (hphase : party.phase ∈ [.challengeSent]) {verdict : Except SigmaFault Bool}
    (hruns : (process input).Runs party source events (verdict, party', source')) :
    ∃ e first, FixedIn e (currentRun log) [.received (.ok first), .sent e.encode (.ok ())] ∧
      (∀ held ∈ party.computation.remembered, held = some e) ∧
      ((∃ fault, verdict = .error (.channel fault)) ∨ ∃ second,
        events = [.received (.ok second)] ∧
        ((∃ accepted, Judged original e input first second accepted ∧ verdict = .ok accepted) ∨
          ∃ reason, verdict = .error (.misshapen reason))) := by
  obtain ⟨current, phase, kept⟩ := party
  cases List.mem_singleton.mp hphase
  obtain ⟨e, exchanged, hengaged⟩ := hreached.engaged nofun
  obtain ⟨reply, rfl, hout⟩ := (runs_process hphase).mp hruns
  cases hout
  have hcomputation : current = original.setChallenge e := hengaged.computation
  have hlayout : (original.setChallenge e).secondLayout = original.secondLayout :=
    Composition.secondLayout_map _ _ _
  cases hengaged.stage with
  | sent first =>
      refine ⟨e, first, hengaged.fixed, hengaged.held, ?_⟩
      cases reply with
      | error fault => exact .inl ⟨fault, rfl⟩
      | ok second =>
          have hjudged := judged_or_misshapen original e input first second
          rw [← hlayout, ← hcomputation] at hjudged
          exact .inr ⟨second, rfl, hjudged⟩

theorem advances_process {input : CommonInput E} (hreached : Reached original log party)
    (hphase : party.phase ∈ [.challengeSent])
    (hruns : (Step.act (.process input)).Runs party source events (result, party', source')) :
    Advances original log ⟨.process input, party, source, events, result⟩ party' := by
  obtain ⟨verdict, _, _, hstep, hout⟩ := runs_discard.mp hruns
  cases hout
  have hcourse := course_of_process hreached hphase hstep
  obtain ⟨reply, rfl, hout⟩ := (runs_process hphase).mp hstep
  cases hout
  refine .of_mem ?_ hphase ?_
  · refine ⟨(Composition.statements_map _ _ _).trans hreached.statements, .inl ⟨rfl, ?_⟩⟩
    rw [currentRun_concluded (by exact beq_iff_eq.mpr (List.mem_singleton.mp hphase))]
    rfl
  · intro reason houtOfOrder
    obtain ⟨e, first, _, _, ⟨fault, hverdict⟩ | ⟨second, _, ⟨accepted, _, hverdict⟩ |
      ⟨reason, hverdict⟩⟩⟩ := hcourse
    all_goals
      dsimp only at houtOfOrder
      rw [hverdict] at houtOfOrder
      cases houtOfOrder

theorem advances_of_reached {step : Step E} (hreached : Reached original log party)
    (hruns : step.act.Runs party source events (result, party', source')) :
    Advances original log ⟨step, party, source, events, result⟩ party' := by
  by_cases hphase : party.phase ∈ step.phases
  · cases step with
    | sampleChallenge => exact advances_sampleChallenge hreached hphase hruns
    | setChallenge challenge => exact advances_setChallenge hreached hphase hruns
    | receiveFirst => exact advances_receiveFirst hreached hphase hruns
    | sendChallenge => exact advances_sendChallenge hreached hphase hruns
    | process input => exact advances_process hreached hphase hruns
  · exact advances_refused hreached hphase hruns

theorem reached_of_history {start : Source}
    (history : History Step.act (create original) start log party source) :
    Reached original log party :=
  history.invariant (Reached original) ⟨rfl, .inl ⟨rfl, rfl⟩⟩
    fun hreached hruns => (advances_of_reached hreached hruns).reached

theorem mem_phases_of_verdict {input : CommonInput E} {accepted : Bool}
    (hruns : (process input).Runs party source events (.ok accepted, party', source')) :
    party.phase ∈ [.challengeSent] := by
  by_contra hphase
  have hact : (Step.act (.process input)).Runs party source events (.ok (), party', source') :=
    runs_discard.mpr ⟨_, _, _, hruns, rfl⟩
  obtain ⟨_, hout⟩ := (runs_of_done (Step.act_of_notMem hphase source)).mp hact
  cases hout

/-- A verdict is given on one challenge: it was fixed in the same run before anything was
exchanged, and its encoding was written between the receptions of the two messages.  Over lawful
groups it is positive exactly if the two messages convince under this challenge. -/
structure Earned (original : ThreeMove.Verifier E t) (log : List (StepEntry E t))
    (entry : StepEntry E t) (input : CommonInput E) (accepted : Bool) (e : Challenge)
    (first second : Bytes) : Prop where
  fixed : FixedIn e (currentRun log) [.received (.ok first), .sent e.encode (.ok ())]
  held : ∀ held ∈ entry.state.computation.remembered, held = some e
  events : entry.events = [.received (.ok second)]
  judged : Judged original e input first second accepted
  convinced_iff : original.Lawful → (accepted = true ↔ Convinces original e input first second)

/-- A verifier is called again and again.  A call out of order is refused and changes nothing, and
no other call is.  After the last step of a run no challenge is left, whatever the outcome.
A verdict is given on one challenge that was fixed after the end of the run before and was not
changed once the first message was read, and that was written exactly once, between the receptions
of the two messages. -/
theorem challenge_discipline (original : ThreeMove.Verifier E t) :
    (∀ (call : Call E) (party : Verifier E t) (source : Source), party.phase ∉ call.phases →
      call.act party source = .done (.error (.outOfOrder call.refusal), party, source)) ∧
    (∀ (input : CommonInput E) (party : Verifier E t) (source : Source) (events : List Event)
      (outcome : Outcome SigmaFault Bool (Verifier E t)), party.phase = .challengeSent →
      (process input).Runs party source events outcome →
      outcome.2.1.phase = .idle ∧ ∀ held ∈ outcome.2.1.computation.remembered, held = none) ∧
    ∀ {start source : Source} {calls : List (CallEntry E t)} {party : Verifier E t},
      History Call.act (create original) start calls party source →
      ∃ blocks : List (List (StepEntry E t)), List.Forall₂ Spells calls blocks ∧
        History Step.act (create original) start blocks.flatten party source ∧
        ∀ earlier entry later, blocks.flatten = earlier ++ entry :: later →
          ((∃ reason, entry.result = .error (.outOfOrder reason)) ↔
            entry.state.phase ∉ entry.call.phases) ∧
          ∀ input accepted party' source', entry.call = .process input →
            (process input).Runs entry.state entry.source entry.events
              (.ok accepted, party', source') →
            ∃ e first second, Earned original earlier entry input accepted e first second := by
  refine ⟨fun call party source hphase => Call.act_of_notMem hphase source, ?_, ?_⟩
  · intro input party source events outcome hphase hruns
    obtain ⟨reply, rfl, rfl⟩ := (runs_process (List.mem_singleton.mpr hphase)).mp hruns
    exact ⟨rfl, party.computation.held_of_clearChallenge⟩
  · intro start source calls party history
    obtain ⟨blocks, hspells, hsteps⟩ := blocks_of_history history
    refine ⟨blocks, hspells, hsteps, fun earlier entry later hblocks => ?_⟩
    obtain ⟨hearlier, state', between, hruns⟩ := hsteps.split hblocks
    have hreached := reached_of_history hearlier
    refine ⟨(advances_of_reached hreached hruns).refused_iff, ?_⟩
    intro input accepted party' source' _ hverdict
    obtain ⟨e, first, hfixed, hheld, ⟨_, hlost⟩ | ⟨second, hevents, hends⟩⟩ :=
      course_of_process hreached (mem_phases_of_verdict hverdict) hverdict
    · cases hlost
    · rcases hends with ⟨_, hjudged, hresult⟩ | ⟨_, hmisshapen⟩
      · cases hresult
        exact ⟨e, first, second, hfixed, hheld, hevents, hjudged,
          fun laws => hjudged.eq_true_iff laws⟩
      · cases hmisshapen

theorem challenge_discipline_pairModulo23 :
    let original : ThreeMove.Verifier Nat 3 := .pairModulo23 none none
    let input : CommonInput Nat := .all [.one 18, .one 12]
    let source : Source := ⟨fun i => UInt8.ofNat (37 * i + 5), 0⟩
    ∃ (calls : List (CallEntry Nat 3)) (blocks : List (List (StepEntry Nat 3))),
      calls.map Entry.call = [.step (.setChallenge 5), .step .receiveFirst, .step .sampleChallenge,
        .step .sendChallenge, .step (.process input)] ∧
      calls.flatMap Entry.events = [.received (.ok [1, 13]), .sent [5] (.ok ()),
        .received (.ok [4, 1])] ∧
      History Call.act (create original) source calls (create original) source ∧
      List.Forall₂ Spells calls blocks ∧
      ∀ earlier entry later, blocks.flatten = earlier ++ entry :: later →
        entry.call = .process input → ∀ accepted party' source',
        (process input).Runs entry.state entry.source entry.events
          (.ok accepted, party', source') →
        ∃ e first second, Earned original earlier entry input accepted e first second := by
  intro original input source
  let engaged : ThreeMove.Verifier Nat 3 := original.setChallenge 5
  let first : Message := .tuple [.element [1], .element [13]]
  have hset : (Call.act (.step (.setChallenge 5))).Runs (create original) source []
      (.ok (), ⟨engaged, .challengeFixed, none⟩, source) := .done _
  have hreceive : (Call.act (.step .receiveFirst)).Runs ⟨engaged, .challengeFixed, none⟩ source
      [.received (.ok [1, 13])] (.ok (), ⟨engaged, .firstReceived, some first⟩, source) :=
    .receive (.ok [1, 13]) (.done _)
  have hrefused : (Call.act (.step .sampleChallenge)).Runs ⟨engaged, .firstReceived, some first⟩
      source [] (.error (.outOfOrder .challengeChanged), ⟨engaged, .firstReceived, some first⟩,
        source) := .done _
  have hsend : (Call.act (.step .sendChallenge)).Runs ⟨engaged, .firstReceived, some first⟩ source
      [.sent [5] (.ok ())] (.ok (), ⟨engaged, .challengeSent, some first⟩, source) :=
    .send (.ok ()) (.done _)
  have hprocess : (Call.act (.step (.process input))).Runs ⟨engaged, .challengeSent, some first⟩
      source [.received (.ok [4, 1])] (.ok (), create original, source) :=
    .receive (.ok [4, 1]) (.done _)
  have history := ((((History.single hset).snoc _ hreceive).snoc _ hrefused).snoc _ hsend).snoc _
    hprocess
  obtain ⟨blocks, hspells, _, hsteps⟩ := (challenge_discipline original).2.2 history
  refine ⟨_, blocks, ?_, ?_, history, hspells, ?_⟩
  · rfl
  · rfl
  · intro earlier entry later hblocks hcall accepted party' source' hruns
    exact (hsteps earlier entry later hblocks).2 input accepted party' source' hcall hruns

end ThreeMove.Interactive.Verifier
