import ThreeMove.Proofs.Composition.Draws
import ThreeMove.Proofs.Decides

/-!
# Verifiers keep nothing between runs

A verifier with a committed challenge draws one challenge for each run.  It commits to that
challenge, opens that commitment, and judges with that challenge at every node.  However the
run ends, the commitment and the challenge are gone, and the next run draws from later bytes of
its source.
-/

namespace ThreeMove

open ThreeMove.Action

variable {E : Type} {t : Nat}

namespace ZeroKnowledge.Verifier

variable {party : Verifier E t} {source : Source} {computation : ThreeMove.Verifier E t} {key : E}
  {κ : Type} {calls : List (Entry κ (Verifier E t) ProofFault)} {events : List Event}

/-- Neither a commitment nor a challenge is kept. -/
structure Bare (party : Verifier E t) : Prop where
  commitments : party.committer.secrets = .empty
  challenges : ∀ held ∈ party.computation.remembered, held = none

/-- The only commitment is the one of the run, and the challenge that it hides is held at every
node. -/
structure Holds (computation : ThreeMove.Verifier E t) (key : E) (draw : Draw)
    (party : Verifier E t) : Prop where
  stands : Stands computation key party
  commitments : party.committer.secrets = Pedersen.Ledger.empty.insert draw.id
    ⟨draw.randomness, draw.challenge, draw.commitment computation.group key⟩
  challenges : ∀ held ∈ party.computation.remembered, held = some draw.challenge

def Behind (order : Nat) (calls : List (Entry κ (Verifier E t) ProofFault)) (source : Source) :
    Prop :=
  ∀ entry ∈ calls, ∃ count, source = (Draw.ofSource t order entry.source).rest.skip count

structure Rested (computation : ThreeMove.Verifier E t) (key : E)
    (calls : List (Entry κ (Verifier E t) ProofFault)) (party : Verifier E t) (source : Source) :
    Prop where
  stands : Stands computation key party
  commitments : party.committer.secrets = .empty
  behind : Behind computation.group.order calls source

/-- What holds of a call: the messages are the commitment to the drawn challenge and its opening,
as far as the call gets, and nothing is left afterwards. -/
structure Forgets (computation : ThreeMove.Verifier E t) (key : E) (draw : Draw)
    (events : List Event) (outcome : Outcome ProofFault Bool (Verifier E t)) : Prop where
  sent : ∃ opening,
    Pedersen.Opening.encode computation.group.scalarSize
      ⟨draw.id, draw.randomness, draw.challenge⟩ = .ok opening ∧
    Talk.sent events <+: [Pedersen.Commitment.encode
      ⟨draw.id, computation.group.encode (draw.commitment computation.group key)⟩, opening]
  bare : outcome.2.1.Bare
  rest : outcome.2.2 = draw.rest

theorem Draw.exists_skip_rest (t order : Nat) (source : Source) :
    ∃ count, (Draw.ofSource t order source).rest = source.skip count := by
  obtain ⟨count, hcount⟩ := (Challenge.sample t source.word.2).2.exists_skip_below order
  have hchallenge : (Challenge.sample t source.word.2).2 =
      (source.skip 8).skip (4 * ((t + 31) / 32)) := rfl
  have hrest : (Draw.ofSource t order source).rest =
      ((Challenge.sample t source.word.2).2.below order).2 := rfl
  rw [hrest, hcount, hchallenge, Source.skip_skip, Source.skip_skip]
  exact ⟨_, rfl⟩

theorem Behind.snoc {order : Nat} (hbehind : Behind order calls source)
    {entry : Entry κ (Verifier E t) ProofFault} (hentry : entry.source = source) :
    Behind order (calls ++ [entry]) (Draw.ofSource t order source).rest := by
  intro other hother
  rcases List.mem_append.mp hother with hother | hother
  · obtain ⟨before, hbefore⟩ := hbehind other hother
    obtain ⟨count, hcount⟩ := Draw.exists_skip_rest t order source
    have hsum := Source.skip_skip (Draw.ofSource t order other.source).rest before count
    exact ⟨before + count, hcount.trans ((congrArg (Source.skip · count) hbefore).trans hsum)⟩
  · rw [List.mem_singleton.mp hother, hentry]
    exact ⟨0, rfl⟩

namespace Rested

theorem engaged (hrested : Rested computation key calls party source) (draw : Draw) :
    Holds computation key draw (party.engaged draw) := by
  have hkept : (party.engaged draw).committer.secrets = party.committer.secrets.insert draw.id
      ⟨draw.randomness, draw.challenge,
        draw.commitment party.committer.group party.committer.key⟩ := rfl
  refine ⟨⟨?_, hrested.stands.group, hrested.stands.key⟩, ?_, ?_⟩
  · exact (Composition.statements_map _ _ _).trans hrested.stands.statements
  · rw [hkept, hrested.commitments, hrested.stands.group, hrested.stands.key]
  · exact party.computation.held_of_setChallenge draw.challenge

theorem released (hrested : Rested computation key calls party source) (draw : Draw) :
    (party.released draw).Bare := by
  refine ⟨?_, (party.engaged draw).computation.held_of_clearChallenge⟩
  have herased : (party.released draw).committer.secrets =
      (party.engaged draw).committer.secrets.erase draw.id := rfl
  rw [herased, (hrested.engaged draw).commitments]
  exact Pedersen.Ledger.erase_insert_empty _ _

theorem forgets (hrested : Rested computation key calls party source)
    {result : Except ProofFault Bool}
    (hsent : Talk.sent events <+: [(party.sends (party.draws source)).1,
      (party.sends (party.draws source)).2]) :
    Forgets computation key (.ofSource t computation.group.order source) events
      (result, party.released (party.draws source), (party.draws source).rest) := by
  have hfits := Nat.le_of_lt
    (party.committer.group.bitLength_lt_scalarSize (randomness_lt hrested.stands.coherent source))
  rw [hrested.stands.draws, hrested.stands.group] at hfits
  rw [hrested.stands.sends, hrested.stands.draws] at hsent
  rw [hrested.stands.draws]
  exact ⟨⟨_, Pedersen.Opening.encode_of_fits _ hfits, hsent⟩, hrested.released _, rfl⟩

end Rested

/-- Any calls leave the party as it was created, apart from its source. -/
theorem rested_of_history {act : κ → Action (Verifier E t) ProofFault Unit}
    (hact : ∀ {call party source events result party' source'}, Coherent party →
      (act call).Runs party source events (result, party', source') →
      party' = released party (draws party source) ∧ source' = (draws party source).rest)
    {start between : Source} {creation : List Event} {origin : Verifier E t}
    (created : (create computation).Runs () start creation (.ok origin, (), between))
    (history : History act origin between calls party source) :
    Rested computation origin.committer.key calls party source := by
  induction history with
  | nil =>
      obtain ⟨bytes, -, -, horigin⟩ := runs_create created
      refine ⟨stands_of_create created, ?_, fun entry hentry => (List.not_mem_nil hentry).elim⟩
      rw [horigin]
  | @snoc calls party party' source source' events result prior call ran ih =>
      obtain ⟨hparty, hsource⟩ := hact ih.stands.coherent ran
      rw [hparty, hsource]
      refine ⟨ih.stands.released _, (ih.released _).commitments, ?_⟩
      rw [ih.stands.draws]
      exact ih.behind.snoc rfl

theorem Exchanged.sent_prefix {commitment opening : Bytes}
    {replies : Except ChannelFault (Bytes × Bytes)}
    (hexchanged : Exchanged commitment opening events replies) :
    Talk.sent events <+: [commitment, opening] := by
  cases hexchanged with
  | commitmentLost fault => exact ⟨[opening], rfl⟩
  | firstLost fault => exact ⟨[opening], rfl⟩
  | openingLost first fault => exact List.prefix_rfl
  | secondLost first fault => exact List.prefix_rfl
  | complete first second => exact List.prefix_rfl

theorem Exchanged.received_eq {commitment opening : Bytes} {messages : Bytes × Bytes}
    (hexchanged : Exchanged commitment opening events (.ok messages)) :
    Talk.received events = [messages.1, messages.2] := by
  cases hexchanged
  rfl

theorem Exchanged.disturbed {commitment opening : Bytes} {fault : ChannelFault}
    (hexchanged : Exchanged commitment opening events (.error fault)) :
    ¬ Talk.Undisturbed events := by
  intro hundisturbed
  obtain ⟨⟨messages, hmessages⟩, -⟩ := hexchanged.of_undisturbed hundisturbed
  cases hmessages

variable [DecidableEq E]

theorem forgets_verify (hrested : Rested computation key calls party source)
    {input : CommonInput E} {outcome : Outcome ProofFault Bool (Verifier E t)}
    (hruns : (verify input).Runs party source events outcome) :
    let draw := Draw.ofSource t computation.group.order source
    Forgets computation key draw events outcome ∧
      ((¬ Talk.Undisturbed events ∧ ∃ fault, outcome.1 = .error (.channel fault)) ∨
        ∃ engaged messages, Holds computation key draw engaged ∧
          Talk.received events = [messages.1, messages.2] ∧
          outcome.1 = verdict engaged input (engaged.decodes messages)) := by
  intro draw
  obtain ⟨result, party', source'⟩ := outcome
  obtain ⟨rfl, rfl, replies, hexchanged, rfl⟩ := course_of_verify hrested.stands.coherent hruns
  refine ⟨hrested.forgets hexchanged.sent_prefix, ?_⟩
  cases replies with
  | error fault => exact .inl ⟨hexchanged.disturbed, fault, rfl⟩
  | ok messages =>
      have hdraw : party.draws source = draw := hrested.stands.draws source
      refine .inr ⟨party.engaged draw, messages, hrested.engaged draw, hexchanged.received_eq, ?_⟩
      rw [decodes_engaged, hdraw]
      rfl

theorem released_rest_of_act {input : CommonInput E} {result : Except ProofFault Unit}
    {party' : Verifier E t} {source' : Source} (hcoherent : party.Coherent)
    (hruns : (act input).Runs party source events (result, party', source')) :
    party' = released party (draws party source) ∧ source' = (draws party source).rest := by
  obtain ⟨answer, _, _, hverify, hout⟩ := runs_discard.mp hruns
  cases hout
  obtain ⟨hparty, hsource, -⟩ := course_of_verify hcoherent hverify
  exact ⟨hparty, hsource⟩

end ZeroKnowledge.Verifier

namespace KnowledgeProof.Verifier

open ZeroKnowledge.Verifier

variable [DecidableEq E] {party : Verifier E t} {source : Source}
  {computation : ThreeMove.Verifier E t} {key : E} {κ : Type}
  {calls : List (Entry κ (Verifier E t) ProofFault)} {events : List Event}

theorem forgets_verify (hrested : Rested computation key calls party source)
    {input : CommonInput E} {outcome : Outcome ProofFault Bool (Verifier E t)}
    (hruns : (verify input).Runs party source events outcome) :
    let draw := Draw.ofSource t computation.group.order source
    Forgets computation key draw events outcome ∧
      ((¬ Talk.Undisturbed events ∧ ∃ fault, outcome.1 = .error (.channel fault)) ∨
        ∃ engaged messages third, Holds computation key draw engaged ∧
          Talk.received events = [messages.1, messages.2, third] ∧
          outcome.1 = verdict engaged input draw.id (engaged.decodes messages).1
            (engaged.decodes messages).2
            (Pedersen.Record.decode engaged.computation.group.elementSize third)) := by
  intro draw
  obtain ⟨result, party', source'⟩ := outcome
  obtain ⟨rfl, rfl, front, replies, hexchanged, hends⟩ :=
    course_of_verify hrested.stands.coherent hruns
  rcases hends with ⟨fault, rfl, rfl, rfl⟩ | ⟨messages, reply, rfl, rfl, rfl⟩
  · exact ⟨hrested.forgets hexchanged.sent_prefix, .inl ⟨hexchanged.disturbed, fault, rfl⟩⟩
  · have hsent : Talk.sent (front ++ [.received reply]) = Talk.sent front := by
      rw [Talk.sent_append]
      exact List.append_nil _
    refine ⟨hrested.forgets (hsent ▸ hexchanged.sent_prefix), ?_⟩
    cases reply with
    | error fault =>
        refine .inl ⟨fun hundisturbed => ?_, fault, rfl⟩
        have hlast := hundisturbed _ (List.mem_append_right front List.mem_cons_self)
        simp at hlast
    | ok third =>
        have hdraw : draws party source = draw := hrested.stands.draws source
        refine .inr ⟨engaged party draw, messages, third, hrested.engaged draw, ?_, ?_⟩
        · rw [Talk.received_append, hexchanged.received_eq]
          rfl
        · rw [decodes_engaged, hdraw]
          rfl

theorem released_rest_of_act {input : CommonInput E} {result : Except ProofFault Unit}
    {party' : Verifier E t} {source' : Source} (hcoherent : Coherent party)
    (hruns : (act input).Runs party source events (result, party', source')) :
    party' = released party (draws party source) ∧ source' = (draws party source).rest := by
  obtain ⟨answer, _, _, hverify, hout⟩ := runs_discard.mp hruns
  cases hout
  obtain ⟨hparty, hsource, -⟩ := runs_verify hcoherent hverify
  exact ⟨hparty, hsource⟩

end KnowledgeProof.Verifier

/-- After any calls, whatever was asked, read and lost in them, a further call commits to a
challenge that it draws behind all earlier draws, opens that commitment, and comes to a verdict
only with that challenge at every node.  However it ends, no commitment and no challenge is
left. -/
theorem verifiers_keep_nothing [DecidableEq E] (computation : ThreeMove.Verifier E t) :
    (∀ {start between source : Source} {creation : List Event}
        {origin party : ZeroKnowledge.Verifier E t}
        {calls : List (Entry (CommonInput E) (ZeroKnowledge.Verifier E t) ProofFault)},
      (ZeroKnowledge.Verifier.create computation).Runs () start creation
        (.ok origin, (), between) →
      History ZeroKnowledge.Verifier.act origin between calls party source →
      let key := origin.committer.key
      let draw := ZeroKnowledge.Verifier.Draw.ofSource t computation.group.order source
      ZeroKnowledge.Verifier.Behind computation.group.order calls source ∧
      ∀ input events outcome,
        (ZeroKnowledge.Verifier.verify input).Runs party source events outcome →
        ZeroKnowledge.Verifier.Forgets computation key draw events outcome ∧
        ((¬ Talk.Undisturbed events ∧ ∃ fault, outcome.1 = .error (.channel fault)) ∨
          ∃ engaged messages, ZeroKnowledge.Verifier.Holds computation key draw engaged ∧
            Talk.received events = [messages.1, messages.2] ∧
            outcome.1 = engaged.verdict input (engaged.decodes messages))) ∧
    ∀ {start between source : Source} {creation : List Event}
        {origin party : KnowledgeProof.Verifier E t}
        {calls : List (Entry (CommonInput E) (KnowledgeProof.Verifier E t) ProofFault)},
      (KnowledgeProof.Verifier.create computation).Runs () start creation
        (.ok origin, (), between) →
      History KnowledgeProof.Verifier.act origin between calls party source →
      let key := origin.committer.key
      let draw := ZeroKnowledge.Verifier.Draw.ofSource t computation.group.order source
      ZeroKnowledge.Verifier.Behind computation.group.order calls source ∧
      ∀ input events outcome,
        (KnowledgeProof.Verifier.verify input).Runs party source events outcome →
        ZeroKnowledge.Verifier.Forgets computation key draw events outcome ∧
        ((¬ Talk.Undisturbed events ∧ ∃ fault, outcome.1 = .error (.channel fault)) ∨
          ∃ engaged messages third, ZeroKnowledge.Verifier.Holds computation key draw engaged ∧
            Talk.received events = [messages.1, messages.2, third] ∧
            outcome.1 = KnowledgeProof.Verifier.verdict engaged input draw.id
              (engaged.decodes messages).1 (engaged.decodes messages).2
              (Pedersen.Record.decode engaged.computation.group.elementSize third)) := by
  constructor
  · intro start between source creation origin party calls created history key draw
    have hrested := ZeroKnowledge.Verifier.rested_of_history
      ZeroKnowledge.Verifier.released_rest_of_act created history
    exact ⟨hrested.behind, fun input events outcome hruns =>
      ZeroKnowledge.Verifier.forgets_verify hrested hruns⟩
  · intro start between source creation origin party calls created history key draw
    have hrested := ZeroKnowledge.Verifier.rested_of_history
      KnowledgeProof.Verifier.released_rest_of_act created history
    exact ⟨hrested.behind, fun input events outcome hruns =>
      KnowledgeProof.Verifier.forgets_verify hrested hruns⟩

/-- The commitment of an earlier run was lost, and the run is about an input of another shape. -/
theorem verifiers_keep_nothing_pairModulo23 :
    let computation : ThreeMove.Verifier Nat 3 := .pairModulo23 (some 2) none
    let party : ZeroKnowledge.Verifier Nat 3 :=
      ⟨.pairModulo23 none none, SafePrime.modulo23.group, 8, .empty⟩
    let source : Source := ⟨fun i => UInt8.ofNat (37 * i + 5), 16⟩
    let draw := ZeroKnowledge.Verifier.Draw.ofSource 3 11 source
    let events : List Event := [.sent [88, 51, 14, 233, 196, 159, 122, 85, 16] (.ok ()),
      .received (.ok [16, 8]), .sent [88, 51, 14, 233, 196, 159, 122, 85, 8, 7] (.ok ()),
      .received (.ok [3, 5])]
    (∃ outcome, (ZeroKnowledge.Verifier.verify (.one 18)).Runs party source events outcome ∧
      outcome.1 = .error (.sigma (.misshapen .compositeCommonInputExpected)) ∧
      ZeroKnowledge.Verifier.Forgets computation 8 draw events outcome) ∧
    ∃ outcome, (KnowledgeProof.Verifier.verify (.one 18)).Runs party source
        (events ++ [.received (.ok [1])]) outcome ∧
      outcome.1 = .ok false ∧
      ZeroKnowledge.Verifier.Forgets computation 8 draw (events ++ [.received (.ok [1])])
        outcome := by
  have created : (ZeroKnowledge.Verifier.create (.pairModulo23 (some 2) none)).Runs ()
      ⟨fun i => UInt8.ofNat (37 * i + 5), 0⟩ [.received (.ok [8])]
      (.ok (⟨.pairModulo23 (some 2) none, SafePrime.modulo23.group, 8, .empty⟩ :
        ZeroKnowledge.Verifier Nat 3), (), ⟨fun i => UInt8.ofNat (37 * i + 5), 0⟩) :=
    .receive (.ok [8]) (.done _)
  have hlost : (ZeroKnowledge.Verifier.act (.all [.one 18, .one 12])).Runs
      (⟨.pairModulo23 (some 2) none, SafePrime.modulo23.group, 8, .empty⟩ :
        ZeroKnowledge.Verifier Nat 3) ⟨fun i => UInt8.ofNat (37 * i + 5), 0⟩
      [.sent [8, 227, 190, 153, 116, 79, 42, 5, 13] (.error .disconnected)]
      (.error (.channel .disconnected),
        ⟨.pairModulo23 none none, SafePrime.modulo23.group, 8, .empty⟩,
        ⟨fun i => UInt8.ofNat (37 * i + 5), 16⟩) :=
    .send (.error .disconnected) (.done _)
  have hknowledge : (KnowledgeProof.Verifier.act (.all [.one 18, .one 12])).Runs
      (⟨.pairModulo23 (some 2) none, SafePrime.modulo23.group, 8, .empty⟩ :
        KnowledgeProof.Verifier Nat 3) ⟨fun i => UInt8.ofNat (37 * i + 5), 0⟩
      [.sent [8, 227, 190, 153, 116, 79, 42, 5, 13] (.error .disconnected)]
      (.error (.channel .disconnected),
        ⟨.pairModulo23 none none, SafePrime.modulo23.group, 8, .empty⟩,
        ⟨fun i => UInt8.ofNat (37 * i + 5), 16⟩) :=
    .send (.error .disconnected) (.done _)
  have hmisshapen : (ZeroKnowledge.Verifier.verify (.one 18)).Runs
      (⟨.pairModulo23 none none, SafePrime.modulo23.group, 8, .empty⟩ :
        ZeroKnowledge.Verifier Nat 3) ⟨fun i => UInt8.ofNat (37 * i + 5), 16⟩
      [.sent [88, 51, 14, 233, 196, 159, 122, 85, 16] (.ok ()), .received (.ok [16, 8]),
        .sent [88, 51, 14, 233, 196, 159, 122, 85, 8, 7] (.ok ()), .received (.ok [3, 5])]
      (.error (.sigma (.misshapen .compositeCommonInputExpected)),
        ⟨.pairModulo23 none none, SafePrime.modulo23.group, 8, .empty⟩,
        ⟨fun i => UInt8.ofNat (37 * i + 5), 32⟩) :=
    .send (.ok ()) (.receive (.ok [16, 8]) (.send (.ok ()) (.receive (.ok [3, 5]) (.done _))))
  have hrejected : (KnowledgeProof.Verifier.verify (.one 18)).Runs
      (⟨.pairModulo23 none none, SafePrime.modulo23.group, 8, .empty⟩ :
        KnowledgeProof.Verifier Nat 3) ⟨fun i => UInt8.ofNat (37 * i + 5), 16⟩
      [.sent [88, 51, 14, 233, 196, 159, 122, 85, 16] (.ok ()), .received (.ok [16, 8]),
        .sent [88, 51, 14, 233, 196, 159, 122, 85, 8, 7] (.ok ()), .received (.ok [3, 5]),
        .received (.ok [1])]
      (.ok false, ⟨.pairModulo23 none none, SafePrime.modulo23.group, 8, .empty⟩,
        ⟨fun i => UInt8.ofNat (37 * i + 5), 32⟩) :=
    .send (.ok ()) (.receive (.ok [16, 8]) (.send (.ok ()) (.receive (.ok [3, 5])
      (.receive (.ok [1]) (.done _)))))
  intro computation party source draw events
  obtain ⟨hcommitted, hproved⟩ := verifiers_keep_nothing computation
  exact ⟨⟨_, hmisshapen, rfl,
      ((hcommitted created (History.single hlost)).2 _ _ _ hmisshapen).1⟩,
    _, hrejected, rfl, ((hproved created (History.single hknowledge)).2 _ _ _ hrejected).1⟩

end ThreeMove
