import ThreeMove.Proofs.Interactive.Steps
import ThreeMove.Proofs.KnowledgeProof.Acceptance
import ThreeMove.Proofs.Talk.Channel

/-!
# Verifiers come to a verdict

Whatever a prover sends, a verifier of an input of the right shape does not fail for it.  It
goes on with its side of the exchange after a malformed message too, and only the channel can
keep it from its verdict.
-/

namespace ThreeMove

open ThreeMove.Action

variable {E : Type} {t : Nat} [DecidableEq E]

/-- The run ends with a verdict or with the failure of the channel.  If the channel does not
fail, there is a verdict, and the exchange is complete. -/
structure Decides {S ε : Type} (wrap : ChannelFault → ε) (reads writes : Nat)
    (events : List Event) (outcome : Outcome ε Bool S) : Prop where
  decided : (∃ accepted, outcome.1 = .ok accepted) ∨ ∃ fault, outcome.1 = .error (wrap fault)
  undisturbed : Talk.Undisturbed events → (∃ accepted, outcome.1 = .ok accepted) ∧
    (Talk.received events).length = reads ∧ (Talk.sent events).length = writes

theorem Interactive.Verifier.exists_judge_eq_ok (e : Challenge) {verifier : ThreeMove.Verifier E t}
    {input : CommonInput E} (hfits : verifier.Fits input) (first second : Bytes) :
    ∃ accepted, judge (verifier.setChallenge e) input
      (Message.decode verifier.firstLayout first).toOption
      (Message.decode verifier.secondLayout second).toOption = .ok accepted := by
  cases hfirst : Message.decode verifier.firstLayout first with
  | error fault => exact ⟨false, rfl⟩
  | ok a =>
      cases hsecond : Message.decode verifier.secondLayout second with
      | error fault => exact ⟨false, rfl⟩
      | ok z => exact ThreeMove.Verifier.exists_verify_eq_ok e hfits hfirst hsecond

namespace Interactive.Verifier

theorem decides_verify {computation : ThreeMove.Verifier E t} {input : CommonInput E}
    (hfits : computation.Fits input) (firstMessage : Option Message) (source : Source) :
    (verify input).OnEveryChannel ⟨computation, .idle, firstMessage⟩ source
      (Decides .channel 2 1) := by
  refine onEveryChannel_iff.mpr fun events outcome hruns => ?_
  obtain ⟨result, party, rest⟩ := outcome
  obtain ⟨-, hcourse⟩ := course_of_verify List.mem_cons_self hruns
  dsimp only at hcourse ⊢
  cases hcourse with
  | firstLost fault => exact ⟨.inr ⟨fault, rfl⟩, by simp⟩
  | challengeLost first fault => exact ⟨.inr ⟨fault, rfl⟩, by simp⟩
  | judged first reply =>
      cases reply with
      | error fault => exact ⟨.inr ⟨fault, rfl⟩, by simp⟩
      | ok second =>
          obtain ⟨accepted, haccepted⟩ :=
            exists_judge_eq_ok (Challenge.sample t source).1 hfits first second
          exact ⟨.inl ⟨accepted, haccepted⟩, fun _ => ⟨⟨accepted, haccepted⟩, rfl, rfl⟩⟩

end Interactive.Verifier

namespace ZeroKnowledge.Verifier

theorem Exchanged.of_undisturbed {commitment opening : Bytes} {events : List Event}
    {replies : Except ChannelFault (Bytes × Bytes)}
    (hexchanged : Exchanged commitment opening events replies)
    (hundisturbed : Talk.Undisturbed events) :
    (∃ messages, replies = .ok messages) ∧ (Talk.received events).length = 2 ∧
      (Talk.sent events).length = 2 := by
  cases hexchanged with
  | complete first second => exact ⟨⟨_, rfl⟩, rfl, rfl⟩
  | _ => simp at hundisturbed

/-- A party in a run has a verdict on whatever it has read. -/
theorem exists_verdict_eq_ok {party : Verifier E t} {input : CommonInput E}
    (hfits : party.computation.Fits input) (draw : Draw) (messages : Bytes × Bytes) :
    ∃ accepted, verdict (engaged party draw) input (party.decodes messages) = .ok accepted := by
  obtain ⟨first, second⟩ := messages
  unfold decodes
  dsimp only
  cases hfirst : Message.decode party.computation.firstLayout first with
  | error fault => exact ⟨false, rfl⟩
  | ok a =>
      cases hsecond : Message.decode party.computation.secondLayout second with
      | error fault => exact ⟨false, rfl⟩
      | ok z =>
          obtain ⟨accepted, hverify⟩ :=
            ThreeMove.Verifier.exists_verify_eq_ok draw.challenge hfits hfirst hsecond
          exact ⟨accepted, congrArg (Except.mapError ProofFault.ofSigma) hverify⟩

theorem decides_verify {party : Verifier E t} {input : CommonInput E} (hcoherent : party.Coherent)
    (hfits : party.computation.Fits input) (source : Source) :
    (verify input).OnEveryChannel party source (Decides .channel 2 2) := by
  refine onEveryChannel_iff.mpr fun events outcome hruns => ?_
  obtain ⟨-, -, replies, hexchanged, hresult⟩ := course_of_verify hcoherent hruns
  cases replies with
  | error fault =>
      refine ⟨.inr ⟨fault, hresult⟩, fun hundisturbed => ?_⟩
      obtain ⟨⟨messages, hmessages⟩, -⟩ := hexchanged.of_undisturbed hundisturbed
      cases hmessages
  | ok messages =>
      obtain ⟨accepted, haccepted⟩ := exists_verdict_eq_ok hfits (draws party source) messages
      have hdecided := hresult.trans haccepted
      exact ⟨.inl ⟨accepted, hdecided⟩, fun hundisturbed =>
        ⟨⟨accepted, hdecided⟩, (hexchanged.of_undisturbed hundisturbed).2⟩⟩

end ZeroKnowledge.Verifier

namespace KnowledgeProof.Verifier

open ZeroKnowledge.Verifier (Draw engaged draws decodes Coherent Exchanged)

theorem exists_verdict_eq_ok {party : Verifier E t} {input : CommonInput E}
    (hfits : party.computation.Fits input) (draw : Draw) (messages : Bytes × Bytes)
    (record : Except MessageFault Pedersen.Record) :
    ∃ accepted, verdict (engaged party draw) input draw.id (decodes party messages).1
      (decodes party messages).2 record = .ok accepted := by
  obtain ⟨accepted, haccepted⟩ :=
    ZeroKnowledge.Verifier.exists_verdict_eq_ok hfits draw messages
  generalize decodes party messages = read at haccepted ⊢
  obtain ⟨a, z⟩ := read
  cases a with
  | none => exact ⟨false, rfl⟩
  | some a =>
      cases z with
      | none => exact ⟨false, rfl⟩
      | some z =>
          cases record with
          | error fault => exact ⟨false, rfl⟩
          | ok record => exact ⟨_, congrArg (Except.map _) haccepted⟩

theorem decides_verify {party : Verifier E t} {input : CommonInput E} (hcoherent : Coherent party)
    (hfits : party.computation.Fits input) (source : Source) :
    (verify input).OnEveryChannel party source (Decides .channel 3 2) := by
  refine onEveryChannel_iff.mpr fun events outcome hruns => ?_
  obtain ⟨-, -, front, replies, hexchanged, hends⟩ := course_of_verify hcoherent hruns
  rcases hends with ⟨fault, rfl, rfl, hresult⟩ | ⟨messages, reply, rfl, rfl, hresult⟩
  · refine ⟨.inr ⟨fault, hresult⟩, fun hundisturbed => ?_⟩
    obtain ⟨⟨messages, hmessages⟩, -⟩ := hexchanged.of_undisturbed hundisturbed
    cases hmessages
  · cases reply with
    | error fault =>
        refine ⟨.inr ⟨fault, hresult⟩, fun hundisturbed => ?_⟩
        have hlast := hundisturbed _ (List.mem_append_right front List.mem_cons_self)
        simp at hlast
    | ok third =>
        obtain ⟨accepted, haccepted⟩ := exists_verdict_eq_ok hfits (draws party source) messages
          (Pedersen.Record.decode
            (engaged party (draws party source)).computation.group.elementSize third)
        have hdecided := hresult.trans haccepted
        refine ⟨.inl ⟨accepted, hdecided⟩, fun hundisturbed => ⟨⟨accepted, hdecided⟩, ?_⟩⟩
        obtain ⟨-, hreceived, hsent⟩ := hexchanged.of_undisturbed fun event hevent =>
          hundisturbed event (List.mem_append_left _ hevent)
        rw [Talk.received_append, Talk.sent_append, List.length_append, List.length_append,
          hreceived, hsent]
        exact ⟨rfl, rfl⟩

end KnowledgeProof.Verifier

/-- No bytes make a verifier fail.  A verifier with a committed challenge comes to a verdict in
every state that earlier runs can leave it in, and an interactive verifier between any two runs,
unless the channel fails.  On a channel that does not fail it reads and writes as many messages as
in a run with an honest prover. -/
theorem verifiers_decide {computation : ThreeMove.Verifier E t} {input : CommonInput E}
    (hfits : computation.Fits input) :
    (∀ {start between source : Source} {creation : List Event}
        {origin party : ZeroKnowledge.Verifier E t}
        {calls : List (Entry (CommonInput E) (ZeroKnowledge.Verifier E t) ProofFault)},
      (ZeroKnowledge.Verifier.create computation).Runs () start creation (.ok origin, (), between) →
      History ZeroKnowledge.Verifier.act origin between calls party source →
      (ZeroKnowledge.Verifier.verify input).OnEveryChannel party source (Decides .channel 2 2)) ∧
    (∀ {start between source : Source} {creation : List Event}
        {origin party : KnowledgeProof.Verifier E t}
        {calls : List (Entry (CommonInput E) (KnowledgeProof.Verifier E t) ProofFault)},
      (KnowledgeProof.Verifier.create computation).Runs () start creation
        (.ok origin, (), between) →
      History KnowledgeProof.Verifier.act origin between calls party source →
      (KnowledgeProof.Verifier.verify input).OnEveryChannel party source (Decides .channel 3 2)) ∧
    ∀ (firstMessage : Option Message) (source : Source),
      (Interactive.Verifier.verify input).OnEveryChannel ⟨computation, .idle, firstMessage⟩ source
        (Decides .channel 2 1) := by
  refine ⟨?_, ?_, fun firstMessage source =>
    Interactive.Verifier.decides_verify hfits firstMessage source⟩
  · intro start between source creation origin party calls created history
    have hstands := ZeroKnowledge.Verifier.stands_of_history
      ZeroKnowledge.Verifier.released_of_act (ZeroKnowledge.Verifier.stands_of_create created)
      history
    exact ZeroKnowledge.Verifier.decides_verify hstands.coherent
      (Composition.fits_of_statements hstands.statements.symm hfits) source
  · intro start between source creation origin party calls created history
    have hstands := KnowledgeProof.Verifier.stands_of_history
      (ZeroKnowledge.Verifier.stands_of_create created) history
    exact KnowledgeProof.Verifier.decides_verify hstands.coherent
      (Composition.fits_of_statements hstands.statements.symm hfits) source

theorem verifiers_decide_pairModulo23 :
    let computation : ThreeMove.Verifier Nat 3 := .pairModulo23 none none
    let input : CommonInput Nat := .all [.one 18, .one 12]
    let source : Source := ⟨fun i => UInt8.ofNat (37 * i + 5), 0⟩
    let party : ZeroKnowledge.Verifier Nat 3 :=
      ⟨computation, SafePrime.modulo23.group, 8, .empty⟩
    (ZeroKnowledge.Verifier.verify input).OnEveryChannel party source (Decides .channel 2 2) ∧
      (KnowledgeProof.Verifier.verify input).OnEveryChannel party source (Decides .channel 3 2) ∧
      (Interactive.Verifier.verify input).OnEveryChannel ⟨computation, .idle, none⟩ source
        (Decides .channel 2 1) := by
  intro computation input source party
  have hfits : computation.Fits input := ⟨trivial, trivial, trivial⟩
  have created : (ZeroKnowledge.Verifier.create computation).Runs () source [.received (.ok [8])]
      (.ok party, (), source) := .receive (.ok [8]) (.done _)
  obtain ⟨hcommitted, hknowledge, hinteractive⟩ := verifiers_decide hfits
  exact ⟨hcommitted created .nil, hknowledge created .nil, hinteractive none source⟩

end ThreeMove
