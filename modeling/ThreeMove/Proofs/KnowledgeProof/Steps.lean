import ThreeMove.KnowledgeProof.Prover
import ThreeMove.Proofs.ZeroKnowledge.Prover

/-!
# The steps of a prover of knowledge

Each of the four steps either is refused, or ends the run, or takes the party to the next
phase.  What has to have happened on the channel is said for the last case.
-/

namespace ThreeMove.KnowledgeProof.Prover

open ThreeMove.Action
open ZeroKnowledge.Prover (runs_onReceiver)

variable {E : Type} {t : Nat} {party party' party'' : Prover E t} {source source' : Source}
  {events : List Event}

/-- A call out of order, which the channel does not see. -/
def IsRefusal {α : Type} (events : List Event) (result : Except ProofFault α) : Prop :=
  events = [] ∧ ∃ reason, result = .error (.ofSigma (.outOfOrder reason))

structure Keeps (party party' : Prover E t) : Prop where
  statements : party'.base.computation.statements = party.base.computation.statements
  group : party'.base.receiver.group = party.base.receiver.group
  key : party'.base.receiver.key = party.base.receiver.key

theorem Keeps.rfl : Keeps party party :=
  ⟨Eq.refl _, Eq.refl _, Eq.refl _⟩

theorem Keeps.trans (h : Keeps party party') (h' : Keeps party' party'') : Keeps party party'' :=
  ⟨h'.statements.trans h.statements, h'.group.trans h.group, h'.key.trans h.key⟩

theorem runs_refuse {α : Type} {reason : Reason} {result : Except ProofFault α}
    (hruns : (refuse reason : Action (Prover E t) _ α).Runs party source events
      (result, party', source')) : IsRefusal events result ∧ party' = party := by
  obtain ⟨rfl, hout⟩ := runs_fail.mp hruns
  cases hout
  exact ⟨⟨rfl, reason, rfl⟩, rfl⟩

theorem runs_onBase {α : Type} {x : Action (ZeroKnowledge.Prover E t) ProofFault α}
    {result : Except ProofFault α} :
    (onBase x).Runs party source events (result, party', source') ↔
      ∃ base, x.Runs party.base source events (result, base, source') ∧
        party' = { party with base } := by
  refine Iff.trans runs_within ?_
  constructor
  · rintro ⟨result', base, _, hx, hout⟩
    cases result' <;> cases hout <;> exact ⟨base, hx, rfl⟩
  · rintro ⟨base, hx, rfl⟩
    refine ⟨result, base, source', hx, ?_⟩
    cases result <;> rfl

theorem runs_setPhase_bind {α : Type} {phase : Phase} {f : Unit → Action (Prover E t) ProofFault α}
    {outcome : Outcome ProofFault α (Prover E t)} :
    (setPhase phase >>= f).Runs party source events outcome ↔
      (f ()).Runs { party with phase } source events outcome :=
  runs_modify_bind

/-- A step of the underlying party that leads to another phase if it succeeds. -/
theorem runs_onBase_advance {α β : Type} {x : Action (ZeroKnowledge.Prover E t) ProofFault α}
    {f : α → β} {phase : α → Phase} {result : Except ProofFault β}
    (hruns : (do
      let a ← onBase x
      setPhase (phase a)
      return f a : Action (Prover E t) ProofFault β).Runs party source events
        (result, party', source')) :
    (∃ e base, x.Runs party.base source events (.error e, base, source') ∧ result = .error e ∧
        party' = { party with base }) ∨
      ∃ a base, x.Runs party.base source events (.ok a, base, source') ∧ result = .ok (f a) ∧
        party' = ⟨base, phase a⟩ := by
  rcases runs_bind.mp hruns with ⟨e, _, _, hbase, hout⟩ | ⟨a, _, _, front, back, rfl, hbase, hdone⟩
  · cases hout
    obtain ⟨base, hx, rfl⟩ := runs_onBase.mp hbase
    exact .inl ⟨e, base, hx, rfl, rfl⟩
  · obtain ⟨rfl, hout⟩ := runs_pure.mp hdone
    cases hout
    obtain ⟨base, hx, rfl⟩ := runs_onBase.mp hbase
    rw [List.append_nil]
    exact .inr ⟨a, base, hx, rfl, rfl⟩

theorem runs_create {computation : ThreeMove.Prover E t}
    (hruns : (create computation).Runs () source events (.ok party, (), source')) :
    party.base.computation = computation ∧ party.base.receiver.group = computation.group ∧
      party.base.receiver.key = computation.group.pow computation.group.generator
        party.base.receiver.trapdoor ∧
      events = [.sent (computation.group.encode party.base.receiver.key) (.ok ())] ∧
      party.phase = .idle := by
  rcases runs_bind.mp hruns with ⟨e, _, _, hbase, hout⟩ |
    ⟨base, _, _, front, back, rfl, hbase, hback⟩
  · cases hout
  · obtain ⟨rfl, hout⟩ := runs_pure.mp hback
    cases hout
    obtain ⟨hcomputation, hgroup, hkey, -, rfl⟩ := ZeroKnowledge.Prover.runs_create hbase
    exact ⟨hcomputation, hgroup, hkey, List.append_nil _, rfl⟩

theorem runs_receiveCommitment {result : Except ProofFault Pedersen.Record}
    (hruns : (receiveCommitment : Action (Prover E t) _ _).Runs party source events
      (result, party', source')) :
    (IsRefusal events result ∧ party' = party) ∨
      (Keeps party party' ∧ party'.phase = .idle ∧ ∃ reply, events = [.received reply]) ∨
      ∃ id bytes element, events = [.received (.ok (Pedersen.encodeId id ++ bytes))] ∧
        party.base.receiver.group.decode bytes = .ok element ∧ Keeps party party' ∧
        party'.base.receiver.commitments.get? id = some element ∧
        party'.phase = .committed ⟨id,
          party.base.receiver.group.encode party.base.receiver.key,
          party.base.receiver.group.encode element⟩ := by
  unfold receiveCommitment at hruns
  rw [runs_get_bind] at hruns
  split at hruns
  · next hphase =>
    rcases runs_onBase_advance hruns with ⟨e, base, hstep, rfl, rfl⟩ |
      ⟨record, base, hstep, rfl, rfl⟩
    · obtain ⟨answer, receiver, hrecord, hanswer, rfl⟩ := runs_onReceiver.mp hstep
      rcases Pedersen.Receiver.runs_receiveRecord hrecord with ⟨_, _, rfl, hrefused⟩ |
        ⟨_, _, _, _, _, _, _, rfl, _⟩
      · exact .inr (.inl ⟨⟨rfl, rfl, rfl⟩, hphase, hrefused.events_eq⟩)
      · cases hanswer
    · obtain ⟨answer, receiver, hrecord, hanswer, rfl⟩ := runs_onReceiver.mp hstep
      rcases Pedersen.Receiver.runs_receiveRecord hrecord with ⟨_, rfl, _⟩ |
        ⟨id, bytes, element, rfl, _, hdecode, _, rfl, rfl⟩
      · cases hanswer
      · cases hanswer
        refine .inr (.inr ⟨id, bytes, element, rfl, hdecode, ⟨rfl, rfl, rfl⟩, ?_, rfl⟩)
        exact Pedersen.Ledger.get?_insert_self _ _ _
  · exact .inl (runs_refuse hruns)

theorem runs_first {input : ProverInput E} {result : Except ProofFault Unit}
    (hruns : (first input : Action (Prover E t) _ _).Runs party source events
      (result, party', source')) :
    (IsRefusal events result ∧ party' = party) ∨
      (Keeps party party' ∧ party'.phase = .idle ∧ (events = [] ∨
        ∃ bytes fault, party.base.computation.BeginsWith input source bytes ∧
          events = [.sent bytes (.error fault)])) ∨
      ∃ record bytes, ∃ begun : Begun E t, party.phase = .committed record ∧
        party.base.computation.first input source =
          (.ok begun.firstMessage, begun.prover, source') ∧
        begun.statements = party.base.computation.statements ∧ begun.Carries input ∧
        begun.firstMessage.encode = .ok bytes ∧ events = [.sent bytes (.ok ())] ∧
        party' = ⟨⟨begun.prover, party.base.receiver⟩, .firstSent record⟩ := by
  unfold first at hruns
  rw [runs_get_bind] at hruns
  split at hruns
  · next record hphase =>
    have hadvance : (do
        let done ← onBase (ZeroKnowledge.Prover.sendFirst input)
        setPhase (.firstSent record)
        return done : Action (Prover E t) ProofFault Unit).Runs { party with phase := .idle } source
          events (result, party', source') := hruns
    rcases runs_onBase_advance hadvance with ⟨e, base, hsend, rfl, rfl⟩ |
      ⟨_, base, hsend, rfl, rfl⟩
    · obtain ⟨hreceiver, hstatements, hsent⟩ := ZeroKnowledge.Prover.runs_sendFirst hsend
      have hkeeps : Keeps party { party with base, phase := .idle } :=
        ⟨hstatements, congrArg _ hreceiver, congrArg _ hreceiver⟩
      refine .inr (.inl ⟨hkeeps, rfl, ?_⟩)
      rcases hsent with ⟨_, -, rfl, -⟩ | ⟨begun, bytes, reply, hfirst, -, -, hbytes, rfl, hreply, -⟩
      · exact .inl rfl
      · cases reply with
        | ok _ => cases hreply
        | error fault => exact .inr ⟨bytes, fault, ⟨begun, _, hfirst, hbytes⟩, rfl⟩
    · obtain ⟨-, -, hsent⟩ := ZeroKnowledge.Prover.runs_sendFirst hsend
      rcases hsent with ⟨_, -, -, hfailed⟩ |
        ⟨begun, bytes, reply, hfirst, hstatements, hcarries, hbytes, rfl, hreply, rfl⟩
      · cases hfailed
      · cases reply with
        | error fault => cases hreply
        | ok _ =>
            exact .inr (.inr ⟨record, bytes, begun, hphase, hfirst, hstatements, hcarries, hbytes,
              rfl, rfl⟩)
  · exact .inl (runs_refuse hruns)

theorem runs_receiveOpening {result : Except ProofFault Challenge}
    (hruns : (receiveOpening : Action (Prover E t) _ _).Runs party source events
      (result, party', source')) :
    (IsRefusal events result ∧ party' = party) ∨
      (Keeps party party' ∧ party'.phase = .idle ∧ ∃ reply, events = [.received reply]) ∨
      ∃ record bytes randomness value element, party.phase = .firstSent record ∧
        events = [.received (.ok bytes)] ∧
        Pedersen.Opening.decode party.base.receiver.group.scalarSize bytes =
          .ok ⟨record.id, randomness, value⟩ ∧
        party.base.receiver.commitments.get? record.id = some element ∧
        party.base.receiver.group.encode element = party.base.receiver.group.encode
          (Pedersen.hide party.base.receiver.group party.base.receiver.key randomness value) ∧
        Keeps party party' ∧ party'.base.computation = party.base.computation ∧
        party'.phase = .opened record value := by
  unfold receiveOpening at hruns
  rw [runs_get_bind] at hruns
  split at hruns
  · next record hphase =>
    rw [runs_setPhase_bind] at hruns
    rcases runs_onBase_advance hruns with ⟨e, base, hstep, rfl, rfl⟩ |
      ⟨challenge, base, hstep, rfl, rfl⟩
    · obtain ⟨answer, receiver, hopening, hanswer, rfl⟩ := runs_onReceiver.mp hstep
      rcases Pedersen.Receiver.runs_receiveOpening hopening with ⟨_, _, _, rfl, hrefused⟩ |
        ⟨_, _, _, _, _, _, _, _, rfl, _⟩
      · exact .inr (.inl ⟨⟨rfl, rfl, rfl⟩, rfl, hrefused.events_eq⟩)
      · cases hanswer
    · obtain ⟨answer, receiver, hopening, hanswer, rfl⟩ := runs_onReceiver.mp hstep
      rcases Pedersen.Receiver.runs_receiveOpening hopening with ⟨_, _, rfl, _⟩ |
        ⟨bytes, ⟨id, randomness, value⟩, element, rfl, hdecode, helement, ⟨hid, _, hsame⟩, _, rfl,
          rfl⟩
      · cases hanswer
      · cases hanswer
        cases hid
        exact .inr (.inr ⟨record, bytes, randomness, _, element, hphase, rfl, hdecode, helement,
          hsame, ⟨rfl, rfl, rfl⟩, rfl, rfl⟩)
  · exact .inl (runs_refuse hruns)

theorem runs_second_refused (hphase : ∀ record challenge, party.phase ≠ .opened record challenge)
    {result : Except ProofFault Unit}
    (hruns : (second : Action (Prover E t) _ _).Runs party source events
      (result, party', source')) : IsRefusal events result ∧ party' = party := by
  unfold second at hruns
  rw [runs_get_bind] at hruns
  split at hruns
  · next record challenge hopened => exact (hphase record challenge hopened).elim
  · exact runs_refuse hruns

/-- The answer to the challenge and, if it could be sent, the record of the commit phase. -/
theorem runs_second {record : Pedersen.Record} {challenge : Challenge} {begun : Begun E t}
    (hphase : party.phase = .opened record challenge)
    (hbegun : party.base.computation = begun.prover) {result : Except ProofFault Unit}
    (hruns : (second : Action (Prover E t) _ _).Runs party source events
      (result, party', source')) :
    Keeps party party' ∧ party'.phase = .idle ∧
      (events = [] ∨ challenge < 2 ^ t ∧ ∃ bytes, (begun.answer challenge).encode = .ok bytes ∧
        ((∃ fault, events = [.sent bytes (.error fault)]) ∨
          ∃ reply, events = [.sent bytes (.ok ()), .sent record.encode reply])) := by
  unfold second at hruns
  rw [runs_get_bind, hphase] at hruns
  dsimp only at hruns
  rw [runs_setPhase_bind] at hruns
  rcases runs_bind.mp hruns with ⟨e, _, _, hbase, hout⟩ |
    ⟨_, _, _, front, back, rfl, hbase, hback⟩
  · cases hout
    obtain ⟨base, hsend, rfl⟩ := runs_onBase.mp hbase
    obtain ⟨hreceiver, hstatements, hevents⟩ := ZeroKnowledge.Prover.runs_sendSecond hbegun hsend
    refine ⟨⟨hstatements, congrArg _ hreceiver, congrArg _ hreceiver⟩, rfl, ?_⟩
    rcases hevents with ⟨rfl, _⟩ | ⟨hlt, bytes, reply, hbytes, rfl, hreply⟩
    · exact .inl rfl
    · cases reply with
      | ok _ => cases hreply
      | error fault => exact .inr ⟨hlt, bytes, hbytes, .inl ⟨fault, rfl⟩⟩
  · obtain ⟨base, hsend, rfl⟩ := runs_onBase.mp hbase
    obtain ⟨hreceiver, hstatements, hevents⟩ := ZeroKnowledge.Prover.runs_sendSecond hbegun hsend
    obtain ⟨reply, rfl, hout⟩ := runs_send.mp hback
    cases hout
    refine ⟨⟨hstatements, congrArg _ hreceiver, congrArg _ hreceiver⟩, rfl, ?_⟩
    rcases hevents with ⟨_, _, herror⟩ | ⟨hlt, bytes, written, hbytes, rfl, hwritten⟩
    · cases herror
    · cases written with
      | error fault => cases hwritten
      | ok _ => exact .inr ⟨hlt, bytes, hbytes, .inr ⟨reply, rfl⟩⟩

end ThreeMove.KnowledgeProof.Prover
