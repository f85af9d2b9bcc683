import ThreeMove.Proofs.KnowledgeProof.Safety
import ThreeMove.Proofs.Pedersen.Deeds

/-!
# Commitments that a prover keeps

A prover records the commitment of a run and consumes it with the opening.  A run that ends in
between leaves the commitment behind: the input may have another shape, the first message may be
lost, and so may the opening, or it cannot be decoded.  What a prover keeps is exactly what such
runs have left.
-/

namespace ThreeMove

open ThreeMove.Action Pedersen

variable {E : Type} {t : Nat}

namespace ZeroKnowledge.Prover

variable {α β : Type} {party party' : Prover E t} {source source' : Source} {events : List Event}

def SparesReceiver (x : Action (Prover E t) ProofFault α) : Prop :=
  ∀ {party source events result party' source'},
    x.Runs party source events (result, party', source') →
    party'.receiver = party.receiver ∧ Talk.received events = []

theorem SparesReceiver.bind {x : Action (Prover E t) ProofFault α}
    {f : α → Action (Prover E t) ProofFault β} (hx : SparesReceiver x)
    (hf : ∀ a, SparesReceiver (f a)) : SparesReceiver (x >>= f) := by
  intro party source events result party' source' hruns
  rcases runs_bind.mp hruns with ⟨e, _, _, hfails, hout⟩ |
    ⟨a, _, _, front, back, rfl, hfront, hback⟩
  · cases hout
    exact hx hfails
  · obtain ⟨hfirst, hnone⟩ := hx hfront
    obtain ⟨hsecond, hrest⟩ := hf a hback
    rw [Talk.received_append, hnone, hrest]
    exact ⟨hsecond.trans hfirst, rfl⟩

theorem sparesReceiver_compute
    {step : ThreeMove.Prover E t → Source → Outcome SigmaFault α (ThreeMove.Prover E t)} :
    SparesReceiver (compute step) := by
  intro party source events result party' source' hruns
  obtain ⟨rfl, hout⟩ := runs_compute.mp hruns
  cases hout
  exact ⟨rfl, rfl⟩

theorem sparesReceiver_sendMessage (message : Message) :
    SparesReceiver (sendMessage message : Action (Prover E t) ProofFault Unit) := by
  intro party source events result party' source' hruns
  unfold sendMessage at hruns
  rw [runs_ofExcept_bind] at hruns
  split at hruns
  · obtain ⟨reply, rfl, hout⟩ := runs_send.mp hruns
    cases hout
    exact ⟨rfl, rfl⟩
  · obtain ⟨rfl, hout⟩ := hruns
    cases hout
    exact ⟨rfl, rfl⟩

theorem sparesReceiver_sendFirst (input : ProverInput E) :
    SparesReceiver (sendFirst input : Action (Prover E t) ProofFault Unit) :=
  sparesReceiver_compute.bind sparesReceiver_sendMessage

theorem sparesReceiver_sendSecond (challenge : Challenge) :
    SparesReceiver (sendSecond challenge : Action (Prover E t) ProofFault Unit) :=
  sparesReceiver_compute.bind sparesReceiver_sendMessage

theorem after_opening {id : Id} {input : ProverInput E} {result : Except ProofFault Unit}
    (hruns : (do
      sendFirst input
      let challenge ← onReceiver (Receiver.receiveOpening id)
      sendSecond challenge : Action (Prover E t) ProofFault Unit).Runs party source events
        (result, party', source')) :
    party'.receiver = party.receiver.after
      (Receiver.openingDeeds party.receiver.group id (Talk.received events)) := by
  rcases runs_bind.mp hruns with ⟨e, _, _, hfirst, hout⟩ |
    ⟨_, _, _, front, back, rfl, hfirst, hrest⟩
  · cases hout
    obtain ⟨hsame, hnone⟩ := sparesReceiver_sendFirst input hfirst
    rw [hnone]
    exact hsame
  · obtain ⟨hsame, hnone⟩ := sparesReceiver_sendFirst input hfirst
    rw [Talk.received_append, hnone, List.nil_append, ← hsame]
    rcases runs_bind.mp hrest with ⟨e, _, _, hopening, hout⟩ |
      ⟨challenge, _, _, middle, last, rfl, hopening, hsecond⟩
    · cases hout
      obtain ⟨answer, receiver, hreceiver, -, rfl⟩ := runs_onReceiver.mp hopening
      exact Receiver.after_receiveOpening hreceiver
    · obtain ⟨answer, receiver, hreceiver, -, rfl⟩ := runs_onReceiver.mp hopening
      obtain ⟨hlast, hnothing⟩ := sparesReceiver_sendSecond challenge hsecond
      rw [Talk.received_append, hnothing, List.append_nil, hlast]
      exact Receiver.after_receiveOpening hreceiver

def deeds (group : PrimeGroup E) (messages : List Bytes) : List (Deed E) :=
  (Receiver.commitmentDeeds group messages).flatMap fun deed =>
    deed :: Receiver.openingDeeds group deed.id messages.tail

/-- What a run has read decides what it leaves in the ledger. -/
theorem after_prove {input : ProverInput E} {result : Except ProofFault Unit}
    (hruns : (prove input).Runs party source events (result, party', source')) :
    party'.receiver = party.receiver.after
      (deeds party.receiver.group (Talk.received events)) := by
  rcases runs_bind.mp hruns with ⟨e, _, _, hrecord, hout⟩ |
    ⟨record, _, _, front, back, rfl, hrecord, hrest⟩
  · cases hout
    obtain ⟨answer, receiver, hreceiver, hanswer, rfl⟩ := runs_onReceiver.mp hrecord
    obtain ⟨rfl, hends⟩ := Receiver.after_receiveRecord hreceiver
    rcases hends with ⟨fault, -, hnone⟩ | ⟨_, _, _, rfl, _⟩
    · rw [deeds, hnone]
      rfl
    · cases hanswer
  · obtain ⟨answer, receiver, hreceiver, hanswer, rfl⟩ := runs_onReceiver.mp hrecord
    obtain ⟨rfl, hends⟩ := Receiver.after_receiveRecord hreceiver
    rcases hends with ⟨_, rfl, _⟩ | ⟨_, bytes, element, rfl, hbytes, hkeep⟩
    · cases hanswer
    · cases hanswer
      have hdeeds : deeds party.receiver.group (Talk.received (front ++ back)) =
          [.keep record.id element] ++
            Receiver.openingDeeds party.receiver.group record.id (Talk.received back) := by
        rw [Talk.received_append, hbytes, List.singleton_append, deeds, hkeep]
        exact List.append_nil _
      rw [hdeeds, Receiver.after_append]
      rw [hbytes, hkeep] at hrest
      exact after_opening hrest

theorem after_history {origin : Prover E t} {start : Source}
    {calls : List (Entry (ProverInput E) (Prover E t) ProofFault)}
    (history : History prove origin start calls party source) :
    party.receiver = origin.receiver.after (calls.flatMap fun call =>
      deeds origin.receiver.group (Talk.received call.events)) := by
  refine history.invariant (fun calls party => party.receiver = origin.receiver.after
    (calls.flatMap fun call => deeds origin.receiver.group (Talk.received call.events))) rfl ?_
  intro calls party source input events result party' source' hparty hruns
  rw [after_prove hruns, hparty, List.flatMap_append, Receiver.after_append]
  simp [Receiver.after]

end ZeroKnowledge.Prover

namespace KnowledgeProof.Prover

open ZeroKnowledge.Prover (runs_onReceiver sparesReceiver_sendFirst sparesReceiver_sendSecond)

variable {party party' : Prover E t} {source source' : Source} {events : List Event}

/-- The deeds of a step.  An opening is read for the commitment of the run that is in progress. -/
def stepDeeds (group : PrimeGroup E) (entry : StepEntry E t) : List (Deed E) :=
  match entry.call, entry.state.phase with
  | .receiveCommitment, _ => Receiver.commitmentDeeds group (Talk.received entry.events)
  | .receiveOpening, .firstSent record =>
      Receiver.openingDeeds group record.id (Talk.received entry.events)
  | _, _ => []

theorem after_receiveCommitment {result : Except ProofFault Record}
    (hruns : (receiveCommitment : Action (Prover E t) _ _).Runs party source events
      (result, party', source')) :
    party'.base.receiver = party.base.receiver.after
      (Receiver.commitmentDeeds party.base.receiver.group (Talk.received events)) := by
  unfold receiveCommitment at hruns
  rw [runs_get_bind] at hruns
  split at hruns
  · rcases runs_onBase_advance hruns with ⟨_, base, hstep, -, rfl⟩ | ⟨_, base, hstep, -, rfl⟩
    · obtain ⟨answer, receiver, hrecord, -, rfl⟩ := runs_onReceiver.mp hstep
      exact (Receiver.after_receiveRecord hrecord).1
    · obtain ⟨answer, receiver, hrecord, -, rfl⟩ := runs_onReceiver.mp hstep
      exact (Receiver.after_receiveRecord hrecord).1
  · obtain ⟨⟨rfl, -⟩, rfl⟩ := runs_refuse hruns
    rfl

theorem after_first {input : ProverInput E} {result : Except ProofFault Unit}
    (hruns : (first input : Action (Prover E t) _ _).Runs party source events
      (result, party', source')) : party'.base.receiver = party.base.receiver := by
  unfold first at hruns
  rw [runs_get_bind] at hruns
  split at hruns
  · next record _ =>
    have hadvance : (do
        let done ← onBase (ZeroKnowledge.Prover.sendFirst input)
        setPhase (.firstSent record)
        return done : Action (Prover E t) ProofFault Unit).Runs { party with phase := .idle } source
          events (result, party', source') := hruns
    rcases runs_onBase_advance hadvance with ⟨_, base, hsend, -, rfl⟩ | ⟨_, base, hsend, -, rfl⟩
    · exact (sparesReceiver_sendFirst input hsend).1
    · exact (sparesReceiver_sendFirst input hsend).1
  · obtain ⟨-, rfl⟩ := runs_refuse hruns
    rfl

theorem after_receiveOpening {result : Except ProofFault Challenge}
    (hruns : (receiveOpening : Action (Prover E t) _ _).Runs party source events
      (result, party', source')) :
    (∃ record, party.phase = .firstSent record ∧ party'.base.receiver = party.base.receiver.after
        (Receiver.openingDeeds party.base.receiver.group record.id (Talk.received events))) ∨
      (∀ record, party.phase ≠ .firstSent record) ∧ party' = party := by
  unfold receiveOpening at hruns
  rw [runs_get_bind] at hruns
  split at hruns
  · next record hphase =>
    refine .inl ⟨record, hphase, ?_⟩
    rw [runs_setPhase_bind] at hruns
    rcases runs_onBase_advance hruns with ⟨_, base, hstep, -, rfl⟩ | ⟨_, base, hstep, -, rfl⟩
    · obtain ⟨answer, receiver, hopening, -, rfl⟩ := runs_onReceiver.mp hstep
      exact Receiver.after_receiveOpening hopening
    · obtain ⟨answer, receiver, hopening, -, rfl⟩ := runs_onReceiver.mp hstep
      exact Receiver.after_receiveOpening hopening
  · next hphase =>
    obtain ⟨-, rfl⟩ := runs_refuse hruns
    exact .inr ⟨hphase, rfl⟩

theorem after_second {result : Except ProofFault Unit}
    (hruns : (second : Action (Prover E t) _ _).Runs party source events
      (result, party', source')) : party'.base.receiver = party.base.receiver := by
  unfold second at hruns
  rw [runs_get_bind] at hruns
  split at hruns
  · next record challenge hphase =>
    rw [runs_setPhase_bind] at hruns
    rcases runs_bind.mp hruns with ⟨e, _, _, hbase, hout⟩ |
      ⟨_, _, _, front, back, rfl, hbase, hback⟩
    · cases hout
      obtain ⟨base, hsend, rfl⟩ := runs_onBase.mp hbase
      exact (sparesReceiver_sendSecond challenge hsend).1
    · obtain ⟨base, hsend, rfl⟩ := runs_onBase.mp hbase
      obtain ⟨reply, rfl, hout⟩ := runs_send.mp hback
      cases hout
      exact (sparesReceiver_sendSecond challenge hsend).1
  · obtain ⟨-, rfl⟩ := runs_refuse hruns
    rfl

theorem after_step {step : Step E} {result : Except ProofFault Unit}
    (hruns : step.act.Runs party source events (result, party', source')) :
    party'.base.receiver = party.base.receiver.after
      (stepDeeds party.base.receiver.group ⟨step, party, source, events, result⟩) := by
  cases step with
  | receiveCommitment =>
      obtain ⟨answer, _, _, hstep, hout⟩ := runs_discard.mp hruns
      cases hout
      exact after_receiveCommitment hstep
  | first input => exact after_first hruns
  | receiveOpening =>
      obtain ⟨answer, _, _, hstep, hout⟩ := runs_discard.mp hruns
      cases hout
      rcases after_receiveOpening hstep with ⟨record, hphase, hreceiver⟩ | ⟨hphase, hsame⟩
      · rw [hreceiver]
        simp only [stepDeeds, hphase]
      · rw [hsame]
        cases hother : party.phase with
        | firstSent record => exact (hphase record hother).elim
        | _ =>
            simp only [stepDeeds, hother]
            rfl
  | second => exact after_second hruns

theorem base_of_create {computation : ThreeMove.Prover E t}
    (hruns : (create computation).Runs () source events (.ok party, (), source')) :
    (ZeroKnowledge.Prover.create computation).Runs () source events
      (.ok party.base, (), source') := by
  rcases runs_bind.mp hruns with ⟨e, _, _, hbase, hout⟩ |
    ⟨base, _, _, front, back, rfl, hbase, hback⟩
  · cases hout
  · obtain ⟨rfl, hout⟩ := runs_pure.mp hback
    cases hout
    rw [List.append_nil]
    exact hbase

theorem after_history {origin : Prover E t} {start : Source} {steps : List (StepEntry E t)}
    (history : History Step.act origin start steps party source) :
    party.base.receiver = origin.base.receiver.after
      (steps.flatMap (stepDeeds origin.base.receiver.group)) := by
  refine history.invariant (fun steps party => party.base.receiver = origin.base.receiver.after
    (steps.flatMap (stepDeeds origin.base.receiver.group))) rfl ?_
  intro steps party source step events result party' source' hparty hruns
  rw [after_step hruns, hparty, List.flatMap_append, Receiver.after_append]
  simp [Receiver.after]

end KnowledgeProof.Prover

/-- After any calls, whatever was asked, read and lost in them, a prover keeps an element under an
identifier exactly if the last deed under it was to keep that element: the commitment was read,
and neither did its run read an opening that can be decoded, nor has a later run used the
identifier. -/
theorem provers_keep_unopened (computation : ThreeMove.Prover E t) :
    (∀ {start between source : Source} {creation : List Event}
        {origin party : ZeroKnowledge.Prover E t}
        {calls : List (Entry (ProverInput E) (ZeroKnowledge.Prover E t) ProofFault)},
      (ZeroKnowledge.Prover.create computation).Runs () start creation (.ok origin, (), between) →
      History ZeroKnowledge.Prover.prove origin between calls party source →
      ∀ id element, party.receiver.commitments.get? id = some element ↔
        Deed.LastKeeps (calls.flatMap fun call =>
          ZeroKnowledge.Prover.deeds computation.group (Talk.received call.events)) id element) ∧
    ∀ {start between source : Source} {creation : List Event}
        {origin party : KnowledgeProof.Prover E t}
        {calls : List (KnowledgeProof.Prover.CallEntry E t)},
      (KnowledgeProof.Prover.create computation).Runs () start creation (.ok origin, (), between) →
      History KnowledgeProof.Prover.Call.act origin between calls party source →
      ∃ blocks : List (List (KnowledgeProof.Prover.StepEntry E t)),
        List.Forall₂ KnowledgeProof.Prover.Spells calls blocks ∧
        History KnowledgeProof.Prover.Step.act origin between blocks.flatten party source ∧
        ∀ id element, party.base.receiver.commitments.get? id = some element ↔
          Deed.LastKeeps (blocks.flatten.flatMap
            (KnowledgeProof.Prover.stepDeeds computation.group)) id element := by
  constructor
  · intro start between source creation origin party calls created history id element
    obtain ⟨-, hgroup, -, hempty, -⟩ := ZeroKnowledge.Prover.runs_create created
    rw [ZeroKnowledge.Prover.after_history history, Receiver.after, hempty, hgroup]
    exact Deed.get?_performAll_iff _ id element
  · intro start between source creation origin party calls created history
    obtain ⟨blocks, hspells, hsteps⟩ := KnowledgeProof.Prover.blocks_of_history history
    refine ⟨blocks, hspells, hsteps, fun id element => ?_⟩
    obtain ⟨-, hgroup, -, hempty, -⟩ :=
      ZeroKnowledge.Prover.runs_create (KnowledgeProof.Prover.base_of_create created)
    rw [KnowledgeProof.Prover.after_history hsteps, Receiver.after, hempty, hgroup]
    exact Deed.get?_performAll_iff _ id element

/-- The opening of the first run cannot be decoded, and the second run is about an input of another
shape. -/
theorem provers_keep_unopened_pairModulo23 :
    let input : ProverInput Nat := .all [.one ⟨18, 3⟩, .one ⟨12, 5⟩]
    let undecodable : List Event := [.received (.ok [0, 0, 0, 0, 0, 0, 0, 1, 12]),
      .sent [1, 13] (.ok ()), .received (.ok [0])]
    let misshapen : List Event := [.received (.ok [0, 0, 0, 0, 0, 0, 0, 2, 18])]
    (∃ (origin party : ZeroKnowledge.Prover Nat 3) (source source' : Source)
        (calls : List (Entry (ProverInput Nat) (ZeroKnowledge.Prover Nat 3) ProofFault)),
      calls.map Entry.call = [input, .one ⟨18, 3⟩] ∧
      calls.map Entry.events = [undecodable, misshapen] ∧
      History ZeroKnowledge.Prover.prove origin source calls party source' ∧
      party.receiver.commitments.get? 1 = some 12 ∧
      party.receiver.commitments.get? 2 = some 18) ∧
    ∃ (origin party : KnowledgeProof.Prover Nat 3) (source source' : Source)
        (calls : List (KnowledgeProof.Prover.CallEntry Nat 3))
        (blocks : List (List (KnowledgeProof.Prover.StepEntry Nat 3))),
      calls.map Entry.call = [.prove input, .prove (.one ⟨18, 3⟩)] ∧
      calls.map Entry.events = [undecodable, misshapen] ∧
      History KnowledgeProof.Prover.Call.act origin source calls party source' ∧
      List.Forall₂ KnowledgeProof.Prover.Spells calls blocks ∧
      Deed.LastKeeps (blocks.flatten.flatMap
        (KnowledgeProof.Prover.stepDeeds SafePrime.modulo23.group)) 1 12 := by
  have committed : ∃ (origin party party' : ZeroKnowledge.Prover Nat 3)
      (source between rest : Source),
      (ZeroKnowledge.Prover.create (.pairModulo23 none ())).Runs ()
        ⟨fun i => UInt8.ofNat (37 * i + 5), 0⟩ [.sent [8] (.ok ())] (.ok origin, (), source) ∧
      (ZeroKnowledge.Prover.prove (.all [.one ⟨18, 3⟩, .one ⟨12, 5⟩])).Runs origin source
        [.received (.ok [0, 0, 0, 0, 0, 0, 0, 1, 12]), .sent [1, 13] (.ok ()),
          .received (.ok [0])]
        (.error (.message (.malformed .identifierMissing)), party, between) ∧
      (ZeroKnowledge.Prover.prove (.one ⟨18, 3⟩)).Runs party between
        [.received (.ok [0, 0, 0, 0, 0, 0, 0, 2, 18])]
        (.error (.sigma (.misshapen .compositeProverInputExpected)), party', rest) :=
    ⟨_, _, _, _, _, _, .send (.ok ()) (.done _),
      .receive _ (.send (.ok ()) (.receive _ (.done _))), .receive _ (.done _)⟩
  have proved : ∃ (origin party party' : KnowledgeProof.Prover Nat 3)
      (source between rest : Source),
      (KnowledgeProof.Prover.create (.pairModulo23 none ())).Runs ()
        ⟨fun i => UInt8.ofNat (37 * i + 5), 0⟩ [.sent [8] (.ok ())] (.ok origin, (), source) ∧
      (KnowledgeProof.Prover.Call.act (.prove (.all [.one ⟨18, 3⟩, .one ⟨12, 5⟩]))).Runs origin
        source [.received (.ok [0, 0, 0, 0, 0, 0, 0, 1, 12]), .sent [1, 13] (.ok ()),
          .received (.ok [0])]
        (.error (.message (.malformed .identifierMissing)), party, between) ∧
      (KnowledgeProof.Prover.Call.act (.prove (.one ⟨18, 3⟩))).Runs party between
        [.received (.ok [0, 0, 0, 0, 0, 0, 0, 2, 18])]
        (.error (.sigma (.misshapen .compositeProverInputExpected)), party', rest) ∧
      party'.base.receiver.commitments.get? 1 = some 12 :=
    ⟨_, _, _, _, _, _, .send (.ok ()) (.done _),
      .receive _ (.send (.ok ()) (.receive _ (.done _))), .receive _ (.done _), rfl⟩
  obtain ⟨hcommitted, hproved⟩ :=
    provers_keep_unopened (.pairModulo23 none () : ThreeMove.Prover Nat 3)
  intro input undecodable misshapen
  constructor
  · obtain ⟨origin, party, party', source, between, rest, created, hfirst, hsecond⟩ := committed
    have history := (History.single hfirst).snoc _ hsecond
    have hkept := hcommitted created history
    refine ⟨origin, party', source, rest, _, rfl, rfl, history, (hkept 1 12).mpr ?_,
      (hkept 2 18).mpr ?_⟩
    · exact ⟨[], [.keep 2 18], rfl, by simp [Deed.id]⟩
    · exact ⟨[.keep 1 12], [], rfl, nofun⟩
  · obtain ⟨origin, party, party', source, between, rest, created, hfirst, hsecond, hkept⟩ := proved
    have history := (History.single hfirst).snoc _ hsecond
    obtain ⟨blocks, hspells, -, hledger⟩ := hproved created history
    exact ⟨origin, party', source, rest, _, blocks, rfl, rfl, history, hspells,
      (hledger 1 12).mp hkept⟩

/-- A run that has ended leaves its commitment behind when the opening cannot be decoded. -/
theorem ended_run_keeps_commitment_pairModulo23 :
    let input : ProverInput Nat := .all [.one ⟨18, 3⟩, .one ⟨12, 5⟩]
    let source : Source := ⟨fun i => UInt8.ofNat (37 * i + 5), 0⟩
    let events : List Event := [.received (.ok [0, 0, 0, 0, 0, 0, 0, 1, 12]),
      .sent [1, 13] (.ok ()), .received (.ok [0])]
    let result : Except ProofFault Unit := .error (.message (.malformed .identifierMissing))
    (∃ (origin party : ZeroKnowledge.Prover Nat 3) (between rest : Source),
      (ZeroKnowledge.Prover.create (.pairModulo23 none ())).Runs () source [.sent [8] (.ok ())]
        (.ok origin, (), between) ∧
      (ZeroKnowledge.Prover.prove input).Runs origin between events (result, party, rest) ∧
      party.receiver.commitments.get? 1 = some 12) ∧
    ∃ (origin party : KnowledgeProof.Prover Nat 3) (between rest : Source),
      (KnowledgeProof.Prover.create (.pairModulo23 none ())).Runs () source [.sent [8] (.ok ())]
        (.ok origin, (), between) ∧
      (KnowledgeProof.Prover.prove input).Runs origin between events (result, party, rest) ∧
      party.phase = .idle ∧ party.base.receiver.commitments.get? 1 = some 12 :=
  ⟨⟨_, _, _, _, .send (.ok ()) (.done _), .receive _ (.send (.ok ()) (.receive _ (.done _))), rfl⟩,
    _, _, _, _, .send (.ok ()) (.done _), .receive _ (.send (.ok ()) (.receive _ (.done _))), rfl,
    rfl⟩

end ThreeMove
