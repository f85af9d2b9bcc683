import ThreeMove.Proofs.HonestSession
import ThreeMove.Proofs.ZeroKnowledge.Prover
import ThreeMove.Proofs.ZeroKnowledge.Verifier

/-!
# A run with a committed challenge

Around the messages of the transcript the honest verifier commits to its challenge and opens
the commitment, and the honest prover finds both in order.
-/

namespace ThreeMove.ZeroKnowledge

open ThreeMove.Action

variable {E : Type} {t : Nat} [DecidableEq E] {verifier current : ThreeMove.Verifier E t}
  {prover : ThreeMove.Prover E t} {input : ProverInput E} {challenge : Challenge}
  {receiver : Pedersen.Receiver E} {trapdoor : Nat} {source drawn rest : Source}
  {begun : Begun E t} {first second : Bytes} {accepted : Bool}

def drawsFor (verifier : ThreeMove.Verifier E t) (drawn : Source) : Verifier.Draw :=
  .ofSource t verifier.group.order drawn

def drawChallenge (verifier : ThreeMove.Verifier E t) (drawn : Source) : Challenge × Source :=
  ((drawsFor verifier drawn).challenge, (drawsFor verifier drawn).rest)

def Verifier.resting (group : PrimeGroup E) (trapdoor : Nat)
    (computation : ThreeMove.Verifier E t) : Verifier E t :=
  ⟨computation, group, Pedersen.Receiver.keyOf group trapdoor, .empty⟩

def Ready (verifier : ThreeMove.Verifier E t) (trapdoor : Nat) (prover : ThreeMove.Prover E t)
    (party : Prover E t) (peer : Verifier E t) : Prop :=
  party = ⟨prover, .ofTrapdoor verifier.group trapdoor⟩ ∧
    ∃ current, verifier.Rested current ∧ peer = .resting verifier.group trapdoor current

namespace Prover

open Pedersen.Receiver (keyOf ofTrapdoor isMember_keyOf)

def keeping (group : PrimeGroup E) (trapdoor : Nat) (draw : Verifier.Draw) : Pedersen.Receiver E :=
  { ofTrapdoor group trapdoor with
    commitments := Pedersen.Ledger.empty.insert draw.id
      (draw.commitment group (keyOf group trapdoor)) }

def recordOf (group : PrimeGroup E) (trapdoor : Nat) (draw : Verifier.Draw) : Pedersen.Record :=
  ⟨draw.id, group.encode (keyOf group trapdoor),
    group.encode (draw.commitment group (keyOf group trapdoor))⟩

variable {group : PrimeGroup E} {draw : Verifier.Draw}

omit [DecidableEq E] in
theorem runs_receiveRecord (laws : group.Lawful) (trapdoor : Nat) (draw : Verifier.Draw) :
    (onReceiver Pedersen.Receiver.receiveRecord).Runs
      (⟨prover, ofTrapdoor group trapdoor⟩ : Prover E t) source
      [.received (.ok (draw.commitmentBytes group (keyOf group trapdoor)))]
      (.ok (recordOf group trapdoor draw), ⟨prover, keeping group trapdoor draw⟩, source) := by
  have hmember := Pedersen.isMember_hide laws (isMember_keyOf laws trapdoor) draw.randomness
    draw.challenge
  have hrecord := Pedersen.Receiver.receiveRecord_of_member (ofTrapdoor group trapdoor) laws hmember
    draw.id source
  exact runs_onReceiver.mpr ⟨_, _, hrecord, rfl, rfl⟩

omit [DecidableEq E] in
theorem runs_receiveOpening (hrandomness : draw.randomness < group.order)
    (hchallenge : draw.challenge < group.order) (trapdoor : Nat) :
    (onReceiver (Pedersen.Receiver.receiveOpening draw.id)).Runs
      (⟨prover, keeping group trapdoor draw⟩ : Prover E t) source
      [.received (.ok (draw.openingBytes group))]
      (.ok draw.challenge, ⟨prover, ofTrapdoor group trapdoor⟩, source) := by
  have hkept : (keeping group trapdoor draw).commitments.get? draw.id =
      some (draw.commitment group (keyOf group trapdoor)) :=
    Pedersen.Ledger.get?_insert_self _ _ _
  have hopening := Pedersen.Receiver.receiveOpening_of_hide hkept hrandomness hchallenge source
  rw [keeping, Pedersen.Ledger.erase_insert_empty, ← keeping] at hopening
  exact runs_onReceiver.mpr ⟨_, _, hopening, rfl, rfl⟩

theorem runs_sendFirst_of_transcribed (transcribed : Transcribed verifier prover input challenge
    source begun first second rest accepted) :
    (sendFirst input).Runs ⟨prover, receiver⟩ source [.sent first (.ok ())]
      (.ok (), ⟨begun.prover, receiver⟩, rest) := by
  have hcompute : (compute fun computation source => computation.first input source).Runs
      (⟨prover, receiver⟩ : Prover E t) source []
      (.ok begun.firstMessage, ⟨begun.prover, receiver⟩, rest) := by
    refine runs_compute.mpr ⟨rfl, ?_⟩
    rw [transcribed.first_eq]
    rfl
  exact Runs.bind hcompute ((runs_sendMessage transcribed.encode_first).mpr ⟨.ok (), rfl, rfl⟩)

theorem runs_sendSecond_of_transcribed (hlt : challenge < 2 ^ t) (transcribed : Transcribed
    verifier prover input challenge source begun first second rest accepted) :
    (sendSecond challenge).Runs ⟨begun.prover, receiver⟩ rest [.sent second (.ok ())]
      (.ok (), ⟨begun.answered, receiver⟩, rest) := by
  have hcompute : (compute fun computation source =>
        ((computation.second challenge).1, (computation.second challenge).2, source)).Runs
      (⟨begun.prover, receiver⟩ : Prover E t) rest []
      (.ok (begun.answer challenge), ⟨begun.answered, receiver⟩, rest) := by
    refine runs_compute.mpr ⟨rfl, ?_⟩
    dsimp only
    rw [Prover.second_of_lt hlt]
    rfl
  exact Runs.bind hcompute ((runs_sendMessage transcribed.encode_second).mpr ⟨.ok (), rfl, rfl⟩)

theorem runs_prove (laws : verifier.Lawful) (trapdoor : Nat)
    (hrandomness : draw.randomness < verifier.group.order) (hlt : draw.challenge < 2 ^ t)
    (transcribed : Transcribed verifier prover input draw.challenge source begun first second rest
      accepted) :
    (prove input).Runs ⟨prover, ofTrapdoor verifier.group trapdoor⟩ source
      [.received (.ok (draw.commitmentBytes verifier.group (keyOf verifier.group trapdoor))),
        .sent first (.ok ()), .received (.ok (draw.openingBytes verifier.group)),
        .sent second (.ok ())]
      (.ok (), ⟨begun.answered, ofTrapdoor verifier.group trapdoor⟩, rest) := by
  have hchallenge := Challenge.lt_order verifier.params hlt
  refine Runs.bind (runs_receiveRecord (laws _ verifier.group_mem_groups) trapdoor draw) ?_
  refine Runs.bind (runs_sendFirst_of_transcribed transcribed) ?_
  refine Runs.bind (runs_receiveOpening hrandomness hchallenge trapdoor) ?_
  exact runs_sendSecond_of_transcribed hlt transcribed

end Prover

namespace Verifier

variable {party : Verifier E t} {key : E}

theorem runs_exchange_of_transcribed (hstands : Stands verifier key party)
    (transcribed : Transcribed verifier prover input (drawsFor verifier drawn).challenge source
      begun first second rest accepted) :
    (exchange (drawsFor verifier drawn).id).Runs party drawn.word.2
      [.sent ((drawsFor verifier drawn).commitmentBytes verifier.group key) (.ok ()),
        .received (.ok first),
        .sent ((drawsFor verifier drawn).openingBytes verifier.group) (.ok ()),
        .received (.ok second)]
      (.ok (some begun.firstMessage, some (begun.answer (drawsFor verifier drawn).challenge)),
        party.engaged (drawsFor verifier drawn), (drawsFor verifier drawn).rest) := by
  have hexchange := exchange_undisturbed hstands.coherent drawn first second
  rw [hstands.draws, hstands.sends, Composition.firstLayout_of_statements hstands.statements,
    Composition.secondLayout_of_statements hstands.statements, transcribed.decode_first,
    transcribed.decode_second] at hexchange
  exact hexchange

/-- The verdict of a verifier in a run is the one of the transcript. -/
theorem verify_engaged (hstands : Stands verifier key party) {draw : Draw}
    (transcribed : Transcribed verifier prover input draw.challenge source begun first second rest
      accepted) :
    (party.engaged draw).computation.verify input.common begun.firstMessage
      (begun.answer draw.challenge) = .ok accepted := by
  have hset : party.computation.setChallenge draw.challenge =
      verifier.setChallenge draw.challenge :=
    Composition.map_const_of_statements hstands.statements _ _
  rw [← transcribed.verify_eq, ← hset]
  rfl

omit [DecidableEq E] in
theorem stands_resting (hrested : verifier.Rested current) :
    Stands verifier (Pedersen.Receiver.keyOf verifier.group trapdoor)
      (resting verifier.group trapdoor current) :=
  ⟨hrested.statements, rfl, rfl⟩

omit [DecidableEq E] in
theorem released_resting (draw : Draw) :
    released (resting verifier.group trapdoor current) draw =
      resting verifier.group trapdoor (current.setChallenge draw.challenge).clearChallenge := by
  change Verifier.mk _ (Pedersen.Committer.mk _ _ ((Pedersen.Ledger.empty.insert _ _).erase _)) = _
  rw [Pedersen.Ledger.erase_insert_empty]
  rfl

theorem runs_verify (hstands : Stands verifier key party) (transcribed : Transcribed verifier
    prover input (drawsFor verifier drawn).challenge source begun first second rest accepted) :
    (verify input.common).Runs party drawn
      [.sent ((drawsFor verifier drawn).commitmentBytes verifier.group key) (.ok ()),
        .received (.ok first),
        .sent ((drawsFor verifier drawn).openingBytes verifier.group) (.ok ()),
        .received (.ok second)]
      (.ok accepted, party.released (drawsFor verifier drawn), (drawsFor verifier drawn).rest) := by
  have hjudge : (judge input.common begun.firstMessage
      (begun.answer (drawsFor verifier drawn).challenge)).Runs
        (party.engaged (drawsFor verifier drawn)) (drawsFor verifier drawn).rest []
        (.ok accepted, party.engaged (drawsFor verifier drawn),
          (drawsFor verifier drawn).rest) := by
    refine runs_judge.mpr ⟨rfl, ?_⟩
    rw [verify_engaged hstands transcribed]
    rfl
  exact runs_underFreshId.mpr ⟨.ok accepted, _, _,
    Runs.bind (runs_exchange_of_transcribed hstands transcribed) hjudge, rfl⟩

end Verifier

omit [DecidableEq E] in
theorem challenge_drawsFor_lt (verifier : ThreeMove.Verifier E t) (drawn : Source) :
    (drawsFor verifier drawn).challenge < 2 ^ t :=
  Challenge.sample_lt t drawn.word.2

omit [DecidableEq E] in
theorem randomness_drawsFor_lt (laws : verifier.Lawful) (drawn : Source) :
    (drawsFor verifier drawn).randomness < verifier.group.order :=
  Source.below_lt _ (laws _ verifier.group_mem_groups).order_pos

theorem follows (laws : verifier.Lawful) (trapdoor : Nat) :
    Follows (drawChallenge verifier) verifier Prover.prove Verifier.verify
      (Ready verifier trapdoor) := by
  rintro prover party peer input source drawn hsame hfits ⟨rfl, current, hrested, rfl⟩
  have hlt := challenge_drawsFor_lt verifier drawn
  obtain ⟨begun, first, second, rest, accepted, transcribed⟩ :=
    exists_transcribed laws hsame hfits hlt source
  refine ⟨begun, first, second, rest, accepted, _, _, transcribed,
    ⟨rfl, _, hrested.clear _, Verifier.released_resting (drawsFor verifier drawn)⟩, ?_⟩
  exact ⟨[(.right, _), (.left, first), (.right, _), (.left, second)],
    Prover.runs_prove laws trapdoor (randomness_drawsFor_lt laws drawn) hlt transcribed,
    Verifier.runs_verify (Verifier.stands_resting hrested) transcribed⟩

omit [DecidableEq E] in
theorem Prover.create_of_generate (prover : ThreeMove.Prover E t)
    (hgenerate : Pedersen.Receiver.generate prover.group source = (.ok receiver, rest)) :
    (Prover.create prover).Runs () source [.sent (prover.group.encode receiver.key) (.ok ())]
      (.ok ⟨prover, receiver⟩, (), rest) := by
  have hcreate : (within id (fun _ state => state) ProofFault.ofCommitment
      (Pedersen.Receiver.create prover.group)).Runs () source
        [.sent (prover.group.encode receiver.key) (.ok ())] (.ok receiver, (), rest) :=
    runs_within.mpr ⟨_, _, _, Pedersen.Receiver.create_of_generate hgenerate, rfl⟩
  exact Runs.bind hcreate (runs_pure.mpr ⟨rfl, rfl⟩)

omit [DecidableEq E] in
theorem Verifier.create_resting (laws : verifier.Lawful)
    (hhides : verifier.group.hidesLogarithms = true) (trapdoor : Nat) :
    (Verifier.create verifier).Runs () drawn
      [.received (.ok (verifier.group.encode (Pedersen.Receiver.keyOf verifier.group trapdoor)))]
      (.ok (.resting verifier.group trapdoor verifier), (), drawn) := by
  have lawful := laws _ verifier.group_mem_groups
  have hkey := Pedersen.Receiver.isMember_keyOf lawful trapdoor
  have hcommitter := Pedersen.Committer.create_of_member lawful hhides verifier.params.isValid hkey
    drawn
  have hcreate : (within id (fun _ state => state) ProofFault.ofCommitment
      (Pedersen.Committer.create verifier.group)).Runs () drawn
        [.received (.ok (verifier.group.encode (Pedersen.Receiver.keyOf verifier.group trapdoor)))]
        (.ok ⟨verifier.group, Pedersen.Receiver.keyOf verifier.group trapdoor, .empty⟩, (),
          drawn) :=
    runs_within.mpr ⟨_, _, _, hcommitter, rfl⟩
  exact Runs.bind hcreate (runs_pure.mpr ⟨rfl, rfl⟩)

omit [DecidableEq E] in
theorem meets_create (laws : verifier.Lawful) (hsame : prover.statements = verifier.statements)
    (hhides : verifier.group.hidesLogarithms = true) (source drawn : Source) :
    ∃ trapdoor rest, Pedersen.Receiver.generate verifier.group source =
        (.ok (.ofTrapdoor verifier.group trapdoor), rest) ∧
      Talk.Meets (Prover.create prover () source) (Verifier.create verifier () drawn)
        (.ok ⟨prover, .ofTrapdoor verifier.group trapdoor⟩, (), rest)
        (.ok (.resting verifier.group trapdoor verifier), (), drawn) := by
  have hgroup := Composition.group_of_statements hsame
  obtain ⟨trapdoor, rest, hgenerate⟩ := Pedersen.Receiver.generate_of_lawful
    (laws _ verifier.group_mem_groups) hhides source
  have hprover := Prover.create_of_generate prover (hgroup ▸ hgenerate)
  rw [hgroup] at hprover
  exact ⟨trapdoor, rest, hgenerate, [(.left, _)], hprover,
    Verifier.create_resting laws hhides trapdoor⟩

end ThreeMove.ZeroKnowledge
