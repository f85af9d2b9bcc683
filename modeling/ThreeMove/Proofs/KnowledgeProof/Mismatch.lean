import ThreeMove.Proofs.KnowledgeProof.HonestRun
import ThreeMove.Proofs.Pedersen.Hiding

/-!
# Parties under different keys

A verifier that was given another key commits under that key.  If its challenge is zero, the key
does not matter for the commitment, and the prover notices nothing.  Otherwise the opening does
not belong to the prover's own key, and the prover stops before its answer.
-/

namespace ThreeMove

namespace Pedersen

variable {E : Type} {group : PrimeGroup E} {trapdoor trapdoor' : Nat}

open Receiver (keyOf)

/-- A commitment to zero is the same under all keys. -/
theorem hide_zero (laws : group.Lawful) (trapdoor trapdoor' randomness : Nat) :
    hide group (keyOf group trapdoor) randomness 0 =
      hide group (keyOf group trapdoor') randomness 0 := by
  rw [hide_keyOf laws, hide_keyOf laws, Nat.mul_zero, Nat.mul_zero]

/-- A commitment to any other value tells the key. -/
theorem keyOf_eq_of_hide (laws : group.Lawful) {randomness value : Nat}
    (hvalue : value < group.order) (hzero : value ≠ 0)
    (hsame : hide group (keyOf group trapdoor) randomness value =
      hide group (keyOf group trapdoor') randomness value) :
    keyOf group trapdoor = keyOf group trapdoor' := by
  rw [hide_keyOf laws, hide_keyOf laws, laws.pow_generator_eq_iff] at hsame
  have hcoprime : Nat.Coprime group.order value :=
    Nat.coprime_of_lt_prime hzero hvalue laws.prime_order
  exact laws.pow_generator_eq_iff.mpr
    (Nat.ModEq.cancel_right_of_coprime hcoprime (Nat.ModEq.add_left_cancel' randomness hsame))

end Pedersen

namespace KnowledgeProof

open ThreeMove.Action
open ZeroKnowledge (drawsFor)
open ZeroKnowledge.Verifier (Draw Coherent draws sends engaged released)
open Pedersen.Receiver (keyOf ofTrapdoor)

variable {E : Type} {t : Nat}

namespace Prover

open ZeroKnowledge.Prover (runs_onReceiver)

variable [DecidableEq E] {verifier : ThreeMove.Verifier E t} {prover : ThreeMove.Prover E t}
  {input : ProverInput E} {source rest : Source} {begun : Begun E t} {first second : Bytes}
  {accepted : Bool} {draw : Draw}

omit [DecidableEq E] in
theorem receiveCommitment_of_member (prover : ThreeMove.Prover E t)
    (receiver : Pedersen.Receiver E) (laws : receiver.group.Lawful) {element : E}
    (hmember : receiver.group.isMember element = true) (id : Id) (source : Source) :
    let record : Pedersen.Record :=
      ⟨id, receiver.group.encode receiver.key, receiver.group.encode element⟩
    (receiveCommitment : Action (Prover E t) _ _).Runs ⟨⟨prover, receiver⟩, .idle⟩ source
      [.received (.ok (Pedersen.encodeId id ++ receiver.group.encode element))]
      (.ok record,
        ⟨⟨prover, { receiver with commitments := receiver.commitments.insert id element }⟩,
          .committed record⟩, source) := by
  intro record
  have hrecord := Pedersen.Receiver.receiveRecord_of_member receiver laws hmember id source
  have hbase : (ZeroKnowledge.Prover.onReceiver Pedersen.Receiver.receiveRecord).Runs
      (⟨prover, receiver⟩ : ZeroKnowledge.Prover E t) source
      [.received (.ok (Pedersen.encodeId id ++ receiver.group.encode element))]
      (.ok record,
        ⟨prover, { receiver with commitments := receiver.commitments.insert id element }⟩,
        source) :=
    runs_onReceiver.mpr ⟨_, _, hrecord, rfl, rfl⟩
  exact Runs.onBase_bind hbase (runs_setPhase_bind.mpr (runs_pure.mpr ⟨rfl, rfl⟩))

omit [DecidableEq E] in
theorem receiveOpening_of_refused (prover : ThreeMove.Prover E t) (record : Pedersen.Record)
    {receiver receiver' : Pedersen.Receiver E} {events : List Event} {fault : CommitmentFault}
    (hrefused : (Pedersen.Receiver.receiveOpening record.id).Runs receiver source events
      (.error fault, receiver', rest)) :
    (receiveOpening : Action (Prover E t) _ _).Runs ⟨⟨prover, receiver⟩, .firstSent record⟩ source
      events (.error (.ofCommitment fault), ⟨⟨prover, receiver'⟩, .idle⟩, rest) := by
  have hbase : (ZeroKnowledge.Prover.onReceiver
      (Pedersen.Receiver.receiveOpening record.id)).Runs
      (⟨prover, receiver⟩ : ZeroKnowledge.Prover E t) source events
      (.error (.ofCommitment fault), ⟨prover, receiver'⟩, rest) :=
    runs_onReceiver.mpr ⟨_, _, hrefused, rfl, rfl⟩
  unfold Prover.receiveOpening
  rw [runs_get_bind]
  dsimp only
  rw [runs_setPhase_bind]
  exact Runs.bind_failed (runs_onBase.mpr ⟨_, hbase, rfl⟩)

/-- The prover has sent its first message when it finds that the opening is not one under its own
key. -/
theorem runs_prove_mismatched (laws : verifier.Lawful) {trapdoor trapdoor' : Nat}
    (hother : keyOf verifier.group trapdoor' ≠ keyOf verifier.group trapdoor)
    (hrandomness : draw.randomness < verifier.group.order) (hlt : draw.challenge < 2 ^ t)
    (hzero : draw.challenge ≠ 0)
    (transcribed : Transcribed verifier prover input draw.challenge source begun first second rest
      accepted) :
    ∃ party, (prove input).Runs ⟨⟨prover, ofTrapdoor verifier.group trapdoor⟩, .idle⟩ source
      [.received (.ok (draw.commitmentBytes verifier.group (keyOf verifier.group trapdoor'))),
        .sent first (.ok ()), .received (.ok (draw.openingBytes verifier.group))]
      (.error (.cheating .openingMismatch), party, rest) := by
  have lawful := laws _ verifier.group_mem_groups
  have hchallenge := Challenge.lt_order verifier.params hlt
  have hmembers := fun trapdoor => Pedersen.isMember_hide lawful
    (Pedersen.Receiver.isMember_keyOf lawful trapdoor) draw.randomness draw.challenge
  have hdifferent : verifier.group.encode (Pedersen.hide verifier.group
        (keyOf verifier.group trapdoor') draw.randomness draw.challenge) ≠
      verifier.group.encode (Pedersen.hide verifier.group (keyOf verifier.group trapdoor)
        draw.randomness draw.challenge) := by
    intro hencode
    exact hother (Pedersen.keyOf_eq_of_hide lawful hchallenge hzero
      (lawful.encode_inj (hmembers _) (hmembers _) hencode))
  have hcommitment := receiveCommitment_of_member prover (ofTrapdoor verifier.group trapdoor) lawful
    (hmembers trapdoor') draw.id source
  have hopening := Pedersen.Receiver.receiveOpening_of_mismatch
    { ofTrapdoor verifier.group trapdoor with
      commitments := Pedersen.Ledger.empty.insert draw.id (Pedersen.hide verifier.group
        (keyOf verifier.group trapdoor') draw.randomness draw.challenge) }
    (Pedersen.Ledger.get?_insert_self _ _ _) hrandomness hchallenge hdifferent rest
  have hrefused := fun key element =>
    receiveOpening_of_refused begun.prover ⟨draw.id, key, element⟩ hopening
  exact ⟨_, Runs.bind hcommitment
    (Runs.bind (first_of_transcribed transcribed) (Runs.bind_failed (hrefused _ _)))⟩

omit [DecidableEq E] in
theorem runs_prove_lost (base : ZeroKnowledge.Prover E t) (fault : ChannelFault)
    (source : Source) :
    (prove input).Runs ⟨base, .idle⟩ source [.received (.error fault)]
      (.error (.channel fault), ⟨base, .idle⟩, source) := by
  have hcommitment : (Pedersen.Receiver.receiveRecord : Action (Pedersen.Receiver E) _ _).Runs
      base.receiver source [.received (.error fault)]
      (.error (.channel fault), base.receiver, source) :=
    Runs.bind_failed (runs_receive_bind.mpr (.inl ⟨fault, rfl, rfl⟩))
  refine Runs.bind_failed ?_
  unfold receiveCommitment
  rw [runs_get_bind]
  exact Runs.bind_failed (runs_onBase.mpr
    ⟨_, runs_onReceiver.mpr ⟨_, _, hcommitment, rfl, rfl⟩, rfl⟩)

end Prover

theorem commitmentBytes_of_zero {group : PrimeGroup E} (laws : group.Lawful)
    (trapdoor trapdoor' : Nat) {draw : Draw} (hzero : draw.challenge = 0) :
    draw.commitmentBytes group (keyOf group trapdoor) =
      draw.commitmentBytes group (keyOf group trapdoor') := by
  unfold Draw.commitmentBytes Draw.commitment
  rw [hzero, Pedersen.hide_zero laws trapdoor trapdoor']

theorem eq_of_recordBytes {group : PrimeGroup E} (laws : group.Lawful) {key key' : E}
    (hkey : group.isMember key = true) (hkey' : group.isMember key' = true) (draw : Draw)
    (hsame : draw.recordBytes group key = draw.recordBytes group key') : key = key' := by
  rw [Draw.recordBytes, Draw.recordBytes, List.append_assoc, List.append_assoc] at hsame
  have hlength := (laws.length_encode hkey).trans (laws.length_encode hkey').symm
  exact laws.encode_inj hkey hkey' (List.append_inj_left (List.append_cancel_left hsame) hlength)

namespace Verifier

variable {party : Verifier E t} {source : Source}

theorem runs_verify_lost [DecidableEq E] (hcoherent : Coherent party) (source : Source)
    (input : CommonInput E) (first : Bytes) (fault : ChannelFault) :
    (verify input).Runs party source
      [.sent (sends party (draws party source)).1 (.ok ()), .received (.ok first),
        .sent (sends party (draws party source)).2 (.ok ()), .received (.error fault)]
      (.error (.channel fault), released party (draws party source),
        (draws party source).rest) := by
  refine ZeroKnowledge.Verifier.runs_underFreshId.mpr ⟨_, _, _, Runs.bind_failed ?_, rfl⟩
  unfold ZeroKnowledge.Verifier.exchange
  refine (ZeroKnowledge.Verifier.runs_commit_draws hcoherent).mpr (.inr ⟨_, rfl, ?_⟩)
  rw [runs_get_bind]
  refine Runs.receive_bind
    ((ZeroKnowledge.Verifier.runs_decommit_draws hcoherent).mpr (.inr ⟨_, rfl, ?_⟩))
  exact runs_receive_bind.mpr (.inl ⟨fault, rfl, rfl⟩)

theorem runs_create_refused {verifier : ThreeMove.Verifier E t}
    (hhides : verifier.group.hidesLogarithms = true) {key : Bytes} {fault : GroupFault}
    (hdecode : verifier.group.decode key = .error fault) (source : Source) :
    (create verifier).Runs () source [.received (.ok key)]
      (.error (.cheating .elementInvalid), (), source) := by
  have hrefused : Pedersen.Committer.ofKey verifier.group key =
      .error (.cheating .elementInvalid) := by
    unfold Pedersen.Committer.ofKey
    rw [Pedersen.checkGroup_eq_ok hhides verifier.params.isValid,
      Pedersen.decodeElement_eq_error hdecode]
    rfl
  have hcommitter : (Pedersen.Committer.create verifier.group).Runs () source
      [.received (.ok key)] (.error (.cheating .elementInvalid), (), source) := by
    refine Runs.receive_bind (Talk.trace_done.mpr ⟨rfl, ?_⟩)
    rw [hrefused]
  exact Runs.bind_failed (runs_within.mpr ⟨_, _, _, hcommitter, rfl⟩)

end Verifier

end KnowledgeProof

end ThreeMove
