import ThreeMove.Proofs.KnowledgeProof.Acceptance
import ThreeMove.Proofs.KnowledgeProof.Steps
import ThreeMove.Proofs.ZeroKnowledge.HonestRun

/-!
# A run of a proof of knowledge

The honest prover goes through its four phases, and the record that it sends at the end is the
one of this run.
-/

namespace ThreeMove.KnowledgeProof

open ThreeMove.Action

variable {E : Type} {t : Nat} [DecidableEq E] {verifier : ThreeMove.Verifier E t}
  {prover : ThreeMove.Prover E t} {input : ProverInput E} {challenge : Challenge}
  {source drawn rest : Source} {begun : Begun E t} {first second : Bytes} {accepted : Bool}

open ZeroKnowledge (drawsFor drawChallenge)

def Ready (verifier : ThreeMove.Verifier E t) (trapdoor : Nat) (prover : ThreeMove.Prover E t)
    (party : Prover E t) (peer : Verifier E t) : Prop :=
  ZeroKnowledge.Ready verifier trapdoor prover party.base peer ∧ party.phase = .idle

namespace Prover

open ZeroKnowledge.Prover (keeping recordOf runs_receiveRecord runs_sendFirst_of_transcribed
  runs_sendSecond_of_transcribed)
open Pedersen.Receiver (keyOf ofTrapdoor)

omit [DecidableEq E] in
theorem Runs.onBase_bind {α β : Type} {x : Action (ZeroKnowledge.Prover E t) ProofFault α}
    {f : α → Action (Prover E t) ProofFault β} {a : α} {base base' : ZeroKnowledge.Prover E t}
    {phase : Phase} {front back : List Event} {outcome : Outcome ProofFault β (Prover E t)}
    (hx : x.Runs base source front (.ok a, base', rest))
    (hf : (f a).Runs ⟨base', phase⟩ rest back outcome) :
    (onBase x >>= f).Runs ⟨base, phase⟩ source (front ++ back) outcome :=
  Runs.bind (runs_onBase.mpr ⟨base', hx, rfl⟩) hf

variable {group : PrimeGroup E} {draw : ZeroKnowledge.Verifier.Draw} {trapdoor : Nat}

omit [DecidableEq E] in
theorem receiveCommitment_of_draw (laws : group.Lawful) (trapdoor : Nat)
    (draw : ZeroKnowledge.Verifier.Draw) :
    (receiveCommitment : Action (Prover E t) _ _).Runs
      ⟨⟨prover, ofTrapdoor group trapdoor⟩, .idle⟩ source
      [.received (.ok (draw.commitmentBytes group (keyOf group trapdoor)))]
      (.ok (recordOf group trapdoor draw), ⟨⟨prover, keeping group trapdoor draw⟩,
        .committed (recordOf group trapdoor draw)⟩, source) :=
  Runs.onBase_bind (runs_receiveRecord laws trapdoor draw)
    (runs_setPhase_bind.mpr (runs_pure.mpr ⟨rfl, rfl⟩))

theorem first_of_transcribed {receiver : Pedersen.Receiver E} {record : Pedersen.Record}
    (transcribed : Transcribed verifier prover input challenge source begun first second rest
      accepted) :
    (Prover.first input).Runs ⟨⟨prover, receiver⟩, .committed record⟩ source
      [.sent first (.ok ())] (.ok (), ⟨⟨begun.prover, receiver⟩, .firstSent record⟩, rest) := by
  unfold Prover.first
  rw [runs_get_bind]
  dsimp only
  rw [runs_setPhase_bind]
  exact Runs.onBase_bind (runs_sendFirst_of_transcribed transcribed) (runs_pure.mpr ⟨rfl, rfl⟩)

omit [DecidableEq E] in
theorem receiveOpening_of_draw (hrandomness : draw.randomness < group.order)
    (hchallenge : draw.challenge < group.order) :
    (receiveOpening : Action (Prover E t) _ _).Runs
      ⟨⟨prover, keeping group trapdoor draw⟩, .firstSent (recordOf group trapdoor draw)⟩ source
      [.received (.ok (draw.openingBytes group))]
      (.ok draw.challenge, ⟨⟨prover, ofTrapdoor group trapdoor⟩,
        .opened (recordOf group trapdoor draw) draw.challenge⟩, source) := by
  unfold Prover.receiveOpening
  rw [runs_get_bind]
  dsimp only
  rw [runs_setPhase_bind]
  exact Runs.onBase_bind
    (ZeroKnowledge.Prover.runs_receiveOpening hrandomness hchallenge trapdoor)
    (runs_setPhase_bind.mpr (runs_pure.mpr ⟨rfl, rfl⟩))

theorem second_of_transcribed {receiver : Pedersen.Receiver E} {record : Pedersen.Record}
    (hlt : challenge < 2 ^ t) (transcribed : Transcribed verifier prover input challenge source
      begun first second rest accepted) :
    (Prover.second : Action (Prover E t) _ _).Runs
      ⟨⟨begun.prover, receiver⟩, .opened record challenge⟩ rest
      [.sent second (.ok ()), .sent record.encode (.ok ())]
      (.ok (), ⟨⟨begun.answered, receiver⟩, .idle⟩, rest) := by
  unfold Prover.second
  rw [runs_get_bind]
  dsimp only
  rw [runs_setPhase_bind]
  exact Runs.onBase_bind (runs_sendSecond_of_transcribed hlt transcribed)
    (runs_send.mpr ⟨.ok (), rfl, rfl⟩)

theorem runs_prove (laws : verifier.Lawful) (trapdoor : Nat)
    (hrandomness : draw.randomness < verifier.group.order) (hlt : draw.challenge < 2 ^ t)
    (transcribed : Transcribed verifier prover input draw.challenge source begun first second rest
      accepted) :
    (prove input).Runs ⟨⟨prover, ofTrapdoor verifier.group trapdoor⟩, .idle⟩ source
      [.received (.ok (draw.commitmentBytes verifier.group (keyOf verifier.group trapdoor))),
        .sent first (.ok ()), .received (.ok (draw.openingBytes verifier.group)),
        .sent second (.ok ()),
        .sent (draw.recordBytes verifier.group (keyOf verifier.group trapdoor)) (.ok ())]
      (.ok (), ⟨⟨begun.answered, ofTrapdoor verifier.group trapdoor⟩, .idle⟩, rest) := by
  have hchallenge := Challenge.lt_order verifier.params hlt
  refine Runs.bind (receiveCommitment_of_draw (laws _ verifier.group_mem_groups) trapdoor draw) ?_
  refine Runs.bind (first_of_transcribed transcribed) ?_
  refine Runs.bind (receiveOpening_of_draw hrandomness hchallenge) ?_
  exact second_of_transcribed hlt transcribed

omit [DecidableEq E] in
theorem create_of_generate (hsame : prover.statements = verifier.statements)
    (hgenerate : Pedersen.Receiver.generate verifier.group source =
      (.ok (ofTrapdoor verifier.group trapdoor), rest)) :
    (Prover.create prover).Runs () source
      [.sent (verifier.group.encode (keyOf verifier.group trapdoor)) (.ok ())]
      (.ok ⟨⟨prover, ofTrapdoor verifier.group trapdoor⟩, .idle⟩, (), rest) := by
  have hgroup := Composition.group_of_statements hsame
  have hbase := ZeroKnowledge.Prover.create_of_generate prover (hgroup ▸ hgenerate)
  rw [hgroup] at hbase
  exact Runs.bind hbase (runs_pure.mpr ⟨rfl, rfl⟩)

end Prover

namespace Verifier

open ZeroKnowledge.Verifier

variable {party : Verifier E t} {key : E}

theorem runs_verify_of_transcribed (laws : verifier.Lawful) (hstands : Stands verifier key party)
    (hkey : verifier.group.isMember key = true)
    (transcribed : Transcribed verifier prover input (drawsFor verifier drawn).challenge source
      begun first second rest accepted) :
    (verify input.common).Runs party drawn
      [.sent ((drawsFor verifier drawn).commitmentBytes verifier.group key) (.ok ()),
        .received (.ok first),
        .sent ((drawsFor verifier drawn).openingBytes verifier.group) (.ok ()),
        .received (.ok second),
        .received (.ok ((drawsFor verifier drawn).recordBytes verifier.group key))]
      (.ok accepted, party.released (drawsFor verifier drawn), (drawsFor verifier drawn).rest) := by
  have hexchange := runs_exchange_of_transcribed hstands transcribed
  obtain ⟨record, hdecode, hid, hconfirm⟩ := (confirms_engaged
    (laws _ verifier.group_mem_groups) hstands hkey (drawsFor verifier drawn) _).mpr rfl
  have hverdict : verdict (party.engaged (drawsFor verifier drawn)) input.common
      (drawsFor verifier drawn).id (some begun.firstMessage)
      (some (begun.answer (drawsFor verifier drawn).challenge)) (.ok record) = .ok accepted := by
    rw [verdict, verify_engaged hstands transcribed, hid, hconfirm]
    simp [Except.map, Except.mapError]
  refine runs_underFreshId.mpr ⟨.ok accepted, _, _, Runs.bind hexchange (Runs.receive_bind ?_), rfl⟩
  rw [runs_get_bind]
  dsimp only
  rw [hdecode]
  exact runs_verdict.mpr ⟨rfl, by rw [hverdict]⟩

end Verifier

theorem follows (laws : verifier.Lawful) (trapdoor : Nat) :
    Follows (drawChallenge verifier) verifier Prover.prove Verifier.verify
      (Ready verifier trapdoor) := by
  rintro prover ⟨base, phase⟩ peer input source drawn hsame hfits
    ⟨⟨rfl, current, hrested, rfl⟩, rfl⟩
  have hlt := ZeroKnowledge.challenge_drawsFor_lt verifier drawn
  have hkey := Pedersen.Receiver.isMember_keyOf (laws _ verifier.group_mem_groups) trapdoor
  obtain ⟨begun, first, second, rest, accepted, transcribed⟩ :=
    exists_transcribed laws hsame hfits hlt source
  refine ⟨begun, first, second, rest, accepted,
    ⟨⟨begun.answered, .ofTrapdoor verifier.group trapdoor⟩, .idle⟩, _, transcribed,
    ⟨⟨rfl, _, hrested.clear _, ZeroKnowledge.Verifier.released_resting (drawsFor verifier drawn)⟩,
      rfl⟩, ?_⟩
  have hprove := Prover.runs_prove laws trapdoor (ZeroKnowledge.randomness_drawsFor_lt laws drawn)
    hlt transcribed
  exact ⟨[(.right, _), (.left, first), (.right, _), (.left, second), (.left, _)], hprove,
    Verifier.runs_verify_of_transcribed laws (ZeroKnowledge.Verifier.stands_resting hrested) hkey
      transcribed⟩

omit [DecidableEq E] in
theorem meets_create (laws : verifier.Lawful) (hsame : prover.statements = verifier.statements)
    (hhides : verifier.group.hidesLogarithms = true) (source drawn : Source) :
    ∃ trapdoor rest, Pedersen.Receiver.generate verifier.group source =
        (.ok (.ofTrapdoor verifier.group trapdoor), rest) ∧
      Talk.Meets (Prover.create prover () source) (Verifier.create verifier () drawn)
        (.ok ⟨⟨prover, .ofTrapdoor verifier.group trapdoor⟩, .idle⟩, (), rest)
        (.ok (.resting verifier.group trapdoor verifier), (), drawn) := by
  obtain ⟨trapdoor, rest, hgenerate⟩ := Pedersen.Receiver.generate_of_lawful
    (laws _ verifier.group_mem_groups) hhides source
  exact ⟨trapdoor, rest, hgenerate, [(.left, _)], Prover.create_of_generate hsame hgenerate,
    ZeroKnowledge.Verifier.create_resting laws hhides trapdoor⟩

end ThreeMove.KnowledgeProof
