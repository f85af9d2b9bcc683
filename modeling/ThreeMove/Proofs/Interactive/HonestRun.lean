import ThreeMove.Proofs.HonestSession
import ThreeMove.Proofs.Interactive.Course
import ThreeMove.Proofs.Interactive.Steps

/-!
# A run of the interactive protocol

The honest parties send the messages of the transcript and are then ready for the next run.
-/

namespace ThreeMove.Interactive

open ThreeMove.Action

variable {E : Type} {t : Nat} [DecidableEq E] {verifier current : ThreeMove.Verifier E t}
  {prover : ThreeMove.Prover E t} {input : ProverInput E} {challenge : Challenge}
  {source drawn rest : Source} {begun : Begun E t} {first second : Bytes} {accepted : Bool}

def Ready (verifier : ThreeMove.Verifier E t) (prover : ThreeMove.Prover E t)
    (party : Prover E t) (peer : Verifier E t) : Prop :=
  party = ⟨prover, false⟩ ∧ ∃ current, verifier.Rested current ∧ peer = ⟨current, .idle, none⟩

theorem runs_first (transcribed : Transcribed verifier prover input challenge source begun first
      second rest accepted) :
    (Prover.first input).Runs ⟨prover, false⟩ source [.sent first (.ok ())]
      (.ok (), ⟨begun.prover, true⟩, rest) := by
  have hcompute : Prover.compute (fun computation source => computation.first input source)
      ⟨prover, false⟩ source = .done (.ok begun.firstMessage, ⟨begun.prover, false⟩, rest) :=
    Prover.compute_eq_done transcribed.first_eq
  unfold Prover.first
  rw [runs_get_bind, if_neg (by simp)]
  refine (runs_bind_of_done hcompute).mpr ?_
  refine Runs.bind ((Prover.runs_sendMessage transcribed.encode_first).mpr ⟨.ok (), rfl, rfl⟩) ?_
  exact runs_pure.mpr ⟨rfl, rfl⟩

theorem runs_second (hlt : challenge < 2 ^ t) (transcribed : Transcribed verifier prover input
      challenge source begun first second rest accepted) :
    (Prover.second : Action (Prover E t) _ _).Runs ⟨begun.prover, true⟩ rest
      [.received (.ok challenge.encode), .sent second (.ok ())]
      (.ok (), ⟨begun.answered, false⟩, rest) := by
  have hcompute : Prover.compute (fun computation source =>
        ((computation.second challenge).1, (computation.second challenge).2, source))
      ⟨begun.prover, false⟩ rest =
      .done (.ok (begun.answer challenge), ⟨begun.answered, false⟩, rest) := by
    refine Prover.compute_eq_done ?_
    dsimp only
    rw [Prover.second_of_lt hlt]
  unfold Prover.second
  rw [runs_get_bind, if_pos (by simp)]
  refine runs_modify_bind.mpr (Runs.receive_bind ?_)
  rw [runs_ofExcept_bind, Challenge.decode_encode]
  refine (runs_bind_of_done hcompute).mpr ?_
  exact (Prover.runs_sendMessage transcribed.encode_second).mpr ⟨.ok (), rfl, rfl⟩

theorem runs_prove (hlt : challenge < 2 ^ t) (transcribed : Transcribed verifier prover input
    challenge source begun first second rest accepted) :
    (Prover.prove input).Runs ⟨prover, false⟩ source
      [.sent first (.ok ()), .received (.ok challenge.encode), .sent second (.ok ())]
      (.ok (), ⟨begun.answered, false⟩, rest) :=
  Runs.bind (runs_first transcribed) (runs_second hlt transcribed)

theorem runs_receiveFirst (hrested : verifier.Rested current) (transcribed : Transcribed verifier
      prover input challenge source begun first second rest accepted) :
    (Verifier.receiveFirst : Action (Verifier E t) _ _).Runs
      ⟨current.setChallenge challenge, .challengeFixed, none⟩ drawn [.received (.ok first)]
      (.ok (), ⟨current.setChallenge challenge, .firstReceived, some begun.firstMessage⟩,
        drawn) := by
  refine (Verifier.runs_receiveFirst (List.mem_singleton.mpr rfl)).mpr (.inr ⟨first, rfl, ?_⟩)
  rw [hrested.firstLayout_setChallenge, transcribed.decode_first]
  rfl

omit [DecidableEq E] in
theorem runs_sendChallenge {message : Message} :
    (Verifier.sendChallenge : Action (Verifier E t) _ _).Runs
      ⟨current.setChallenge challenge, .firstReceived, some message⟩ drawn
      [.sent challenge.encode (.ok ())]
      (.ok (), ⟨current.setChallenge challenge, .challengeSent, some message⟩, drawn) :=
  (Verifier.runs_sendChallenge (List.mem_singleton.mpr rfl)
    (current.challenge_setChallenge challenge)).mpr (.inr ⟨rfl, rfl⟩)

theorem runs_process (hrested : verifier.Rested current) (transcribed : Transcribed verifier
      prover input challenge source begun first second rest accepted) :
    (Verifier.process input.common).Runs
      ⟨current.setChallenge challenge, .challengeSent, some begun.firstMessage⟩ drawn
      [.received (.ok second)]
      (.ok accepted, ⟨(current.setChallenge challenge).clearChallenge, .idle, none⟩, drawn) := by
  refine (Verifier.runs_process (List.mem_singleton.mpr rfl)).mpr ⟨.ok second, rfl, ?_⟩
  change _ = (Verifier.judge (current.setChallenge challenge) input.common
    (some begun.firstMessage) (Message.decode _ second).toOption, _, _)
  rw [hrested.secondLayout_setChallenge, transcribed.decode_second, hrested.setChallenge challenge]
  exact congrArg (·, _, _) transcribed.verify_eq.symm

theorem runs_verify (hrested : verifier.Rested current)
    (transcribed : Transcribed verifier prover input (Challenge.sample t drawn).1 source begun
      first second rest accepted) :
    (Verifier.verify input.common).Runs ⟨current, .idle, none⟩ drawn
      [.received (.ok first), .sent (Challenge.encode (Challenge.sample t drawn).1) (.ok ()),
        .received (.ok second)]
      (.ok accepted,
        ⟨(current.setChallenge (Challenge.sample t drawn).1).clearChallenge, .idle, none⟩,
        (Challenge.sample t drawn).2) := by
  refine (runs_bind_of_done (Verifier.sampleChallenge_eq_done List.mem_cons_self)).mpr ?_
  refine Runs.bind (runs_receiveFirst hrested transcribed) ?_
  exact Runs.bind runs_sendChallenge (runs_process hrested transcribed)

theorem follows (laws : verifier.Lawful) :
    Follows (Challenge.sample t) verifier Prover.prove Verifier.verify (Ready verifier) := by
  rintro prover party peer input source drawn hsame hfits ⟨rfl, current, hrested, rfl⟩
  have hlt := Challenge.sample_lt t drawn
  obtain ⟨begun, first, second, rest, accepted, transcribed⟩ :=
    exists_transcribed laws hsame hfits hlt source
  refine ⟨begun, first, second, rest, accepted, _, _, transcribed,
    ⟨rfl, _, hrested.clear (Challenge.sample t drawn).1, rfl⟩, ?_⟩
  exact ⟨[(.left, first), (.right, Challenge.encode (Challenge.sample t drawn).1),
    (.left, second)], runs_prove hlt transcribed, runs_verify hrested transcribed⟩

end ThreeMove.Interactive
