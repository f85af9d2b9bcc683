import ThreeMove.Proofs.Interactive.HonestRun
import ThreeMove.Proofs.KnowledgeProof.HonestRun

/-!
# The three protocols on a lossless channel

Each protocol takes honest parties to the verdicts of the transcripts, run after run.  The two
protocols with a committed challenge need a group in which logarithms are declared to be hard.
-/

namespace ThreeMove

variable {E : Type} {t : Nat} [DecidableEq E] {verifier : Verifier E t} {prover : Prover E t}
  {inputs : List (ProverInput E)}

/-- Under every schedule the honest parties of each protocol end with the verdicts of the
transcripts.  All messages have been read, and the parties are ready for the next run. -/
theorem honest_sessions_refine (laws : verifier.Lawful)
    (hsame : prover.statements = verifier.statements)
    (hfits : ∀ input ∈ inputs, prover.Fits input) (source drawn : Source) :
    Refines (Challenge.sample t) verifier (Interactive.Ready verifier) prover inputs source drawn
        (Action.session (pure (.create prover)) Interactive.Prover.prove inputs source)
        (Action.session (pure (.create verifier)) Interactive.Verifier.verify
          (inputs.map ProverInput.common) drawn) ∧
      (verifier.group.hidesLogarithms = true → ∃ trapdoor rest,
        Pedersen.Receiver.generate verifier.group source =
          (.ok (.ofTrapdoor verifier.group trapdoor), rest) ∧
        Refines (ZeroKnowledge.drawChallenge verifier) verifier
          (ZeroKnowledge.Ready verifier trapdoor) prover inputs rest drawn
          (Action.session (ZeroKnowledge.Prover.create prover) ZeroKnowledge.Prover.prove inputs
            source)
          (Action.session (ZeroKnowledge.Verifier.create verifier) ZeroKnowledge.Verifier.verify
            (inputs.map ProverInput.common) drawn) ∧
        Refines (ZeroKnowledge.drawChallenge verifier) verifier
          (KnowledgeProof.Ready verifier trapdoor) prover inputs rest drawn
          (Action.session (KnowledgeProof.Prover.create prover) KnowledgeProof.Prover.prove inputs
            source)
          (Action.session (KnowledgeProof.Verifier.create verifier) KnowledgeProof.Verifier.verify
            (inputs.map ProverInput.common) drawn)) := by
  constructor
  · exact (Interactive.follows laws).refines laws hsame hfits (.done _ _)
      ⟨rfl, verifier, .inl rfl, rfl⟩
  · intro hhides
    obtain ⟨trapdoor, rest, hgenerate, hcreated⟩ :=
      ZeroKnowledge.meets_create laws hsame hhides source drawn
    obtain ⟨trapdoor', rest', hgenerate', hcreated'⟩ :=
      KnowledgeProof.meets_create laws hsame hhides source drawn
    rw [hgenerate] at hgenerate'
    cases hgenerate'
    refine ⟨trapdoor, rest, hgenerate, ?_, ?_⟩
    · exact (ZeroKnowledge.follows laws trapdoor).refines laws hsame hfits hcreated
        ⟨rfl, verifier, .inl rfl, rfl⟩
    · exact (KnowledgeProof.follows laws trapdoor).refines laws hsame hfits hcreated'
        ⟨⟨rfl, verifier, .inl rfl, rfl⟩, rfl⟩

theorem honest_sessions_refine_pairModulo23 :
    let source : Source := ⟨fun i => UInt8.ofNat (37 * i + 5), 0⟩
    let prover : Prover Nat 3 := .pairModulo23 none ()
    let verifier : Verifier Nat 3 := .pairModulo23 none none
    let inputs : List (ProverInput Nat) :=
      [.all [.one ⟨18, 3⟩, .one ⟨12, 5⟩], .all [.one ⟨4, 1⟩, .one ⟨18, 3⟩]]
    ∃ party peer rest left, Talk.Concludes
      (Action.session (KnowledgeProof.Prover.create prover) KnowledgeProof.Prover.prove inputs
        source)
      (Action.session (KnowledgeProof.Verifier.create verifier) KnowledgeProof.Verifier.verify
        (inputs.map ProverInput.common) source)
      (.ok ([.ok (), .ok ()], party), rest) (.ok ([.ok true, .ok true], peer), left) := by
  intro source prover verifier inputs
  have hfits : ∀ input ∈ inputs, prover.Fits input := by
    refine List.forall_mem_cons.mpr ⟨?_, List.forall_mem_singleton.mpr ?_⟩ <;>
      exact ⟨trivial, trivial, trivial⟩
  have hknows : ∀ input ∈ inputs, prover.Knows input := by
    refine List.forall_mem_cons.mpr ⟨?_, List.forall_mem_singleton.mpr ?_⟩ <;>
      exact ⟨rfl, rfl, trivial⟩
  obtain ⟨_, _, _, _, verdicts, _, party, peer, rest, left, hverdicts, hcomplete, _, _,
      hconcludes⟩ :=
    (honest_sessions_refine (Composition.lawful_pairModulo23 none none) rfl hfits source source).2
      rfl
  have hlength : verdicts.length = 2 :=
    (List.length_map _).symm.trans (congrArg List.length hverdicts).symm
  have htrue : verdicts = List.replicate 2 true :=
    List.eq_replicate_iff.mpr ⟨hlength, hcomplete hknows⟩
  subst htrue
  exact ⟨party, peer, rest, left, hconcludes⟩

end ThreeMove
