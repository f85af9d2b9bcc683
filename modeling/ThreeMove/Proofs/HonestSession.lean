import ThreeMove.Proofs.Composition.Completeness
import ThreeMove.Proofs.Talk.Session

/-!
# Sessions of honest parties

A protocol follows the transcripts if ready parties make the moves of the transcript in every
run and are ready again afterwards.  Then any number of runs gives the verdicts of as many
transcripts, under every schedule of the two parties.
-/

namespace ThreeMove

open Talk

variable {E : Type} {t : Nat} [DecidableEq E] {P V ε δ : Type}

/-- The verdicts of one transcript after the other.  The verifier draws its challenges from its
own source. -/
def transcripts (draw : Source → Challenge × Source) (verifier : Verifier E t) :
    List (ProverInput E) → Prover E t → Source → Source → List (Except SigmaFault Bool)
  | [], _, _, _ => []
  | input :: inputs, prover, source, drawn =>
      let (challenge, drawn) := draw drawn
      let (result, prover, source) := transcript verifier prover input challenge source
      result :: transcripts draw verifier inputs prover source drawn

def Prover.Knows (prover : Prover E t) (input : ProverInput E) : Prop :=
  prover.AtEach (fun params _ item => Composition.IsWitness params item) input

variable (draw : Source → Challenge × Source) (verifier : Verifier E t)
  (prove : ProverInput E → Action P ε Unit) (verify : CommonInput E → Action V δ Bool)
  (Ready : Prover E t → P → V → Prop)

/-- Ready parties make the moves of the transcript in a run, and are ready again. -/
def Follows : Prop :=
  ∀ ⦃prover : Prover E t⦄ ⦃party : P⦄ ⦃peer : V⦄ ⦃input : ProverInput E⦄ (source drawn : Source),
    prover.statements = verifier.statements → prover.Fits input → Ready prover party peer →
    ∃ begun first second rest accepted party' peer',
      Transcribed verifier prover input (draw drawn).1 source begun first second rest accepted ∧
      Ready begun.answered party' peer' ∧
      Meets (prove input party source) (verify input.common peer drawn)
        (.ok (), party', rest) (.ok accepted, peer', (draw drawn).2)

/-- Two talks of honest parties end under every schedule with the verdicts of the transcripts.
No message is left, and the parties are ready for the next run. -/
def Refines (prover : Prover E t) (inputs : List (ProverInput E)) (source drawn : Source)
    (left : Talk (Except ε (List (Except ε Unit) × P) × Source))
    (right : Talk (Except δ (List (Except δ Bool) × V) × Source)) : Prop :=
  ∃ (verdicts : List Bool) (prover' : Prover E t) (party : P) (peer : V) (rest left' : Source),
    transcripts draw verifier inputs prover source drawn = verdicts.map .ok ∧
    ((∀ input ∈ inputs, prover.Knows input) → ∀ verdict ∈ verdicts, verdict = true) ∧
    prover.Rested prover' ∧ Ready prover' party peer ∧
    Concludes left right (.ok (inputs.map fun _ => .ok (), party), rest)
      (.ok (verdicts.map .ok, peer), left')

variable {draw verifier prove verify Ready}

theorem Follows.each (hfollows : Follows draw verifier prove verify Ready)
    (laws : verifier.Lawful) {original : Prover E t}
    (hsame : original.statements = verifier.statements) :
    ∀ (inputs : List (ProverInput E)) {prover : Prover E t} {party : P} {peer : V}
      (source drawn : Source), (∀ input ∈ inputs, original.Fits input) →
      original.Rested prover → Ready prover party peer →
      ∃ (verdicts : List Bool) (prover' : Prover E t) (party' : P) (peer' : V)
        (rest left : Source),
        transcripts draw verifier inputs prover source drawn = verdicts.map .ok ∧
        ((∀ input ∈ inputs, original.Knows input) → ∀ verdict ∈ verdicts, verdict = true) ∧
        original.Rested prover' ∧ Ready prover' party' peer' ∧
        Meets (Action.each prove inputs party source)
          (Action.each verify (inputs.map ProverInput.common) peer drawn)
          (inputs.map fun _ => .ok (), party', rest) (verdicts.map .ok, peer', left)
  | [], prover, party, peer, source, drawn, _, hrested, hready =>
      ⟨[], prover, party, peer, source, drawn, rfl, fun _ _ hmem => (List.not_mem_nil hmem).elim,
        hrested, hready, .done _ _⟩
  | input :: inputs, prover, party, peer, source, drawn, hfits, hrested, hready => by
      have hstatements := hrested.statements
      have hfit := Composition.fits_of_statements hstatements.symm (hfits input List.mem_cons_self)
      obtain ⟨begun, first, second, rest, accepted, party', peer', transcribed, hready', hrun⟩ :=
        hfollows source drawn (hstatements.trans hsame) hfit hready
      obtain ⟨verdicts, prover'', party'', peer'', rest', left, htranscripts, hcomplete, hrested',
          hready'', hruns⟩ :=
        hfollows.each laws hsame inputs rest (draw drawn).2
          (fun other hother => hfits other (List.mem_cons_of_mem _ hother))
          (hrested.answered transcribed.statements) hready'
      refine ⟨accepted :: verdicts, prover'', party'', peer'', rest', left, ?_, ?_, hrested',
        hready'', hrun.bind (hruns.bind (.done _ _))⟩
      · rw [transcripts]
        dsimp only
        rw [transcribed.transcript_eq]
        exact congrArg (_ :: ·) htranscripts
      · intro hknows verdict hverdict
        rcases List.mem_cons.mp hverdict with rfl | hverdict
        · exact transcribed.complete laws (hstatements.trans hsame)
            (Composition.atEach_of_statements hstatements.symm (hknows input List.mem_cons_self))
        · exact hcomplete (fun other hother => hknows other (List.mem_cons_of_mem _ hother)) verdict
            hverdict

/-- A session refines the transcripts if its creation makes the parties ready. -/
theorem Follows.refines (hfollows : Follows draw verifier prove verify Ready)
    (laws : verifier.Lawful) {prover : Prover E t} (hsame : prover.statements = verifier.statements)
    {inputs : List (ProverInput E)} (hfits : ∀ input ∈ inputs, prover.Fits input)
    {createProver : Action Unit ε P} {createVerifier : Action Unit δ V} {party : P} {peer : V}
    {source drawn rest left : Source}
    (hcreated : Meets (createProver () source) (createVerifier () drawn)
      (.ok party, (), rest) (.ok peer, (), left)) (hready : Ready prover party peer) :
    Refines draw verifier Ready prover inputs rest left
      (Action.session createProver prove inputs source)
      (Action.session createVerifier verify (inputs.map ProverInput.common) drawn) := by
  obtain ⟨verdicts, prover', party', peer', rest', left', htranscripts, hcomplete, hrested,
      hready', hruns⟩ := hfollows.each laws hsame inputs rest left hfits (.inl rfl) hready
  have hsession : Meets (Action.session createProver prove inputs source)
      (Action.session createVerifier verify (inputs.map ProverInput.common) drawn)
      (.ok (inputs.map fun _ => .ok (), party'), rest')
      (.ok (verdicts.map .ok, peer'), left') := by
    refine hcreated.bind (hruns.bind ?_)
    exact .done _ _
  exact ⟨verdicts, prover', party', peer', rest', left', htranscripts, hcomplete, hrested,
    hready', hsession.concludes⟩

end ThreeMove
