import ThreeMove.Proofs.Challenge
import ThreeMove.Proofs.Composition.SpecialSoundness

/-!
# Transcripts of honest parties

The moves of a proof without any channel.  A transcript of parties with the same statements
always has a verdict, its messages survive their encodings, and it is accepted if the prover
knows the logarithms.
-/

namespace ThreeMove

open ThreeMove.Composition

variable {E : Type} {t : Nat}

def transcript [DecidableEq E] (verifier : Verifier E t) (prover : Prover E t)
    (input : ProverInput E) (challenge : Challenge) (source : Source) :
    Outcome SigmaFault Bool (Prover E t) :=
  match prover.first input source with
  | (.error e, prover, rest) => (.error e, prover, rest)
  | (.ok a, prover, rest) =>
      match prover.second challenge with
      | (.error e, prover) => (.error e, prover, rest)
      | (.ok z, prover) => ((verifier.setChallenge challenge).verify input.common a z, prover, rest)

theorem View.holds_pow_iff {params : Parameters E t} (laws : params.group.Lawful)
    {nonce logarithm second : Nat} {challenge : Challenge} :
    View.Holds challenge ⟨params, params.group.pow params.group.generator logarithm,
      params.group.encode (params.group.pow params.group.generator nonce), second⟩ ↔
      second ≡ nonce + challenge * logarithm [MOD params.group.order] := by
  have hgenerator := laws.isMember_generator
  have hnonce := laws.isMember_pow hgenerator nonce
  have hmember := laws.isMember_pow hgenerator logarithm
  have hequation : params.group.mul (params.group.pow params.group.generator nonce)
      (params.group.pow (params.group.pow params.group.generator logarithm) challenge) =
        params.group.pow params.group.generator (nonce + challenge * logarithm) := by
    rw [laws.pow_pow hgenerator, laws.mul_pow_pow hgenerator, Nat.mul_comm logarithm]
  rw [← laws.pow_generator_eq_iff, ← hequation]
  constructor
  · rintro ⟨-, a, hdecode, -, heq⟩
    rw [laws.decode_encode hnonce] at hdecode
    cases hdecode
    exact heq
  · intro heq
    exact ⟨hmember, _, laws.decode_encode hnonce, hnonce, heq⟩

namespace Begun

mutual

theorem views_answer (challenge : Challenge) : ∀ {begun : Begun E t} {input : ProverInput E},
    begun.Fits input →
    ∃ vs, begun.views input.common begun.firstMessage (begun.answer challenge) = some vs
  | .one _ _, .one _, _ => ⟨_, rfl⟩
  | .all _ _ _, .all _, hfits => viewsAll_answers challenge hfits

theorem viewsAll_answers (challenge : Challenge) :
    ∀ {begun : List (Begun E t)} {inputs : List (ProverInput E)},
    AtEachAll (fun _ _ _ => True) begun inputs →
    ∃ vs, viewsAll begun (Input.mapAll Witnessed.element inputs) (firstMessages begun)
      (answers challenge begun) = some vs
  | [], [], _ => ⟨_, rfl⟩
  | _ :: _, _ :: _, ⟨hpart, hparts⟩ => by
      obtain ⟨here, hhere⟩ := views_answer challenge hpart
      obtain ⟨others, hothers⟩ := viewsAll_answers challenge hparts
      exact ⟨here ++ others, viewsAll_cons_eq_some_iff.mpr ⟨here, others, hhere, hothers, rfl⟩⟩

end

theorem holds_answer {params : Parameters E t} (laws : params.group.Lawful) {pending : Pending}
    {element : E} (hwitness : IsWitness params ⟨element, pending.logarithm⟩)
    (challenge : Challenge) :
    View.Holds challenge ⟨params, element,
      params.group.encode (params.group.pow params.group.generator pending.nonce),
      (pending.nonce + challenge * pending.logarithm) % params.group.order⟩ := by
  unfold IsWitness at hwitness
  dsimp only at hwitness
  subst hwitness
  exact (View.holds_pow_iff laws).mpr (Nat.mod_modEq _ _)

def view (challenge : Challenge) (params : Parameters E t) (pending : Pending)
    (item : Witnessed E) : View E t :=
  ⟨params, item.element,
    params.group.encode (params.group.pow params.group.generator pending.nonce),
    (pending.nonce + challenge * pending.logarithm) % params.group.order⟩

mutual

theorem holds_views_iff (challenge : Challenge) : ∀ {begun : Begun E t} {input : ProverInput E}
    {vs : List (View E t)},
    begun.views input.common begun.firstMessage (begun.answer challenge) = some vs →
    ((∀ view ∈ vs, view.Holds challenge) ↔
      begun.AtEach (fun params pending item => (view challenge params pending item).Holds challenge)
        input)
  | .one _ _, .one _, _, hviews => by
      cases hviews
      rw [List.forall_mem_singleton]
      exact Iff.rfl
  | .all _ _ _, .all _, _, hviews => holds_viewsAll_iff challenge hviews

theorem holds_viewsAll_iff (challenge : Challenge) :
    ∀ {begun : List (Begun E t)} {inputs : List (ProverInput E)} {vs : List (View E t)},
    viewsAll begun (Input.mapAll Witnessed.element inputs) (firstMessages begun)
      (answers challenge begun) = some vs →
    ((∀ view ∈ vs, view.Holds challenge) ↔
      AtEachAll (fun params pending item => (view challenge params pending item).Holds challenge)
        begun inputs)
  | [], [], _, hviews => by
      cases hviews
      exact iff_of_true nofun trivial
  | _ :: _, _ :: _, _, hviews => by
      obtain ⟨here, others, hhere, hothers, rfl⟩ := viewsAll_cons_eq_some_iff.mp hviews
      rw [List.forall_mem_append]
      exact and_congr (holds_views_iff challenge hhere) (holds_viewsAll_iff challenge hothers)

end

end Begun

/-- What a prover remembers is as at first, or it is nothing. -/
def Prover.Rested (original current : Prover E t) : Prop :=
  current = original ∨ current = original.map (fun _ => none) id

def Verifier.Rested (original current : Verifier E t) : Prop :=
  current = original ∨ current = original.clearChallenge

theorem Prover.Rested.statements {original current : Prover E t}
    (hrested : original.Rested current) : current.statements = original.statements := by
  rcases hrested with rfl | rfl
  · rfl
  · exact statements_map _ _ _

theorem Prover.Rested.answered {original current : Prover E t} (hrested : original.Rested current)
    {begun : Begun E t} (hbegun : begun.statements = current.statements) :
    original.Rested begun.answered :=
  .inr (map_const_of_statements (hbegun.trans hrested.statements) none ())

theorem Verifier.Rested.statements {original current : Verifier E t}
    (hrested : original.Rested current) : current.statements = original.statements := by
  rcases hrested with rfl | rfl
  · rfl
  · exact statements_map _ _ _

theorem Verifier.Rested.setChallenge {original current : Verifier E t}
    (hrested : original.Rested current) (challenge : Challenge) :
    current.setChallenge challenge = original.setChallenge challenge :=
  map_const_of_statements hrested.statements _ _

theorem Verifier.Rested.firstLayout_setChallenge {original current : Verifier E t}
    (hrested : original.Rested current) (challenge : Challenge) :
    (current.setChallenge challenge).firstLayout = original.firstLayout := by
  rw [hrested.setChallenge]
  exact firstLayout_map _ _ _

theorem Verifier.Rested.secondLayout_setChallenge {original current : Verifier E t}
    (hrested : original.Rested current) (challenge : Challenge) :
    (current.setChallenge challenge).secondLayout = original.secondLayout := by
  rw [hrested.setChallenge]
  exact secondLayout_map _ _ _

theorem Verifier.Rested.clear {original current : Verifier E t}
    (hrested : original.Rested current) (challenge : Challenge) :
    original.Rested (current.setChallenge challenge).clearChallenge :=
  .inr (map_const_of_statements ((statements_map _ _ _).trans hrested.statements) _ _)

/-- What the parties send and find in a transcript. -/
structure Transcribed [DecidableEq E] (verifier : Verifier E t) (prover : Prover E t)
    (input : ProverInput E) (challenge : Challenge) (source : Source) (begun : Begun E t)
    (first second : Bytes) (rest : Source) (accepted : Bool) : Prop where
  statements : begun.statements = prover.statements
  carries : begun.Carries input
  first_eq : prover.first input source = (.ok begun.firstMessage, begun.prover, rest)
  encode_first : begun.firstMessage.encode = .ok first
  decode_first : Message.decode verifier.firstLayout first = .ok begun.firstMessage
  encode_second : (begun.answer challenge).encode = .ok second
  decode_second : Message.decode verifier.secondLayout second = .ok (begun.answer challenge)
  verify_eq : (verifier.setChallenge challenge).verify input.common begun.firstMessage
    (begun.answer challenge) = .ok accepted
  transcript_eq : transcript verifier prover input challenge source =
    (.ok accepted, begun.answered, rest)

variable [DecidableEq E] {verifier : Verifier E t} {prover : Prover E t} {input : ProverInput E}
  {challenge : Challenge} {source : Source}

/-- Honest parties with the same statements always come to a verdict. -/
theorem exists_transcribed (laws : verifier.Lawful)
    (hsame : prover.statements = verifier.statements) (hfits : prover.Fits input)
    (hlt : challenge < 2 ^ t) (source : Source) :
    ∃ begun first second rest accepted,
      Transcribed verifier prover input challenge source begun first second rest accepted := by
  obtain ⟨message, prover', rest, hfirst⟩ := prover.first_of_fits input source hfits
  obtain ⟨begun, rfl, rfl, hstatements, hcarries⟩ := Prover.begun_of_first _ _ _ hfirst
  obtain ⟨first, hfirstBytes⟩ := begun.encode_firstMessage
  obtain ⟨second, hsecondBytes⟩ := begun.encode_answer challenge
  obtain ⟨vs, hviews⟩ := begun.views_answer challenge (fits_of_statements hstatements.symm hfits)
  have hbegun : begun.statements = verifier.statements := hstatements.trans hsame
  have hverify := verifier.verify_of_views challenge _ _ _
    ((views_of_statements hbegun _ _ _).symm.trans hviews)
  refine ⟨begun, first, second, rest, _, hstatements, hcarries, hfirst, hfirstBytes, ?_,
    hsecondBytes, ?_, hverify, ?_⟩
  · rw [← firstLayout_of_statements hbegun,
      ← Begun.layout_firstMessage (lawful_of_statements hbegun.symm laws).sized]
    exact Message.decode_encode hfirstBytes
  · rw [← secondLayout_of_statements hbegun, ← begun.layout_answer challenge]
    exact Message.decode_encode hsecondBytes
  · rw [transcript, hfirst]
    dsimp only
    rw [Prover.second_of_lt hlt]
    dsimp only
    rw [hverify]

namespace Transcribed

variable {begun : Begun E t} {first second : Bytes} {rest : Source} {accepted : Bool}

/-- A prover that knows the logarithms is accepted. -/
theorem complete (transcribed : Transcribed verifier prover input challenge source begun first
      second rest accepted) (laws : verifier.Lawful)
    (hsame : prover.statements = verifier.statements)
    (hwitness : prover.AtEach (fun params _ item => IsWitness params item) input) :
    accepted = true := by
  have hbegun : begun.statements = verifier.statements := transcribed.statements.trans hsame
  have hknown : begun.AtEach
      (fun params pending item => IsWitness params ⟨item.element, pending.logarithm⟩) input := by
    refine ((atEach_of_statements transcribed.statements.symm hwitness).and
      transcribed.carries).imp ?_
    rintro params pending ⟨element, logarithm⟩ - ⟨hlogarithm, hcarries⟩
    rw [hcarries]
    exact hlogarithm
  obtain ⟨vs, hviews⟩ := begun.views_answer challenge transcribed.carries.fits
  have hlaws := lawful_of_statements hbegun.symm laws
  have hholds := (begun.holds_views_iff challenge hviews).mpr <| hknown.imp
    fun _ _ _ hmem hlogarithm => Begun.holds_answer (hlaws _ hmem) hlogarithm challenge
  have htrue := (Verifier.verify_eq_true_of_views challenge laws hbegun hviews).mpr hholds
  rw [transcribed.verify_eq] at htrue
  exact Except.ok.inj htrue

end Transcribed

end ThreeMove
