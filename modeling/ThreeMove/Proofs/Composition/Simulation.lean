import Mathlib.Data.Set.Card
import ThreeMove.Simulator
import ThreeMove.Proofs.Composition.Completeness
import ThreeMove.Proofs.Composition.Composed

/-!
# Simulated transcripts

The simulator draws the answers where the prover draws the nonces.  The challenge times the
logarithms, added modulo the orders, takes the nonces to the answers, and the transcripts of
both are the accepted ones.
-/

namespace ThreeMove

/-- The solution is the only first message that makes the equation hold. -/
theorem Simulator.solve_eq_iff {E : Type} {group : PrimeGroup E} (laws : group.Lawful) {h a : E}
    (hh : group.isMember h = true) (ha : group.isMember a = true) {e : Challenge} {z : Nat} :
    solve group h e z = a ↔ group.pow group.generator z = group.mul a (group.pow h e) := by
  let _ := laws.commGroup
  let G : group.Member := ⟨group.generator, laws.isMember_generator⟩
  let H : group.Member := ⟨h, hh⟩
  let A : group.Member := ⟨a, ha⟩
  have hsolve : solve group h e z = ((G ^ z * H ^ (-(e : Int)) : group.Member) : E) := by
    rw [solve, ← laws.coe_pow G, ← laws.coe_zpow H]
    rfl
  have hequation : group.mul a (group.pow h e) = ((A * H ^ e : group.Member) : E) := by
    rw [← laws.coe_pow H]
    rfl
  rw [hsolve, hequation, ← laws.coe_pow G, Subtype.coe_inj, zpow_neg, zpow_natCast,
    ← mul_inv_eq_iff_eq_mul]
  exact Subtype.coe_inj (b := A)

theorem View.Holds.first_eq {E : Type} {t : Nat} {e : Challenge} {view : View E t}
    (laws : view.params.group.Lawful) (hholds : view.Holds e) :
    view.first = view.params.group.encode
      (Simulator.solve view.params.group view.element e view.second) := by
  obtain ⟨hmember, a, hdecode, ha, hequation⟩ := hholds
  rw [(Simulator.solve_eq_iff laws hmember ha).mpr hequation]
  exact (laws.of_decode hdecode).2.symm

namespace Prover

open ThreeMove.Composition

variable {E : Type} {t : Nat}

def nonceSent (params : Parameters E t) (_ : Witnessed E) (nonce : Nat) : Message :=
  .element (params.group.encode (params.group.pow params.group.generator nonce))

def nonceUsed (e : Challenge) (params : Parameters E t) (item : Witnessed E) (nonce : Nat) :
    Message :=
  answer params ⟨nonce, item.logarithm⟩ e

/-- The transcript of a prover that has drawn the nonces. -/
def transcriptOf (prover : Prover E t) (input : ProverInput E) (e : Challenge)
    (nonces : Input Nat) : Transcript :=
  ⟨prover.compose nonceSent input nonces, e, prover.compose (nonceUsed e) input nonces⟩

def transcribe (prover : Prover E t) (input : ProverInput E) (e : Challenge) (source : Source) :
    Except SigmaFault Transcript × Source :=
  match prover.first input source with
  | (.error fault, _, rest) => (.error fault, rest)
  | (.ok a, prover, rest) => ((prover.second e).1.map fun z => ⟨a, e, z⟩, rest)

mutual

/-- The first message and all answers are determined by the draws. -/
theorem first_of_draw : ∀ (prover : Prover E t) (input : ProverInput E) (source : Source),
    prover.Fits input → ∃ begun : Begun E t,
      first prover input source = (.ok begun.firstMessage, begun.prover, (prover.draw source).2) ∧
      begun.firstMessage = prover.compose nonceSent input (prover.draw source).1 ∧
      ∀ e, begun.answer e = prover.compose (nonceUsed e) input (prover.draw source).1
  | .one params _, .one item, source, _ =>
      ⟨.one params ⟨(source.below params.group.order).1, item.logarithm⟩, rfl, rfl, fun _ => rfl⟩
  | .all params state parts, .all inputs, source, hfits => by
      obtain ⟨begun, hfirst, hmessages, hanswers⟩ := firstAll_of_draw parts inputs source hfits
      refine ⟨.all params () begun, ?_, congrArg Message.tuple hmessages,
        fun e => congrArg Message.tuple (hanswers e)⟩
      rw [first, if_pos (length_of_atEachAll hfits), hfirst]
      rfl

theorem firstAll_of_draw : ∀ (parts : List (Prover E t)) (inputs : List (ProverInput E))
    (source : Source), AtEachAll (fun _ _ _ => True) parts inputs → ∃ begun : List (Begun E t),
      firstAll parts inputs source =
        (.ok (Begun.firstMessages begun), mapAll some id begun, (drawAll parts source).2) ∧
      Begun.firstMessages begun = composeAll nonceSent parts inputs (drawAll parts source).1 ∧
      ∀ e, Begun.answers e begun = composeAll (nonceUsed e) parts inputs (drawAll parts source).1
  | [], [], _, _ => ⟨[], rfl, rfl, fun _ => rfl⟩
  | part :: parts, input :: inputs, source, ⟨hpart, hparts⟩ => by
      obtain ⟨here, hfirst, hmessage, hanswer⟩ := first_of_draw part input source hpart
      obtain ⟨others, hfirsts, hmessages, hanswers⟩ :=
        firstAll_of_draw parts inputs (part.draw source).2 hparts
      refine ⟨here :: others, ?_, congrArg₂ List.cons hmessage hmessages,
        fun e => congrArg₂ List.cons (hanswer e) (hanswers e)⟩
      rw [firstAll, hfirst]
      dsimp only
      rw [hfirsts]
      rfl

end

theorem transcribe_of_draw {prover : Prover E t} {input : ProverInput E} {e : Challenge}
    (hfits : prover.Fits input) (he : e < 2 ^ t) (source : Source) :
    prover.transcribe input e source =
      (.ok (prover.transcriptOf input e (prover.draw source).1), (prover.draw source).2) := by
  obtain ⟨begun, hfirst, hmessage, hanswer⟩ := first_of_draw prover input source hfits
  rw [transcribe, hfirst]
  dsimp only
  rw [second_of_lt he, transcriptOf, ← hmessage, ← hanswer]
  rfl

end Prover

namespace Simulator

open ThreeMove.Composition

variable {E : Type} {t : Nat}

def solved (e : Challenge) (params : Parameters E t) (h : E) (z : Nat) : Message :=
  .element (params.group.encode (solve params.group h e z))

/-- The transcript of a simulator that has drawn the answers. -/
def transcriptOf (simulator : Simulator E t) (input : CommonInput E) (e : Challenge)
    (answers : Input Nat) : Transcript :=
  ⟨simulator.compose (solved e) input answers, e, simulator.compose answerOf input answers⟩

mutual

theorem messages_of_draw {e : Challenge} (he : e < 2 ^ t) : ∀ (simulator : Simulator E t)
    (input : CommonInput E) (source : Source), simulator.Fits input →
    messages simulator input e source =
      (.ok (simulator.compose (solved e) input (simulator.draw source).1,
        simulator.compose answerOf input (simulator.draw source).1), (simulator.draw source).2)
  | .one params _, .one h, source, _ => by
      rw [messages, Challenge.check_of_lt he]
      rfl
  | .all params _ parts, .all inputs, source, hfits => by
      rw [messages, if_pos (length_of_atEachAll hfits).symm, Challenge.check_of_lt he]
      dsimp only
      rw [messagesAll_of_draw he parts inputs source hfits]
      rfl

theorem messagesAll_of_draw {e : Challenge} (he : e < 2 ^ t) : ∀ (parts : List (Simulator E t))
    (inputs : List (CommonInput E)) (source : Source),
    AtEachAll (fun _ _ _ => True) parts inputs →
    messagesAll parts inputs e source =
      (.ok (composeAll (solved e) parts inputs (drawAll parts source).1,
        composeAll answerOf parts inputs (drawAll parts source).1), (drawAll parts source).2)
  | [], [], _, _ => rfl
  | part :: parts, input :: inputs, source, ⟨hpart, hparts⟩ => by
      rw [messagesAll, messages_of_draw he part input source hpart]
      dsimp only
      rw [messagesAll_of_draw he parts inputs (part.draw source).2 hparts]
      rfl

end

mutual

theorem misshapen_of_messages {e : Challenge} (he : e < 2 ^ t) : ∀ {simulator : Simulator E t}
    {input : CommonInput E} {source : Source} {fault : SigmaFault},
    (messages simulator input e source).1 = .error fault → ∃ reason, fault = .misshapen reason
  | .one _ _, .one _, _, _, hmessages => by
      rw [messages, Challenge.check_of_lt he] at hmessages
      cases hmessages
  | .one _ _, .all _, _, _, hmessages => by
      cases hmessages
      exact ⟨_, rfl⟩
  | .all _ _ _, .one _, _, _, hmessages => by
      cases hmessages
      exact ⟨_, rfl⟩
  | .all _ _ parts, .all inputs, source, _, hmessages => by
      rw [messages] at hmessages
      split at hmessages
      · rw [Challenge.check_of_lt he] at hmessages
        dsimp only at hmessages
        cases hparts : (messagesAll parts inputs e source).1 with
        | ok _ =>
            rw [hparts] at hmessages
            cases hmessages
        | error fault =>
            rw [hparts] at hmessages
            cases hmessages
            exact misshapen_of_messagesAll he hparts
      · cases hmessages
        exact ⟨_, rfl⟩

theorem misshapen_of_messagesAll {e : Challenge} (he : e < 2 ^ t) :
    ∀ {parts : List (Simulator E t)} {inputs : List (CommonInput E)} {source : Source}
      {fault : SigmaFault},
    (messagesAll parts inputs e source).1 = .error fault → ∃ reason, fault = .misshapen reason
  | [], _, _, _, hmessages => by cases hmessages
  | _ :: _, [], _, _, hmessages => by cases hmessages
  | part :: parts, input :: inputs, source, _, hmessages => by
      unfold messagesAll at hmessages
      generalize hpart : messages part input e source = outcome at hmessages
      obtain ⟨result, rest⟩ := outcome
      cases result with
      | error fault =>
          cases hmessages
          exact misshapen_of_messages he (congrArg Prod.fst hpart)
      | ok _ =>
          dsimp only at hmessages
          cases hparts : (messagesAll parts inputs e rest).1 with
          | ok _ =>
              rw [hparts] at hmessages
              cases hmessages
          | error fault =>
              rw [hparts] at hmessages
              cases hmessages
              exact misshapen_of_messagesAll he hparts

end

theorem misshapen_of_simulate {e : Challenge} (he : e < 2 ^ t) {simulator : Simulator E t}
    {input : CommonInput E} {source : Source} {fault : SigmaFault}
    (hsimulate : (simulator.simulate input e source).1 = .error fault) :
    ∃ reason, fault = .misshapen reason := by
  unfold simulate at hsimulate
  dsimp only at hsimulate
  cases hmessages : (simulator.messages input e source).1 with
  | ok _ =>
      rw [hmessages] at hsimulate
      cases hsimulate
  | error fault =>
      rw [hmessages] at hsimulate
      cases hsimulate
      exact misshapen_of_messages he hmessages

theorem simulate_of_draw {simulator : Simulator E t} {input : CommonInput E} {e : Challenge}
    (hfits : simulator.Fits input) (he : e < 2 ^ t) (source : Source) :
    simulator.simulate input e source =
      (.ok (simulator.transcriptOf input e (simulator.draw source).1),
        (simulator.draw source).2) := by
  rw [simulate, messages_of_draw he simulator input source hfits]
  rfl

mutual

theorem first_eq_of_holds {e : Challenge} : ∀ {simulator : Simulator E t} {input : CommonInput E}
    {a : Message} {answers : Input Nat} {vs : List (View E t)}, simulator.Lawful →
    simulator.IsDraw answers →
    simulator.views input a (simulator.compose answerOf input answers) = some vs →
    (∀ view ∈ vs, view.Holds e) → simulator.compose (solved e) input answers = a
  | .one params _, .one h, .element a, .one z, vs, laws, _, hviews, hholds => by
      cases hviews
      have hfirst := View.Holds.first_eq (laws _ (List.mem_singleton.mpr rfl))
        (hholds _ (List.mem_singleton.mpr rfl))
      exact congrArg Message.element hfirst.symm
  | .all _ _ _, .all _, .tuple _, .all _, _, laws, hdraw, hviews, hholds =>
      congrArg Message.tuple (firsts_eq_of_holds
        (fun group hgroup => laws group (List.mem_cons_of_mem _ hgroup)) hdraw hviews hholds)

theorem firsts_eq_of_holds {e : Challenge} : ∀ {parts : List (Simulator E t)}
    {inputs : List (CommonInput E)} {firsts : List Message} {answers : List (Input Nat)}
    {vs : List (View E t)}, (∀ group ∈ groupsAll parts, group.Lawful) →
    IsDrawAll parts answers →
    viewsAll parts inputs firsts (composeAll answerOf parts inputs answers) = some vs →
    (∀ view ∈ vs, view.Holds e) → composeAll (solved e) parts inputs answers = firsts
  | [], [], [], [], _, _, _, _, _ => rfl
  | _ :: _, _ :: _, _ :: _, _ :: _, _, laws, ⟨hdraw, hdraws⟩, hviews, hholds => by
      obtain ⟨here, others, hhere, hothers, rfl⟩ := viewsAll_cons_eq_some_iff.mp hviews
      have hfirst := first_eq_of_holds
        (fun group hgroup => laws group (List.mem_append_left _ hgroup)) hdraw hhere
        (fun view hview => hholds view (List.mem_append_left _ hview))
      have hfirsts := firsts_eq_of_holds
        (fun group hgroup => laws group (List.mem_append_right _ hgroup)) hdraws hothers
        (fun view hview => hholds view (List.mem_append_right _ hview))
      exact congrArg₂ List.cons hfirst hfirsts

end

end Simulator

open ThreeMove.Composition

variable {E : Type} {t : Nat}

theorem Prover.isDraw_simulator {prover : Prover E t} {draws : Input Nat} :
    prover.simulator.IsDraw draws ↔ prover.IsDraw draws :=
  atEach_map _ _ prover draws

theorem Prover.fits_simulator {α : Type} {prover : Prover E t} {input : Input α} :
    prover.simulator.Fits input ↔ prover.Fits input :=
  atEach_map _ _ prover input

mutual

theorem fits_common {σ ν : Type} : ∀ {c : Composition E t σ ν} {input : ProverInput E},
    c.Fits input → c.Fits input.common
  | .one _ _, .one _, _ => trivial
  | .all _ _ _, .all _, hfits => fits_commonAll hfits

theorem fits_commonAll {σ ν : Type} : ∀ {parts : List (Composition E t σ ν)}
    {inputs : List (ProverInput E)}, AtEachAll (fun _ _ _ => True) parts inputs →
    AtEachAll (fun _ _ _ => True) parts (Input.mapAll Witnessed.element inputs)
  | [], [], _ => trivial
  | _ :: _, _ :: _, ⟨hpart, hparts⟩ => ⟨fits_common hpart, fits_commonAll hparts⟩

end

/-- A transcript with reduced answers that the verifier accepts under the challenge. -/
structure Verifier.IsAccepted [DecidableEq E] (verifier : Verifier E t) (input : CommonInput E)
    (e : Challenge) (transcript : Transcript) : Prop where
  challenge : transcript.challenge = e
  first : transcript.first.layout = verifier.firstLayout
  second : transcript.second.layout = verifier.secondLayout
  reduced : verifier.Reduced transcript.second
  verify_eq : (verifier.setChallenge e).verify input transcript.first transcript.second = .ok true

def Prover.added (e : Challenge) (_ : Parameters E t) (item : Witnessed E) : Nat :=
  e * item.logarithm

/-- The transcript with a nonce is the simulated one of its answer. -/
theorem Prover.transcriptOf_shift {prover : Prover E t} {input : ProverInput E} {e : Challenge}
    {nonces : Input Nat} (laws : prover.Lawful)
    (hwitness : prover.AtEach (fun params _ item => IsWitness params item) input)
    (hdraw : prover.IsDraw nonces) :
    prover.simulator.transcriptOf input.common e (prover.shift (added e) input nonces) =
      prover.transcriptOf input e nonces := by
  have hfirst : prover.statements.compose (Simulator.solved e) (input.map Witnessed.element)
      (prover.shift (added e) input nonces) = prover.compose nonceSent input nonces := by
    refine compose_shift Witnessed.element (hwitness.imp ?_) hdraw
    intro params state item hmem hlogarithm n
    let pending : Pending := ⟨n, item.logarithm⟩
    have hholds := Begun.holds_answer (laws _ hmem)
      (show IsWitness params ⟨item.element, pending.logarithm⟩ from hlogarithm) e
    exact congrArg Message.element (hholds.first_eq (laws _ hmem)).symm
  have hsecond : prover.statements.compose answerOf (input.map Witnessed.element)
      (prover.shift (added e) input nonces) = prover.compose (nonceUsed e) input nonces :=
    compose_shift Witnessed.element (hwitness.imp fun _ _ _ _ _ _ => rfl) hdraw
  change Transcript.mk (prover.statements.compose (Simulator.solved e)
    (input.map Witnessed.element) _) e (prover.statements.compose answerOf
    (input.map Witnessed.element) _) = _
  rw [hfirst, hsecond]
  rfl

variable [DecidableEq E] {prover : Prover E t} {verifier : Verifier E t} {input : ProverInput E}
  {e : Challenge}

/-- Whatever the nonces are, the transcript of a prover that knows the logarithms is accepted. -/
theorem Prover.isAccepted_transcriptOf {nonces : Input Nat} (laws : prover.Lawful)
    (hsame : prover.statements = verifier.statements)
    (hwitness : prover.AtEach (fun params _ item => IsWitness params item) input)
    (he : e < 2 ^ t) (hdraw : prover.IsDraw nonces) :
    verifier.IsAccepted input.common e (prover.transcriptOf input e nonces) := by
  have hlaws := lawful_of_statements hsame laws
  obtain ⟨source, rfl⟩ := exists_source_of_isDraw hdraw
  obtain ⟨begun, _, _, rest, accepted, transcribed⟩ :=
    exists_transcribed hlaws hsame hwitness.fits he source
  have haccepted := transcribed.complete hlaws hsame hwitness
  have hbegun : begun.statements = verifier.statements := transcribed.statements.trans hsame
  have htranscribe := transcribe_of_draw hwitness.fits he source
  have hreduced := reduced_answers (fits_common (fits_simulator.mpr hwitness.fits))
    (isDraw_simulator.mpr (isDraw_shift (added e) hwitness.fits hdraw))
  have hsecond := congrArg Transcript.second (transcriptOf_shift (e := e) laws hwitness hdraw)
  rw [transcribe, transcribed.first_eq] at htranscribe
  dsimp only at htranscribe
  rw [second_of_lt he] at htranscribe
  obtain ⟨heq, -⟩ := Prod.mk.inj htranscribe
  refine ⟨rfl, ?_, ?_, ?_, ?_⟩
  · rw [← Except.ok.inj heq, ← firstLayout_of_statements hbegun]
    exact Begun.layout_firstMessage (lawful_of_statements hbegun.symm hlaws).sized
  · rw [← Except.ok.inj heq, ← secondLayout_of_statements hbegun]
    exact begun.layout_answer e
  · rw [← hsecond]
    exact reduced_of_statements ((statements_map _ _ _).trans hsame) hreduced
  · rw [← Except.ok.inj heq, ← haccepted]
    exact transcribed.verify_eq

/-- Every accepted transcript is simulated. -/
theorem Simulator.exists_transcriptOf_eq {simulator : Simulator E t} {input : CommonInput E}
    {transcript : Transcript} (laws : simulator.Lawful)
    (hsame : simulator.statements = verifier.statements) (hfits : simulator.Fits input)
    (haccepted : verifier.IsAccepted input e transcript) :
    ∃ answers, simulator.IsDraw answers ∧ simulator.transcriptOf input e answers = transcript := by
  obtain ⟨a, e', z⟩ := transcript
  obtain ⟨rfl, -, hsecond, hreduced, hverify⟩ := haccepted
  rw [← secondLayout_of_statements hsame] at hsecond
  obtain ⟨answers, hdraw, rfl⟩ :=
    exists_draws_of_reduced hfits hsecond (reduced_of_statements hsame.symm hreduced)
  obtain ⟨vs, hviews, hholds⟩ :=
    (Verifier.verify_eq_true_iff _ (lawful_of_statements hsame laws)).mp hverify
  rw [← views_of_statements hsame] at hviews
  refine ⟨answers, hdraw, ?_⟩
  rw [transcriptOf, first_eq_of_holds laws hdraw hviews hholds]

theorem ncard_of_bijOn {α β : Type} {f : α → β} {s : Set α} {r : Set β} (hf : Set.BijOn f s r)
    (event : Set β) : {a ∈ s | f a ∈ event}.ncard = (r ∩ event).ncard := by
  have himage : f '' {a ∈ s | f a ∈ event} = r ∩ event := by
    rw [← hf.image_eq]
    exact Set.image_inter_preimage f s event
  rw [← himage]
  exact (hf.injOn.mono fun _ ha => ha.1).ncard_image.symm

/-- A prover that knows the logarithms and the simulator make the same draws, and each of them
takes the draws one to one to the accepted transcripts.  So both kinds of transcripts have the
same distribution. -/
theorem honest_verifier_zero_knowledge (laws : prover.Lawful)
    (hsame : prover.statements = verifier.statements)
    (hwitness : prover.AtEach (fun params _ item => IsWitness params item) input)
    (he : e < 2 ^ t) :
    let draws := {draws | prover.IsDraw draws}
    let real := prover.transcriptOf input e
    let simulated := prover.simulator.transcriptOf input.common e
    (∀ source, (prover.draw source).1 ∈ draws ∧
      prover.transcribe input e source =
        (.ok (real (prover.draw source).1), (prover.draw source).2) ∧
      prover.simulator.simulate input.common e source =
        (.ok (simulated (prover.draw source).1), (prover.draw source).2)) ∧
      (∀ nonces ∈ draws, ∃ source, (prover.draw source).1 = nonces) ∧
      Set.BijOn real draws {transcript | verifier.IsAccepted input.common e transcript} ∧
      Set.BijOn simulated draws {transcript | verifier.IsAccepted input.common e transcript} ∧
      draws.Finite ∧ ∀ event : Set Transcript,
        {nonces ∈ draws | real nonces ∈ event}.ncard =
          {answers ∈ draws | simulated answers ∈ event}.ncard := by
  intro draws real simulated
  have hfits : prover.simulator.Fits input.common :=
    fits_common (Prover.fits_simulator.mpr hwitness.fits)
  have hstatements : prover.simulator.statements = prover.statements := statements_map _ _ _
  have hshift : Set.BijOn (prover.shift (Prover.added e) input) draws draws :=
    bijOn_shift _ hwitness.fits
  have hreal : ∀ nonces ∈ draws, simulated (prover.shift (Prover.added e) input nonces) =
      real nonces := fun nonces hdraw => Prover.transcriptOf_shift laws hwitness hdraw
  have hsimulated :
      Set.BijOn simulated draws {transcript | verifier.IsAccepted input.common e transcript} := by
    refine ⟨fun answers hdraw => ?_, fun answers hdraw answers' hdraw' heq => ?_,
      fun transcript haccepted => ?_⟩
    · obtain ⟨nonces, hnonces, rfl⟩ := hshift.surjOn hdraw
      rw [hreal nonces hnonces]
      exact Prover.isAccepted_transcriptOf laws hsame hwitness he hnonces
    · exact draws_of_answers hfits (Prover.isDraw_simulator.mpr hdraw)
        (Prover.isDraw_simulator.mpr hdraw') (congrArg Transcript.second heq)
    · obtain ⟨answers, hdraw, heq⟩ := Simulator.exists_transcriptOf_eq
        (lawful_of_statements hstatements.symm laws) (hstatements.trans hsame) hfits haccepted
      exact ⟨answers, Prover.isDraw_simulator.mp hdraw, heq⟩
  have hbijection :
      Set.BijOn real draws {transcript | verifier.IsAccepted input.common e transcript} :=
    (hsimulated.comp hshift).congr hreal
  refine ⟨fun source => ⟨isDraw_draw prover source,
    Prover.transcribe_of_draw hwitness.fits he source, ?_⟩, fun nonces => exists_source_of_isDraw,
    hbijection, hsimulated, finite_isDraw prover, fun event => ?_⟩
  · rw [Simulator.simulate_of_draw hfits he, Prover.simulator, draw_map]
    rfl
  · rw [ncard_of_bijOn hbijection, ncard_of_bijOn hsimulated]

theorem honest_verifier_zero_knowledge_pairModulo23 :
    let prover : Prover Nat 3 := pairModulo23 none ()
    let verifier : Verifier Nat 3 := pairModulo23 none none
    let input : ProverInput Nat := .all [.one ⟨18, 3⟩, .one ⟨12, 5⟩]
    let transcript : Transcript := ⟨.tuple [.element [16], .element [8]], 5,
      .tuple [.integer 6 1, .integer 10 1]⟩
    prover.transcriptOf input 5 (.all [.one 2, .one 7]) = transcript ∧
      prover.simulator.transcriptOf input.common 5 (.all [.one 6, .one 10]) = transcript ∧
      verifier.IsAccepted input.common 5 transcript ∧
      {nonces | prover.IsDraw nonces ∧ prover.transcriptOf input 5 nonces = transcript}.ncard =
        {answers | prover.IsDraw answers ∧
          prover.simulator.transcriptOf input.common 5 answers = transcript}.ncard := by
  intro prover verifier input transcript
  have hwitness : prover.AtEach (fun params _ item => IsWitness params item) input :=
    ⟨rfl, rfl, trivial⟩
  have hdraw : Input.all [.one 2, .one 7] ∈ {draws | prover.IsDraw draws} :=
    ⟨(by decide : 2 < 11), (by decide : 7 < 11), trivial⟩
  have hsame : prover.statements = verifier.statements := rfl
  have hchallenge : 5 < 2 ^ 3 := by decide
  obtain ⟨_, _, hreal, _, _, hequal⟩ :=
    honest_verifier_zero_knowledge (lawful_pairModulo23 none ()) hsame hwitness hchallenge
  exact ⟨rfl, rfl, hreal.mapsTo hdraw, hequal {transcript}⟩

end ThreeMove
