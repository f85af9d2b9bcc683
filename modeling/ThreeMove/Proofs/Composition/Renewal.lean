import ThreeMove.Proofs.Composition.Acceptance
import ThreeMove.Proofs.Composition.Requests

/-!
# First messages that fail

A call for a first message that fails has begun the statements that it reached, and has left the
others as they were.  So an answer after it is made of two proofs: at the statements that were
reached it belongs to the failed call, and at the others to the last first message.  With the right
logarithms the verifier accepts it only if it happens to be the answer that the last first message
asks for.
-/

namespace ThreeMove

open ThreeMove.Composition

variable {E : Type} {t : Nat}

namespace Begun

mutual

/-- With right logarithms the answer of another proof is accepted only where it is the same. -/
theorem holds_other_iff (e : Challenge) : ∀ {begun mixed : Begun E t} {input : ProverInput E},
    begun.statements = mixed.statements → begun.Lawful →
    begun.AtEach (fun params pending item => IsWitness params ⟨item.element, pending.logarithm⟩)
      input →
    ∃ vs, begun.views input.common begun.firstMessage (mixed.answer e) = some vs ∧
      ((∀ view ∈ vs, view.Holds e) ↔ mixed.answer e = begun.answer e)
  | .one params pending, .one _ other, .one ⟨element, _⟩, hsame, laws, hwitness => by
      cases hsame
      refine ⟨_, rfl, ?_⟩
      change params.group.pow params.group.generator pending.logarithm = element at hwitness
      subst hwitness
      have lawful := laws params.group (List.mem_singleton.mpr rfl)
      rw [List.forall_mem_singleton]
      refine (View.holds_pow_iff lawful).trans ⟨fun hmod => ?_, fun heq => ?_⟩
      · have heq := hmod
        rw [Nat.ModEq, Nat.mod_mod] at heq
        exact congrArg (Message.integer · params.group.scalarSize) heq
      · exact (Message.integer.inj heq).1 ▸ Nat.mod_modEq _ _
  | .all _ _ _, .all _ _ _, .all _, hsame, laws, hwitness => by
      obtain ⟨vs, hviews, hiff⟩ := holds_others_iff e (Composition.all.inj hsame).2.2
        (fun group hgroup => laws group (List.mem_cons_of_mem _ hgroup)) hwitness
      exact ⟨vs, hviews, hiff.trans ⟨congrArg Message.tuple, Message.tuple.inj⟩⟩

theorem holds_others_iff (e : Challenge) :
    ∀ {begun mixed : List (Begun E t)} {inputs : List (ProverInput E)},
    mapAll (fun _ => ()) (fun _ => ()) begun = mapAll (fun _ => ()) (fun _ => ()) mixed →
    (∀ group ∈ groupsAll begun, group.Lawful) →
    AtEachAll (fun params pending item => IsWitness params ⟨item.element, pending.logarithm⟩)
      begun inputs →
    ∃ vs, viewsAll begun (Input.mapAll Witnessed.element inputs) (firstMessages begun)
        (answers e mixed) = some vs ∧
      ((∀ view ∈ vs, view.Holds e) ↔ answers e mixed = answers e begun)
  | [], [], [], _, _, _ => ⟨[], rfl, iff_of_true nofun rfl⟩
  | _ :: _, _ :: _, _ :: _, hsame, laws, ⟨hpart, hparts⟩ => by
      obtain ⟨hhead, htail⟩ := List.cons.inj hsame
      obtain ⟨here, hhere, hiff⟩ := holds_other_iff e hhead
        (fun group hgroup => laws group (List.mem_append_left _ hgroup)) hpart
      obtain ⟨others, hothers, hiffs⟩ := holds_others_iff e htail
        (fun group hgroup => laws group (List.mem_append_right _ hgroup)) hparts
      refine ⟨here ++ others, viewsAll_cons_eq_some_iff.mpr ⟨here, others, hhere, hothers, rfl⟩, ?_⟩
      rw [List.forall_mem_append, hiff, hiffs, answers, answers, List.cons.injEq]

end

/-- The answer of another proof of the statements is accepted only if it is the same. -/
theorem verify_other_iff [DecidableEq E] {begun mixed : Begun E t} {verifier : Verifier E t}
    {input : ProverInput E} {e : Challenge} (laws : verifier.Lawful)
    (hbegun : begun.statements = verifier.statements)
    (hmixed : mixed.statements = verifier.statements) (hcarries : begun.Carries input)
    (hwitness : begun.AtEach (fun params _ item => IsWitness params item) input) :
    (verifier.setChallenge e).verify input.common begun.firstMessage (mixed.answer e) = .ok true ↔
      mixed.answer e = begun.answer e := by
  have hknown : begun.AtEach
      (fun params pending item => IsWitness params ⟨item.element, pending.logarithm⟩) input := by
    refine (hwitness.and hcarries).imp ?_
    rintro params pending ⟨element, logarithm⟩ - ⟨hlogarithm, hcarried⟩
    rw [hcarried]
    exact hlogarithm
  obtain ⟨vs, hviews, hiff⟩ := holds_other_iff e (hbegun.trans hmixed.symm)
    (lawful_of_statements hbegun.symm laws) hknown
  exact (Verifier.verify_eq_true_of_views e laws hbegun hviews).trans hiff

end Begun

namespace Turn

def renew (original : Prover E t) (pendings : List Pending) (turn : Turn E) : List Pending :=
  match turn.request with
  | .first input source => original.renewed input source pendings
  | .second _ => pendings

/-- The turn is no call for a first message that reaches a statement. -/
def Spares (original : Prover E t) (turn : Turn E) : Prop :=
  ∀ input source, turn.request = .first input source → original.reached input = []

theorem foldl_renew_of_spares {original : Prover E t} {turns : List (Turn E)}
    (hspares : ∀ turn ∈ turns, turn.Spares original) (pendings : List Pending) :
    turns.foldl (renew original) pendings = pendings := by
  induction turns with
  | nil => rfl
  | cons turn turns ih =>
      obtain ⟨hturn, hturns⟩ := List.forall_mem_cons.mp hspares
      obtain ⟨request, result⟩ := turn
      rw [List.foldl_cons]
      have hsame : renew original pendings ⟨request, result⟩ = pendings := by
        cases request with
        | first input source =>
            change original.renewed input source pendings = pendings
            rw [Prover.renewed, hturn input source rfl]
            rfl
        | second e => rfl
      rw [hsame]
      exact ih hturns

end Turn

namespace Prover

variable {original prover prover' : Prover E t} {turns later : List (Turn E)} {begun : Begun E t}
  {input : ProverInput E} {source : Source}

/-- The turns end with a first message and later ones that begin no proof and answer nothing. -/
structure Awaiting (original : Prover E t) (turns : List (Turn E)) (begun : Begun E t)
    (input : ProverInput E) (source : Source) (later : List (Turn E)) : Prop where
  last : ∃ earlier, turns = earlier ++ ⟨.first input source, .ok begun.firstMessage⟩ :: later
  unanswered : ∀ turn ∈ later, ¬ turn.Begins ∧ ¬ turn.Answers
  statements : begun.statements = original.statements
  carries : begun.Carries input
  states : begun.states = (opened (original.reached input) source).1

theorem Awaiting.snoc (awaiting : Awaiting original turns begun input source later) {turn : Turn E}
    (hturn : ¬ turn.Begins ∧ ¬ turn.Answers) :
    Awaiting original (turns ++ [turn]) begun input source (later ++ [turn]) := by
  obtain ⟨earlier, hturns⟩ := awaiting.last
  refine { awaiting with last := ⟨earlier, ?_⟩, unanswered := ?_ }
  · rw [hturns, List.append_assoc, List.cons_append]
  · exact List.forall_mem_append.mpr ⟨awaiting.unanswered, List.forall_mem_singleton.mpr hturn⟩

theorem awaiting_of_first (hpopulated : prover.Populated)
    (hsame : prover.statements = original.statements) (turns : List (Turn E)) {a : Message}
    (hfirst : (first prover input source).1 = .ok a) :
    ∃ begun : Begun E t, (first prover input source).2.1 = begun.prover ∧
      Awaiting original (turns ++ [⟨.first input source, .ok a⟩]) begun input source [] := by
  have hcall : first prover input source =
      (.ok a, (first prover input source).2.1, (first prover input source).2.2) :=
    Prod.ext hfirst rfl
  obtain ⟨begun, rfl, hprover, hbegun, hcarries⟩ := begun_of_first _ _ _ hcall
  refine ⟨begun, hprover, ⟨turns, rfl⟩, nofun, hbegun.trans hsame, hcarries, ?_⟩
  have hholds : begun.prover.Holds (opened (prover.reached input) source).1 := by
    refine ⟨0, ?_⟩
    rw [← hprover, (states_first prover input source hpopulated).2,
      length_reached_of_fits (fits_of_first hcall), List.drop_length, List.replicate_zero]
  rw [← reached_of_statements hsame]
  exact hholds.states_eq

/-- Either no answer is possible, or what is pending is told by the last first message and the
calls after it. -/
def Pends (original : Prover E t) (turns : List (Turn E)) (prover : Prover E t) : Prop :=
  prover.Incomplete ∨ ∃ begun input source later,
    Awaiting original turns begun input source later ∧
      prover.Holds (later.foldl (Turn.renew original) begun.states)

theorem Pends.respond (hpends : Pends original turns prover) (hpopulated : prover.Populated)
    (hsame : prover.statements = original.statements) (request : Request E) :
    Pends original (turns ++ [⟨request, (prover.respond request).1⟩])
      (prover.respond request).2 := by
  by_cases hbegins : Turn.Begins ⟨request, (prover.respond request).1⟩
  · obtain ⟨input, source, a, hturn⟩ := hbegins
    obtain ⟨rfl, hfirst⟩ := Turn.mk.inj hturn
    obtain ⟨begun, hprover, awaiting⟩ := awaiting_of_first hpopulated hsame turns hfirst
    rw [hfirst]
    refine .inr ⟨begun, input, source, [], awaiting, ?_⟩
    rw [Prover.respond, hprover]
    exact holds_prover begun
  rcases hpends with hincomplete | ⟨begun, input, source, later, awaiting, hholds⟩
  · exact .inl (respond_of_incomplete hpopulated hincomplete request hbegins).2
  cases request with
  | first input' source' =>
      have hnext := awaiting.snoc ⟨hbegins, by rintro ⟨_, _, hturn⟩; cases hturn⟩
      refine .inr ⟨begun, input, source, _, hnext, ?_⟩
      rw [List.foldl_append]
      have hrenewed := hholds.first hpopulated input' source'
      rw [renewed, reached_of_statements hsame] at hrenewed
      exact hrenewed
  | second e =>
      by_cases hspends : prover.Spends e
      · refine .inl ⟨[], hholds.second hspends, states_length_pos ?_⟩
        exact populated_of_statements (statements_second e prover).symm hpopulated
      · rw [Prover.respond, second_of_not_spends hspends] at hbegins ⊢
        have hnext := awaiting.snoc ⟨hbegins, by rintro ⟨_, _, hturn⟩; cases hturn⟩
        refine .inr ⟨begun, input, source, _, hnext, ?_⟩
        rw [List.foldl_append]
        exact hholds

theorem Turns.pends {component : Component E (Option Pending) Unit}
    (built : component.Built none ()) {turns : List (Turn E)} {prover : Prover E component.t}
    (history : Turns component.composition turns prover) :
    Pends component.composition turns prover := by
  induction history with
  | nil => exact .inl ⟨[], holds_of_built built, states_length_pos built.populated⟩
  | snoc prior request ih =>
      exact ih.respond (populated_of_statements prior.statements.symm built.populated)
        prior.statements request

/-- An answer that is made from the last first message and the failed calls after it. -/
structure Mixed [DecidableEq E] (original : Prover E t) (turns : List (Turn E)) (e : Challenge)
    (z : Message) (begun mixed : Begun E t) (input : ProverInput E) (source : Source)
    (later : List (Turn E)) : Prop extends Awaiting original turns begun input source later where
  statements_mixed : mixed.statements = original.statements
  /-- Each failed call replaced what was pending at the statements that it reached. -/
  states_mixed : mixed.states = later.foldl (Turn.renew original) begun.states
  answer_mixed : z = mixed.answer e
  eq_of_spares : (∀ turn ∈ later, turn.Spares original) → mixed = begun
  accepted_iff : ∀ verifier : Verifier E t, verifier.Lawful →
    verifier.statements = original.statements →
    original.AtEach (fun params _ item => IsWitness params item) input →
    ((verifier.setChallenge e).verify input.common begun.firstMessage z = .ok true ↔
      z = begun.answer e)

/-- Every answer is mixed from the last first message and the failed calls after it.  If these
reached no statement, it answers the last first message.  In any case, if that call had the right
logarithms, the answer is accepted exactly if it is the one that the call asks for. -/
theorem exists_mixed_of_second [DecidableEq E] {component : Component E (Option Pending) Unit}
    (built : component.Built none ()) {turns : List (Turn E)} {prover : Prover E component.t}
    (history : Turns component.composition turns prover) {e : Challenge} {z : Message}
    (hsecond : (prover.second e).1 = .ok z) :
    ∃ begun mixed input source later,
      Mixed component.composition turns e z begun mixed input source later := by
  obtain ⟨-, mixed, rfl, rfl⟩ := begun_of_second (Prod.ext hsecond rfl)
  have hmixed : mixed.statements = component.composition.statements :=
    (Begun.statements_prover mixed).symm.trans history.statements
  rcases history.pends built with hincomplete | ⟨begun, input, source, later, awaiting, hholds⟩
  · exact (hincomplete.not_begun ⟨mixed, rfl⟩).elim
  have hstates := hholds.states_eq
  refine ⟨begun, mixed, input, source, later, awaiting, hmixed, hstates, rfl, fun hspares => ?_,
    fun verifier laws hverifier hwitness => ?_⟩
  · rw [Turn.foldl_renew_of_spares hspares] at hstates
    exact eq_of_statements_of_states (hmixed.trans awaiting.statements.symm) hstates
  · exact Begun.verify_other_iff laws (awaiting.statements.trans hverifier.symm)
      (hmixed.trans hverifier.symm) awaiting.carries
      (atEach_of_statements awaiting.statements.symm hwitness)

/-- The second call has another shape at the second statement. -/
theorem exists_mixed_pairModulo23 :
    let original : Prover Nat 3 := .pairModulo23 none ()
    let input : ProverInput Nat := .all [.one ⟨18, 3⟩, .one ⟨12, 5⟩]
    let misshapen : ProverInput Nat := .all [.one ⟨18, 3⟩, .all [.one ⟨12, 5⟩]]
    let bytes : Nat → UInt8 := fun i => UInt8.ofNat (37 * i + 5)
    let z : Message := .tuple [.integer 2 1, .integer 3 1]
    let prover := ((original.respond (.first input ⟨bytes, 0⟩)).2.respond
      (.first misshapen ⟨bytes, 8⟩)).2
    (prover.second 5).1 = .ok z ∧
      ∃ begun mixed input' source later,
        Mixed original [⟨.first input ⟨bytes, 0⟩, .ok (.tuple [.element [8], .element [1]])⟩,
          ⟨.first misshapen ⟨bytes, 8⟩, .error (.misshapen .logarithmProverInputExpected)⟩]
          5 z begun mixed input' source later :=
  ⟨rfl, exists_mixed_of_second (Component.built_pairModulo23 none ())
    ((Turns.nil.snoc (.first _ _)).snoc (.first _ _)) rfl⟩

/-- With the right logarithms, the answer after a failed first message is rejected. -/
theorem failed_first_spoils_answer_pairModulo23 :
    let original : Prover Nat 3 := .pairModulo23 none ()
    let verifier : Verifier Nat 3 := .pairModulo23 none none
    let input : ProverInput Nat := .all [.one ⟨18, 3⟩, .one ⟨12, 5⟩]
    let misshapen : ProverInput Nat := .all [.one ⟨18, 3⟩, .all [.one ⟨12, 5⟩]]
    let bytes : Nat → UInt8 := fun i => UInt8.ofNat (37 * i + 5)
    let a : Message := .tuple [.element [8], .element [1]]
    let z : Message := .tuple [.integer 2 1, .integer 3 1]
    Component.Built none () ⟨3, original⟩ ∧ verifier.Lawful ∧
      original.statements = verifier.statements ∧
      original.AtEach (fun params _ item => IsWitness params item) input ∧
      (∃ prover, Turns original [⟨.first input ⟨bytes, 0⟩, .ok a⟩,
        ⟨.first misshapen ⟨bytes, 8⟩, .error (.misshapen .logarithmProverInputExpected)⟩,
        ⟨.second 5, .ok z⟩] prover) ∧
      (verifier.setChallenge 5).verify input.common a z = .ok false :=
  ⟨Component.built_pairModulo23 none (), lawful_pairModulo23 none none, rfl, ⟨rfl, rfl, trivial⟩,
    ⟨_, ((Turns.nil.snoc (.first _ _)).snoc (.first _ _)).snoc (.second 5)⟩, rfl⟩

end Prover

end ThreeMove
