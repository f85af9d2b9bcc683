import ThreeMove.Proofs.Composition.Reached

/-!
# Requests to a prover

A prover is asked for first messages and for answers, in any order.  The statements that are then
pending are some of the first ones from the left, and only when all of them are does an answer
succeed.  A request for an answer leaves none of them pending, unless a conjunction refuses the
challenge as out of range: then the run goes on.
-/

namespace ThreeMove

open ThreeMove.Composition

variable {E : Type} {t : Nat}

/-- What a prover is asked for.  Each first message may draw from a source of its own. -/
inductive Request (E : Type) where
  | first (input : ProverInput E) (source : Source)
  | second (challenge : Challenge)

def Request.layout {σ ν : Type} (request : Request E) (c : Composition E t σ ν) : Layout :=
  match request with
  | .first _ _ => c.firstLayout
  | .second _ => c.secondLayout

theorem Request.layout_statements {σ ν : Type} (request : Request E) (c : Composition E t σ ν) :
    request.layout c.statements = request.layout c := by
  cases request with
  | first input source => exact firstLayout_statements c
  | second e => exact secondLayout_statements c

structure Turn (E : Type) where
  request : Request E
  result : Except SigmaFault Message

namespace Turn

def Begins (turn : Turn E) : Prop :=
  ∃ input source a, turn = ⟨.first input source, .ok a⟩

def Answers (turn : Turn E) : Prop :=
  ∃ e z, turn = ⟨.second e, .ok z⟩

end Turn

namespace Prover

def respond (prover : Prover E t) : Request E → Except SigmaFault Message × Prover E t
  | .first input source => ((prover.first input source).1, (prover.first input source).2.1)
  | .second challenge => prover.second challenge

/-- The prover gets from its start to another state by these turns. -/
inductive Turns (start : Prover E t) : List (Turn E) → Prover E t → Prop where
  | nil : Turns start [] start
  | snoc {turns : List (Turn E)} {prover : Prover E t} (prior : Turns start turns prover)
      (request : Request E) :
      Turns start (turns ++ [⟨request, (prover.respond request).1⟩]) (prover.respond request).2

variable {start prover prover' : Prover E t} {turns : List (Turn E)} {pendings : List Pending}
  {e : Challenge}

theorem statements_respond (prover : Prover E t) (request : Request E) :
    (prover.respond request).2.statements = prover.statements := by
  cases request with
  | first input source => exact statements_first prover input source
  | second challenge => exact statements_second challenge prover

theorem Turns.statements (history : Turns start turns prover) :
    prover.statements = start.statements := by
  induction history with
  | nil => rfl
  | snoc _ request ih => exact (statements_respond _ request).trans ih

/-- Only a prover that has begun a proof answers, and only challenges in range. -/
theorem begun_of_second {z : Message} (hsecond : second prover e = (.ok z, prover')) :
    e < 2 ^ t ∧ ∃ begun : Begun E t, prover = begun.prover ∧ z = begun.answer e := by
  have he : e < 2 ^ t := by
    by_contra hlarge
    have hcheck := Challenge.check_of_le (Nat.not_lt.mp hlarge)
    cases prover with
    | one params state =>
        cases state with
        | none => cases hsecond
        | some pending =>
            rw [second, hcheck] at hsecond
            cases hsecond
    | all params state parts =>
        rw [second, hcheck] at hsecond
        cases hsecond
  refine ⟨he, ?_⟩
  by_cases hgap : none ∈ prover.states
  · obtain ⟨fault, hfault⟩ := (states_second he prover).2 hgap
    rw [hsecond] at hfault
    cases hfault
  · obtain ⟨begun, rfl⟩ := exists_begun_iff.mpr hgap
    rw [second_of_lt he] at hsecond
    cases hsecond
    exact ⟨begun, rfl, rfl⟩

theorem layout_respond {prover : Prover E t} (hsized : ∀ group ∈ prover.groups, group.Sized)
    {request : Request E} {a : Message} (hrespond : (prover.respond request).1 = .ok a) :
    a.layout = request.layout prover := by
  cases request with
  | first input source =>
      generalize hfirst : prover.first input source = outcome
      obtain ⟨result, prover', rest⟩ := outcome
      rw [respond, hfirst] at hrespond
      cases hrespond
      obtain ⟨begun, rfl, rfl, hstatements, -⟩ := begun_of_first _ _ _ hfirst
      rw [← groups_of_statements hstatements] at hsized
      exact (Begun.layout_firstMessage hsized).trans (firstLayout_of_statements hstatements)
  | second e =>
      obtain ⟨-, begun, rfl, rfl⟩ := begun_of_second (Prod.ext hrespond rfl)
      exact (begun.layout_answer e).trans
        (secondLayout_of_statements begun.statements_prover).symm

/-- These are pending at the first statements from the left, and nothing at the others. -/
def Holds (prover : Prover E t) (pendings : List Pending) : Prop :=
  ∃ gaps, prover.states = pendings.map some ++ List.replicate gaps none

def Incomplete (prover : Prover E t) : Prop :=
  ∃ pendings, prover.Holds pendings ∧ pendings.length < prover.states.length

theorem Incomplete.gap (hincomplete : prover.Incomplete) : none ∈ prover.states := by
  obtain ⟨pendings, ⟨gaps, hstates⟩, hlt⟩ := hincomplete
  rw [hstates, List.length_append, List.length_map, List.length_replicate] at hlt
  rw [hstates]
  exact List.mem_append_right _ (List.mem_replicate.mpr ⟨by omega, rfl⟩)

theorem Incomplete.not_begun (hincomplete : prover.Incomplete) :
    ¬ ∃ begun : Begun E t, prover = begun.prover :=
  fun hbegun => exists_begun_iff.mp hbegun hincomplete.gap

theorem states_prover (begun : Begun E t) : begun.prover.states = begun.states.map some := by
  rw [Begun.prover, states_map]

theorem holds_prover (begun : Begun E t) : begun.prover.Holds begun.states :=
  ⟨0, by rw [states_prover, List.replicate_zero, List.append_nil]⟩

theorem Holds.states_eq {begun : Begun E t} (hholds : begun.prover.Holds pendings) :
    begun.states = pendings := by
  obtain ⟨gaps, hstates⟩ := hholds
  rw [states_prover] at hstates
  rcases Nat.eq_zero_or_pos gaps with rfl | hpos
  · rw [List.replicate_zero, List.append_nil] at hstates
    exact List.map_injective_iff.mpr (Option.some_injective _) hstates
  · have hgap : none ∈ begun.states.map some := by
      rw [hstates]
      exact List.mem_append_right _ (List.mem_replicate.mpr ⟨by omega, rfl⟩)
    obtain ⟨_, -, hsome⟩ := List.mem_map.mp hgap
    cases hsome

theorem Holds.incomplete_or_begun (hholds : prover.Holds pendings) :
    prover.Incomplete ∨ ∃ begun : Begun E t, prover = begun.prover := by
  by_cases hgap : none ∈ prover.states
  · obtain ⟨gaps, hstates⟩ := hholds
    refine .inl ⟨pendings, ⟨gaps, hstates⟩, ?_⟩
    rw [hstates, List.mem_append, List.mem_replicate] at hgap
    rw [hstates, List.length_append, List.length_map, List.length_replicate]
    have hgaps : gaps ≠ 0 := (hgap.resolve_left (by simp)).1
    omega
  · exact .inr (exists_begun_iff.mpr hgap)

def renewed (prover : Prover E t) (input : ProverInput E) (source : Source)
    (pendings : List Pending) : List Pending :=
  (opened (prover.reached input) source).1 ++ pendings.drop (prover.reached input).length

theorem length_renewed (prover : Prover E t) (input : ProverInput E) (source : Source)
    (pendings : List Pending) : (prover.renewed input source pendings).length =
      max (prover.reached input).length pendings.length := by
  rw [renewed, List.length_append, length_opened, List.length_drop]
  omega

theorem Holds.first (hholds : prover.Holds pendings) (hpopulated : prover.Populated)
    (input : ProverInput E) (source : Source) :
    (Prover.first prover input source).2.1.Holds (prover.renewed input source pendings) := by
  obtain ⟨gaps, hstates⟩ := hholds
  refine ⟨gaps - ((prover.reached input).length - pendings.length), ?_⟩
  rw [(states_first prover input source hpopulated).2, hstates, List.drop_append,
    List.drop_replicate, List.length_map, ← List.map_drop, renewed, List.map_append,
    List.append_assoc]

/-- A request for an answer to this challenge ends the run: it is in range, or there is only a
single statement. -/
def Spends (prover : Prover E t) (e : Challenge) : Prop :=
  e < 2 ^ t ∨ ∃ params state, prover = .one params state

theorem second_of_not_spends (hkeeps : ¬ prover.Spends e) :
    prover.second e = (.error (.cheating .challengeOutOfRange), prover) := by
  obtain ⟨hlarge, hmany⟩ := not_or.mp hkeeps
  cases prover with
  | one params state => exact (hmany ⟨params, state, rfl⟩).elim
  | all params state parts => rw [second, Challenge.check_of_le (Nat.not_lt.mp hlarge)]

theorem Holds.second (hholds : prover.Holds pendings) (hspends : prover.Spends e) :
    (Prover.second prover e).2.Holds [] := by
  rcases hspends with he | ⟨params, state, rfl⟩
  · have hspend : ∀ gaps, spend (List.replicate gaps none) = List.replicate gaps none := by
      rintro (_ | gaps)
      · rfl
      · exact congrArg (none :: ·) rfl
    obtain ⟨gaps, hstates⟩ := hholds
    refine ⟨pendings.length + gaps, ?_⟩
    rw [(states_second he prover).1, hstates, spend_append_of_no_gap (by simp), hspend,
      List.length_map, List.replicate_append_replicate]
    rfl
  · cases state <;> exact ⟨1, rfl⟩

theorem respond_of_incomplete (hpopulated : prover.Populated) (hincomplete : prover.Incomplete)
    (request : Request E) (hbegins : ¬ Turn.Begins ⟨request, (prover.respond request).1⟩) :
    ¬ Turn.Answers ⟨request, (prover.respond request).1⟩ ∧
      (prover.respond request).2.Incomplete := by
  have hlen := length_states_of_statements (statements_respond prover request)
  constructor
  · rintro ⟨e, z, hturn⟩
    obtain ⟨rfl, hresult⟩ := Turn.mk.inj hturn
    obtain ⟨-, begun, hbegun, -⟩ := begun_of_second (Prod.ext hresult rfl)
    exact hincomplete.not_begun ⟨begun, hbegun⟩
  · obtain ⟨pendings, hholds, hlt⟩ := hincomplete
    cases request with
    | first input source =>
        -- A call that fails does not reach the last statement, where nothing was pending before.
        have hmisfit : ¬ prover.Fits input := by
          intro hfits
          obtain ⟨a, _, _, hfirst⟩ := first_of_fits prover input source hfits
          exact hbegins ⟨input, source, a, by rw [respond, hfirst]⟩
        refine ⟨_, hholds.first hpopulated input source, ?_⟩
        rw [hlen, length_renewed]
        exact max_lt (length_reached_lt hpopulated hmisfit) hlt
    | second e =>
        by_cases hspends : prover.Spends e
        · refine ⟨[], hholds.second hspends, ?_⟩
          rw [hlen]
          exact states_length_pos hpopulated
        · rw [respond, second_of_not_spends hspends]
          exact ⟨pendings, hholds, hlt⟩

theorem Turns.incomplete (history : Turns start turns prover) (hpopulated : start.Populated)
    (hincomplete : start.Incomplete) (hbegins : ∀ turn ∈ turns, ¬ turn.Begins) :
    prover.Incomplete ∧ ∀ turn ∈ turns, ¬ turn.Answers := by
  induction history with
  | nil => exact ⟨hincomplete, nofun⟩
  | @snoc turns prover prior request ih =>
      obtain ⟨hearlier, hlast⟩ := List.forall_mem_append.mp hbegins
      obtain ⟨hreached, hsilent⟩ := ih hearlier
      obtain ⟨hanswer, hnext⟩ := respond_of_incomplete
        (populated_of_statements prior.statements.symm hpopulated) hreached request
        (hlast _ (List.mem_singleton.mpr rfl))
      refine ⟨hnext, List.forall_mem_append.mpr ⟨hsilent, fun turn hturn => ?_⟩⟩
      rw [List.mem_singleton.mp hturn]
      exact hanswer

theorem holds_of_built {component : Component E (Option Pending) Unit}
    (built : component.Built none ()) : Prover.Holds component.composition [] :=
  ⟨_, List.eq_replicate_iff.mpr ⟨rfl, built.state_eq⟩⟩

/-- Whatever is asked for, the pending statements are the first ones from the left. -/
theorem Turns.holds (history : Turns start turns prover) (hpopulated : start.Populated)
    (hholds : start.Holds pendings) : ∃ pendings, prover.Holds pendings := by
  induction history with
  | nil => exact ⟨pendings, hholds⟩
  | @snoc turns prover prior request ih =>
      obtain ⟨pendings, hholds⟩ := ih
      cases request with
      | first input source =>
          have hpopulated := populated_of_statements prior.statements.symm hpopulated
          exact ⟨_, hholds.first hpopulated input source⟩
      | second e =>
          by_cases hspends : prover.Spends e
          · exact ⟨[], hholds.second hspends⟩
          · rw [respond, second_of_not_spends hspends]
            exact ⟨pendings, hholds⟩

/-- After a request for an answer no further one succeeds before the next first message, exactly if
the challenge was in range, or there is only a single statement, or no proof was begun.  In all
other cases the request is refused and leaves the prover as it was. -/
theorem second_ends_run_iff {component : Component E (Option Pending) Unit}
    (built : component.Built none ()) {earlier : List (Turn E)} {prover : Prover E component.t}
    (history : Turns component.composition earlier prover) (e : Challenge) :
    ((∀ {later : List (Turn E)} {prover' : Prover E component.t},
        Turns (prover.second e).2 later prover' → (∀ turn ∈ later, ¬ turn.Begins) →
        ∀ turn ∈ later, ¬ turn.Answers) ↔
      prover.Spends e ∨ ¬ ∃ begun : Begun E component.t, prover = begun.prover) ∧
    (¬ prover.Spends e →
      prover.second e = (.error (.cheating .challengeOutOfRange), prover)) := by
  refine ⟨⟨fun hends => ?_, fun hcase => ?_⟩, second_of_not_spends⟩
  · by_contra hgoes
    obtain ⟨hkeeps, hbegun⟩ := not_or.mp hgoes
    obtain ⟨begun, rfl⟩ := not_not.mp hbegun
    rw [second_of_not_spends hkeeps] at hends
    -- Everything is still pending, so the next challenge in range is answered.
    refine hends (Turns.nil.snoc (.second 0)) ?_ ⟨.second 0, .ok (begun.answer 0)⟩ ?_ ⟨0, _, rfl⟩
    · rintro turn hturn ⟨_, _, _, rfl⟩
      cases List.mem_singleton.mp hturn
    · rw [List.nil_append, List.mem_singleton, respond, second_of_lt (Nat.two_pow_pos _)]
  · intro later prover' hlater hbegins
    have hpopulated := populated_of_statements history.statements.symm built.populated
    obtain ⟨pendings, hholds⟩ := history.holds built.populated (holds_of_built built)
    have hsame : (prover.second e).2.statements = prover.statements :=
      statements_second e prover
    have hpopulated' := populated_of_statements hsame.symm hpopulated
    have hincomplete : (prover.second e).2.Incomplete := by
      by_cases hspends : prover.Spends e
      · exact ⟨[], hholds.second hspends, states_length_pos hpopulated'⟩
      · rw [second_of_not_spends hspends]
        exact hholds.incomplete_or_begun.resolve_right (hcase.resolve_left hspends)
    exact (hlater.incomplete hpopulated' hincomplete hbegins).2

/-- The challenge 5 ends the run, and 8 is refused. -/
theorem second_ends_run_pairModulo23 :
    let original : Prover Nat 3 := .pairModulo23 none ()
    let input : ProverInput Nat := .all [.one ⟨18, 3⟩, .one ⟨12, 5⟩]
    let source : Source := ⟨fun i => UInt8.ofNat (37 * i + 5), 0⟩
    let prover := (original.respond (.first input source)).2
    (∀ {later : List (Turn Nat)} {prover' : Prover Nat 3},
      Turns (prover.second 5).2 later prover' → (∀ turn ∈ later, ¬ turn.Begins) →
      ∀ turn ∈ later, ¬ turn.Answers) ∧
    prover.second 8 = (.error (.cheating .challengeOutOfRange), prover) := by
  intro original input source prover
  have built := Component.built_pairModulo23 (none : Option Pending) ()
  have history : Turns original _ prover := Turns.nil.snoc (.first input source)
  have hmany : ∃ params parts, prover = .all params () parts := ⟨_, _, rfl⟩
  have hkeeps : ¬ prover.Spends 8 := by
    rintro (hlarge | ⟨params, state, hsingle⟩)
    · exact absurd hlarge (by decide)
    · obtain ⟨_, _, hall⟩ := hmany
      cases hall.symm.trans hsingle
  have hrange : prover.Spends 5 := .inl (by decide)
  obtain ⟨hends, -⟩ := second_ends_run_iff built history 5
  exact ⟨hends.mpr (.inl hrange), (second_ends_run_iff built history 8).2 hkeeps⟩

/-- A conjunction that has refused a challenge answers the next one. -/
theorem refused_challenge_answered_pairModulo23 :
    let original : Prover Nat 3 := .pairModulo23 none ()
    let input : ProverInput Nat := .all [.one ⟨18, 3⟩, .one ⟨12, 5⟩]
    let source : Source := ⟨fun i => UInt8.ofNat (37 * i + 5), 0⟩
    Component.Built none () ⟨3, original⟩ ∧
      ∃ prover, Turns original [⟨.first input source, .ok (.tuple [.element [8], .element [1]])⟩,
        ⟨.second 8, .error (.cheating .challengeOutOfRange)⟩,
        ⟨.second 5, .ok (.tuple [.integer 0 1, .integer 3 1])⟩] prover :=
  ⟨Component.built_pairModulo23 none (), _,
    ((Turns.nil.snoc (.first _ _)).snoc (.second 8)).snoc (.second 5)⟩

end Prover

end ThreeMove
