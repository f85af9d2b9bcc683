import ThreeMove.Proofs.Composition.Draws

/-!
# Messages about draws

A message that tells something of each draw.  The answers tell the draws themselves: they are
the messages of the second layout whose integers are all below the orders.
-/

namespace ThreeMove

namespace Composition

variable {E : Type} {t : Nat} {σ ν σ' ν' α β : Type}

mutual

/-- The message that tells `f` of the item and the draw at each statement. -/
def compose (f : Parameters E t → α → Nat → Message) :
    Composition E t σ ν → Input α → Input Nat → Message
  | one params _, .one item, .one n => f params item n
  | all _ _ parts, .all inputs, .all draws => .tuple (composeAll f parts inputs draws)
  | _, _, _ => .tuple []

def composeAll (f : Parameters E t → α → Nat → Message) :
    List (Composition E t σ ν) → List (Input α) → List (Input Nat) → List Message
  | part :: parts, input :: inputs, draw :: draws =>
      compose f part input draw :: composeAll f parts inputs draws
  | _, _, _ => []

end

mutual

theorem compose_shift {f : Parameters E t → α → Nat → Message}
    {g : Parameters E t → β → Nat → Message} {k : Parameters E t → α → Nat} (h : α → β) :
    ∀ {c : Composition E t σ ν} {input : Input α} {draws : Input Nat},
    c.AtEach (fun params _ item => ∀ n, g params (h item) ((n + k params item) %
      params.group.order) = f params item n) input → c.IsDraw draws →
    c.statements.compose g (input.map h) (c.shift k input draws) = c.compose f input draws
  | one _ _, .one _, .one n, hsame, _ => hsame n
  | all _ _ _, .all _, .all _, hsame, hdraw =>
      congrArg Message.tuple (composeAll_shiftAll h hsame hdraw)

theorem composeAll_shiftAll {f : Parameters E t → α → Nat → Message}
    {g : Parameters E t → β → Nat → Message} {k : Parameters E t → α → Nat} (h : α → β) :
    ∀ {parts : List (Composition E t σ ν)} {inputs : List (Input α)} {draws : List (Input Nat)},
    AtEachAll (fun params _ item => ∀ n, g params (h item) ((n + k params item) %
      params.group.order) = f params item n) parts inputs → IsDrawAll parts draws →
    composeAll g (mapAll (fun _ => ()) (fun _ => ()) parts) (Input.mapAll h inputs)
      (shiftAll k parts inputs draws) = composeAll f parts inputs draws
  | [], [], [], _, _ => rfl
  | _ :: _, _ :: _, _ :: _, ⟨hsame, hsames⟩, ⟨hdraw, hdraws⟩ =>
      congrArg₂ List.cons (compose_shift h hsame hdraw) (composeAll_shiftAll h hsames hdraws)

end

abbrev answerOf (params : Parameters E t) (_ : α) (z : Nat) : Message :=
  .integer z params.group.scalarSize

mutual

theorem draws_of_answers : ∀ {c : Composition E t σ ν} {input : Input α} {draws draws' : Input Nat},
    c.Fits input → c.IsDraw draws → c.IsDraw draws' →
    c.compose answerOf input draws = c.compose answerOf input draws' → draws = draws'
  | one _ _, .one _, .one _, .one _, _, _, _, hanswers => by
      cases hanswers
      rfl
  | all _ _ _, .all _, .all _, .all _, hfits, hdraw, hdraw', hanswers =>
      congrArg Input.all (draws_of_answersAll hfits hdraw hdraw' (Message.tuple.inj hanswers))

theorem draws_of_answersAll : ∀ {parts : List (Composition E t σ ν)} {inputs : List (Input α)}
    {draws draws' : List (Input Nat)}, AtEachAll (fun _ _ _ => True) parts inputs →
    IsDrawAll parts draws → IsDrawAll parts draws' →
    composeAll answerOf parts inputs draws = composeAll answerOf parts inputs draws' →
    draws = draws'
  | [], [], [], [], _, _, _, _ => rfl
  | _ :: _, _ :: _, _ :: _, _ :: _, ⟨hpart, hparts⟩, ⟨hdraw, hdraws⟩, ⟨hdraw', hdraws'⟩,
      hanswers => by
      obtain ⟨hhere, hothers⟩ := List.cons.inj hanswers
      rw [draws_of_answers hpart hdraw hdraw' hhere,
        draws_of_answersAll hparts hdraws hdraws' hothers]

end

mutual

/-- Every integer of the message is below the order of its statement. -/
def Reduced : Composition E t σ ν → Message → Prop
  | one params _, .integer z _ => z < params.group.order
  | all _ _ parts, .tuple seconds => ReducedAll parts seconds
  | _, _ => False

def ReducedAll : List (Composition E t σ ν) → List Message → Prop
  | [], [] => True
  | part :: parts, z :: seconds => Reduced part z ∧ ReducedAll parts seconds
  | _, _ => False

end

mutual

/-- Reduced messages of the right layout are what can be drawn as answers. -/
theorem exists_draws_of_reduced : ∀ {c : Composition E t σ ν} {input : Input α} {z : Message},
    c.Fits input → z.layout = c.secondLayout → c.Reduced z →
    ∃ draws, c.IsDraw draws ∧ c.compose answerOf input draws = z
  | one _ _, .one _, .integer z _, _, hlayout, hreduced => by
      cases hlayout
      exact ⟨.one z, hreduced, rfl⟩
  | all _ _ _, .all _, .tuple _, hfits, hlayout, hreduced => by
      obtain ⟨draws, hdraw, hanswers⟩ :=
        exists_draws_of_reducedAll hfits (Layout.tuple.inj hlayout) hreduced
      exact ⟨.all draws, hdraw, congrArg Message.tuple hanswers⟩

theorem exists_draws_of_reducedAll : ∀ {parts : List (Composition E t σ ν)}
    {inputs : List (Input α)} {seconds : List Message},
    AtEachAll (fun _ _ _ => True) parts inputs →
    Message.layoutAll seconds = secondLayouts parts → ReducedAll parts seconds →
    ∃ draws, IsDrawAll parts draws ∧ composeAll answerOf parts inputs draws = seconds
  | [], [], [], _, _, _ => ⟨[], trivial, rfl⟩
  | _ :: _, _ :: _, _ :: _, ⟨hpart, hparts⟩, hlayout, ⟨hreduced, hreduceds⟩ => by
      obtain ⟨hhere, hothers⟩ := List.cons.inj hlayout
      obtain ⟨draw, hdraw, hanswer⟩ := exists_draws_of_reduced hpart hhere hreduced
      obtain ⟨draws, hdraws, hanswers⟩ := exists_draws_of_reducedAll hparts hothers hreduceds
      exact ⟨draw :: draws, ⟨hdraw, hdraws⟩, congrArg₂ List.cons hanswer hanswers⟩

end

mutual

theorem reduced_map (f : σ → σ') (g : ν → ν') : ∀ {c : Composition E t σ ν} {z : Message},
    (c.map f g).Reduced z ↔ c.Reduced z
  | one _ _, .element _ => Iff.rfl
  | one _ _, .integer _ _ => Iff.rfl
  | one _ _, .tuple _ => Iff.rfl
  | all _ _ _, .element _ => Iff.rfl
  | all _ _ _, .integer _ _ => Iff.rfl
  | all _ _ _, .tuple _ => reducedAll_map f g

theorem reducedAll_map (f : σ → σ') (g : ν → ν') : ∀ {parts : List (Composition E t σ ν)}
    {seconds : List Message}, ReducedAll (mapAll f g parts) seconds ↔ ReducedAll parts seconds
  | [], [] => Iff.rfl
  | [], _ :: _ => Iff.rfl
  | _ :: _, [] => Iff.rfl
  | _ :: _, _ :: _ => and_congr (reduced_map f g) (reducedAll_map f g)

end

theorem reduced_of_statements {c : Composition E t σ ν} {c' : Composition E t σ' ν'}
    {z : Message} (hsame : c.statements = c'.statements) (hreduced : c.Reduced z) :
    c'.Reduced z := by
  have hstatements : c.statements.Reduced z := (reduced_map _ _).mpr hreduced
  rw [hsame] at hstatements
  exact (reduced_map _ _).mp hstatements

mutual

theorem reduced_answers : ∀ {c : Composition E t σ ν} {input : Input α} {draws : Input Nat},
    c.Fits input → c.IsDraw draws → c.Reduced (c.compose answerOf input draws)
  | one _ _, .one _, .one _, _, hdraw => hdraw
  | all _ _ _, .all _, .all _, hfits, hdraw => reducedAll_answers hfits hdraw

theorem reducedAll_answers : ∀ {parts : List (Composition E t σ ν)} {inputs : List (Input α)}
    {draws : List (Input Nat)}, AtEachAll (fun _ _ _ => True) parts inputs →
    IsDrawAll parts draws → ReducedAll parts (composeAll answerOf parts inputs draws)
  | [], [], [], _, _ => trivial
  | _ :: _, _ :: _, _ :: _, ⟨hpart, hparts⟩, ⟨hdraw, hdraws⟩ =>
      ⟨reduced_answers hpart hdraw, reducedAll_answers hparts hdraws⟩

end

end Composition

end ThreeMove
