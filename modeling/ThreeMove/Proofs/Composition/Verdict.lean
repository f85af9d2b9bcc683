import ThreeMove.Verifier
import ThreeMove.Proofs.Composition.Begun

/-!
# The verdict on a transcript

What the verifier looks at is a list with one view for each statement.  The verdict exists
exactly when the input and both messages have the shape of the composition, and then it is the
conjunction of the equations of all views under the challenge at the root.
-/

namespace ThreeMove

/-- What the verifier sees at one statement. -/
structure View (E : Type) (t : Nat) where
  params : Parameters E t
  element : E
  first : Bytes
  second : Nat

namespace View

variable {E : Type} {t : Nat}

/-- Both elements are members, and the equation of the statement holds. -/
def Holds (challenge : Challenge) (view : View E t) : Prop :=
  view.params.group.isMember view.element = true ∧
    ∃ a, view.params.group.decode view.first = .ok a ∧ view.params.group.isMember a = true ∧
      view.params.group.pow view.params.group.generator view.second =
        view.params.group.mul a (view.params.group.pow view.element challenge)

def accepts [DecidableEq E] (challenge : Challenge) (view : View E t) : Bool :=
  Verifier.accepts view.params.group view.element view.first challenge view.second

theorem accepts_eq_true_iff [DecidableEq E] {challenge : Challenge} {view : View E t}
    (laws : view.params.group.Lawful) :
    view.accepts challenge = true ↔ view.Holds challenge := by
  unfold accepts Verifier.accepts Holds
  by_cases hmember : view.params.group.isMember view.element = true
  · rw [if_pos hmember]
    cases hdecode : view.params.group.decode view.first with
    | error fault => simp
    | ok a =>
        have ha := (laws.of_decode hdecode).1
        simp [hmember, ha]
  · rw [if_neg hmember]
    simp [hmember]

end View

namespace Composition

variable {E : Type} {t : Nat} {σ ν σ' ν' : Type}

mutual

/-- The views of all statements from left to right, if the input and both messages have the
shape of the composition. -/
def views : Composition E t σ ν → CommonInput E → Message → Message → Option (List (View E t))
  | .one params _, .one h, .element a, .integer z _ => some [⟨params, h, a, z⟩]
  | .all _ _ parts, .all inputs, .tuple firsts, .tuple seconds =>
      viewsAll parts inputs firsts seconds
  | _, _, _, _ => none

def viewsAll : List (Composition E t σ ν) → List (CommonInput E) → List Message →
    List Message → Option (List (View E t))
  | [], [], [], [] => some []
  | part :: parts, input :: inputs, a :: firsts, z :: seconds => do
      let here ← views part input a z
      let others ← viewsAll parts inputs firsts seconds
      return here ++ others
  | _, _, _, _ => none

end

theorem viewsAll_cons_eq_some_iff {part : Composition E t σ ν} {parts : List (Composition E t σ ν)}
    {input : CommonInput E} {inputs : List (CommonInput E)} {a z : Message}
    {firsts seconds : List Message} {vs : List (View E t)} :
    viewsAll (part :: parts) (input :: inputs) (a :: firsts) (z :: seconds) = some vs ↔
      ∃ here others, views part input a z = some here ∧
        viewsAll parts inputs firsts seconds = some others ∧ vs = here ++ others := by
  rw [viewsAll]
  cases views part input a z <;> cases viewsAll parts inputs firsts seconds <;>
    simp [eq_comm]

mutual

theorem views_map (f : σ → σ') (g : ν → ν') : ∀ (c : Composition E t σ ν) (input : CommonInput E)
    (a z : Message), (c.map f g).views input a z = c.views input a z
  | .one _ _, input, a, z => by
      rw [map]
      cases input <;> cases a <;> cases z <;> rfl
  | .all _ _ parts, input, a, z => by
      rw [map]
      cases input <;> cases a <;> cases z <;> first | rfl | exact viewsAll_map f g parts _ _ _

theorem viewsAll_map (f : σ → σ') (g : ν → ν') : ∀ (parts : List (Composition E t σ ν))
    (inputs : List (CommonInput E)) (firsts seconds : List Message),
    viewsAll (mapAll f g parts) inputs firsts seconds = viewsAll parts inputs firsts seconds
  | [], inputs, firsts, seconds => by
      cases inputs <;> cases firsts <;> cases seconds <;> rfl
  | part :: parts, inputs, firsts, seconds => by
      cases inputs <;> cases firsts <;> cases seconds <;> try rfl
      rw [mapAll, viewsAll, viewsAll, views_map f g part, viewsAll_map f g parts]

end

theorem views_of_statements {c : Composition E t σ ν} {c' : Composition E t σ' ν'}
    (hsame : c.statements = c'.statements) (input : CommonInput E) (a z : Message) :
    c.views input a z = c'.views input a z := by
  rw [← views_map (fun _ => ()) (fun _ => ()) c, ← views_map (fun _ => ()) (fun _ => ()) c']
  exact congrArg (fun c => c.views input a z) hsame

theorem length_of_viewsAll : ∀ {parts : List (Composition E t σ ν)} {inputs : List (CommonInput E)}
    {firsts seconds : List Message} {vs : List (View E t)},
    viewsAll parts inputs firsts seconds = some vs →
    inputs.length = parts.length ∧ firsts.length = parts.length ∧ seconds.length = parts.length
  | [], [], [], [], _, _ => ⟨rfl, rfl, rfl⟩
  | _ :: _, _ :: _, _ :: _, _ :: _, _, hviews => by
      obtain ⟨_, _, _, hothers, _⟩ := viewsAll_cons_eq_some_iff.mp hviews
      obtain ⟨hinputs, hfirsts, hseconds⟩ := length_of_viewsAll hothers
      simp [hinputs, hfirsts, hseconds]

mutual

theorem group_mem_of_views : ∀ {c : Composition E t σ ν} {input : CommonInput E} {a z : Message}
    {vs : List (View E t)}, c.views input a z = some vs →
    ∀ view ∈ vs, view.params.group ∈ c.groups
  | .one _ _, .one _, .element _, .integer _ _, _, hviews, view, hview => by
      cases hviews
      cases List.mem_singleton.mp hview
      exact List.mem_singleton.mpr rfl
  | .all _ _ _, .all _, .tuple _, .tuple _, _, hviews, view, hview =>
      List.mem_cons_of_mem _ (group_mem_of_viewsAll hviews view hview)

theorem group_mem_of_viewsAll : ∀ {parts : List (Composition E t σ ν)}
    {inputs : List (CommonInput E)} {firsts seconds : List Message} {vs : List (View E t)},
    viewsAll parts inputs firsts seconds = some vs →
    ∀ view ∈ vs, view.params.group ∈ groupsAll parts
  | [], [], [], [], _, hviews, view, hview => by
      cases hviews
      cases hview
  | _ :: _, _ :: _, _ :: _, _ :: _, _, hviews, view, hview => by
      obtain ⟨here, others, hhere, hothers, rfl⟩ := viewsAll_cons_eq_some_iff.mp hviews
      rcases List.mem_append.mp hview with hview | hview
      · exact List.mem_append_left _ (group_mem_of_views hhere view hview)
      · exact List.mem_append_right _ (group_mem_of_viewsAll hothers view hview)

end

mutual

theorem fits_of_views : ∀ {c : Composition E t σ ν} {input : CommonInput E} {a z : Message}
    {vs : List (View E t)}, c.views input a z = some vs → c.Fits input
  | .one _ _, .one _, .element _, .integer _ _, _, _ => trivial
  | .all _ _ _, .all _, .tuple _, .tuple _, _, hviews => fits_of_viewsAll hviews

theorem fits_of_viewsAll : ∀ {parts : List (Composition E t σ ν)}
    {inputs : List (CommonInput E)} {firsts seconds : List Message} {vs : List (View E t)},
    viewsAll parts inputs firsts seconds = some vs →
    AtEachAll (fun _ _ _ => True) parts inputs
  | [], [], [], [], _, _ => trivial
  | _ :: _, _ :: _, _ :: _, _ :: _, _, hviews => by
      obtain ⟨_, _, hhere, hothers, _⟩ := viewsAll_cons_eq_some_iff.mp hviews
      exact ⟨fits_of_views hhere, fits_of_viewsAll hothers⟩

end

mutual

/-- Messages of the right layouts have views of every input of the right shape. -/
theorem views_of_layouts : ∀ {c : Composition E t σ ν} {input : CommonInput E} {a z : Message},
    c.Fits input → a.layout = c.firstLayout → z.layout = c.secondLayout →
    ∃ vs, c.views input a z = some vs
  | .one _ _, .one _, .element _, .integer _ _, _, _, _ => ⟨_, rfl⟩
  | .all _ _ _, .all _, .tuple _, .tuple _, hfits, hfirst, hsecond =>
      viewsAll_of_layouts hfits (Layout.tuple.inj hfirst) (Layout.tuple.inj hsecond)

theorem viewsAll_of_layouts : ∀ {parts : List (Composition E t σ ν)}
    {inputs : List (CommonInput E)} {firsts seconds : List Message},
    AtEachAll (fun _ _ _ => True) parts inputs → Message.layoutAll firsts = firstLayouts parts →
    Message.layoutAll seconds = secondLayouts parts →
    ∃ vs, viewsAll parts inputs firsts seconds = some vs
  | [], [], [], [], _, _, _ => ⟨_, rfl⟩
  | _ :: _, _ :: _, _ :: _, _ :: _, ⟨hpart, hparts⟩, hfirsts, hseconds => by
      obtain ⟨hfirst, hfirsts⟩ := List.cons.inj hfirsts
      obtain ⟨hsecond, hseconds⟩ := List.cons.inj hseconds
      obtain ⟨here, hhere⟩ := views_of_layouts hpart hfirst hsecond
      obtain ⟨others, hothers⟩ := viewsAll_of_layouts hparts hfirsts hseconds
      exact ⟨here ++ others, viewsAll_cons_eq_some_iff.mpr ⟨here, others, hhere, hothers, rfl⟩⟩

end

end Composition

namespace Verifier

open ThreeMove.Composition

variable {E : Type} {t : Nat} [DecidableEq E]

omit [DecidableEq E] in
theorem held_of_setChallenge (verifier : Verifier E t) (e : Challenge) :
    ∀ held ∈ (verifier.setChallenge e).remembered, held = some e := by
  rw [setChallenge, remembered_map]
  simp

omit [DecidableEq E] in
theorem held_of_clearChallenge (verifier : Verifier E t) :
    ∀ held ∈ verifier.clearChallenge.remembered, held = none := by
  rw [clearChallenge, remembered_map]
  simp

mutual

/-- With the same challenge at every node the verdict is the conjunction over the views. -/
theorem verify_of_views (e : Challenge) : ∀ (verifier : Verifier E t) (input : CommonInput E)
    (a z : Message) {vs : List (View E t)}, verifier.views input a z = some vs →
    (verifier.setChallenge e).verify input a z = .ok (vs.all (View.accepts e))
  | .one params _, .one h, .element a, .integer z size, vs, hviews => by
      cases hviews
      simp [setChallenge, Composition.map, verify, View.accepts]
  | .all params _ parts, .all inputs, .tuple firsts, .tuple seconds, vs, hviews => by
      obtain ⟨hinputs, hfirsts, hseconds⟩ := length_of_viewsAll hviews
      have hlen := length_mapAll (fun _ => some e) (fun _ => some e) parts
      change verify (.all params (some e) (mapAll (fun _ => some e) (fun _ => some e) parts))
        _ _ _ = _
      rw [verify, hlen, if_pos hinputs, components, if_pos hfirsts, components, if_pos hseconds]
      exact verifyAll_of_views e parts inputs firsts seconds hviews

theorem verifyAll_of_views (e : Challenge) : ∀ (parts : List (Verifier E t))
    (inputs : List (CommonInput E)) (firsts seconds : List Message) {vs : List (View E t)},
    viewsAll parts inputs firsts seconds = some vs →
    verifyAll (mapAll (fun _ => some e) (fun _ => some e) parts) inputs firsts seconds =
      .ok (vs.all (View.accepts e))
  | [], [], [], [], vs, hviews => by
      cases hviews
      rfl
  | part :: parts, input :: inputs, a :: firsts, z :: seconds, vs, hviews => by
      obtain ⟨here, others, hhere, hothers, rfl⟩ := viewsAll_cons_eq_some_iff.mp hviews
      have hpart := verify_of_views e part input a z hhere
      have hparts := verifyAll_of_views e parts inputs firsts seconds hothers
      unfold setChallenge at hpart
      rw [mapAll, verifyAll, hpart, hparts, List.all_append]
      rfl

end

mutual

/-- Without views the input or a message is refused for its shape. -/
theorem verify_of_no_views (e : Challenge) : ∀ (verifier : Verifier E t) (input : CommonInput E)
    (a z : Message), verifier.views input a z = none →
    ∃ reason, (verifier.setChallenge e).verify input a z = .error (.misshapen reason)
  | .one params _, .one h, a, z, hviews => by
      cases a <;> cases z <;> first | exact ⟨_, rfl⟩ | cases hviews
  | .one _ _, .all _, _, _, _ => ⟨_, rfl⟩
  | .all _ _ _, .one _, _, _, _ => ⟨_, rfl⟩
  | .all params _ parts, .all inputs, a, z, hviews => by
      have hlen := length_mapAll (fun _ => some e) (fun _ => some e) parts
      change ∃ reason, verify (.all params (some e)
        (mapAll (fun _ => some e) (fun _ => some e) parts)) _ _ _ = _
      rw [verify, hlen]
      by_cases hinputs : inputs.length = parts.length
      · rw [if_pos hinputs]
        cases a with
        | element bytes => exact ⟨_, rfl⟩
        | integer value size => exact ⟨_, rfl⟩
        | tuple firsts =>
            rw [components]
            by_cases hfirsts : firsts.length = parts.length
            · rw [if_pos hfirsts]
              cases z with
              | element bytes => exact ⟨_, rfl⟩
              | integer value size => exact ⟨_, rfl⟩
              | tuple seconds =>
                  rw [components]
                  by_cases hseconds : seconds.length = parts.length
                  · rw [if_pos hseconds]
                    exact verifyAll_of_no_views e parts inputs firsts seconds hinputs hfirsts
                      hseconds hviews
                  · rw [if_neg hseconds]
                    exact ⟨_, rfl⟩
            · rw [if_neg hfirsts]
              exact ⟨_, rfl⟩
      · rw [if_neg hinputs]
        exact ⟨_, rfl⟩

theorem verifyAll_of_no_views (e : Challenge) : ∀ (parts : List (Verifier E t))
    (inputs : List (CommonInput E)) (firsts seconds : List Message),
    inputs.length = parts.length → firsts.length = parts.length →
    seconds.length = parts.length → viewsAll parts inputs firsts seconds = none →
    ∃ reason, verifyAll (mapAll (fun _ => some e) (fun _ => some e) parts) inputs firsts seconds =
      .error (.misshapen reason)
  | [], [], [], [], _, _, _, hviews => by cases hviews
  | part :: parts, input :: inputs, a :: firsts, z :: seconds, hinputs, hfirsts, hseconds,
      hviews => by
      rw [mapAll, verifyAll]
      cases hhere : views part input a z with
      | none =>
          obtain ⟨reason, hreason⟩ := verify_of_no_views e part input a z hhere
          unfold setChallenge at hreason
          rw [hreason]
          exact ⟨reason, rfl⟩
      | some here =>
          have hpart := verify_of_views e part input a z hhere
          unfold setChallenge at hpart
          rw [hpart]
          cases hothers : viewsAll parts inputs firsts seconds with
          | some others =>
              rw [viewsAll, hhere, hothers] at hviews
              cases hviews
          | none =>
              obtain ⟨reason, hreason⟩ := verifyAll_of_no_views e parts inputs firsts seconds
                (Nat.succ.inj hinputs) (Nat.succ.inj hfirsts) (Nat.succ.inj hseconds) hothers
              refine ⟨reason, ?_⟩
              rw [hreason]
              rfl

end

theorem exists_verify_eq_ok (e : Challenge) {verifier : Verifier E t} {input : CommonInput E}
    {first second : Bytes} {a z : Message} (hfits : verifier.Fits input)
    (hfirst : Message.decode verifier.firstLayout first = .ok a)
    (hsecond : Message.decode verifier.secondLayout second = .ok z) :
    ∃ accepted, (verifier.setChallenge e).verify input a z = .ok accepted := by
  obtain ⟨vs, hviews⟩ := views_of_layouts hfits (Message.layout_of_decode hfirst)
    (Message.layout_of_decode hsecond)
  exact ⟨_, verify_of_views e verifier input a z hviews⟩

/-- A transcript is accepted exactly when there are views and all of them hold. -/
theorem verify_eq_true_iff (e : Challenge) {verifier : Verifier E t} (laws : verifier.Lawful)
    {input : CommonInput E} {a z : Message} :
    (verifier.setChallenge e).verify input a z = .ok true ↔
      ∃ vs, verifier.views input a z = some vs ∧ ∀ view ∈ vs, view.Holds e := by
  constructor
  · intro hverify
    cases hviews : verifier.views input a z with
    | none =>
        obtain ⟨reason, hreason⟩ := verify_of_no_views e verifier input a z hviews
        rw [hreason] at hverify
        cases hverify
    | some vs =>
        rw [verify_of_views e verifier input a z hviews] at hverify
        have hall := List.all_eq_true.mp (Except.ok.inj hverify)
        refine ⟨vs, rfl, fun view hview => ?_⟩
        exact (View.accepts_eq_true_iff (laws _ (group_mem_of_views hviews view hview))).mp
          (hall view hview)
  · rintro ⟨vs, hviews, hholds⟩
    rw [verify_of_views e verifier input a z hviews]
    refine congrArg Except.ok (List.all_eq_true.mpr fun view hview => ?_)
    exact (View.accepts_eq_true_iff (laws _ (group_mem_of_views hviews view hview))).mpr
      (hholds view hview)

theorem verify_eq_true_of_views (e : Challenge) {σ ν : Type} {c : Composition E t σ ν}
    {verifier : Verifier E t} (laws : verifier.Lawful) (hsame : c.statements = verifier.statements)
    {input : CommonInput E} {a z : Message} {vs : List (View E t)}
    (hviews : c.views input a z = some vs) :
    (verifier.setChallenge e).verify input a z = .ok true ↔ ∀ view ∈ vs, view.Holds e := by
  rw [verify_eq_true_iff e laws, ← views_of_statements hsame, hviews]
  constructor
  · rintro ⟨_, hvs, hholds⟩
    cases hvs
    exact hholds
  · exact fun hholds => ⟨vs, rfl, hholds⟩

end Verifier

end ThreeMove
