import ThreeMove.Proofs.Composition.Begun
import ThreeMove.Proofs.Composition.Built

/-!
# How far a move gets

A call for a first message goes through the statements from left to right, and stops where its
input has another shape.  A call for an answer uses up the statements that are pending, and stops
where one is not.  So both are told by the list of what is pending at the statements.
-/

namespace ThreeMove

namespace Composition

variable {E : Type} {t : Nat} {σ ν σ' ν' α : Type}

mutual

def decidableAtEach (P : Parameters E t → σ → α → Prop)
    [∀ params state item, Decidable (P params state item)] :
    ∀ (c : Composition E t σ ν) (input : Input α), Decidable (c.AtEach P input)
  | one params state, .one item => inferInstanceAs (Decidable (P params state item))
  | one _ _, .all _ => isFalse id
  | all _ _ _, .one _ => isFalse id
  | all _ _ parts, .all inputs => decidableAtEachAll P parts inputs

def decidableAtEachAll (P : Parameters E t → σ → α → Prop)
    [∀ params state item, Decidable (P params state item)] :
    ∀ (parts : List (Composition E t σ ν)) (inputs : List (Input α)),
      Decidable (AtEachAll P parts inputs)
  | [], [] => isTrue trivial
  | [], _ :: _ => isFalse id
  | _ :: _, [] => isFalse id
  | part :: parts, input :: inputs =>
      have := decidableAtEach P part input
      have := decidableAtEachAll P parts inputs
      inferInstanceAs (Decidable (AtEach P part input ∧ AtEachAll P parts inputs))

end

instance (c : Composition E t σ ν) (input : Input α) : Decidable (c.Fits input) :=
  decidableAtEach (fun _ _ _ => True) c input

mutual

/-- The statements with their items, from left to right, up to the first part of the input that
has another shape than the composition. -/
def reached : Composition E t σ ν → Input α → List (Parameters E t × α)
  | one params _, .one item => [(params, item)]
  | all _ _ parts, .all inputs =>
      if parts.length = inputs.length then reachedAll parts inputs else []
  | one _ _, .all _ => []
  | all _ _ _, .one _ => []

def reachedAll : List (Composition E t σ ν) → List (Input α) → List (Parameters E t × α)
  | part :: parts, input :: inputs =>
      part.reached input ++ if part.Fits input then reachedAll parts inputs else []
  | [], _ => []
  | _ :: _, [] => []

end

mutual

theorem reached_map (f : σ → σ') (g : ν → ν') : ∀ (c : Composition E t σ ν) (input : Input α),
    (c.map f g).reached input = c.reached input
  | one _ _, .one _ => rfl
  | one _ _, .all _ => rfl
  | all _ _ _, .one _ => rfl
  | all _ _ parts, .all inputs => by
      rw [map, reached, reached, length_mapAll, reachedAll_map f g parts inputs]

theorem reachedAll_map (f : σ → σ') (g : ν → ν') : ∀ (parts : List (Composition E t σ ν))
    (inputs : List (Input α)), reachedAll (mapAll f g parts) inputs = reachedAll parts inputs
  | [], _ => rfl
  | _ :: _, [] => rfl
  | part :: parts, input :: inputs => by
      have hfits : (part.map f g).Fits input ↔ part.Fits input := atEach_map f g part input
      rw [mapAll, reachedAll, reachedAll, reached_map f g part, reachedAll_map f g parts]
      simp only [hfits]

end

theorem reached_of_statements {c : Composition E t σ ν} {c' : Composition E t σ' ν'}
    (hsame : c.statements = c'.statements) (input : Input α) :
    c.reached input = c'.reached input := by
  rw [← reached_map (fun _ => ()) (fun _ => ()) c, ← reached_map (fun _ => ()) (fun _ => ()) c']
  exact congrArg (fun c => c.reached input) hsame

mutual

theorem length_reached_of_fits : ∀ {c : Composition E t σ ν} {input : Input α},
    c.Fits input → (c.reached input).length = c.states.length
  | one _ _, .one _, _ => rfl
  | all _ _ _, .all _, hfits => by
      rw [reached, if_pos (length_of_atEachAll hfits)]
      exact length_reachedAll_of_fits hfits

theorem length_reachedAll_of_fits : ∀ {parts : List (Composition E t σ ν)}
    {inputs : List (Input α)}, AtEachAll (fun _ _ _ => True) parts inputs →
    (reachedAll parts inputs).length = (statesAll parts).length
  | [], [], _ => rfl
  | part :: parts, input :: inputs, ⟨hpart, hparts⟩ => by
      have hfits : part.Fits input := hpart
      rw [reachedAll, if_pos hfits, statesAll, List.length_append, List.length_append,
        length_reached_of_fits hpart, length_reachedAll_of_fits hparts]

end

mutual

theorem length_reached_lt : ∀ {c : Composition E t σ ν} {input : Input α},
    c.Populated → ¬ c.Fits input → (c.reached input).length < c.states.length
  | one _ _, .one _, _, hmisfit => (hmisfit trivial).elim
  | one _ _, .all _, _, _ => Nat.one_pos
  | all _ _ _, .one _, hpopulated, _ => states_length_pos hpopulated
  | all params state parts, .all inputs, hpopulated, hmisfit => by
      rw [reached]
      split
      · next hlen => exact length_reachedAll_lt hlen hpopulated.2 hmisfit
      · exact states_length_pos (c := all params state parts) hpopulated

theorem length_reachedAll_lt : ∀ {parts : List (Composition E t σ ν)} {inputs : List (Input α)},
    parts.length = inputs.length → PopulatedAll parts →
    ¬ AtEachAll (fun _ _ _ => True) parts inputs →
    (reachedAll parts inputs).length < (statesAll parts).length
  | [], [], _, _, hmisfit => (hmisfit trivial).elim
  | [], _ :: _, hlen, _, _ => by cases hlen
  | _ :: _, [], hlen, _, _ => by cases hlen
  | part :: parts, input :: inputs, hlen, ⟨hpart, hparts⟩, hmisfit => by
      rw [reachedAll, statesAll, List.length_append, List.length_append]
      by_cases hfits : part.Fits input
      · have hothers := length_reachedAll_lt (Nat.succ.inj hlen) hparts
          fun hall => hmisfit ⟨hfits, hall⟩
        rw [if_pos hfits, length_reached_of_fits hfits]
        omega
      · have hhere := length_reached_lt hpart hfits
        rw [if_neg hfits, List.length_nil]
        omega

end

end Composition

namespace Prover

open ThreeMove.Composition

variable {E : Type} {t : Nat}

def opened : List (Parameters E t × Witnessed E) → Source → List Pending × Source
  | [], source => ([], source)
  | (params, item) :: others, source =>
      let (nonce, rest) := source.below params.group.order
      let (pendings, rest) := opened others rest
      (⟨nonce, item.logarithm⟩ :: pendings, rest)

theorem length_opened (items : List (Parameters E t × Witnessed E)) (source : Source) :
    (opened items source).1.length = items.length := by
  induction items generalizing source with
  | nil => rfl
  | cons item items ih => exact congrArg Nat.succ (ih _)

theorem opened_append (front back : List (Parameters E t × Witnessed E)) (source : Source) :
    opened (front ++ back) source =
      ((opened front source).1 ++ (opened back (opened front source).2).1,
        (opened back (opened front source).2).2) := by
  induction front generalizing source with
  | nil => rfl
  | cons item front ih =>
      obtain ⟨params, item⟩ := item
      rw [List.cons_append, opened, opened]
      generalize source.below params.group.order = drawn
      obtain ⟨nonce, rest⟩ := drawn
      dsimp only
      rw [ih]
      rfl

theorem fits_of_first {prover prover' : Prover E t} {input : ProverInput E} {source rest : Source}
    {a : Message} (hfirst : first prover input source = (.ok a, prover', rest)) :
    prover.Fits input := by
  obtain ⟨begun, -, -, hsame, hcarries⟩ := begun_of_first prover input source hfirst
  exact fits_of_statements hsame hcarries.fits

mutual

/-- A call for a first message renews what is pending at the statements that it reaches, whether
it succeeds or not. -/
theorem states_first : ∀ (prover : Prover E t) (input : ProverInput E) (source : Source),
    prover.Populated →
    (first prover input source).2.2 = (opened (prover.reached input) source).2 ∧
      (first prover input source).2.1.states =
        (opened (prover.reached input) source).1.map some ++
          prover.states.drop (prover.reached input).length
  | .one _ _, .one _, _, _ => ⟨rfl, rfl⟩
  | .one _ _, .all _, _, _ => ⟨rfl, rfl⟩
  | .all _ _ _, .one _, _, _ => ⟨rfl, rfl⟩
  | .all params state parts, .all inputs, source, hpopulated => by
      rw [first, reached]
      split
      · next hlen => exact states_firstAll parts inputs source hlen hpopulated.2
      · exact ⟨rfl, rfl⟩

theorem states_firstAll : ∀ (parts : List (Prover E t)) (inputs : List (ProverInput E))
    (source : Source), parts.length = inputs.length → PopulatedAll parts →
    (firstAll parts inputs source).2.2 = (opened (reachedAll parts inputs) source).2 ∧
      statesAll (firstAll parts inputs source).2.1 =
        (opened (reachedAll parts inputs) source).1.map some ++
          (statesAll parts).drop (reachedAll parts inputs).length
  | [], [], _, _, _ => ⟨rfl, rfl⟩
  | [], _ :: _, _, hlen, _ => by cases hlen
  | _ :: _, [], _, hlen, _ => by cases hlen
  | part :: parts, input :: inputs, source, hlen, ⟨hpopulated, hothers⟩ => by
      obtain ⟨hrest, hstates⟩ := states_first part input source hpopulated
      rw [firstAll, reachedAll]
      by_cases hfits : part.Fits input
      · obtain ⟨a, part', rest, hfirst⟩ := first_of_fits part input source hfits
        rw [hfirst] at hrest hstates ⊢
        obtain ⟨hrests, hstatesAll⟩ := states_firstAll parts inputs rest (Nat.succ.inj hlen) hothers
        dsimp only at hrest hstates ⊢
        rw [if_pos hfits, opened_append, ← hrest, statesAll, statesAll, hstates, hstatesAll,
          List.length_append, length_reached_of_fits hfits, List.drop_length_add_append,
          List.drop_length]
        simp [hrests]
      · have hlt := length_reached_lt hpopulated hfits
        rw [if_neg hfits, List.append_nil]
        generalize houtcome : first part input source = outcome at hrest hstates ⊢
        obtain ⟨result, part', rest⟩ := outcome
        cases result with
        | ok a => exact (hfits (fits_of_first houtcome)).elim
        | error e =>
            dsimp only at hrest hstates ⊢
            rw [statesAll, statesAll, hstates, List.drop_append_of_le_length (Nat.le_of_lt hlt),
              List.append_assoc]
            exact ⟨hrest, rfl⟩

end

/-- Nothing is left of the entries in front of the first gap. -/
def spend : List (Option Pending) → List (Option Pending)
  | some _ :: states => none :: spend states
  | none :: states => none :: states
  | [] => []

theorem spend_append_of_no_gap {front : List (Option Pending)} (hgap : none ∉ front)
    (back : List (Option Pending)) :
    spend (front ++ back) = List.replicate front.length none ++ spend back := by
  induction front with
  | nil => rfl
  | cons state front ih =>
      cases state with
      | none => exact (hgap List.mem_cons_self).elim
      | some pending =>
          exact congrArg (none :: ·) (ih fun hfront => hgap (List.mem_cons_of_mem _ hfront))

theorem spend_append_of_gap {front : List (Option Pending)} (hgap : none ∈ front)
    (back : List (Option Pending)) : spend (front ++ back) = spend front ++ back := by
  induction front with
  | nil => cases hgap
  | cons state front ih =>
      cases state with
      | none => rfl
      | some pending =>
          have hfront : none ∈ front := by simpa using hgap
          exact congrArg (none :: ·) (ih hfront)

mutual

/-- A prover that has something pending at every statement has begun a proof. -/
theorem exists_begun_iff : ∀ {prover : Prover E t},
    (∃ begun : Begun E t, prover = begun.prover) ↔ none ∉ prover.states
  | .one params none => by
      refine iff_of_false ?_ (not_not_intro (List.mem_singleton.mpr rfl))
      rintro ⟨_ | _, hbegun⟩ <;> cases hbegun
  | .one params (some pending) => by
      refine iff_of_true ⟨.one params pending, rfl⟩ fun hgap => ?_
      cases List.mem_singleton.mp hgap
  | .all params () parts => by
      rw [states, ← exists_begunAll_iff]
      constructor
      · rintro ⟨_ | ⟨_, _, begun⟩, hbegun⟩
        · cases hbegun
        · exact ⟨begun, (Composition.all.inj hbegun).2.2⟩
      · rintro ⟨begun, rfl⟩
        exact ⟨.all params () begun, rfl⟩

theorem exists_begunAll_iff : ∀ {parts : List (Prover E t)},
    (∃ begun : List (Begun E t), parts = mapAll some id begun) ↔ none ∉ statesAll parts
  | [] => iff_of_true ⟨[], rfl⟩ List.not_mem_nil
  | part :: parts => by
      rw [statesAll, List.mem_append, not_or, ← exists_begun_iff, ← exists_begunAll_iff]
      constructor
      · rintro ⟨_ | ⟨begun, others⟩, hbegun⟩
        · cases hbegun
        · obtain ⟨hpart, hparts⟩ := List.cons.inj hbegun
          exact ⟨⟨begun, hpart⟩, others, hparts⟩
      · rintro ⟨⟨begun, rfl⟩, others, rfl⟩
        exact ⟨begun :: others, rfl⟩

end

mutual

/-- An answer to a challenge in range uses up what is pending before the first gap, and where
there is a gap it fails. -/
theorem states_second {e : Challenge} (he : e < 2 ^ t) : ∀ prover : Prover E t,
    (second prover e).2.states = spend prover.states ∧
      (none ∈ prover.states → ∃ fault, (second prover e).1 = .error fault)
  | .one _ none => ⟨rfl, fun _ => ⟨_, rfl⟩⟩
  | .one _ (some _) => ⟨rfl, nofun⟩
  | .all params state parts => by
      obtain ⟨hstates, hfault⟩ := states_secondAll he parts
      rw [second, Challenge.check_of_lt he]
      refine ⟨hstates, fun hgap => ?_⟩
      obtain ⟨fault, hsecond⟩ := hfault hgap
      exact ⟨fault, congrArg (Except.map _) hsecond⟩

theorem states_secondAll {e : Challenge} (he : e < 2 ^ t) : ∀ parts : List (Prover E t),
    statesAll (secondAll parts e).2 = spend (statesAll parts) ∧
      (none ∈ statesAll parts → ∃ fault, (secondAll parts e).1 = .error fault)
  | [] => ⟨rfl, nofun⟩
  | part :: parts => by
      obtain ⟨hstates, hfault⟩ := states_second he part
      obtain ⟨hstatesAll, hfaultAll⟩ := states_secondAll he parts
      rw [secondAll]
      by_cases hgap : none ∈ part.states
      · obtain ⟨fault, hsecond⟩ := hfault hgap
        generalize second part e = outcome at hstates hsecond ⊢
        obtain ⟨result, part'⟩ := outcome
        cases hsecond
        dsimp only at hstates ⊢
        rw [statesAll, statesAll, hstates, spend_append_of_gap hgap]
        exact ⟨rfl, fun _ => ⟨fault, rfl⟩⟩
      · obtain ⟨begun, rfl⟩ := exists_begun_iff.mpr hgap
        rw [second_of_lt he begun] at hstates ⊢
        dsimp only at hstates ⊢
        have hspent := spend_append_of_no_gap hgap []
        rw [List.append_nil] at hspent
        rw [statesAll, statesAll, hstates, hstatesAll, spend_append_of_no_gap hgap, hspent]
        refine ⟨by simp [spend], fun hgaps => ?_⟩
        obtain ⟨fault, hsecond⟩ := hfaultAll ((List.mem_append.mp hgaps).resolve_left hgap)
        rw [hsecond]
        exact ⟨fault, rfl⟩

end

end Prover

end ThreeMove
