import ThreeMove.Proofs.Composition.Statements
import ThreeMove.Proofs.Parameters

/-!
# Compositions that can be built

The constructors give every conjunction a component, and a new composition remembers at each
statement what the statements were made with.
-/

namespace ThreeMove

variable {E σ ν : Type}

namespace Composition

variable {t : Nat} {σ' ν' : Type}

mutual

def Populated : Composition E t σ ν → Prop
  | one _ _ => True
  | all _ _ parts => parts ≠ [] ∧ PopulatedAll parts

def PopulatedAll : List (Composition E t σ ν) → Prop
  | [] => True
  | part :: parts => part.Populated ∧ PopulatedAll parts

end

mutual

def states : Composition E t σ ν → List σ
  | one _ state => [state]
  | all _ _ parts => statesAll parts

def statesAll : List (Composition E t σ ν) → List σ
  | [] => []
  | part :: parts => part.states ++ statesAll parts

end

mutual

theorem populated_map (f : σ → σ') (g : ν → ν') :
    ∀ c : Composition E t σ ν, (c.map f g).Populated ↔ c.Populated
  | one _ _ => Iff.rfl
  | all _ _ [] => iff_of_false (fun hparts => hparts.1 rfl) (fun hparts => hparts.1 rfl)
  | all _ _ (part :: parts) =>
      and_congr (iff_of_true nofun nofun) (populatedAll_map f g (part :: parts))

theorem populatedAll_map (f : σ → σ') (g : ν → ν') :
    ∀ parts : List (Composition E t σ ν), PopulatedAll (mapAll f g parts) ↔ PopulatedAll parts
  | [] => Iff.rfl
  | part :: parts => and_congr (populated_map f g part) (populatedAll_map f g parts)

end

theorem populated_of_statements {c : Composition E t σ ν} {c' : Composition E t σ' ν'}
    (hsame : c.statements = c'.statements) (hpopulated : c.Populated) : c'.Populated := by
  have hstatements : c.statements.Populated := (populated_map _ _ c).mpr hpopulated
  rw [hsame] at hstatements
  exact (populated_map _ _ c').mp hstatements

mutual

theorem states_map (f : σ → σ') (g : ν → ν') :
    ∀ c : Composition E t σ ν, (c.map f g).states = c.states.map f
  | one _ _ => rfl
  | all _ _ parts => statesAll_map f g parts

theorem statesAll_map (f : σ → σ') (g : ν → ν') :
    ∀ parts : List (Composition E t σ ν), statesAll (mapAll f g parts) = (statesAll parts).map f
  | [] => rfl
  | part :: parts => by
      rw [mapAll, statesAll, statesAll, List.map_append, states_map f g part,
        statesAll_map f g parts]

end

theorem length_states_of_statements {c : Composition E t σ ν} {c' : Composition E t σ' ν'}
    (hsame : c.statements = c'.statements) : c.states.length = c'.states.length := by
  have hstates := congrArg (fun c => c.states.length) hsame
  simpa only [statements, states_map, List.length_map] using hstates

mutual

/-- A composition is determined by its statements and what it remembers at them. -/
theorem eq_of_statements_of_states : ∀ {c c' : Composition E t σ Unit},
    c.statements = c'.statements → c.states = c'.states → c = c'
  | one _ _, one _ _, hsame, hstates => by
      cases hsame
      cases hstates
      rfl
  | all _ _ parts, all _ _ parts', hsame, hstates => by
      obtain ⟨rfl, -, hparts⟩ := Composition.all.inj hsame
      rw [eq_of_statementsAll_of_statesAll hparts hstates]
  | one _ _, all _ _ _, hsame, _ => by cases hsame
  | all _ _ _, one _ _, hsame, _ => by cases hsame

theorem eq_of_statementsAll_of_statesAll : ∀ {parts parts' : List (Composition E t σ Unit)},
    mapAll (fun _ => ()) (fun _ => ()) parts = mapAll (fun _ => ()) (fun _ => ()) parts' →
    statesAll parts = statesAll parts' → parts = parts'
  | [], [], _, _ => rfl
  | _ :: _, _ :: _, hsame, hstates => by
      obtain ⟨hpart, hparts⟩ := List.cons.inj hsame
      have hlen := length_states_of_statements hpart
      obtain ⟨hhere, hothers⟩ := List.append_inj hstates hlen
      rw [eq_of_statements_of_states hpart hhere, eq_of_statementsAll_of_statesAll hparts hothers]
  | [], _ :: _, hsame, _ => by cases hsame
  | _ :: _, [], hsame, _ => by cases hsame

end

theorem states_length_pos : ∀ {c : Composition E t σ ν}, c.Populated → 0 < c.states.length
  | one _ _, _ => Nat.one_pos
  | all _ _ [], ⟨hparts, _⟩ => (hparts rfl).elim
  | all _ _ (part :: parts), ⟨_, hpart, _⟩ => by
      have hpos := states_length_pos hpart
      rw [states, statesAll, List.length_append]
      exact Nat.add_pos_left hpos _

end Composition

namespace Component

open ThreeMove.Composition

variable {single : σ} {both : ν} {component : Component E σ ν}
  {components : List (Component E σ ν)}

theorem collect_eq_ok_iff {t : Nat} {parts : List (Composition E t σ ν)} :
    collect t components = .ok parts ↔ components = parts.map (Component.mk t) := by
  induction components generalizing parts with
  | nil => cases parts <;> simp [collect]
  | cons component components ih =>
      obtain ⟨t', composition⟩ := component
      unfold collect
      constructor
      · intro hcollect
        split at hcollect
        · next ht =>
          cases ht
          obtain ⟨rest, hrest, hparts⟩ := except_bind_eq_ok_iff.mp hcollect
          cases hparts
          rw [ih.mp hrest]
          rfl
        · cases hcollect
      · intro hcomponents
        cases parts with
        | nil => cases hcomponents
        | cons part parts =>
            obtain ⟨hpart, hparts⟩ := List.cons.inj hcomponents
            cases hpart
            rw [dif_pos rfl]
            exact except_bind_eq_ok_iff.mpr ⟨parts, ih.mpr hparts, rfl⟩

theorem one_eq_ok_iff {group : PrimeGroup E} {t : Nat} {state : σ} :
    Component.one group t state = .ok component ↔
      ∃ params : Parameters E t, params.group = group ∧ component = ⟨t, .one params state⟩ := by
  unfold Component.one
  rw [except_bind_eq_ok_iff]
  constructor
  · rintro ⟨params, hmade, hcomponent⟩
    exact ⟨params, Parameters.ofGroup_eq_ok_iff.mp hmade, (Except.ok.inj hcomponent).symm⟩
  · rintro ⟨params, hgroup, rfl⟩
    exact ⟨params, Parameters.ofGroup_eq_ok_iff.mpr hgroup, rfl⟩

theorem all_eq_ok_iff {state : ν} :
    Component.all state components = .ok component ↔
      ∃ (t : Nat) (part : Composition E t σ ν) (parts : List (Composition E t σ ν)),
        components = (part :: parts).map (Component.mk t) ∧
          component = ⟨t, .all part.params state (part :: parts)⟩ := by
  constructor
  · intro hmade
    cases components with
    | nil => cases hmade
    | cons first rest =>
        obtain ⟨t, composition⟩ := first
        obtain ⟨parts, hcollect, hcomponent⟩ := except_bind_eq_ok_iff.mp hmade
        cases hcomponent
        have hparts := collect_eq_ok_iff.mp hcollect
        cases parts with
        | nil => cases hparts
        | cons part parts =>
            cases (List.cons.inj hparts).1
            exact ⟨t, composition, parts, hparts, rfl⟩
  · rintro ⟨t, part, parts, rfl, rfl⟩
    exact except_bind_eq_ok_iff.mpr ⟨part :: parts, collect_eq_ok_iff.mpr rfl, rfl⟩

/-- The component is a single statement, or the conjunction of such components. -/
inductive Built (single : σ) (both : ν) : Component E σ ν → Prop where
  | one {group : PrimeGroup E} {t : Nat} {component : Component E σ ν}
      (made : Component.one group t single = .ok component) : Built single both component
  | all {parts : List (Component E σ ν)} {component : Component E σ ν}
      (built : ∀ part ∈ parts, Built single both part)
      (made : Component.all both parts = .ok component) : Built single both component

theorem Built.induct {P : ∀ {t}, Composition E t σ ν → Prop}
    (hone : ∀ {t} (params : Parameters E t), P (.one params single))
    (hall : ∀ {t} (params : Parameters E t) (parts : List (Composition E t σ ν)), parts ≠ [] →
      (∀ part ∈ parts, P part) → P (.all params both parts))
    (built : component.Built single both) : P component.composition := by
  induction built with
  | one made =>
      obtain ⟨params, -, rfl⟩ := one_eq_ok_iff.mp made
      exact hone params
  | all _ made ih =>
      obtain ⟨t, part, parts, rfl, rfl⟩ := all_eq_ok_iff.mp made
      exact hall part.params (part :: parts) nofun fun other hother =>
        ih ⟨t, other⟩ (List.mem_map_of_mem hother)

theorem Built.populated (built : component.Built single both) :
    component.composition.Populated := by
  have hparts : ∀ {t} {parts : List (Composition E t σ ν)}, (∀ part ∈ parts, part.Populated) →
      PopulatedAll parts := by
    intro t parts hpopulated
    induction parts with
    | nil => trivial
    | cons part parts ih =>
        obtain ⟨hpart, hothers⟩ := List.forall_mem_cons.mp hpopulated
        exact ⟨hpart, ih hothers⟩
  exact built.induct (P := fun c => c.Populated) (fun _ => trivial)
    (fun _ _ hnonempty hpopulated => ⟨hnonempty, hparts hpopulated⟩)

theorem Built.state_eq (built : component.Built single both) :
    ∀ state ∈ component.composition.states, state = single := by
  have hparts : ∀ {t} {parts : List (Composition E t σ ν)},
      (∀ part ∈ parts, ∀ state ∈ part.states, state = single) →
      ∀ state ∈ statesAll parts, state = single := by
    intro t parts hstates
    induction parts with
    | nil => nofun
    | cons part parts ih =>
        obtain ⟨hpart, hothers⟩ := List.forall_mem_cons.mp hstates
        intro state hstate
        rcases List.mem_append.mp hstate with hstate | hstate
        · exact hpart state hstate
        · exact ih hothers state hstate
  exact built.induct (P := fun c => ∀ state ∈ c.states, state = single)
    (fun _ _ hstate => List.mem_singleton.mp hstate) (fun _ _ _ hstates => hparts hstates)

theorem built_pairModulo23 (single : σ) (both : ν) :
    Built single both ⟨3, pairModulo23 single both⟩ := by
  let params : Parameters Nat 3 := ⟨SafePrime.modulo23.group, by rfl, by decide, 8, rfl⟩
  let part : Component Nat σ ν := ⟨3, .one params single⟩
  have hpart : Component.one SafePrime.modulo23.group 3 single = .ok part := rfl
  have hpair : Component.all both [part, part] = .ok ⟨3, pairModulo23 single both⟩ := rfl
  refine .all ?_ hpair
  exact List.forall_mem_cons.mpr ⟨.one hpart, List.forall_mem_singleton.mpr (.one hpart)⟩

end Component

end ThreeMove
