import ThreeMove.Composition
import ThreeMove.Input
import ThreeMove.Proofs.Group.SafePrime

/-!
# Statements of a composition

The statements are what two parties of a protocol have in common: the composition without
what a party remembers.  `AtEach` says that an input has the shape of the composition and
that a property holds at each statement.
-/

namespace ThreeMove.Composition

variable {E : Type} {t : Nat} {σ ν σ' ν' α β : Type}

/-- The composition without what is remembered. -/
def statements (c : Composition E t σ ν) : Composition E t Unit Unit :=
  c.map (fun _ => ()) (fun _ => ())

mutual

theorem map_map {σ₂ ν₂ : Type} (f : σ → σ') (g : ν → ν') (f' : σ' → σ₂) (g' : ν' → ν₂) :
    ∀ c : Composition E t σ ν, (c.map f g).map f' g' = c.map (f' ∘ f) (g' ∘ g)
  | one _ _ => rfl
  | all _ _ parts => by rw [map, map, map, mapAll_mapAll f g f' g' parts]; rfl

theorem mapAll_mapAll {σ₂ ν₂ : Type} (f : σ → σ') (g : ν → ν') (f' : σ' → σ₂) (g' : ν' → ν₂) :
    ∀ parts : List (Composition E t σ ν),
      mapAll f' g' (mapAll f g parts) = mapAll (f' ∘ f) (g' ∘ g) parts
  | [] => rfl
  | part :: parts => by
      rw [mapAll, mapAll, mapAll, map_map f g f' g' part, mapAll_mapAll f g f' g' parts]

end

@[simp] theorem length_mapAll (f : σ → σ') (g : ν → ν') (parts : List (Composition E t σ ν)) :
    (mapAll f g parts).length = parts.length := by
  induction parts with
  | nil => rfl
  | cons part parts ih => rw [mapAll, List.length_cons, List.length_cons, ih]

@[simp] theorem statements_map (f : σ → σ') (g : ν → ν') (c : Composition E t σ ν) :
    (c.map f g).statements = c.statements :=
  map_map f g _ _ c

/-- Two compositions of the same statements are alike once the same is remembered everywhere. -/
theorem map_const_of_statements {σ₂ ν₂ : Type} {c : Composition E t σ ν}
    {c' : Composition E t σ' ν'} (hsame : c.statements = c'.statements) (single : σ₂) (all : ν₂) :
    c.map (fun _ => single) (fun _ => all) = c'.map (fun _ => single) (fun _ => all) := by
  have hc := map_map (fun _ => ()) (fun _ => ()) (fun _ : Unit => single) (fun _ : Unit => all) c
  have hc' := map_map (fun _ => ()) (fun _ => ()) (fun _ : Unit => single) (fun _ : Unit => all) c'
  exact hc.symm.trans ((congrArg (map _ _) hsame).trans hc')

@[simp] theorem group_statements (c : Composition E t σ ν) : c.statements.group = c.group :=
  group_map _ _ c

theorem firstLayout_statements (c : Composition E t σ ν) :
    c.statements.firstLayout = c.firstLayout :=
  firstLayout_map _ _ c

theorem secondLayout_statements (c : Composition E t σ ν) :
    c.statements.secondLayout = c.secondLayout :=
  secondLayout_map _ _ c

theorem group_of_statements {c : Composition E t σ ν} {c' : Composition E t σ' ν'}
    (hsame : c.statements = c'.statements) : c.group = c'.group := by
  rw [← group_statements, hsame, group_statements]

theorem firstLayout_of_statements {c : Composition E t σ ν} {c' : Composition E t σ' ν'}
    (hsame : c.statements = c'.statements) : c.firstLayout = c'.firstLayout := by
  rw [← firstLayout_statements, hsame, firstLayout_statements]

theorem secondLayout_of_statements {c : Composition E t σ ν} {c' : Composition E t σ' ν'}
    (hsame : c.statements = c'.statements) : c.secondLayout = c'.secondLayout := by
  rw [← secondLayout_statements, hsame, secondLayout_statements]

mutual

/-- What is remembered at the nodes, from the root on. -/
def remembered : Composition E t σ σ → List σ
  | one _ state => [state]
  | all _ state parts => state :: rememberedAll parts

def rememberedAll : List (Composition E t σ σ) → List σ
  | [] => []
  | part :: parts => part.remembered ++ rememberedAll parts

end

mutual

theorem remembered_map (f : σ → σ') :
    ∀ c : Composition E t σ σ, (c.map f f).remembered = c.remembered.map f
  | one _ _ => rfl
  | all _ state parts => congrArg (f state :: ·) (rememberedAll_map f parts)

theorem rememberedAll_map (f : σ → σ') : ∀ parts : List (Composition E t σ σ),
    rememberedAll (mapAll f f parts) = (rememberedAll parts).map f
  | [] => rfl
  | part :: parts => by
      rw [mapAll, rememberedAll, rememberedAll, List.map_append, remembered_map f part,
        rememberedAll_map f parts]

end

mutual

/-- The groups of all nodes; the group of a conjunction is that of its first statement. -/
def groups : Composition E t σ ν → List (PrimeGroup E)
  | one params _ => [params.group]
  | all params _ parts => params.group :: groupsAll parts

def groupsAll : List (Composition E t σ ν) → List (PrimeGroup E)
  | [] => []
  | part :: parts => part.groups ++ groupsAll parts

end

mutual

theorem groups_map (f : σ → σ') (g : ν → ν') :
    ∀ c : Composition E t σ ν, (c.map f g).groups = c.groups
  | one _ _ => rfl
  | all _ _ parts => congrArg (_ :: ·) (groupsAll_map f g parts)

theorem groupsAll_map (f : σ → σ') (g : ν → ν') :
    ∀ parts : List (Composition E t σ ν), groupsAll (mapAll f g parts) = groupsAll parts
  | [] => rfl
  | part :: parts => by
      rw [mapAll, groupsAll, groupsAll, groups_map f g part, groupsAll_map f g parts]

end

@[simp] theorem groups_statements (c : Composition E t σ ν) : c.statements.groups = c.groups :=
  groups_map _ _ c

theorem groups_of_statements {c : Composition E t σ ν} {c' : Composition E t σ' ν'}
    (hsame : c.statements = c'.statements) : c.groups = c'.groups := by
  rw [← groups_statements, hsame, groups_statements]

theorem group_mem_groups (c : Composition E t σ ν) : c.group ∈ c.groups := by
  cases c with
  | one params state => exact List.mem_singleton.mpr rfl
  | all params state parts => exact List.mem_cons_self

def Lawful (c : Composition E t σ ν) : Prop :=
  ∀ group ∈ c.groups, group.Lawful

theorem Lawful.sized {c : Composition E t σ ν} (laws : c.Lawful) :
    ∀ group ∈ c.groups, group.Sized :=
  fun group hgroup => (laws group hgroup).sized

theorem lawful_of_statements {c : Composition E t σ ν} {c' : Composition E t σ' ν'}
    (hsame : c.statements = c'.statements) (laws : c.Lawful) : c'.Lawful := by
  intro group hgroup
  rw [← groups_statements, ← hsame, groups_statements] at hgroup
  exact laws group hgroup

mutual

/-- The input has the shape of the composition, and at each statement its parameters, what is
remembered there and the item of the input have the property. -/
def AtEach (P : Parameters E t → σ → α → Prop) : Composition E t σ ν → Input α → Prop
  | one params state, .one item => P params state item
  | all _ _ parts, .all inputs => AtEachAll P parts inputs
  | one _ _, .all _ => False
  | all _ _ _, .one _ => False

def AtEachAll (P : Parameters E t → σ → α → Prop) :
    List (Composition E t σ ν) → List (Input α) → Prop
  | [], [] => True
  | part :: parts, input :: inputs => AtEach P part input ∧ AtEachAll P parts inputs
  | [], _ :: _ => False
  | _ :: _, [] => False

end

/-- The input has the shape of the composition. -/
def Fits (c : Composition E t σ ν) (input : Input α) : Prop :=
  c.AtEach (fun _ _ _ => True) input

theorem length_of_atEachAll {P : Parameters E t → σ → α → Prop} :
    ∀ {parts : List (Composition E t σ ν)} {inputs : List (Input α)},
      AtEachAll P parts inputs → parts.length = inputs.length
  | [], [], _ => rfl
  | part :: parts, input :: inputs, ⟨_, hparts⟩ => by
      rw [List.length_cons, List.length_cons, length_of_atEachAll hparts]

mutual

theorem AtEach.and {P Q : Parameters E t → σ → α → Prop} :
    ∀ {c : Composition E t σ ν} {input : Input α}, c.AtEach P input → c.AtEach Q input →
      c.AtEach (fun params state item => P params state item ∧ Q params state item) input
  | one _ _, .one _, hP, hQ => ⟨hP, hQ⟩
  | all _ _ _, .all _, hP, hQ => AtEachAll.and hP hQ

theorem AtEachAll.and {P Q : Parameters E t → σ → α → Prop} :
    ∀ {parts : List (Composition E t σ ν)} {inputs : List (Input α)},
      AtEachAll P parts inputs → AtEachAll Q parts inputs →
      AtEachAll (fun params state item => P params state item ∧ Q params state item) parts inputs
  | [], [], _, _ => trivial
  | _ :: _, _ :: _, ⟨hP, hPs⟩, ⟨hQ, hQs⟩ => ⟨hP.and hQ, AtEachAll.and hPs hQs⟩

end

mutual

theorem AtEach.imp {P Q : Parameters E t → σ → α → Prop} :
    ∀ {c : Composition E t σ ν} {input : Input α},
      (∀ params state item, params.group ∈ c.groups → P params state item →
        Q params state item) → c.AtEach P input → c.AtEach Q input
  | one params state, .one item, himp, hP => himp params state item (List.mem_singleton.mpr rfl) hP
  | all _ _ _, .all _, himp, hP =>
      AtEachAll.imp (fun params state item hmem =>
        himp params state item (List.mem_cons_of_mem _ hmem)) hP

theorem AtEachAll.imp {P Q : Parameters E t → σ → α → Prop} :
    ∀ {parts : List (Composition E t σ ν)} {inputs : List (Input α)},
      (∀ params state item, params.group ∈ groupsAll parts → P params state item →
        Q params state item) → AtEachAll P parts inputs → AtEachAll Q parts inputs
  | [], [], _, _ => trivial
  | _ :: _, _ :: _, himp, ⟨hP, hPs⟩ =>
      ⟨AtEach.imp (fun params state item hmem =>
          himp params state item (List.mem_append_left _ hmem)) hP,
        AtEachAll.imp (fun params state item hmem =>
          himp params state item (List.mem_append_right _ hmem)) hPs⟩

end

theorem AtEach.fits {P : Parameters E t → σ → α → Prop} {c : Composition E t σ ν}
    {input : Input α} (hP : c.AtEach P input) : c.Fits input :=
  hP.imp fun _ _ _ _ _ => trivial

mutual

theorem atEach_map {P : Parameters E t → σ' → α → Prop} (f : σ → σ') (g : ν → ν') :
    ∀ (c : Composition E t σ ν) (input : Input α),
      (c.map f g).AtEach P input ↔ c.AtEach (fun params state => P params (f state)) input
  | one _ _, .one _ => Iff.rfl
  | one _ _, .all _ => Iff.rfl
  | all _ _ _, .one _ => Iff.rfl
  | all _ _ parts, .all inputs => atEachAll_map f g parts inputs

theorem atEachAll_map {P : Parameters E t → σ' → α → Prop} (f : σ → σ') (g : ν → ν') :
    ∀ (parts : List (Composition E t σ ν)) (inputs : List (Input α)),
      AtEachAll P (mapAll f g parts) inputs ↔
        AtEachAll (fun params state => P params (f state)) parts inputs
  | [], [] => Iff.rfl
  | [], _ :: _ => Iff.rfl
  | _ :: _, [] => Iff.rfl
  | part :: parts, input :: inputs =>
      and_congr (atEach_map f g part input) (atEachAll_map f g parts inputs)

end

/-- A property of the statements alone does not depend on what is remembered. -/
theorem atEach_of_statements {P : Parameters E t → α → Prop} {c : Composition E t σ ν}
    {c' : Composition E t σ' ν'} {input : Input α} (hsame : c.statements = c'.statements)
    (hP : c.AtEach (fun params _ item => P params item) input) :
    c'.AtEach (fun params _ item => P params item) input := by
  have hstatements : c.statements.AtEach (fun params _ item => P params item) input :=
    (atEach_map (fun _ => ()) (fun _ => ()) c input).mpr hP
  rw [hsame] at hstatements
  exact (atEach_map (fun _ => ()) (fun _ => ()) c' input).mp hstatements

theorem fits_of_statements {c : Composition E t σ ν} {c' : Composition E t σ' ν'}
    {input : Input α} (hsame : c.statements = c'.statements) (hfits : c.Fits input) :
    c'.Fits input :=
  atEach_of_statements hsame hfits

def pairModulo23 (single : σ) (both : ν) : Composition Nat 3 σ ν :=
  let params : Parameters Nat 3 := ⟨SafePrime.modulo23.group, by rfl, by decide, 8, rfl⟩
  .all params both [.one params single, .one params single]

theorem lawful_pairModulo23 (single : σ) (both : ν) : (pairModulo23 single both).Lawful := by
  intro group hgroup
  have hsame : group = SafePrime.modulo23.group := by
    simpa [pairModulo23, groups, groupsAll] using hgroup
  rw [hsame]
  exact SafePrime.lawful_modulo23

end ThreeMove.Composition
