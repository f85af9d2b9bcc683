import ThreeMove.Group.Ristretto
import ThreeMove.Proofs.Composition.Conjunction
import ThreeMove.Proofs.Composition.Requests
import ThreeMove.Proofs.Composition.Simulation
import ThreeMove.Proofs.Pedersen.Committer

/-!
# One soundness parameter everywhere

A plan says which constructors are called, from the statements up, and every statement names a
soundness parameter of its own.  A conjunction only looks at its direct components, but whatever
is built has one parameter at all of its nodes, and every group in it has room for that one.
-/

namespace ThreeMove

open ThreeMove.Composition

variable {E σ ν σ' ν' : Type}

namespace Composition

variable {t : Nat}

mutual

/-- All nodes from the root on, each with what is below it. -/
def nodes : Composition E t σ ν → List (Component E σ ν)
  | one params state => [⟨t, one params state⟩]
  | all params state parts => ⟨t, all params state parts⟩ :: nodesAll parts

def nodesAll : List (Composition E t σ ν) → List (Component E σ ν)
  | [] => []
  | part :: parts => part.nodes ++ nodesAll parts

end

mutual

theorem t_of_mem_nodes : ∀ {c : Composition E t σ ν}, ∀ node ∈ c.nodes, node.t = t
  | one _ _, _, hnode => by rw [List.mem_singleton.mp hnode]
  | all _ _ _, _, hnode => by
      rcases List.mem_cons.mp hnode with rfl | hnode
      · rfl
      · exact t_of_mem_nodesAll _ hnode

theorem t_of_mem_nodesAll : ∀ {parts : List (Composition E t σ ν)}, ∀ node ∈ nodesAll parts,
    node.t = t
  | _ :: _, _, hnode => by
      rcases List.mem_append.mp hnode with hnode | hnode
      · exact t_of_mem_nodes _ hnode
      · exact t_of_mem_nodesAll _ hnode

end

theorem params_map (f : σ → σ') (g : ν → ν') (c : Composition E t σ ν) :
    (c.map f g).params = c.params := by
  cases c <;> rfl

end Composition

/-- How a composition is put together, and what its nodes remember by then. -/
inductive Plan (E σ ν : Type) where
  | one (group : PrimeGroup E) (t : Nat) (state : σ)
  | all (state : ν) (parts : List (Plan E σ ν))

namespace Plan

mutual

def build : Plan E σ ν → Option (Component E σ ν)
  | one group t state => (Component.one group t state).toOption
  | all state parts => do
      let components ← buildAll parts
      (Component.all state components).toOption

def buildAll : List (Plan E σ ν) → Option (List (Component E σ ν))
  | [] => some []
  | part :: parts => do
      let component ← part.build
      let components ← buildAll parts
      return component :: components

end

mutual

def nodes : Plan E σ ν → List (Plan E σ ν)
  | one group t state => [one group t state]
  | all state parts => all state parts :: nodesAll parts

def nodesAll : List (Plan E σ ν) → List (Plan E σ ν)
  | [] => []
  | part :: parts => part.nodes ++ nodesAll parts

end

mutual

def map (f : σ → σ') (g : ν → ν') : Plan E σ ν → Plan E σ' ν'
  | one group t state => one group t (f state)
  | all state parts => all (g state) (mapAll f g parts)

def mapAll (f : σ → σ') (g : ν → ν') : List (Plan E σ ν) → List (Plan E σ' ν')
  | [] => []
  | part :: parts => part.map f g :: mapAll f g parts

end

def shape (plan : Plan E σ ν) : Plan E Unit Unit :=
  plan.map (fun _ => ()) (fun _ => ())

mutual

/-- Every statement names this soundness parameter and has a valid group with room for it, and
every conjunction has a component. -/
def Uniform (t : Nat) : Plan E σ ν → Prop
  | one group t' _ => t' = t ∧ group.isValid = true ∧ 2 ^ t < group.order
  | all _ parts => parts ≠ [] ∧ UniformAll t parts

def UniformAll (t : Nat) : List (Plan E σ ν) → Prop
  | [] => True
  | part :: parts => part.Uniform t ∧ UniformAll t parts

end

section Built

variable {plan : Plan E σ ν} {plans : List (Plan E σ ν)} {component : Component E σ ν}
  {components : List (Component E σ ν)} {t : Nat}

theorem build_one_eq_some_iff {group : PrimeGroup E} {state : σ} :
    (one group t state : Plan E σ ν).build = some component ↔
      ∃ params : Parameters E t, params.group = group ∧ component = ⟨t, .one params state⟩ :=
  toOption_eq_some_iff.trans Component.one_eq_ok_iff

theorem build_all_eq_some_iff {state : ν} :
    (all state plans).build = some component ↔
      ∃ (t : Nat) (part : Composition E t σ ν) (parts : List (Composition E t σ ν)),
        buildAll plans = some ((part :: parts).map (Component.mk t)) ∧
          component = ⟨t, .all part.params state (part :: parts)⟩ := by
  unfold build
  rw [Option.bind_eq_bind, Option.bind_eq_some_iff]
  constructor
  · rintro ⟨components, hcomponents, hmade⟩
    obtain ⟨t, part, parts, rfl, rfl⟩ :=
      Component.all_eq_ok_iff.mp (toOption_eq_some_iff.mp hmade)
    exact ⟨t, part, parts, hcomponents, rfl⟩
  · rintro ⟨t, part, parts, hcomponents, rfl⟩
    exact ⟨_, hcomponents, toOption_eq_some_iff.mpr
      (Component.all_eq_ok_iff.mpr ⟨t, part, parts, rfl, rfl⟩)⟩

theorem buildAll_cons_eq_some_iff :
    buildAll (plan :: plans) = some components ↔
      ∃ component others, plan.build = some component ∧ buildAll plans = some others ∧
        components = component :: others := by
  rw [buildAll]
  cases plan.build <;> cases buildAll plans <;> simp [eq_comm]

mutual

/-- Every node of the plan is built to the node of the composition in its place. -/
theorem nodes_of_build : ∀ {plan : Plan E σ ν} {component : Component E σ ν},
    plan.build = some component → plan.nodes.map build = component.composition.nodes.map some
  | one _ _ _, _, hbuild => by
      obtain ⟨params, -, rfl⟩ := build_one_eq_some_iff.mp hbuild
      exact congrArg (fun node => [node]) hbuild
  | all _ _, _, hbuild => by
      obtain ⟨t, part, parts, hparts, rfl⟩ := build_all_eq_some_iff.mp hbuild
      exact congrArg₂ List.cons hbuild (nodesAll_of_buildAll hparts)

theorem nodesAll_of_buildAll : ∀ {plans : List (Plan E σ ν)} {t : Nat}
    {parts : List (Composition E t σ ν)}, buildAll plans = some (parts.map (Component.mk t)) →
    (nodesAll plans).map build = (Composition.nodesAll parts).map some
  | [], _, [], _ => rfl
  | [], _, _ :: _, hbuild => by cases hbuild
  | _ :: _, _, [], hbuild => by
      obtain ⟨_, _, -, -, hcomponents⟩ := buildAll_cons_eq_some_iff.mp hbuild
      cases hcomponents
  | _ :: _, _, _ :: _, hbuild => by
      obtain ⟨_, _, hpart, hparts, hcomponents⟩ := buildAll_cons_eq_some_iff.mp hbuild
      obtain ⟨rfl, rfl⟩ := List.cons.inj hcomponents
      rw [nodesAll, Composition.nodesAll, List.map_append, List.map_append, nodes_of_build hpart,
        nodesAll_of_buildAll hparts]

end

mutual

theorem one_mem_nodes_of_mem_groups : ∀ {plan : Plan E σ ν} {component : Component E σ ν},
    plan.build = some component → ∀ group ∈ component.composition.groups,
    ∃ t state, one group t state ∈ plan.nodes
  | one _ _ _, _, hbuild, _, hgroup => by
      obtain ⟨params, rfl, rfl⟩ := build_one_eq_some_iff.mp hbuild
      rw [List.mem_singleton.mp hgroup]
      exact ⟨_, _, List.mem_singleton.mpr rfl⟩
  | all _ _, _, hbuild, group, hgroup => by
      obtain ⟨t, part, parts, hparts, rfl⟩ := build_all_eq_some_iff.mp hbuild
      -- the group of the conjunction is the one of its first part
      have hbelow : group ∈ groupsAll (part :: parts) := by
        rcases List.mem_cons.mp hgroup with rfl | hgroup
        · exact List.mem_append_left _ (group_mem_groups part)
        · exact hgroup
      obtain ⟨t', state, hmem⟩ := one_mem_nodesAll_of_mem_groupsAll hparts group hbelow
      exact ⟨t', state, List.mem_cons_of_mem _ hmem⟩

theorem one_mem_nodesAll_of_mem_groupsAll : ∀ {plans : List (Plan E σ ν)} {t : Nat}
    {parts : List (Composition E t σ ν)}, buildAll plans = some (parts.map (Component.mk t)) →
    ∀ group ∈ groupsAll parts, ∃ t state, one group t state ∈ nodesAll plans
  | [], _, _ :: _, hbuild, _, _ => by cases hbuild
  | _ :: _, _, _ :: _, hbuild, group, hgroup => by
      obtain ⟨_, _, hpart, hparts, hcomponents⟩ := buildAll_cons_eq_some_iff.mp hbuild
      obtain ⟨rfl, rfl⟩ := List.cons.inj hcomponents
      rcases List.mem_append.mp hgroup with hgroup | hgroup
      · obtain ⟨t', state, hmem⟩ := one_mem_nodes_of_mem_groups hpart group hgroup
        exact ⟨t', state, List.mem_append_left _ hmem⟩
      · obtain ⟨t', state, hmem⟩ := one_mem_nodesAll_of_mem_groupsAll hparts group hgroup
        exact ⟨t', state, List.mem_append_right _ hmem⟩

end

mutual

theorem exists_build_iff (t : Nat) : ∀ {plan : Plan E σ ν},
    (∃ c : Composition E t σ ν, plan.build = some ⟨t, c⟩) ↔ plan.Uniform t
  | one group t' state => by
      constructor
      · rintro ⟨c, hbuild⟩
        obtain ⟨params, hgroup, hcomponent⟩ := build_one_eq_some_iff.mp hbuild
        cases hcomponent
        exact ⟨rfl, Parameters.exists_group_eq_iff.mp ⟨params, hgroup⟩⟩
      · rintro ⟨rfl, hroom⟩
        obtain ⟨params, hgroup⟩ := Parameters.exists_group_eq_iff.mpr hroom
        exact ⟨_, build_one_eq_some_iff.mpr ⟨params, hgroup, rfl⟩⟩
  | all state plans => by
      rw [Uniform, ← exists_buildAll_iff t]
      constructor
      · rintro ⟨c, hbuild⟩
        obtain ⟨_, part, parts, hparts, hcomponent⟩ := build_all_eq_some_iff.mp hbuild
        cases hcomponent
        refine ⟨?_, part :: parts, hparts⟩
        rintro rfl
        cases hparts
      · rintro ⟨hplans, parts, hparts⟩
        cases parts with
        | nil =>
            cases plans with
            | nil => exact (hplans rfl).elim
            | cons plan plans =>
                obtain ⟨_, _, -, -, hcomponents⟩ := buildAll_cons_eq_some_iff.mp hparts
                cases hcomponents
        | cons part parts =>
            exact ⟨_, build_all_eq_some_iff.mpr ⟨t, part, parts, hparts, rfl⟩⟩

theorem exists_buildAll_iff (t : Nat) : ∀ {plans : List (Plan E σ ν)},
    (∃ parts : List (Composition E t σ ν), buildAll plans = some (parts.map (Component.mk t))) ↔
      UniformAll t plans
  | [] => iff_of_true ⟨[], rfl⟩ trivial
  | plan :: plans => by
      rw [UniformAll, ← exists_build_iff t, ← exists_buildAll_iff t]
      constructor
      · rintro ⟨parts, hbuild⟩
        obtain ⟨component, others, hpart, hparts, hcomponents⟩ :=
          buildAll_cons_eq_some_iff.mp hbuild
        cases parts with
        | nil => cases hcomponents
        | cons part parts =>
            obtain ⟨rfl, rfl⟩ := List.cons.inj hcomponents
            exact ⟨⟨part, hpart⟩, parts, hparts⟩
      · rintro ⟨⟨part, hpart⟩, parts, hparts⟩
        exact ⟨part :: parts, buildAll_cons_eq_some_iff.mpr ⟨_, _, hpart, hparts, rfl⟩⟩

end

mutual

theorem build_map (f : σ → σ') (g : ν → ν') : ∀ {plan : Plan E σ ν} {component : Component E σ ν},
    plan.build = some component →
    (plan.map f g).build = some ⟨component.t, component.composition.map f g⟩
  | one _ _ _, _, hbuild => by
      obtain ⟨params, hgroup, rfl⟩ := build_one_eq_some_iff.mp hbuild
      exact build_one_eq_some_iff.mpr ⟨params, hgroup, rfl⟩
  | all _ _, _, hbuild => by
      obtain ⟨t, part, parts, hparts, rfl⟩ := build_all_eq_some_iff.mp hbuild
      refine build_all_eq_some_iff.mpr ⟨t, part.map f g, Composition.mapAll f g parts,
        buildAll_map f g hparts, ?_⟩
      rw [params_map]
      rfl

theorem buildAll_map (f : σ → σ') (g : ν → ν') : ∀ {plans : List (Plan E σ ν)} {t : Nat}
    {parts : List (Composition E t σ ν)}, buildAll plans = some (parts.map (Component.mk t)) →
    buildAll (mapAll f g plans) = some ((Composition.mapAll f g parts).map (Component.mk t))
  | [], _, [], _ => rfl
  | [], _, _ :: _, hbuild => by cases hbuild
  | _ :: _, _, [], hbuild => by
      obtain ⟨_, _, -, -, hcomponents⟩ := buildAll_cons_eq_some_iff.mp hbuild
      cases hcomponents
  | _ :: _, _, _ :: _, hbuild => by
      obtain ⟨_, _, hpart, hparts, hcomponents⟩ := buildAll_cons_eq_some_iff.mp hbuild
      obtain ⟨rfl, rfl⟩ := List.cons.inj hcomponents
      exact buildAll_cons_eq_some_iff.mpr ⟨_, _, build_map f g hpart, buildAll_map f g hparts, rfl⟩

end

end Built

variable {plan : Plan E σ ν} {component : Component E σ ν} {t : Nat}

theorem t_of_one_mem_nodes (hbuild : plan.build = some component) {group : PrimeGroup E}
    {state : σ} (hmem : one group t state ∈ plan.nodes) :
    t = component.t ∧ 2 ^ t < group.order := by
  have hnode := List.mem_map_of_mem (f := build) hmem
  rw [nodes_of_build hbuild] at hnode
  obtain ⟨node, hnode, hbuilt⟩ := List.mem_map.mp hnode
  obtain ⟨params, rfl, rfl⟩ := build_one_eq_some_iff.mp hbuilt.symm
  exact ⟨t_of_mem_nodes _ hnode, params.two_pow_lt_order⟩

/-- Plans of one shape are built to compositions of the same statements. -/
theorem statements_of_shape {plan' : Plan E σ' ν'} {component' : Component E σ' ν'}
    (hshape : plan'.shape = plan.shape) (hbuild : plan.build = some component)
    (hbuild' : plan'.build = some component') :
    (⟨component'.t, component'.composition.statements⟩ : Component E Unit Unit) =
      ⟨component.t, component.composition.statements⟩ := by
  have hplain := build_map (fun _ => ()) (fun _ => ()) hbuild
  have hplain' := build_map (fun _ => ()) (fun _ => ()) hbuild'
  change plan.shape.build = _ at hplain
  change plan'.shape.build = _ at hplain'
  rw [hshape, hplain] at hplain'
  exact (Option.some.inj hplain').symm

end Plan

/-- The challenge is in range at every node, and a commitment to it can be made in the group of the
root. -/
structure Component.Admits (component : Component E σ ν) (e : Challenge) : Prop where
  check : ∀ node ∈ component.composition.nodes, e.check node.t = .ok ()
  lt_order : e < component.composition.group.order
  commitTo : ∀ (committer : Pedersen.Committer E) (id : Id) (source : Source),
    committer.group = component.composition.group → ∃ commitment kept rest,
      committer.commitTo e id source = (.ok commitment, kept, rest)

theorem Challenge.check_eq_ok_iff {e : Challenge} {t : Nat} : e.check t = .ok () ↔ e < 2 ^ t := by
  refine ⟨fun hcheck => ?_, check_of_lt⟩
  by_contra hlarge
  rw [check_of_le (Nat.not_lt.mp hlarge)] at hcheck
  cases hcheck

theorem Component.admits_of_check {component : Component E σ ν} {e : Challenge}
    (hcheck : e.check component.t = .ok ()) : component.Admits e := by
  have hlt := Challenge.lt_order component.composition.params (Challenge.check_eq_ok_iff.mp hcheck)
  refine ⟨fun node hnode => ?_, hlt, fun committer id source hgroup => ?_⟩
  · rw [t_of_mem_nodes node hnode]
    exact hcheck
  · exact ⟨_, _, _, Pedersen.Committer.commitTo_of_lt id (hgroup ▸ hlt) source⟩

structure Plan.Keeps (plan : Plan E σ ν) (component : Component E σ ν) : Prop where
  nodes : plan.nodes.map build = component.composition.nodes.map some
  t_eq : ∀ node ∈ component.composition.nodes, node.t = component.t
  statement : ∀ group t state, Plan.one group t state ∈ plan.nodes →
    t = component.t ∧ 2 ^ t < group.order
  admits : ∀ e, Challenge.check e component.t = .ok () → component.Admits e

theorem Plan.keeps_of_build {plan : Plan E σ ν} {component : Component E σ ν}
    (hbuild : plan.build = some component) : plan.Keeps component where
  nodes := nodes_of_build hbuild
  t_eq := t_of_mem_nodes
  statement := fun _ _ _ hmem => t_of_one_mem_nodes hbuild hmem
  admits := fun _ hcheck => Component.admits_of_check hcheck

/-- The simulators of a prover are built by the same plan. -/
theorem Plan.build_simulator {plan : Plan E (Option Pending) Unit}
    {component : Component E (Option Pending) Unit} (hbuild : plan.build = some component)
    {turns : List (Turn E)} {prover : Prover E component.t}
    (history : Prover.Turns component.composition turns prover) :
    plan.shape.build = some ⟨component.t, prover.simulator⟩ := by
  have hplain := build_map (fun _ => ()) (fun _ => ()) hbuild
  have hsame : prover.simulator = component.composition.statements := history.statements
  rw [hsame]
  exact hplain

theorem Plan.layout_respond {plan : Plan E σ ν} {component : Component E σ ν}
    (hbuild : plan.build = some component) {other : Plan E (Option Pending) Unit}
    {component' : Component E (Option Pending) Unit} (hshape : other.shape = plan.shape)
    (hbuild' : other.build = some component')
    (hsized : ∀ group t state, one group t state ∈ other.nodes → group.Sized)
    {turns : List (Turn E)} {prover : Prover E component'.t}
    (history : Prover.Turns component'.composition turns prover) {request : Request E}
    {a : Message} (hrespond : (prover.respond request).1 = .ok a) :
    a.layout = request.layout component.composition := by
  have hgroups : ∀ group ∈ prover.groups, group.Sized := by
    intro group hgroup
    rw [groups_of_statements history.statements] at hgroup
    obtain ⟨t, state, hmem⟩ := one_mem_nodes_of_mem_groups hbuild' group hgroup
    exact hsized group t state hmem
  have hlayouts := congrArg (fun c => request.layout (Component.composition c))
    (statements_of_shape hshape hbuild hbuild')
  calc a.layout
    _ = request.layout prover := Prover.layout_respond hgroups hrespond
    _ = request.layout component'.composition.statements := by
        rw [← history.statements, request.layout_statements]
    _ = request.layout component.composition.statements := hlayouts
    _ = request.layout component.composition := request.layout_statements _

theorem Ristretto.sized : Ristretto.group.Sized := by
  intro n
  simp only [Ristretto.group, Ristretto.encode, List.length_reverse, Bytes.length_ofNat]

/-- A plan can be carried out exactly if it is uniform, for provers, verifiers and simulators alike.
Then the soundness parameter of every node is the one of the root, and a challenge that passes the
test of the root passes it at every node and can be committed to.  The challenges that are drawn
are such ones.  The simulators of a prover are built by the same plan.  The messages of a prover
have the layouts that a verifier of the same shape expects, if the groups encode their elements in
the declared number of bytes, as those of this library do. -/
theorem soundness_parameter_kept {E : Type} :
    (∀ {σ ν : Type} (plan : Plan E σ ν),
      (∀ t, (∃ c : Composition E t σ ν, plan.build = some ⟨t, c⟩) ↔ plan.Uniform t) ∧
      ∀ component, plan.build = some component → plan.Keeps component) ∧
    (∀ {plan : Plan E (Option Pending) Unit} {component : Component E (Option Pending) Unit},
      plan.build = some component → ∀ {turns prover},
      Prover.Turns component.composition turns prover →
      plan.shape.build = some ⟨component.t, prover.simulator⟩ ∧
      ∀ e, Challenge.check e component.t = .ok () →
        (prover.second e).1 ≠ .error (.cheating .challengeOutOfRange)) ∧
    (∀ {t : Nat} (simulator : Simulator E t) (e : Challenge), e.check t = .ok () →
      ∀ input source, (simulator.simulate input e source).1 ≠
        .error (.cheating .challengeOutOfRange)) ∧
    (∀ {plan : Plan E (Option Challenge) (Option Challenge)}
        {component : Component E (Option Challenge) (Option Challenge)},
      plan.build = some component → ∀ requests : List (Verifier.Request E),
      let verifier := requests.foldl Verifier.handle component.composition
      (∀ source, component.Admits (verifier.sampleChallenge source).1) ∧
      ∀ {other : Plan E (Option Pending) Unit} {component' : Component E (Option Pending) Unit},
        other.shape = plan.shape → other.build = some component' →
        (∀ group t state, Plan.one group t state ∈ other.nodes → group.Sized) →
        ∀ {turns prover}, Prover.Turns component'.composition turns prover → ∀ request a,
          (prover.respond request).1 = .ok a → a.layout = request.layout verifier) ∧
    (∀ params : SafePrime, params.group.Sized) ∧ Ristretto.group.Sized := by
  refine ⟨fun plan => ⟨fun t => Plan.exists_build_iff t, fun _ => Plan.keeps_of_build⟩, ?_, ?_, ?_,
    SafePrime.sized, Ristretto.sized⟩
  · intro plan component hbuild turns prover history
    refine ⟨Plan.build_simulator hbuild history, fun e hcheck hrefused => ?_⟩
    cases Prover.outOfOrder_of_second (Challenge.check_eq_ok_iff.mp hcheck) hrefused
  · intro t simulator e hcheck input source hrefused
    obtain ⟨reason, hfault⟩ :=
      Simulator.misshapen_of_simulate (Challenge.check_eq_ok_iff.mp hcheck) hrefused
    cases hfault
  · intro plan component hbuild requests verifier
    constructor
    · intro source
      exact Component.admits_of_check (Challenge.check_of_lt (Challenge.sample_lt _ source))
    · intro other component' hshape hbuild' hsized turns prover history request a hrespond
      rw [Plan.layout_respond hbuild hshape hbuild' hsized history hrespond,
        ← request.layout_statements, ← Verifier.statements_handleAll _ requests,
        request.layout_statements]

/-- A statement on the squares modulo 23 beside a conjunction on the squares modulo 11. -/
theorem soundness_parameter_kept_nested :
    let other : SafePrime := ⟨5, 4, by decide, by decide, by decide⟩
    let plan : Plan Nat (Option Pending) Unit :=
      .all () [.one SafePrime.modulo23.group 2 none, .all () [.one other.group 2 none]]
    let expected : Plan Nat (Option Challenge) (Option Challenge) :=
      .all none [.one SafePrime.modulo23.group 2 none, .all none [.one other.group 2 none]]
    ∃ (prover : Prover Nat 2) (verifier : Verifier Nat 2),
      plan.build = some ⟨2, prover⟩ ∧ expected.build = some ⟨2, verifier⟩ ∧
      plan.Keeps ⟨2, prover⟩ ∧ plan.shape.build = some ⟨2, prover.simulator⟩ ∧
      (prover.second 3).1 ≠ .error (.cheating .challengeOutOfRange) ∧
      (∀ input source, (prover.simulator.simulate input 3 source).1 ≠
        .error (.cheating .challengeOutOfRange)) ∧
      (∀ source, Component.Admits ⟨2, verifier⟩ (verifier.sampleChallenge source).1) ∧
      ∀ input source a, (prover.first input source).1 = .ok a →
        a.layout = verifier.firstLayout := by
  intro other plan expected
  obtain ⟨hplan, hprovers, hsimulators, hverifiers, hsafe, -⟩ := soundness_parameter_kept (E := Nat)
  have hexpected := (soundness_parameter_kept (E := Nat)).1 expected
  have hvalid : other.group.isValid = true :=
    show SafePrime.isValid ⟨5, 4, by decide, by decide, by decide⟩ = true by decide +kernel
  have hvalid23 : SafePrime.modulo23.group.isValid = true := by decide +kernel
  have hroom : 2 ^ 2 < other.group.order := show 4 < 5 by decide
  have hroom23 : 2 ^ 2 < SafePrime.modulo23.group.order := show 4 < 11 by decide
  obtain ⟨prover, hprover⟩ := ((hplan plan).1 2).mpr
    ⟨nofun, ⟨rfl, hvalid23, hroom23⟩, ⟨nofun, ⟨rfl, hvalid, hroom⟩, trivial⟩, trivial⟩
  obtain ⟨verifier, hverifier⟩ := (hexpected.1 2).mpr
    ⟨nofun, ⟨rfl, hvalid23, hroom23⟩, ⟨nofun, ⟨rfl, hvalid, hroom⟩, trivial⟩, trivial⟩
  obtain ⟨hadmits, hlayout⟩ := hverifiers hverifier []
  have hthree : Challenge.check 3 2 = .ok () := rfl
  obtain ⟨hsimulator, hsecond⟩ := hprovers hprover .nil
  refine ⟨prover, verifier, hprover, hverifier, (hplan plan).2 _ hprover, hsimulator,
    hsecond 3 hthree, hsimulators (Prover.simulator prover) 3 hthree, hadmits, ?_⟩
  intro input source a hfirst
  refine hlayout rfl hprover ?_ .nil (.first input source) a hfirst
  intro group t state hmem
  have hmem : Plan.one group t state ∈ [plan, .one SafePrime.modulo23.group 2 none,
      .all () [.one other.group 2 none], .one other.group 2 none] := hmem
  have hgroup : group = SafePrime.modulo23.group ∨ group = other.group := by
    simp only [plan, List.mem_cons, Plan.one.injEq, List.not_mem_nil, or_false] at hmem
    rcases hmem with hmem | hmem | hmem | hmem
    · cases hmem
    · exact .inl hmem.1
    · cases hmem
    · exact .inr hmem.1
  rcases hgroup with rfl | rfl
  · exact hsafe _
  · exact hsafe _

end ThreeMove
