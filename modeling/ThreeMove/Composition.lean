import ThreeMove.Message
import ThreeMove.Parameters

/-!
# Compositions

A composition is a single statement about a logarithm, or the conjunction of compositions.
All of its statements share one soundness parameter `t`, though their groups may differ.
The nodes carry what a party remembers there: `σ` at a single statement and `ν` at a
conjunction.  A conjunction is also given the parameters of its first statement.
-/

namespace ThreeMove

inductive Composition (E : Type) (t : Nat) (σ ν : Type) where
  | one (params : Parameters E t) (state : σ)
  | all (params : Parameters E t) (state : ν) (parts : List (Composition E t σ ν))

namespace Composition

variable {E : Type} {t : Nat} {σ ν σ' ν' : Type}

def params : Composition E t σ ν → Parameters E t
  | one params _ => params
  | all params _ _ => params

/-- The group of the first statement. -/
def group (c : Composition E t σ ν) : PrimeGroup E :=
  c.params.group

mutual

/-- Changes what is remembered at the nodes. -/
def map (f : σ → σ') (g : ν → ν') : Composition E t σ ν → Composition E t σ' ν'
  | one params state => one params (f state)
  | all params state parts => all params (g state) (mapAll f g parts)

def mapAll (f : σ → σ') (g : ν → ν') :
    List (Composition E t σ ν) → List (Composition E t σ' ν')
  | [] => []
  | part :: parts => part.map f g :: mapAll f g parts

end

mutual

/-- The layout of first messages: an element for each statement. -/
def firstLayout : Composition E t σ ν → Layout
  | one params _ => .element params.group.elementSize
  | all _ _ parts => .tuple (firstLayouts parts)

def firstLayouts : List (Composition E t σ ν) → List Layout
  | [] => []
  | part :: parts => part.firstLayout :: firstLayouts parts

end

mutual

/-- The layout of second messages: an exponent for each statement. -/
def secondLayout : Composition E t σ ν → Layout
  | one params _ => .integer params.group.scalarSize
  | all _ _ parts => .tuple (secondLayouts parts)

def secondLayouts : List (Composition E t σ ν) → List Layout
  | [] => []
  | part :: parts => part.secondLayout :: secondLayouts parts

end

@[simp] theorem group_map (f : σ → σ') (g : ν → ν') (c : Composition E t σ ν) :
    (c.map f g).group = c.group := by
  cases c <;> rfl

mutual

/-- The layouts do not depend on what is remembered. -/
@[simp] theorem firstLayout_map (f : σ → σ') (g : ν → ν') :
    ∀ c : Composition E t σ ν, (c.map f g).firstLayout = c.firstLayout
  | one _ _ => rfl
  | all _ _ parts => congrArg Layout.tuple (firstLayouts_map f g parts)

theorem firstLayouts_map (f : σ → σ') (g : ν → ν') :
    ∀ parts : List (Composition E t σ ν), firstLayouts (mapAll f g parts) = firstLayouts parts
  | [] => rfl
  | part :: parts => by
      rw [mapAll, firstLayouts, firstLayouts, firstLayout_map f g part,
        firstLayouts_map f g parts]

end

mutual

@[simp] theorem secondLayout_map (f : σ → σ') (g : ν → ν') :
    ∀ c : Composition E t σ ν, (c.map f g).secondLayout = c.secondLayout
  | one _ _ => rfl
  | all _ _ parts => congrArg Layout.tuple (secondLayouts_map f g parts)

theorem secondLayouts_map (f : σ → σ') (g : ν → ν') :
    ∀ parts : List (Composition E t σ ν), secondLayouts (mapAll f g parts) = secondLayouts parts
  | [] => rfl
  | part :: parts => by
      rw [mapAll, secondLayouts, secondLayouts, secondLayout_map f g part,
        secondLayouts_map f g parts]

end

end Composition

/-- A composition of some soundness parameter. -/
structure Component (E σ ν : Type) where
  t : Nat
  composition : Composition E t σ ν

namespace Component

variable {E σ ν : Type}

/-- The components as compositions with soundness parameter `t`, if all of them have it. -/
def collect (t : Nat) :
    List (Component E σ ν) → Except SigmaFault (List (Composition E t σ ν))
  | [] => .ok []
  | part :: parts =>
      if h : part.t = t then do
        let rest ← collect t parts
        return (h ▸ part.composition) :: rest
      else .error (.unsuitable .soundnessMismatch)

/-- The conjunction of at least one component, all with the same soundness parameter. -/
def all (state : ν) (components : List (Component E σ ν)) :
    Except SigmaFault (Component E σ ν) :=
  match components with
  | [] => .error (.unsuitable .noComponents)
  | first :: _ => do
      let parts ← collect first.t components
      return ⟨first.t, .all first.composition.params state parts⟩

/-- A single statement over a group. -/
def one (group : PrimeGroup E) (t : Nat) (state : σ) :
    Except ParameterFault (Component E σ ν) := do
  let params ← Parameters.ofGroup group t
  return ⟨t, .one params state⟩

end Component

end ThreeMove
