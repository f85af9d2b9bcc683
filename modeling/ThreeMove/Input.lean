/-!
# Inputs of composed statements

The input of a single statement, or of a conjunction of statements.  The verifier's input
names an element for each statement, and the prover's input also its logarithm.
-/

namespace ThreeMove

inductive Input (α : Type) where
  | one (item : α)
  | all (parts : List (Input α))
deriving Inhabited

namespace Input

variable {α β : Type}

mutual

def map (f : α → β) : Input α → Input β
  | one item => one (f item)
  | all parts => all (mapAll f parts)

def mapAll (f : α → β) : List (Input α) → List (Input β)
  | [] => []
  | part :: parts => part.map f :: mapAll f parts

end

mutual

/-- The input written out, a single item as `show` writes it. -/
def describe (write : α → String) : Input α → String
  | one item => "Dlog(" ++ write item ++ ")"
  | all parts => "And([" ++ ", ".intercalate (describeAll write parts) ++ "])"

def describeAll (write : α → String) : List (Input α) → List String
  | [] => []
  | part :: parts => part.describe write :: describeAll write parts

end

end Input

/-- An element together with its logarithm. -/
structure Witnessed (E : Type) where
  element : E
  logarithm : Nat

abbrev CommonInput (E : Type) := Input E

abbrev ProverInput (E : Type) := Input (Witnessed E)

/-- The part of the prover's input that the verifier knows. -/
def ProverInput.common {E : Type} (input : ProverInput E) : CommonInput E :=
  input.map Witnessed.element

end ThreeMove
