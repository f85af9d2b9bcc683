import ThreeMove.Random.Source

/-!
# Outcomes

A step that may fail leaves its state and the random source behind in either case.
-/

namespace ThreeMove

/-- The result of a step, the state behind it and the source behind it. -/
abbrev Outcome (ε α S : Type) := Except ε α × S × Source

end ThreeMove
