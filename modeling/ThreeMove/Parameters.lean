import ThreeMove.Challenge
import ThreeMove.Group.Basic

/-!
# Parameters of a statement

A valid group and a soundness parameter `t` that leaves fewer challenges than the group has
exponents, so that two different challenges stay different modulo the order.
-/

namespace ThreeMove

structure Parameters (E : Type) (t : Nat) where
  group : PrimeGroup E
  isValid : group.isValid = true
  challengeCount_lt : challengeCount t < group.order
  /-- The number of challenges, computed once. -/
  challengeBound : Nat
  challengeBound_eq : challengeBound = challengeCount t

namespace Parameters

variable {E : Type}

/-- Parameters of a group, where `count` computes the number of challenges.  It is only called
when the number has no more digits than the order. -/
def ofGroupCounting {m : Type → Type} [Monad m]
    (count : (t : Nat) → m { bound : Nat // bound = challengeCount t })
    (group : PrimeGroup E) (t : Nat) : m (Except ParameterFault (Parameters E t)) :=
  if hv : group.isValid = true then
    if bitLength group.order ≤ t then return .error (.unsuitable .soundnessTooLarge)
    else do
      let ⟨bound, hbound⟩ ← count t
      if hc : bound < group.order then return .ok ⟨group, hv, hbound ▸ hc, bound, hbound⟩
      else return .error (.unsuitable .soundnessTooLarge)
  else return .error (.unsuitable .groupInvalid)

def ofGroup (group : PrimeGroup E) (t : Nat) : Except ParameterFault (Parameters E t) :=
  Id.run (ofGroupCounting (fun t => pure ⟨challengeCount t, rfl⟩) group t)

end Parameters

end ThreeMove
