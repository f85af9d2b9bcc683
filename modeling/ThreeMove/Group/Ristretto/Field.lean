import ThreeMove.Group.PowMod

/-!
# The field of 2²⁵⁵ - 19 elements

Field elements are natural numbers below the modulus.  An element is called negative when
it is odd.
-/

namespace ThreeMove.Ristretto

def fieldSize : Nat :=
  57896044618658097711785492504343953926634992332820282019728792003956564819949

def add (a b : Nat) : Nat := (a + b) % fieldSize
def sub (a b : Nat) : Nat := (a + (fieldSize - b)) % fieldSize
def mul (a b : Nat) : Nat := a * b % fieldSize
def neg (a : Nat) : Nat := (fieldSize - a) % fieldSize

def isNegative (a : Nat) : Bool := a % 2 == 1

/-- The one of `a` and `-a` that is not negative. -/
def abs (a : Nat) : Nat := if isNegative a then neg a else a

/-- A square root of `-1`. -/
def rootMinusOne : Nat :=
  19681161376707505956807079304988542015446066515923890162744021073123829784752

/-- Whether `u / v` is a square, and the root, not negative, of `u / v` or else of
`rootMinusOne * u / v`.  For `v = 0` the root is zero. -/
def sqrtRatio (u v : Nat) : Bool × Nat :=
  let v3 := mul (mul v v) v
  let v7 := mul (mul v3 v3) v
  let exponent := (fieldSize - 5) / 8
  let root := mul (mul u v3) (powMod fieldSize (mul u v7) exponent)
  let check := mul v (mul root root)
  let correct := check == u
  let flipped := check == neg u
  let flippedTwisted := check == neg (mul u rootMinusOne)
  let root := if flipped || flippedTwisted then mul root rootMinusOne else root
  (correct || flipped, abs root)

end ThreeMove.Ristretto
