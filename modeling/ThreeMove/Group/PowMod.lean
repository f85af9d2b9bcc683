import ThreeMove.Bytes

/-!
# Powers modulo a number

Square and multiply, one binary digit of the exponent at a time.
-/

namespace ThreeMove

/-- The product of `acc` and `base ^ exponent` modulo `modulus`, from the last `digits`
binary digits of the exponent. -/
def powModAux (modulus : Nat) : Nat → Nat → Nat → Nat → Nat
  | 0, _, _, acc => acc
  | digits + 1, base, exponent, acc =>
      powModAux modulus digits (base * base % modulus) (exponent / 2)
        (if exponent % 2 = 1 then acc * base % modulus else acc)

def powMod (modulus base exponent : Nat) : Nat :=
  powModAux modulus (bitLength exponent) (base % modulus) exponent (1 % modulus)

end ThreeMove
