import ThreeMove.Bytes
import ThreeMove.Fault
import ThreeMove.Random.Source

/-!
# Groups with a generator

The protocols see a group as a record of operations: a generator of a declared order, the
group operations, tests on elements and on the group itself, and an encoding of elements in
a fixed number of bytes.  Exponents are integers and count modulo the order.
-/

namespace ThreeMove

/-- The problem that is declared to be hard in a group, each one implying those before. -/
inductive Hardness where
  | unspecified
  | dlog
  | cdh
  | ddh
deriving DecidableEq, Repr

namespace Hardness

def name : Hardness → String
  | unspecified => "Unspecified"
  | dlog => "Dlog"
  | cdh => "Cdh"
  | ddh => "Ddh"

def ofName? (text : String) : Option Hardness :=
  [unspecified, dlog, cdh, ddh].find? fun hardness => hardness.name == text

end Hardness

structure PrimeGroup (E : Type) where
  generator : E
  order : Nat
  identity : E
  mul : E → E → E
  inv : E → E
  pow : E → Nat → E
  isMember : E → Bool
  sample : Source → E × Source
  /-- The parameters of the group pass the fixed tests. -/
  isValid : Bool
  /-- Tests the parameters with drawn witnesses as well. -/
  checkValid : Source → Bool × Source
  hardness : Hardness
  elementSize : Nat
  encode : E → Bytes
  decode : Bytes → Except GroupFault E

namespace PrimeGroup

variable {E : Type}

/-- Bytes of an exponent: enough for the order and a clear bit before it. -/
def scalarSize (group : PrimeGroup E) : Nat :=
  bitLength group.order / 8 + 1

/-- Powers with exponents of any sign. -/
def powInt (group : PrimeGroup E) (base : E) (exponent : Int) : E :=
  group.pow base (exponent % (group.order : Int)).toNat

/-- The logarithm problem is declared to be hard, by itself or with a problem it solves. -/
def hidesLogarithms (group : PrimeGroup E) : Bool :=
  match group.hardness with
  | .unspecified => false
  | .dlog | .cdh | .ddh => true

/-- The same group under another declaration.  Its tests draw no witnesses. -/
def declaring (group : PrimeGroup E) (hardness : Hardness) : PrimeGroup E :=
  { group with
    hardness := hardness
    checkValid := fun source => (group.isValid, source) }

end PrimeGroup

end ThreeMove
