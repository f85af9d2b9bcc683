import ThreeMove.Group.Basic
import ThreeMove.Group.Primality

/-!
# Squares modulo a safe prime

For primes `q` and `p = 2q + 1` the squares modulo `p` form a group of order `q`.  The
parameters are only checked for their shape when they are put together; whether they are
prime and whether the generator is a square is left to the validity tests.
-/

namespace ThreeMove

structure SafePrime where
  order : Nat
  generator : Nat
  one_lt_order : 1 < order
  one_lt_generator : 1 < generator
  generator_lt : generator < 2 * order + 1

namespace SafePrime

def modulus (params : SafePrime) : Nat :=
  2 * params.order + 1

/-- Parameters from a modulus `p`, an order `q` and a generator `g`. -/
def ofNumbers (p q g : Nat) : Except GroupFault SafePrime :=
  if hq : 1 < q then
    if p = 2 * q + 1 then
      if hg : 1 < g ∧ g < 2 * q + 1 then .ok ⟨q, g, hq, hg.1, hg.2⟩
      else .error (.unsuitable .generatorOutOfRange)
    else .error (.unsuitable .modulusNotTwiceOrder)
  else .error (.unsuitable .orderTooSmall)

/-- Members are the residues whose `q`-th power is one. -/
def isMember (params : SafePrime) (x : Nat) : Bool :=
  x ≠ 0 && x < params.modulus && powMod params.modulus x params.order == 1

def element (params : SafePrime) (x : Nat) : Except GroupFault Nat :=
  if params.isMember x then .ok x else .error (.noElement .notQuadraticResidue)

def pow (params : SafePrime) (base exponent : Nat) : Nat :=
  powMod params.modulus base (exponent % params.order)

def elementSize (params : SafePrime) : Nat :=
  (bitLength params.modulus + 7) / 8

/-- No bytes at all for a number that is too large to be an element. -/
def encode (params : SafePrime) (x : Nat) : Bytes :=
  (Bytes.ofNat? params.elementSize x).getD []

def decode (params : SafePrime) (bytes : Bytes) : Except GroupFault Nat :=
  if bytes.length = params.elementSize then params.element bytes.toNat
  else .error (.noElement .elementWrongSize)

def sample (params : SafePrime) (source : Source) : Nat × Source :=
  let (exponent, rest) := source.below params.order
  (params.pow params.generator exponent, rest)

/-- The generator is a member other than one. -/
def generates (params : SafePrime) : Bool :=
  params.isMember params.generator && params.generator ≠ 1

def isValid (params : SafePrime) : Bool :=
  Primality.isProbablePrime params.order && Primality.isProbablePrime params.modulus
    && params.generates

/-- A number that fails its test ends the check, and no more witnesses are drawn. -/
def checkValid (params : SafePrime) (source : Source) : Bool × Source :=
  match Primality.isPrimeDrawing params.order source with
  | (false, rest) => (false, rest)
  | (true, rest) =>
      match Primality.isPrimeDrawing params.modulus rest with
      | (false, rest) => (false, rest)
      | (true, rest) => (params.generates, rest)

def group (params : SafePrime) : PrimeGroup Nat where
  generator := params.generator
  order := params.order
  identity := 1
  mul x y := x * y % params.modulus
  inv x := powMod params.modulus x (params.order - 1)
  pow := params.pow
  isMember := params.isMember
  sample := params.sample
  isValid := params.isValid
  checkValid := params.checkValid
  hardness := .ddh
  elementSize := params.elementSize
  encode := params.encode
  decode := params.decode

end SafePrime

end ThreeMove
