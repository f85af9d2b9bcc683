import ThreeMove.Group.Basic
import ThreeMove.Group.Ristretto.Point

/-!
# The Ristretto group

The group of prime order 2²⁵² + 27742317777372353535851937790883648493 whose elements are
classes of points of the Edwards curve.  An element is held by the field element that names
its class, so two elements are equal exactly when their encodings are, and there are no others
than the canonical ones.
-/

namespace ThreeMove.Ristretto

/-- A class of points, held by its name. -/
structure Element where
  name : Nat
  isName : (Point.decompress name).isSome
deriving DecidableEq, Repr

def identity : Element :=
  ⟨0, by decide +kernel⟩

def generator : Element :=
  ⟨53453403443306840533278073560698739391446669128918427283046925944918568268514,
    by decide +kernel⟩

namespace Element

def toPoint (element : Element) : Point :=
  (Point.decompress element.name).get element.isName

/-- A point of the curve compresses to the name of its class.  The identity would stand in for
other coordinates, which no operation yields. -/
def ofPoint (point : Point) : Element :=
  if h : (Point.decompress point.compress).isSome then ⟨point.compress, h⟩ else identity

end Element

def groupOrder : Nat :=
  7237005577332262213973186563042994240857116359379907606001950938285454250989

def pow (base : Element) (exponent : Nat) : Element :=
  .ofPoint (Point.multiply (exponent % groupOrder) base.toPoint)

/-- The sum of two mapped field elements, each from 32 bytes without their first bit. -/
def sample (source : Source) : Element × Source :=
  let (bytes, rest) := source.take 64
  let first := Bytes.toNatLittle (bytes.take 32) % (1 <<< 255) % fieldSize
  let second := Bytes.toNatLittle (bytes.drop 32) % (1 <<< 255) % fieldSize
  (.ofPoint ((Point.ofField first).add (Point.ofField second)), rest)

/-- The generator is not trivial, and its order divides the group's. -/
def isValid : Bool :=
  generator ≠ identity && pow generator groupOrder = identity

def encode (element : Element) : Bytes :=
  (Bytes.ofNat 32 element.name).reverse

def decode (bytes : Bytes) : Except GroupFault Element :=
  if bytes.length = 32 then
    let name := bytes.toNatLittle
    if h : (Point.decompress name).isSome then .ok ⟨name, h⟩
    else .error (.noElement .notCanonicalPoint)
  else .error (.noElement .elementWrongSize)

def group : PrimeGroup Element where
  generator := generator
  order := groupOrder
  identity := identity
  mul x y := .ofPoint (x.toPoint.add y.toPoint)
  inv x := .ofPoint x.toPoint.neg
  pow := pow
  isMember _ := true
  sample := sample
  isValid := isValid
  checkValid source := (isValid, source)
  hardness := .ddh
  elementSize := 32
  encode := encode
  decode := decode

end ThreeMove.Ristretto
