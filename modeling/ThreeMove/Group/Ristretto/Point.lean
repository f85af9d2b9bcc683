import ThreeMove.Group.Ristretto.Field

/-!
# Points of the Edwards curve

Points in extended coordinates of the curve `-x² + y² = 1 + d x² y²`, their complete
addition law, and the maps between points and the field elements that name their classes.
-/

namespace ThreeMove.Ristretto

/-- The coefficient `d` of the curve. -/
def edwardsD : Nat :=
  37095705934669439343138083508754565189542113879843219016388785533085940283555

/-- A square root of `-d - 1`. -/
def rootMinusDMinusOne : Nat :=
  25063068953384623474111414158702152701244531502492656460079210482610430750235

/-- The inverse of a square root of `-1 - d`. -/
def invRootMinusOneMinusD : Nat :=
  54469307008909316920995813868745141605393597292927456921205312896311721017578

/-- The value `1 - d²`. -/
def oneMinusDSquared : Nat :=
  1159843021668779879193775521855586647937357759715417654439879720876111806838

/-- The value `(d - 1)²`. -/
def dMinusOneSquared : Nat :=
  40440834346308536858101042469323190826248399146238708352240133220865137265952

structure Point where
  x : Nat
  y : Nat
  z : Nat
  t : Nat

namespace Point

def zero : Point := ⟨0, 1, 1, 0⟩

def add (p q : Point) : Point :=
  let a := mul (sub p.y p.x) (sub q.y q.x)
  let b := mul (Ristretto.add p.y p.x) (Ristretto.add q.y q.x)
  let c := mul (mul (Ristretto.add edwardsD edwardsD) p.t) q.t
  let d := mul (Ristretto.add p.z p.z) q.z
  let e := sub b a
  let f := sub d c
  let g := Ristretto.add d c
  let h := Ristretto.add b a
  ⟨mul e f, mul g h, mul f g, mul e h⟩

def neg (p : Point) : Point :=
  ⟨Ristretto.neg p.x, p.y, p.z, Ristretto.neg p.t⟩

/-- The sum of `acc` and `n` times `p`, from the last `digits` binary digits of `n`. -/
def multiplyAux : Nat → Nat → Point → Point → Point
  | 0, _, _, acc => acc
  | digits + 1, n, p, acc =>
      multiplyAux digits (n / 2) (p.add p) (if n % 2 = 1 then acc.add p else acc)

def multiply (n : Nat) (p : Point) : Point :=
  multiplyAux (bitLength n) n p zero

/-- The field element that names the class of a point. -/
def compress (p : Point) : Nat :=
  let u1 := mul (Ristretto.add p.z p.y) (sub p.z p.y)
  let u2 := mul p.x p.y
  let (_, root) := sqrtRatio 1 (mul u1 (mul u2 u2))
  let den1 := mul root u1
  let den2 := mul root u2
  let zInverse := mul (mul den1 den2) p.t
  let rotate := isNegative (mul p.t zInverse)
  let x := if rotate then mul p.y rootMinusOne else p.x
  let y := if rotate then mul p.x rootMinusOne else p.y
  let den := if rotate then mul den1 invRootMinusOneMinusD else den2
  let y := if isNegative (mul x zInverse) then Ristretto.neg y else y
  abs (mul den (sub p.z y))

/-- A point of the class with this name.  A name is a field element that is not negative
and that belongs to a class. -/
def decompress (s : Nat) : Option Point :=
  if s < fieldSize && !isNegative s then
    let ss := mul s s
    let u1 := sub 1 ss
    let u2 := Ristretto.add 1 ss
    let u2Squared := mul u2 u2
    let v := sub (Ristretto.neg (mul edwardsD (mul u1 u1))) u2Squared
    let (square, root) := sqrtRatio 1 (mul v u2Squared)
    let denX := mul root u2
    let denY := mul (mul root denX) v
    let x := abs (mul (Ristretto.add s s) denX)
    let y := mul u1 denY
    let t := mul x y
    if square && !isNegative t && y != 0 then some ⟨x, y, 1, t⟩ else none
  else none

/-- Maps a field element to a point, as the last step of hashing to the group. -/
def ofField (r0 : Nat) : Point :=
  let r := mul rootMinusOne (mul r0 r0)
  let u := mul (Ristretto.add r 1) oneMinusDSquared
  let v := mul (sub (Ristretto.neg 1) (mul r edwardsD)) (Ristretto.add r edwardsD)
  let (square, root) := sqrtRatio u v
  let s := if square then root else Ristretto.neg (abs (mul root r0))
  let c := if square then Ristretto.neg 1 else r
  let n := sub (mul (mul c (sub r 1)) dMinusOneSquared) v
  let w0 := mul (Ristretto.add s s) v
  let w1 := mul n rootMinusDMinusOne
  let w2 := sub 1 (mul s s)
  let w3 := Ristretto.add 1 (mul s s)
  ⟨mul w0 w3, mul w2 w1, mul w1 w3, mul w0 w2⟩

end Point

end ThreeMove.Ristretto
