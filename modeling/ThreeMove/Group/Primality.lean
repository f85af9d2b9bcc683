import ThreeMove.Group.PowMod
import ThreeMove.Random.Source

/-!
# Tests for primality

Trial division by small primes and Miller–Rabin rounds, first with the small primes as
bases and then, if randomness is at hand, with drawn bases.
-/

namespace ThreeMove

namespace Primality

/-- The bases of the fixed rounds. -/
def smallPrimes : List Nat := [2, 3, 5, 7, 11, 13, 17, 19, 23, 29, 31, 37]

/-- The number of rounds with drawn bases. -/
def drawnRounds : Nat := 64

/-- Divides by two while the number is even, at most `fuel` times. -/
def splitTwos : Nat → Nat → Nat × Nat
  | 0, n => (0, n)
  | fuel + 1, n =>
      if n % 2 = 0 then
        let (twos, odd) := splitTwos fuel (n / 2)
        (twos + 1, odd)
      else (0, n)

/-- Looks for `n - 1` among the next `squarings` repeated squares of `x`. -/
def reachesMinusOne (n : Nat) : Nat → Nat → Bool
  | 0, _ => false
  | squarings + 1, x =>
      let y := x * x % n
      y == n - 1 || reachesMinusOne n squarings y

/-- One Miller–Rabin round for an odd `n > 2`; it fails if `base` shows `n` composite. -/
def strongRound (n base : Nat) : Bool :=
  let (twos, odd) := splitTwos (bitLength (n - 1)) (n - 1)
  let x := powMod n base odd
  x == 1 || x == n - 1 || reachesMinusOne n (twos - 1) x

/-- Decides by equality or divisibility where one of the small primes allows it. -/
def trialDivision (n : Nat) : List Nat → Option Bool
  | [] => none
  | p :: ps =>
      if n = p then some true
      else if n % p = 0 then some false
      else trialDivision n ps

/-- The test with fixed bases. -/
def isProbablePrime (n : Nat) : Bool :=
  if n < 2 then false
  else
    match trialDivision n smallPrimes with
    | some answer => answer
    | none => smallPrimes.all (strongRound n)

/-- Rounds with bases from `[2, n - 2]`, up to the first that fails. -/
def drawRounds (n : Nat) : Nat → Source → Bool × Source
  | 0, source => (true, source)
  | rounds + 1, source =>
      let (base, rest) := source.below (n - 3)
      if strongRound n (base + 2) then drawRounds n rounds rest else (false, rest)

/-- The fixed test, and then the rounds with drawn bases. -/
def isPrimeDrawing (n : Nat) (source : Source) : Bool × Source :=
  if !isProbablePrime n then (false, source)
  else if n ≤ 37 then (true, source)
  else drawRounds n drawnRounds source

end Primality

end ThreeMove
