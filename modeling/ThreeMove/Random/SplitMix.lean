import ThreeMove.Random.Source

/-!
# Reproducible streams

A stream that plays back a tape of bytes and continues with the SplitMix64 generator.
-/

namespace ThreeMove

namespace SplitMix

/-- Word number `index` of the generator started from `seed`. -/
def word (seed : UInt64) (index : Nat) : UInt64 :=
  let z := seed + UInt64.ofNat (index + 1) * 0x9E3779B97F4A7C15
  let z := (z ^^^ (z >>> 30)) * 0xBF58476D1CE4E5B9
  let z := (z ^^^ (z >>> 27)) * 0x94D049BB133111EB
  z ^^^ (z >>> 31)

/-- The generator's words, each least significant byte first. -/
def byte (seed : UInt64) (index : Nat) : UInt8 :=
  (word seed (index / 8) >>> UInt64.ofNat (8 * (index % 8))).toUInt8

end SplitMix

/-- The bytes of the tape, then those of the generator. -/
def Source.ofTape (tape : Bytes) (seed : UInt64) : Source :=
  let cells := tape.toArray
  { stream := fun k =>
      if h : k < cells.size then cells[k] else SplitMix.byte seed (k - cells.size)
    position := 0 }

end ThreeMove
