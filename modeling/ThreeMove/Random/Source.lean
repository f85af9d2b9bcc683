import ThreeMove.Bytes

/-!
# Random streams and draws

A source is an endless stream of bytes together with the number of bytes already taken.
Every draw takes the next bytes and returns the source it leaves behind, so the position
tells how much randomness a computation has used.
-/

namespace ThreeMove

structure Source where
  stream : Nat → UInt8
  position : Nat

namespace Source

def take (source : Source) (count : Nat) : Bytes × Source :=
  ((List.range count).map fun i => source.stream (source.position + i),
    { source with position := source.position + count })

/-- A number of at most `count` binary digits.  Whole 32-bit words are taken, the least
significant word and byte first, and the surplus low bits of the last word are dropped. -/
def bits (source : Source) (count : Nat) : Nat × Source :=
  let words := (count + 31) / 32
  let (bytes, rest) := source.take (4 * words)
  let low : Bytes := bytes.take (4 * (words - 1))
  let high : Bytes := bytes.drop (4 * (words - 1))
  (low.toNatLittle + ((high.toNatLittle >>> (32 * words - count)) <<< (32 * (words - 1))), rest)

/-- Draws as many binary digits as `bound` has, at most `attempts` times, until the number
is below `bound`; then gives up with zero. -/
def belowWithin (bound : Nat) : Nat → Source → Nat × Source
  | 0, source => (0, source)
  | attempts + 1, source =>
      let (n, rest) := source.bits (bitLength bound)
      if n < bound then (n, rest) else belowWithin bound attempts rest

/-- A number below a positive `bound`.  A sampler goes on drawing until an attempt succeeds, on
some streams for ever.  Here the draw is given up after 65536 refused attempts, with the number
zero, so that it is defined on all streams.  Each attempt succeeds with probability at least one
half, and `below_cases` tells the draws that succeeded from those that were given up. -/
def below (source : Source) (bound : Nat) : Nat × Source :=
  belowWithin bound 65536 source

/-- What the attempts of a draw give, one after the other, if none of them ends it. -/
def attempt (bound : Nat) : Nat → Source → Nat × Source
  | 0, source => source.bits (bitLength bound)
  | k + 1, source => attempt bound k (source.bits (bitLength bound)).2

/-- Attempt `k` is the first one whose number is below the bound. -/
structure Succeeds (source : Source) (bound k : Nat) : Prop where
  refused : ∀ j < k, bound ≤ (attempt bound j source).1
  lt : (attempt bound k source).1 < bound

theorem Succeeds.succ {source : Source} {bound k : Nat}
    (hrefused : bound ≤ (source.bits (bitLength bound)).1)
    (hsucceeds : (source.bits (bitLength bound)).2.Succeeds bound k) :
    source.Succeeds bound (k + 1) := by
  refine ⟨fun j hj => ?_, hsucceeds.lt⟩
  cases j with
  | zero => exact hrefused
  | succ j => exact hsucceeds.refused j (Nat.lt_of_succ_lt_succ hj)

theorem belowWithin_cases (bound : Nat) : ∀ (attempts : Nat) (source : Source),
    (∃ k < attempts, source.Succeeds bound k ∧
        belowWithin bound attempts source = attempt bound k source) ∨
      ((∀ k < attempts, bound ≤ (attempt bound k source).1) ∧
        (belowWithin bound attempts source).1 = 0)
  | 0, _ => .inr ⟨nofun, rfl⟩
  | attempts + 1, source => by
      by_cases hlt : (source.bits (bitLength bound)).1 < bound
      · exact .inl ⟨0, attempts.succ_pos, ⟨nofun, hlt⟩, if_pos hlt⟩
      · have hnext : belowWithin bound (attempts + 1) source =
            belowWithin bound attempts (source.bits (bitLength bound)).2 := if_neg hlt
        rw [hnext]
        rcases belowWithin_cases bound attempts (source.bits (bitLength bound)).2 with
          ⟨k, hk, hsucceeds, heq⟩ | ⟨hrefused, hzero⟩
        · exact .inl ⟨k + 1, Nat.succ_lt_succ hk, hsucceeds.succ (Nat.le_of_not_lt hlt), heq⟩
        · refine .inr ⟨fun k hk => ?_, hzero⟩
          cases k with
          | zero => exact Nat.le_of_not_lt hlt
          | succ k => exact hrefused k (Nat.lt_of_succ_lt_succ hk)

/-- A draw is its first attempt that succeeds, unless all of them are refused. -/
theorem below_cases (source : Source) (bound : Nat) :
    (∃ k < 65536, source.Succeeds bound k ∧ source.below bound = attempt bound k source) ∨
      ((∀ k < 65536, bound ≤ (attempt bound k source).1) ∧ (source.below bound).1 = 0) :=
  belowWithin_cases bound 65536 source

theorem below_lt (source : Source) {bound : Nat} (hbound : 0 < bound) :
    (source.below bound).1 < bound := by
  rcases source.below_cases bound with ⟨k, -, hsucceeds, heq⟩ | ⟨-, hzero⟩
  · rw [heq]
    exact hsucceeds.lt
  · rw [hzero]
    exact hbound

/-- A 64-bit word, least significant byte first. -/
def word (source : Source) : UInt64 × Source :=
  let (bytes, rest) := source.take 8
  (UInt64.ofNat bytes.toNatLittle, rest)

end Source

end ThreeMove
