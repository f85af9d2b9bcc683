import ThreeMove.Bytes
import ThreeMove.Fault
import ThreeMove.Random.Source

/-!
# Challenges and commitment identifiers

A challenge is a natural number; under a soundness parameter `t` it has at most `t` binary
digits.  Commitments are told apart by 64-bit identifiers.
-/

namespace ThreeMove

abbrev Challenge := Nat

abbrev Id := UInt64

/-- The number of challenges under the soundness parameter `t`. -/
def challengeCount (t : Nat) : Nat := 1 <<< t

namespace Challenge

/-- The challenge has at most `t` binary digits, so it is below `challengeCount t`. -/
def inRange (challenge : Challenge) (t : Nat) : Bool :=
  decide (bitLength challenge ≤ t)

/-- Moves refuse a challenge of more than `t` digits. -/
def check (challenge : Challenge) (t : Nat) : Except SigmaFault Unit :=
  if challenge.inRange t then .ok () else .error (.cheating .challengeOutOfRange)

def sample (t : Nat) (source : Source) : Challenge × Source :=
  source.bits t

def encode (challenge : Challenge) : Bytes :=
  Bytes.shortest challenge

def decode (bytes : Bytes) : Except MessageFault Challenge :=
  match bytes.toNatural? with
  | some challenge => .ok challenge
  | none => .error (.malformed .challengeNegative)

end Challenge

end ThreeMove
