import ThreeMove.Bytes
import ThreeMove.Fault

/-!
# Protocol messages

A message is an encoded group element, an integer in a declared width, or a tuple of
messages.  Its bytes carry no framing: a reader needs the layout, which is the message
without its contents.

Sizes are natural numbers, so that their sums and multiples never wrap around.  In machine words
of 64 bits the same arithmetic is exact for messages and layouts of fewer than 2⁶¹ bytes, which is
more than any memory holds; beyond that bound the natural numbers are an idealisation.
-/

namespace ThreeMove

inductive Message where
  | element (bytes : Bytes)
  | integer (value size : Nat)
  | tuple (parts : List Message)
deriving Inhabited

inductive Layout where
  | element (size : Nat)
  | integer (size : Nat)
  | tuple (parts : List Layout)
deriving Inhabited, BEq

namespace Layout

mutual

/-- The number of bytes of every message of this layout.  In words the sum is exact below 2⁶⁴. -/
def size : Layout → Nat
  | element size => size
  | integer size => size
  | tuple parts => sizeAll parts

def sizeAll : List Layout → Nat
  | [] => 0
  | part :: parts => part.size + sizeAll parts

end

end Layout

namespace Message

mutual

def layout : Message → Layout
  | element bytes => .element bytes.length
  | integer _ size => .integer size
  | tuple parts => .tuple (layoutAll parts)

def layoutAll : List Message → List Layout
  | [] => []
  | part :: parts => part.layout :: layoutAll parts

end

def size (message : Message) : Nat :=
  message.layout.size

mutual

/-- An integer needs room for its binary digits and a clear bit before them.  In words `8 * size`
is exact for sizes below 2⁶¹. -/
def encode : Message → Except MessageFault Bytes
  | element bytes => .ok bytes
  | integer value size =>
      if bitLength value < 8 * size then .ok (Bytes.ofNat size value)
      else .error (.malformed .integerTooWide)
  | tuple parts => encodeAll parts

def encodeAll : List Message → Except MessageFault Bytes
  | [] => .ok []
  | part :: parts => do
      let first ← part.encode
      let rest ← encodeAll parts
      return first ++ rest

end

/-- Takes `size` bytes off the front. -/
def takeField (size : Nat) (bytes : Bytes) : Except MessageFault (Bytes × Bytes) :=
  if bytes.length < size then .error (.malformed .messageTruncated)
  else .ok (bytes.take size, bytes.drop size)

mutual

/-- Reads a message off the front and returns the bytes behind it. -/
def read : Layout → Bytes → Except MessageFault (Message × Bytes)
  | .element size, bytes => do
      let (field, rest) ← takeField size bytes
      return (element field, rest)
  | .integer size, bytes => do
      let (field, rest) ← takeField size bytes
      match field.toNatural? with
      | some value => return (integer value size, rest)
      | none => throw (.malformed .integerNegative)
  | .tuple parts, bytes => do
      let (messages, rest) ← readAll parts bytes
      return (tuple messages, rest)

def readAll : List Layout → Bytes → Except MessageFault (List Message × Bytes)
  | [], bytes => .ok ([], bytes)
  | part :: parts, bytes => do
      let (message, rest) ← read part bytes
      let (messages, rest) ← readAll parts rest
      return (message :: messages, rest)

end

/-- Reads a message that fills the bytes exactly. -/
def decode (layout : Layout) (bytes : Bytes) : Except MessageFault Message := do
  let (message, rest) ← read layout bytes
  if rest.isEmpty then return message
  else throw (.malformed .trailingBytes)

end Message

end ThreeMove
