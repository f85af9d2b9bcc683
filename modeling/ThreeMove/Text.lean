import ThreeMove.Bytes

/-!
# Bytes and numbers as text

Bytes are written as two lower-case hexadecimal digits each, numbers in decimal.
-/

namespace ThreeMove.Text

def hexDigits : List Char :=
  ['0', '1', '2', '3', '4', '5', '6', '7', '8', '9', 'a', 'b', 'c', 'd', 'e', 'f']

def ofByte (byte : UInt8) : List Char :=
  [hexDigits.getD (byte.toNat / 16) '0', hexDigits.getD (byte.toNat % 16) '0']

def ofBytes (bytes : Bytes) : String :=
  String.ofList (bytes.flatMap ofByte)

def hexValue? (c : Char) : Option Nat :=
  hexDigits.findIdx? (· == c)

def hexPairs? : List Char → Option Bytes
  | [] => some []
  | [_] => none
  | high :: low :: rest => do
      let byte := UInt8.ofNat (16 * (← hexValue? high) + (← hexValue? low))
      let bytes ← hexPairs? rest
      return byte :: bytes

def bytes? (text : String) : Option Bytes :=
  hexPairs? text.toList

def decimalValue? (c : Char) : Option Nat :=
  if c.isDigit then some (c.toNat - 48) else none

/-- A decimal number of at least one digit. -/
def digits? (digits : List Char) : Option Nat :=
  if digits.isEmpty then none
  else digits.foldlM (fun n c => (decimalValue? c).map (10 * n + ·)) 0

def natural? (text : String) : Option Nat :=
  digits? text.toList

/-- A decimal number, perhaps after a minus sign. -/
def integer? (text : String) : Option Int :=
  match text.toList with
  | '-' :: digits => (digits? digits).map fun n => -(n : Int)
  | digits => (digits? digits).map fun n => (n : Int)

end ThreeMove.Text
