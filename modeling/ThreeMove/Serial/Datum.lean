import ThreeMove.Bytes

/-!
# Self-describing data

The data model in which values are stored outside the protocols: natural numbers, lists and
records.  A record may also be given as the list of its fields in order.  A natural number
of any size is the list of its digits to base 2³², least significant first, without zeros
at the end.
-/

namespace ThreeMove

inductive Datum where
  | number (n : Nat)
  | list (items : List Datum)
  | record (fields : List (String × Datum))
  /-- Data of a kind that no value is stored as. -/
  | other
deriving Inhabited

namespace Datum

def limbs : Nat → Nat → List Nat
  | 0, _ => []
  | count + 1, n => n % 4294967296 :: limbs count (n / 4294967296)

def ofNat (n : Nat) : Datum :=
  list ((limbs ((bitLength n + 31) / 32) n).map number)

def ofBytes (bytes : Bytes) : Datum :=
  list (bytes.map fun byte => number byte.toNat)

def toNumber? (bound : Nat) : Datum → Option Nat
  | number n => if n < bound then some n else none
  | _ => none

def toNat? : Datum → Option Nat
  | list items => do
      let digits ← items.mapM (toNumber? 4294967296)
      return digits.foldr (fun digit n => digit + 4294967296 * n) 0
  | _ => none

def toBytes? : Datum → Option Bytes
  | list items => do
      let values ← items.mapM (toNumber? 256)
      return values.map UInt8.ofNat
  | _ => none

def toUInt64? (datum : Datum) : Option UInt64 :=
  (datum.toNumber? 18446744073709551616).map UInt64.ofNat

def field? (name : String) (fields : List (String × Datum)) : Option Datum :=
  (fields.find? fun field => field.1 == name).map Prod.snd

/-- The values of the named fields, in the order of the names. -/
def fields? (names : List String) : Datum → Option (List Datum)
  | record fields => names.mapM fun name => field? name fields
  | list items => if items.length = names.length then some items else none
  | _ => none

end Datum

end ThreeMove
