import ThreeMove.Message
import ThreeMove.Pedersen.Message
import ThreeMove.Serial.Datum

/-!
# Stored forms of messages

Messages of the protocols and of the commitment scheme as self-describing data.  A protocol
message is a record with one field, whose name tells the kind of message.
-/

namespace ThreeMove

namespace Message

mutual

def toDatum : Message → Datum
  | element bytes => .record [("GroupElement", .ofBytes bytes)]
  | integer value size =>
      .record [("BigInteger", .record [("value", .ofNat value), ("size", .number size)])]
  | tuple parts => .record [("Multiple", .list (toDatumAll parts))]

def toDatumAll : List Message → List Datum
  | [] => []
  | part :: parts => part.toDatum :: toDatumAll parts

end

mutual

def ofDatum? : Datum → Option Message
  | .record [("GroupElement", bytes)] => do
      return element (← bytes.toBytes?)
  | .record [("BigInteger", .record fields)] => do
      let value ← (← Datum.field? "value" fields).toNat?
      let size ← (← Datum.field? "size" fields).toUInt64?
      return integer value size.toNat
  | .record [("Multiple", .list parts)] => do
      return tuple (← ofData? parts)
  | _ => none

def ofData? : List Datum → Option (List Message)
  | [] => some []
  | part :: parts => do
      let first ← ofDatum? part
      let rest ← ofData? parts
      return first :: rest

end

end Message

namespace Pedersen

def Commitment.toDatum (commitment : Commitment) : Datum :=
  .record [("id", .number commitment.id.toNat), ("c", .ofBytes commitment.element)]

def Commitment.ofDatum? (datum : Datum) : Option Commitment :=
  match datum.fields? ["id", "c"] with
  | some [id, element] => do return ⟨← id.toUInt64?, ← element.toBytes?⟩
  | _ => none

def Opening.toDatum (opening : Opening) : Datum :=
  .record [("id", .number opening.id.toNat), ("r", .ofNat opening.randomness),
    ("x", .ofNat opening.value)]

def Opening.ofDatum? (datum : Datum) : Option Opening :=
  match datum.fields? ["id", "r", "x"] with
  | some [id, randomness, value] => do
      return ⟨← id.toUInt64?, ← randomness.toNat?, ← value.toNat?⟩
  | _ => none

def Record.toDatum (record : Record) : Datum :=
  .record [("id", .number record.id.toNat), ("h", .ofBytes record.key),
    ("c", .ofBytes record.element)]

def Record.ofDatum? (datum : Datum) : Option Record :=
  match datum.fields? ["id", "h", "c"] with
  | some [id, key, element] => do
      return ⟨← id.toUInt64?, ← key.toBytes?, ← element.toBytes?⟩
  | _ => none

end Pedersen

end ThreeMove
