import ThreeMove.Channel.Loopback
import ThreeMove.Talk

/-!
# A pipe in hostile hands

A pipe joins two sides, and whoever controls it may put in messages, and drop, reorder,
repeat and change those on their way.  A reception on an empty side fails at once.  A side
whose peer is gone still reads what was pending, and a closed side only reads.
-/

namespace ThreeMove

/-- A change of a message; the parts that are given apply in order. -/
structure Edit where
  replace : Option Bytes := none
  /-- The byte at this place is combined with the mask by exclusive or. -/
  flip : Option (Nat × UInt8) := none
  truncate : Option Nat := none
  append : Option Bytes := none

def Edit.apply (edit : Edit) (message : Bytes) : Bytes :=
  let message := edit.replace.getD message
  let message := match edit.flip with
    | some (place, mask) => message.modify place (· ^^^ mask)
    | none => message
  let message := match edit.truncate with
    | some length => message.take length
    | none => message
  message ++ edit.append.getD []

namespace Pipe

structure End where
  inbox : List Bytes := []
  closed : Bool := false
  /-- The peer of this side is gone. -/
  severed : Bool := false

end Pipe

structure Pipe where
  left : Pipe.End := {}
  right : Pipe.End := {}

namespace Pipe

def get (pipe : Pipe) : Side → End
  | .left => pipe.left
  | .right => pipe.right

def set (pipe : Pipe) (side : Side) (value : End) : Pipe :=
  match side with
  | .left => { pipe with left := value }
  | .right => { pipe with right := value }

def pending (pipe : Pipe) (side : Side) : List Bytes :=
  (pipe.get side).inbox

def changeInbox (pipe : Pipe) (side : Side) (f : List Bytes → List Bytes) : Pipe :=
  pipe.set side { pipe.get side with inbox := f (pipe.pending side) }

/-- Nothing reaches a side whose peer is gone. -/
def inject (pipe : Pipe) (side : Side) (message : Bytes) : Pipe :=
  if (pipe.get side).severed then pipe else pipe.changeInbox side (· ++ [message])

def discard (pipe : Pipe) (side : Side) : Pipe :=
  pipe.changeInbox side List.tail

/-- Moves the oldest message to the end. -/
def rotate (pipe : Pipe) (side : Side) : Pipe :=
  pipe.changeInbox side fun
    | [] => []
    | oldest :: rest => rest ++ [oldest]

def duplicate (pipe : Pipe) (side : Side) : Pipe :=
  pipe.changeInbox side fun
    | [] => []
    | oldest :: rest => oldest :: oldest :: rest

def editOldest (pipe : Pipe) (side : Side) (edit : Edit) : Pipe :=
  pipe.changeInbox side fun
    | [] => []
    | oldest :: rest => edit.apply oldest :: rest

/-- The peer of the side goes away. -/
def disconnect (pipe : Pipe) (side : Side) : Pipe :=
  pipe.set side { pipe.get side with severed := true }

def close (pipe : Pipe) (side : Side) : Pipe :=
  pipe.set side { pipe.get side with closed := true }

def read (pipe : Pipe) (side : Side) : Except ChannelFault Bytes × Pipe :=
  match pipe.pending side with
  | message :: rest => (.ok message, pipe.changeInbox side fun _ => rest)
  | [] => (.error .disconnected, pipe)

def write (pipe : Pipe) (side : Side) (message : Bytes) : Except ChannelFault Unit × Pipe :=
  if (pipe.get side).closed || (pipe.get side).severed then (.error .disconnected, pipe)
  else (.ok (), pipe.inject side.other message)

/-- The talk on one side, and the messages that it sent. -/
def talk {α : Type} (side : Side) (t : Talk α) (pipe : Pipe) : α × List Bytes × Pipe :=
  let read (channel : List Bytes × Pipe) :=
    let (reply, pipe) := channel.2.read side
    (reply, (channel.1, pipe))
  let write (channel : List Bytes × Pipe) (message : Bytes) :=
    match channel.2.write side message with
    | (.ok (), pipe) => (.ok (), (channel.1 ++ [message], pipe))
    | (.error e, pipe) => (.error e, (channel.1, pipe))
  t.run read write ([], pipe)

end Pipe

end ThreeMove
