import ThreeMove.Bytes

/-!
# Loopback channel

Two ends joined by a lossless queue in each direction.  An end that is closed or dropped
sends no more, but what it sent before stays readable.  A dropped end also receives no more,
so sending to it fails, while closing an end does not hinder the other.
-/

namespace ThreeMove

inductive Side where
  | left
  | right
deriving DecidableEq, Repr

def Side.other : Side → Side
  | left => right
  | right => left

namespace Loopback

structure End where
  inbox : List Bytes := []
  closed : Bool := false
  dropped : Bool := false

end Loopback

structure Loopback where
  left : Loopback.End := {}
  right : Loopback.End := {}

namespace Loopback

inductive Request where
  | write (message : Bytes)
  | read
  | close
  | drop

inductive Reply where
  | done
  | message (bytes : Bytes)
  | disconnected
  /-- Nothing is pending, but the other end may still send. -/
  | wouldBlock
  /-- The end was dropped, so it takes no requests. -/
  | gone
deriving DecidableEq, Repr

def get (channel : Loopback) : Side → End
  | .left => channel.left
  | .right => channel.right

def set (channel : Loopback) (side : Side) (value : End) : Loopback :=
  match side with
  | .left => { channel with left := value }
  | .right => { channel with right := value }

def write (channel : Loopback) (side : Side) (message : Bytes) : Reply × Loopback :=
  let peer := channel.get side.other
  if (channel.get side).closed || peer.dropped then (.disconnected, channel)
  else (.done, channel.set side.other { peer with inbox := peer.inbox ++ [message] })

def read (channel : Loopback) (side : Side) : Reply × Loopback :=
  let own := channel.get side
  let peer := channel.get side.other
  match own.inbox with
  | message :: rest => (.message message, channel.set side { own with inbox := rest })
  | [] =>
      if peer.closed || peer.dropped then (.disconnected, channel) else (.wouldBlock, channel)

def close (channel : Loopback) (side : Side) : Reply × Loopback :=
  (.done, channel.set side { channel.get side with closed := true })

def drop (channel : Loopback) (side : Side) : Reply × Loopback :=
  (.done, channel.set side { channel.get side with dropped := true })

/-- What one end asks of the channel. -/
def step (channel : Loopback) (side : Side) (request : Request) : Reply × Loopback :=
  if (channel.get side).dropped then (.gone, channel)
  else
    match request with
    | .write message => channel.write side message
    | .read => channel.read side
    | .close => channel.close side
    | .drop => channel.drop side

end Loopback

end ThreeMove
