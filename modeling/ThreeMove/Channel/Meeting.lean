import ThreeMove.Talk

/-!
# Meetings of two parties

Two talks answer each other over a lossless queue in each direction.  A reception waits for
the other party and fails once that party has ended, or also waits, so that no message can
come any more.
-/

namespace ThreeMove

/-- The results of both parties and what each of them sent. -/
structure Meeting (α β : Type) where
  left : α
  right : β
  leftSent : List Bytes
  rightSent : List Bytes

namespace Meeting

variable {α β : Type}

def leftSends (message : Bytes) (meeting : Meeting α β) : Meeting α β :=
  { meeting with leftSent := message :: meeting.leftSent }

def rightSends (message : Bytes) (meeting : Meeting α β) : Meeting α β :=
  { meeting with rightSent := message :: meeting.rightSent }

end Meeting

namespace Talk

variable {α β γ : Type}

/-- The talk on the messages of `inbox`, after which every reception fails: the result and
the messages sent. -/
def alone : Talk α → List Bytes → α × List Bytes
  | done a, _ => (a, [])
  | receive next, [] => (next (.error .disconnected)).alone []
  | receive next, message :: inbox => (next (.ok message)).alone inbox
  | send message next, inbox =>
      let (result, sent) := (next (.ok ())).alone inbox
      (result, message :: sent)

/-- Lets the talk run until it sends a message, ends, or waits on an empty `inbox`, and goes
on with what the party waiting for it receives. -/
def await (resume : Except ChannelFault Bytes → Talk β → List Bytes → Meeting α β) :
    Talk β → List Bytes → Meeting α β
  | done b, _ => resume (.error .disconnected) (done b) []
  | send message next, inbox =>
      (resume (.ok message) (next (.ok ())) inbox).rightSends message
  | receive next, message :: inbox => await resume (next (.ok message)) inbox
  | receive next, [] => resume (.error .disconnected) (next (.error .disconnected)) []

/-- The left party runs whenever it does not wait; `inbox` holds what the right party has
yet to read. -/
def meetWith : Talk α → Talk β → List Bytes → Meeting α β
  | done a, right, inbox =>
      let (b, sent) := right.alone inbox
      ⟨a, b, [], sent⟩
  | send message next, right, inbox =>
      ((next (.ok ())).meetWith right (inbox ++ [message])).leftSends message
  | receive next, right, inbox =>
      await (fun reply right inbox => (next reply).meetWith right inbox) right inbox

def meet (left : Talk α) (right : Talk β) : Meeting α β :=
  left.meetWith right []

end Talk

end ThreeMove
