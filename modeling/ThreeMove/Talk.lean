import ThreeMove.Bytes
import ThreeMove.Fault

/-!
# Talks

What a party does on its channel, as a tree of receptions and transmissions.  The tree says
how the party goes on for every answer of the channel, and it leaves open who answers: a
pipe, a list of messages, or another party.
-/

namespace ThreeMove

inductive Talk (α : Type) where
  | done (result : α)
  | receive (next : Except ChannelFault Bytes → Talk α)
  | send (message : Bytes) (next : Except ChannelFault Unit → Talk α)

namespace Talk

variable {α β : Type}

/-- Goes on with `f` where the first talk ends. -/
def bind : Talk α → (α → Talk β) → Talk β
  | done a, f => f a
  | receive next, f => receive fun reply => (next reply).bind f
  | send message next, f => send message fun reply => (next reply).bind f

instance : Monad Talk where
  pure := done
  bind := bind

theorem bind_done (t : Talk α) : t.bind done = t := by
  induction t with
  | done a => rfl
  | receive next ih => simp only [bind, ih]
  | send message next ih => simp only [bind, ih]

theorem bind_assoc {γ : Type} (t : Talk α) (f : α → Talk β) (g : β → Talk γ) :
    (t.bind f).bind g = t.bind fun a => (f a).bind g := by
  induction t with
  | done a => rfl
  | receive next ih => simp only [bind, ih]
  | send message next ih => simp only [bind, ih]

/-- The talk with one side of a channel whose state is `χ`. -/
def run {χ : Type} (read : χ → Except ChannelFault Bytes × χ)
    (write : χ → Bytes → Except ChannelFault Unit × χ) : Talk α → χ → α × χ
  | done a, channel => (a, channel)
  | receive next, channel =>
      let (reply, channel) := read channel
      (next reply).run read write channel
  | send message next, channel =>
      let (reply, channel) := write channel message
      (next reply).run read write channel

/-- The messages that reach the party are changed on their way, each according to its
number. -/
def altered (change : Nat → Bytes → Bytes) : Nat → Talk α → Talk α
  | _, done a => done a
  | number, receive next => receive fun reply =>
      match reply with
      | .ok message => (next (.ok (change number message))).altered change (number + 1)
      | .error e => (next (.error e)).altered change number
  | number, send message next => send message fun reply =>
      (next reply).altered change number

end Talk

end ThreeMove
