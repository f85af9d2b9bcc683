import ThreeMove.Action
import ThreeMove.Channel.Meeting

/-!
# Traces

What a party does on its channel and what the channel answers, event by event.  A trace says
nothing of where the answers come from, so a statement about all traces of a party holds
against every other party and every failure of the channel.
-/

namespace ThreeMove

inductive Event where
  | received (reply : Except ChannelFault Bytes)
  | sent (message : Bytes) (reply : Except ChannelFault Unit)

def Event.succeeded : Event → Bool
  | .received reply => reply.isOk
  | .sent _ reply => reply.isOk

namespace Talk

variable {α β : Type}

/-- The talk may meet these events, and ends with the result. -/
inductive Trace : Talk α → List Event → α → Prop where
  | done (result : α) : Trace (done result) [] result
  | receive {next : Except ChannelFault Bytes → Talk α} {events : List Event} {result : α}
      (reply : Except ChannelFault Bytes) (rest : Trace (next reply) events result) :
      Trace (receive next) (.received reply :: events) result
  | send {message : Bytes} {next : Except ChannelFault Unit → Talk α} {events : List Event}
      {result : α} (reply : Except ChannelFault Unit) (rest : Trace (next reply) events result) :
      Trace (send message next) (.sent message reply :: events) result

@[simp] theorem trace_done {a b : α} {events : List Event} :
    Trace (done a) events b ↔ events = [] ∧ b = a := by
  constructor
  · rintro ⟨⟩
    exact ⟨rfl, rfl⟩
  · rintro ⟨rfl, rfl⟩
    exact .done b

theorem trace_receive {next : Except ChannelFault Bytes → Talk α} {events : List Event} {b : α} :
    Trace (receive next) events b ↔
      ∃ reply rest, events = .received reply :: rest ∧ Trace (next reply) rest b := by
  constructor
  · rintro ⟨⟩
    exact ⟨_, _, rfl, by assumption⟩
  · rintro ⟨reply, rest, rfl, hrest⟩
    exact .receive reply hrest

theorem trace_send {message : Bytes} {next : Except ChannelFault Unit → Talk α}
    {events : List Event} {b : α} :
    Trace (send message next) events b ↔
      ∃ reply rest, events = .sent message reply :: rest ∧ Trace (next reply) rest b := by
  constructor
  · rintro ⟨⟩
    exact ⟨_, _, rfl, by assumption⟩
  · rintro ⟨reply, rest, rfl, hrest⟩
    exact .send reply hrest

theorem trace_bind {t : Talk α} {f : α → Talk β} {events : List Event} {b : β} :
    Trace (t.bind f) events b ↔
      ∃ a front back, events = front ++ back ∧ Trace t front a ∧ Trace (f a) back b := by
  constructor
  · intro h
    induction t generalizing events with
    | done a => exact ⟨a, [], events, rfl, .done a, h⟩
    | receive next ih =>
        obtain ⟨reply, rest, rfl, hrest⟩ := trace_receive.mp h
        obtain ⟨a, front, back, rfl, hfront, hback⟩ := ih reply hrest
        exact ⟨a, .received reply :: front, back, rfl, .receive reply hfront, hback⟩
    | send message next ih =>
        obtain ⟨reply, rest, rfl, hrest⟩ := trace_send.mp h
        obtain ⟨a, front, back, rfl, hfront, hback⟩ := ih reply hrest
        exact ⟨a, .sent message reply :: front, back, rfl, .send reply hfront, hback⟩
  · rintro ⟨a, front, back, rfl, hfront, hback⟩
    induction hfront with
    | done a => exact hback
    | receive reply _ ih => exact .receive reply (ih hback)
    | send reply _ ih => exact .send reply (ih hback)

/-- The messages that the channel gave to the party. -/
def received (events : List Event) : List Bytes :=
  events.filterMap fun
    | .received (.ok message) => some message
    | _ => none

/-- The messages that the party gave to the channel. -/
def sent (events : List Event) : List Bytes :=
  events.filterMap fun
    | .sent message _ => some message
    | _ => none

theorem received_append (front back : List Event) :
    received (front ++ back) = received front ++ received back :=
  List.filterMap_append

theorem sent_append (front back : List Event) : sent (front ++ back) = sent front ++ sent back :=
  List.filterMap_append

def Undisturbed (events : List Event) : Prop :=
  ∀ event ∈ events, (∃ message, event = .received (.ok message)) ∨
    ∃ message, event = .sent message (.ok ())

@[simp] theorem undisturbed_received {reply : Except ChannelFault Bytes} {events : List Event} :
    Undisturbed (.received reply :: events) ↔ (∃ message, reply = .ok message) ∧
      Undisturbed events := by
  simp [Undisturbed]

@[simp] theorem undisturbed_sent {message : Bytes} {reply : Except ChannelFault Unit}
    {events : List Event} :
    Undisturbed (.sent message reply :: events) ↔ reply = .ok () ∧ Undisturbed events := by
  simp [Undisturbed]

theorem undisturbed_append {front back : List Event} :
    Undisturbed (front ++ back) ↔ Undisturbed front ∧ Undisturbed back :=
  List.forall_mem_append

@[simp] theorem undisturbed_nil : Undisturbed [] :=
  fun _ hevent => (List.not_mem_nil hevent).elim

/-- On an undisturbed channel the messages received decide what a party does. -/
theorem Trace.alone {t : Talk α} {events : List Event} {a : α} (htrace : Trace t events a)
    (hundisturbed : Undisturbed events) : t.alone (received events) = (a, sent events) := by
  induction htrace with
  | done a => rfl
  | receive reply _ ih =>
      have hrest := ih fun event hevent => hundisturbed event (List.mem_cons_of_mem _ hevent)
      rcases hundisturbed _ List.mem_cons_self with ⟨message, hreply⟩ | ⟨message, hreply⟩
      · cases hreply
        exact hrest
      · cases hreply
  | send reply _ ih =>
      have hrest := ih fun event hevent => hundisturbed event (List.mem_cons_of_mem _ hevent)
      rcases hundisturbed _ List.mem_cons_self with ⟨message, hreply⟩ | ⟨message, hreply⟩
      · cases hreply
      · cases hreply
        have hsame : ∀ message (rest : List Event),
            received (.sent message (.ok ()) :: rest) = received rest := fun _ _ => rfl
        rw [hsame, Talk.alone, hrest]
        rfl

end Talk

end ThreeMove
