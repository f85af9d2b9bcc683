import ThreeMove.Proofs.Talk.Runs

/-!
# Channels

A channel answers receptions and transmissions from a state of its own.  A talk on a channel
always comes to its end, and what happens until then is one of its traces.  On the other hand
each trace is met on some channel, so that traces tell all that can happen.
-/

namespace ThreeMove

namespace Talk

variable {α χ : Type}

def log (read : χ → Except ChannelFault Bytes × χ)
    (write : χ → Bytes → Except ChannelFault Unit × χ) : Talk α → χ → List Event
  | done _, _ => []
  | receive next, channel =>
      let (reply, channel) := read channel
      .received reply :: (next reply).log read write channel
  | send message next, channel =>
      let (reply, channel) := write channel message
      .sent message reply :: (next reply).log read write channel

theorem trace_log (read : χ → Except ChannelFault Bytes × χ)
    (write : χ → Bytes → Except ChannelFault Unit × χ) (t : Talk α) (channel : χ) :
    Trace t (t.log read write channel) (t.run read write channel).1 := by
  induction t generalizing channel with
  | done a => exact .done a
  | receive next ih => exact .receive _ (ih _ _)
  | send message next ih => exact .send _ (ih _ _)

def replay : List Event → Except ChannelFault Bytes × List Event
  | .received reply :: rest => (reply, rest)
  | rest => (.error .disconnected, rest)

def replaySent (events : List Event) (_ : Bytes) : Except ChannelFault Unit × List Event :=
  match events with
  | .sent _ reply :: rest => (reply, rest)
  | rest => (.error .disconnected, rest)

theorem Trace.replay {t : Talk α} {events : List Event} {a : α} (htrace : Trace t events a) :
    t.log Talk.replay replaySent events = events ∧
      (t.run Talk.replay replaySent events).1 = a := by
  induction htrace with
  | done a => exact ⟨rfl, rfl⟩
  | receive reply _ ih => exact ⟨congrArg (_ :: ·) ih.1, ih.2⟩
  | send reply _ ih => exact ⟨congrArg (_ :: ·) ih.1, ih.2⟩

end Talk

namespace Action

variable {S ε α : Type}

/-- Whatever the channel answers, the action ends, and the events and the outcome are as
described. -/
def OnEveryChannel (x : Action S ε α) (state : S) (source : Source)
    (P : List Event → Outcome ε α S → Prop) : Prop :=
  ∀ (χ : Type) (read : χ → Except ChannelFault Bytes × χ)
    (write : χ → Bytes → Except ChannelFault Unit × χ) (channel : χ),
    P ((x state source).log read write channel) ((x state source).run read write channel).1

theorem onEveryChannel_iff {x : Action S ε α} {state : S} {source : Source}
    {P : List Event → Outcome ε α S → Prop} :
    x.OnEveryChannel state source P ↔
      ∀ events outcome, x.Runs state source events outcome → P events outcome := by
  constructor
  · intro hevery events outcome hruns
    have hreplay := hevery _ Talk.replay Talk.replaySent events
    obtain ⟨hlog, hrun⟩ := Talk.Trace.replay hruns
    rw [hlog, hrun] at hreplay
    exact hreplay
  · intro hruns χ read write channel
    exact hruns _ _ (Talk.trace_log read write _ channel)

end Action

end ThreeMove
