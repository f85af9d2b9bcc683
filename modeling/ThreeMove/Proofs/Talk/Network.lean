import Mathlib.Logic.Relation
import ThreeMove.Channel.Loopback
import ThreeMove.Proofs.Talk.Trace

/-!
# Two parties on a lossless channel

Two talks run at the ends of a loopback channel and take their steps in any order, where a
reception waits until a message is there.  Steps of different parties commute, and so one
schedule that comes to an end decides what happens under all of them.
-/

namespace ThreeMove

namespace Loopback

variable {channel channel' : Loopback} {side : Side} {message : Bytes}

theorem write_eq_done_iff : channel.write side message = (.done, channel') ↔
    (channel.get side).closed = false ∧ (channel.get side.other).dropped = false ∧
      channel' = channel.set side.other
        { channel.get side.other with inbox := (channel.get side.other).inbox ++ [message] } := by
  unfold write
  constructor
  · intro h
    dsimp only at h
    split at h
    · cases h
    · next hopen =>
      cases h
      simpa using hopen
  · rintro ⟨hclosed, hdropped, rfl⟩
    dsimp only
    rw [hclosed, hdropped]
    rfl

theorem read_eq_message_iff : channel.read side = (.message message, channel') ↔
    ∃ rest, (channel.get side).inbox = message :: rest ∧
      channel' = channel.set side { channel.get side with inbox := rest } := by
  unfold read
  dsimp only
  constructor
  · intro h
    split at h
    · next hinbox =>
      cases h
      exact ⟨_, hinbox, rfl⟩
    · split at h <;> cases h
  · rintro ⟨rest, hinbox, rfl⟩
    rw [hinbox]

theorem write_write {first second : Bytes} {left right : Loopback}
    (hleft : channel.write .left first = (.done, left))
    (hright : channel.write .right second = (.done, right)) :
    ∃ both, left.write .right second = (.done, both) ∧ right.write .left first = (.done, both) := by
  rw [write_eq_done_iff] at hleft hright
  simp_all [write_eq_done_iff, get, set, Side.other]

theorem read_read {first second : Bytes} {left right : Loopback}
    (hleft : channel.read .left = (.message first, left))
    (hright : channel.read .right = (.message second, right)) :
    ∃ both, left.read .right = (.message second, both) ∧
      right.read .left = (.message first, both) := by
  rw [read_eq_message_iff] at hleft hright
  obtain ⟨rest, hfirst, rfl⟩ := hleft
  obtain ⟨rest', hsecond, rfl⟩ := hright
  simp_all [read_eq_message_iff, get, set]

theorem write_read {first second : Bytes} {wrote reads : Loopback} {side : Side}
    (hwrite : channel.write side first = (.done, wrote))
    (hread : channel.read side.other = (.message second, reads)) :
    ∃ both, wrote.read side.other = (.message second, both) ∧
      reads.write side first = (.done, both) := by
  rw [write_eq_done_iff] at hwrite
  rw [read_eq_message_iff] at hread
  obtain ⟨hclosed, hdropped, rfl⟩ := hwrite
  obtain ⟨rest, hsecond, rfl⟩ := hread
  cases side <;> simp_all [read_eq_message_iff, write_eq_done_iff, get, set, Side.other]

end Loopback

structure Net (α β : Type) where
  left : Talk α
  right : Talk β
  channel : Loopback

namespace Net

variable {α β : Type}

/-- One party takes its next step.  It waits where the channel has no message for it. -/
inductive Step : Net α β → Net α β → Prop where
  | leftSends {message : Bytes} {next : Except ChannelFault Unit → Talk α} {right : Talk β}
      {channel channel' : Loopback} (h : channel.write .left message = (.done, channel')) :
      Step ⟨.send message next, right, channel⟩ ⟨next (.ok ()), right, channel'⟩
  | leftReceives {message : Bytes} {next : Except ChannelFault Bytes → Talk α} {right : Talk β}
      {channel channel' : Loopback} (h : channel.read .left = (.message message, channel')) :
      Step ⟨.receive next, right, channel⟩ ⟨next (.ok message), right, channel'⟩
  | rightSends {message : Bytes} {left : Talk α} {next : Except ChannelFault Unit → Talk β}
      {channel channel' : Loopback} (h : channel.write .right message = (.done, channel')) :
      Step ⟨left, .send message next, channel⟩ ⟨left, next (.ok ()), channel'⟩
  | rightReceives {message : Bytes} {left : Talk α} {next : Except ChannelFault Bytes → Talk β}
      {channel channel' : Loopback} (h : channel.read .right = (.message message, channel')) :
      Step ⟨left, .receive next, channel⟩ ⟨left, next (.ok message), channel'⟩

/-- Each party has at most one step, and steps of different parties commute. -/
theorem Step.diamond {net net₁ net₂ : Net α β} (h₁ : Step net net₁) (h₂ : Step net net₂) :
    net₁ = net₂ ∨ ∃ both, Step net₁ both ∧ Step net₂ both := by
  cases h₁ with
  | leftSends h₁ =>
      cases h₂ with
      | leftSends h₂ =>
          rw [h₁] at h₂
          cases h₂
          exact .inl rfl
      | rightSends h₂ =>
          obtain ⟨both, h, h'⟩ := Loopback.write_write h₁ h₂
          exact .inr ⟨_, .rightSends h, .leftSends h'⟩
      | rightReceives h₂ =>
          obtain ⟨both, h, h'⟩ := Loopback.write_read h₁ h₂
          exact .inr ⟨_, .rightReceives h, .leftSends h'⟩
  | leftReceives h₁ =>
      cases h₂ with
      | leftReceives h₂ =>
          rw [h₁] at h₂
          cases h₂
          exact .inl rfl
      | rightSends h₂ =>
          obtain ⟨both, h, h'⟩ := Loopback.write_read h₂ h₁
          exact .inr ⟨_, .rightSends h', .leftReceives h⟩
      | rightReceives h₂ =>
          obtain ⟨both, h, h'⟩ := Loopback.read_read h₁ h₂
          exact .inr ⟨_, .rightReceives h, .leftReceives h'⟩
  | rightSends h₁ =>
      cases h₂ with
      | leftSends h₂ =>
          obtain ⟨both, h, h'⟩ := Loopback.write_write h₂ h₁
          exact .inr ⟨_, .leftSends h', .rightSends h⟩
      | leftReceives h₂ =>
          obtain ⟨both, h, h'⟩ := Loopback.write_read h₁ h₂
          exact .inr ⟨_, .leftReceives h, .rightSends h'⟩
      | rightSends h₂ =>
          rw [h₁] at h₂
          cases h₂
          exact .inl rfl
  | rightReceives h₁ =>
      cases h₂ with
      | leftSends h₂ =>
          obtain ⟨both, h, h'⟩ := Loopback.write_read h₂ h₁
          exact .inr ⟨_, .leftSends h', .rightReceives h⟩
      | leftReceives h₂ =>
          obtain ⟨both, h, h'⟩ := Loopback.read_read h₂ h₁
          exact .inr ⟨_, .leftReceives h', .rightReceives h⟩
      | rightReceives h₂ =>
          rw [h₁] at h₂
          cases h₂
          exact .inl rfl

/-- Every schedule comes to the final state, in which no party has a step left. -/
inductive Ends (final : Net α β) : Net α β → Prop where
  | final (hstuck : ∀ net, ¬ Step final net) : Ends final final
  | step {net : Net α β} (hprogress : ∃ next, Step net next)
      (hevery : ∀ next, Step net next → Ends final next) : Ends final net

inductive Schedule : Nat → Net α β → Net α β → Prop where
  | nil (net : Net α β) : Schedule 0 net net
  | cons {length : Nat} {net next final : Net α β} (h : Step net next)
      (rest : Schedule length next final) : Schedule (length + 1) net final

theorem Schedule.of_step {length : Nat} {net next final : Net α β}
    (hstuck : ∀ net, ¬ Step final net) (schedule : Schedule (length + 1) net final)
    (hstep : Step net next) : Schedule length next final := by
  induction length generalizing net next with
  | zero =>
      cases schedule with
      | cons hfirst rest =>
          cases rest
          rcases hfirst.diamond hstep with rfl | ⟨both, hfinal, _⟩
          · exact .nil _
          · exact (hstuck both hfinal).elim
  | succ length ih =>
      cases schedule with
      | cons hfirst rest =>
          rcases hfirst.diamond hstep with rfl | ⟨both, hfirst', hstep'⟩
          · exact rest
          · exact .cons hstep' (ih rest hfirst')

/-- One schedule that comes to an end decides all of them. -/
theorem Schedule.ends {length : Nat} {net final : Net α β} (hstuck : ∀ net, ¬ Step final net)
    (schedule : Schedule length net final) : Ends final net := by
  induction length generalizing net with
  | zero =>
      cases schedule
      exact .final hstuck
  | succ length ih =>
      refine .step ?_ fun next hstep => ih (schedule.of_step hstuck hstep)
      cases schedule with
      | cons hfirst _ => exact ⟨_, hfirst⟩

end Net

end ThreeMove
