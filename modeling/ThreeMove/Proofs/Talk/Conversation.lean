import ThreeMove.Proofs.Talk.Network
import ThreeMove.Proofs.Talk.Runs

/-!
# Conversations

Two talks meet if they can go through one list of messages, each with the side that says it.
Then they come to the same end on a lossless channel under all schedules, among them the one
that always runs the left party first.  The same holds where a party is left waiting at the end
for a message that never comes.
-/

namespace ThreeMove

/-- Who says what, from the first message to the last. -/
abbrev Conversation := List (Side × Bytes)

namespace Conversation

def events (side : Side) (conversation : Conversation) : List Event :=
  conversation.map fun (speaker, message) =>
    if speaker = side then .sent message (.ok ()) else .received (.ok message)

theorem events_append (side : Side) (front back : Conversation) :
    events side (front ++ back) = events side front ++ events side back :=
  List.map_append

end Conversation

namespace Talk

variable {α β γ δ : Type} {left : Talk α} {right : Talk β} {a : α} {b : β}

/-- Both talks come to their ends in one conversation. -/
def Meets (left : Talk α) (right : Talk β) (a : α) (b : β) : Prop :=
  ∃ conversation : Conversation, Trace left (conversation.events .left) a ∧
    Trace right (conversation.events .right) b

theorem Meets.done (a : α) (b : β) : Meets (.done a) (.done b) a b :=
  ⟨[], .done a, .done b⟩

theorem Meets.bind {f : α → Talk γ} {g : β → Talk δ} {c : γ} {d : δ}
    (hmeets : Meets left right a b) (hrest : Meets (f a) (g b) c d) :
    Meets (left.bind f) (right.bind g) c d := by
  obtain ⟨front, hleft, hright⟩ := hmeets
  obtain ⟨back, hleft', hright'⟩ := hrest
  refine ⟨front ++ back, ?_, ?_⟩
  · exact trace_bind.mpr ⟨a, _, _, Conversation.events_append .left front back, hleft, hleft'⟩
  · exact trace_bind.mpr ⟨b, _, _, Conversation.events_append .right front back, hright, hright'⟩

/-- The last events of a party that no message can reach any more: it has ended, or it waits in
vain. -/
def Final (events : List Event) : Prop :=
  events = [] ∨ events = [.received (.error .disconnected)]

def Rests (t : Talk α) (a : α) : Prop :=
  ∃ events, Final events ∧ Trace t events a

def Halts (t : Talk α) (events : List Event) (a : α) : Prop :=
  ∃ last, Final last ∧ Trace t (events ++ last) a

theorem Trace.halts {events : List Event} (htrace : Trace left events a) :
    Halts left events a :=
  ⟨[], .inl rfl, by rwa [List.append_nil]⟩

theorem Trace.halts_waiting {events : List Event}
    (htrace : Trace left (events ++ [.received (.error .disconnected)]) a) :
    Halts left events a :=
  ⟨_, .inr rfl, htrace⟩

theorem trace_nil_iff : Trace left [] a ↔ left = .done a := by
  constructor
  · rintro ⟨⟩
    rfl
  · rintro rfl
    exact .done a

theorem rests_iff : Rests left a ↔
    left = .done a ∨ ∃ next, left = .receive next ∧ next (.error .disconnected) = .done a := by
  constructor
  · rintro ⟨events, rfl | rfl, htrace⟩
    · exact .inl (trace_nil_iff.mp htrace)
    · cases htrace with
      | receive _ hrest => exact .inr ⟨_, rfl, trace_nil_iff.mp hrest⟩
  · rintro (rfl | ⟨next, rfl, hnext⟩)
    · exact ⟨[], .inl rfl, .done a⟩
    · exact ⟨_, .inr rfl, .receive _ (hnext ▸ .done a)⟩

/-- Nobody can go on where both talks rest and no message is under way. -/
theorem not_step_of_rests (hleft : Rests left a) (hright : Rests right b) (net : Net α β) :
    ¬ Net.Step ⟨left, right, {}⟩ net := by
  have hempty : ∀ side message channel, Loopback.read {} side ≠ (.message message, channel) := by
    intro side message channel hread
    obtain ⟨rest, hinbox, -⟩ := Loopback.read_eq_message_iff.mp hread
    cases side <;> cases hinbox
  rintro (_ | hread | _ | hread)
  · rcases rests_iff.mp hleft with hdone | ⟨_, hreceive, _⟩
    · cases hdone
    · cases hreceive
  · exact hempty _ _ _ hread
  · rcases rests_iff.mp hright with hdone | ⟨_, hreceive, _⟩
    · cases hdone
    · cases hreceive
  · exact hempty _ _ _ hread

theorem schedule_of_conversation (conversation : Conversation) {lastLeft lastRight : List Event}
    (hleft : Trace left (conversation.events .left ++ lastLeft) a)
    (hright : Trace right (conversation.events .right ++ lastRight) b) :
    ∃ length left' right', Trace left' lastLeft a ∧ Trace right' lastRight b ∧
      Net.Schedule length ⟨left, right, {}⟩ ⟨left', right', {}⟩ := by
  induction conversation generalizing left right with
  | nil => exact ⟨0, left, right, hleft, hright, .nil _⟩
  | cons said conversation ih =>
      obtain ⟨speaker, message⟩ := said
      cases speaker with
      | left =>
          cases hleft with
          | send _ hleft =>
              cases hright with
              | receive _ hright =>
                  obtain ⟨length, left', right', hleft', hright', schedule⟩ := ih hleft hright
                  exact ⟨length + 2, left', right', hleft', hright',
                    .cons (.leftSends rfl) (.cons (.rightReceives rfl) schedule)⟩
      | right =>
          cases hright with
          | send _ hright =>
              cases hleft with
              | receive _ hleft =>
                  obtain ⟨length, left', right', hleft', hright', schedule⟩ := ih hleft hright
                  exact ⟨length + 2, left', right', hleft', hright',
                    .cons (.rightSends rfl) (.cons (.leftReceives rfl) schedule)⟩

def pending (inbox : List Bytes) : List Event :=
  inbox.map fun message => .received (.ok message)

theorem alone_of_pending (inbox : List Bytes) (hright : Halts right (pending inbox) b) :
    right.alone inbox = (b, []) := by
  obtain ⟨last, hlast, htrace⟩ := hright
  induction inbox generalizing right with
  | nil =>
      rcases rests_iff.mp ⟨last, hlast, htrace⟩ with rfl | ⟨next, rfl, hnext⟩
      · rfl
      · rw [alone, hnext, alone]
  | cons message inbox ih =>
      cases htrace with
      | receive _ hright => exact ih hright

theorem await_of_pending {resume : Except ChannelFault Bytes → Talk β → List Bytes → Meeting α β}
    {message : Bytes} {events : List Event} (inbox : List Bytes)
    (hright : Trace right (pending inbox ++ .sent message (.ok ()) :: events) b) :
    ∃ next, Trace next events b ∧
      await resume right inbox = (resume (.ok message) next []).rightSends message := by
  induction inbox generalizing right with
  | nil =>
      cases hright with
      | send _ hright => exact ⟨_, hright, rfl⟩
  | cons _ inbox ih =>
      cases hright with
      | receive _ hright => exact ih hright

theorem await_of_rests {resume : Except ChannelFault Bytes → Talk β → List Bytes → Meeting α β}
    (inbox : List Bytes) (hright : Halts right (pending inbox) b) :
    await resume right inbox = resume (.error .disconnected) (.done b) [] := by
  obtain ⟨last, hlast, htrace⟩ := hright
  induction inbox generalizing right with
  | nil =>
      rcases rests_iff.mp ⟨last, hlast, htrace⟩ with rfl | ⟨next, rfl, hnext⟩
      · rfl
      · rw [await, hnext]
  | cons message inbox ih =>
      cases htrace with
      | receive _ hright => exact ih hright

/-- The left party may be ahead of the right one by the messages in the inbox. -/
theorem meetWith_of_conversation (conversation : Conversation) (inbox : List Bytes)
    (hleft : Halts left (conversation.events .left) a)
    (hright : Halts right (pending inbox ++ conversation.events .right) b) :
    (left.meetWith right inbox).left = a ∧ (left.meetWith right inbox).right = b ∧
      (left.meetWith right inbox).leftSent = sent (conversation.events .left) := by
  induction conversation generalizing left right inbox with
  | nil =>
      rw [Conversation.events, List.map_nil, List.append_nil] at hright
      rcases rests_iff.mp hleft with rfl | ⟨next, rfl, hnext⟩
      · rw [meetWith, alone_of_pending inbox hright]
        exact ⟨rfl, rfl, rfl⟩
      · rw [meetWith, await_of_rests inbox hright, hnext]
        exact ⟨rfl, rfl, rfl⟩
  | cons said conversation ih =>
      obtain ⟨speaker, message⟩ := said
      obtain ⟨lastLeft, hlastLeft, hleft⟩ := hleft
      cases speaker with
      | left =>
          cases hleft with
          | send _ hleft =>
              have hmeet := ih (inbox ++ [message]) ⟨lastLeft, hlastLeft, hleft⟩
                (by simpa [pending, Conversation.events] using hright)
              exact ⟨hmeet.1, hmeet.2.1, congrArg (message :: ·) hmeet.2.2⟩
      | right =>
          obtain ⟨lastRight, hlastRight, hright⟩ := hright
          rw [List.append_assoc] at hright
          cases hleft with
          | receive _ hleft =>
              obtain ⟨next, hnext, hawait⟩ := await_of_pending inbox hright
              have hmeet := ih [] ⟨lastLeft, hlastLeft, hleft⟩ ⟨lastRight, hlastRight, hnext⟩
              rw [meetWith, hawait]
              exact hmeet

/-- Under every schedule both talks come to these ends and leave no message behind, and so
does their meeting. -/
structure Concludes (left : Talk α) (right : Talk β) (a : α) (b : β) : Prop where
  ends : Net.Ends ⟨.done a, .done b, {}⟩ ⟨left, right, {}⟩
  left_meet : (left.meet right).left = a
  right_meet : (left.meet right).right = b

theorem Meets.concludes (hmeets : Meets left right a b) : Concludes left right a b := by
  obtain ⟨conversation, hleft, hright⟩ := hmeets
  obtain ⟨hleftMeet, hrightMeet, -⟩ :=
    meetWith_of_conversation conversation [] hleft.halts hright.halts
  rw [← List.append_nil (conversation.events _)] at hleft hright
  obtain ⟨length, _, _, hdone, hdone', schedule⟩ := schedule_of_conversation conversation hleft
    hright
  have hstuck := not_step_of_rests ⟨[], .inl rfl, .done a⟩ ⟨[], .inl rfl, .done b⟩
  cases hdone
  cases hdone'
  exact ⟨schedule.ends hstuck, hleftMeet, hrightMeet⟩

/-- Under every schedule both talks come to rest with these results and leave no message behind,
and so does their meeting, in which the left party sends these messages. -/
structure Standstill (left : Talk α) (right : Talk β) (a : α) (b : β) (messages : List Bytes) :
    Prop where
  ends : ∃ left' right', Rests left' a ∧ Rests right' b ∧
    Net.Ends ⟨left', right', {}⟩ ⟨left, right, {}⟩
  left_meet : (left.meet right).left = a
  right_meet : (left.meet right).right = b
  sent_meet : (left.meet right).leftSent = messages

/-- A conversation that leads both talks to rest decides how they end. -/
theorem standstill_of_conversation (conversation : Conversation)
    (hleft : Halts left (conversation.events .left) a)
    (hright : Halts right (conversation.events .right) b) :
    Standstill left right a b (sent (conversation.events .left)) := by
  obtain ⟨hleftMeet, hrightMeet, hsent⟩ := meetWith_of_conversation conversation [] hleft hright
  obtain ⟨lastLeft, hlastLeft, hleft⟩ := hleft
  obtain ⟨lastRight, hlastRight, hright⟩ := hright
  obtain ⟨length, left', right', hleft', hright', schedule⟩ :=
    schedule_of_conversation conversation hleft hright
  have hrests : Rests left' a := ⟨lastLeft, hlastLeft, hleft'⟩
  have hrests' : Rests right' b := ⟨lastRight, hlastRight, hright'⟩
  exact ⟨⟨left', right', hrests, hrests', schedule.ends (not_step_of_rests hrests hrests')⟩,
    hleftMeet, hrightMeet, hsent⟩

end Talk

end ThreeMove
