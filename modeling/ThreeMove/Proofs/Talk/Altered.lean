import ThreeMove.Proofs.Talk.Conversation

/-!
# Messages that are changed on their way

The other party sends what it sends, and this one receives something else.  What a party does on
such a channel is what it does by itself on the changed messages.
-/

namespace ThreeMove.Talk

variable {α : Type} {t : Talk α} {a : α} {number : Nat} {events : List Event}

/-- What reaches a party of these events if messages are changed, each according to its number. -/
def alteredEvents (change : Nat → Bytes → Bytes) : Nat → List Event → List Event
  | _, [] => []
  | number, .received (.ok message) :: events =>
      .received (.ok (change number message)) :: alteredEvents change (number + 1) events
  | number, .received (.error fault) :: events =>
      .received (.error fault) :: alteredEvents change number events
  | number, .sent message reply :: events =>
      .sent message reply :: alteredEvents change number events

def replacing (replaced : Nat) (message : Bytes) (number : Nat) (original : Bytes) : Bytes :=
  if number = replaced then message else original

theorem replacing_self (replaced : Nat) (message original : Bytes) :
    replacing replaced message replaced original = message :=
  if_pos rfl

theorem replacing_of_ne {replaced : Nat} (hother : number ≠ replaced) (message original : Bytes) :
    replacing replaced message number original = original :=
  if_neg hother

variable {change : Nat → Bytes → Bytes}

theorem alteredEvents_append (number : Nat) (front back : List Event) :
    alteredEvents change number (front ++ back) = alteredEvents change number front ++
      alteredEvents change (number + (received front).length) back := by
  induction front generalizing number with
  | nil => rfl
  | cons event front ih =>
      rcases event with (fault | message) | ⟨message, reply⟩
      · exact congrArg (_ :: ·) (ih number)
      · have hlength : number + (received (.received (.ok message) :: front)).length =
            number + 1 + (received front).length :=
          (congrArg (number + ·) (Nat.add_comm _ 1)).trans (Nat.add_assoc _ _ _).symm
        rw [hlength]
        exact congrArg (_ :: ·) (ih (number + 1))
      · exact congrArg (_ :: ·) (ih number)

theorem alteredEvents_replacing {replaced : Nat} {message : Bytes} (number : Nat)
    (events : List Event)
    (houtside : replaced < number ∨ number + (received events).length ≤ replaced) :
    alteredEvents (replacing replaced message) number events = events := by
  induction events generalizing number with
  | nil => rfl
  | cons event events ih =>
      rcases event with (fault | original) | ⟨sent, reply⟩
      · exact congrArg (_ :: ·) (ih number houtside)
      · have hlength : (received (.received (.ok original) :: events)).length =
            (received events).length + 1 := rfl
        rw [hlength] at houtside
        have hother : number ≠ replaced := by omega
        have hrest := ih (number + 1) (by omega)
        rw [alteredEvents, replacing_of_ne hother, hrest]
      · exact congrArg (_ :: ·) (ih number houtside)

theorem alteredEvents_replacing_next (number : Nat) (message original : Bytes)
    (events : List Event) :
    alteredEvents (replacing number message) number (.received (.ok original) :: events) =
      .received (.ok message) :: events := by
  rw [alteredEvents, replacing_self,
    alteredEvents_replacing _ _ (.inl (Nat.lt_succ_self number))]

theorem Trace.altered (htrace : Trace t (alteredEvents change number events) a) :
    Trace (t.altered change number) events a := by
  induction events generalizing t number with
  | nil =>
      obtain rfl := trace_nil_iff.mp htrace
      exact .done a
  | cons event events ih =>
      rcases event with (fault | message) | ⟨message, reply⟩
      · cases htrace with
        | receive _ hrest =>
            rw [Talk.altered]
            exact .receive _ (ih hrest)
      · cases htrace with
        | receive _ hrest =>
            rw [Talk.altered]
            exact .receive _ (ih hrest)
      · cases htrace with
        | send _ hrest => exact .send _ (ih hrest)

theorem Halts.altered (hhalts : Halts t (alteredEvents change number events) a) :
    Halts (t.altered change number) events a := by
  obtain ⟨last, hlast, htrace⟩ := hhalts
  refine ⟨last, hlast, Trace.altered ?_⟩
  rw [alteredEvents_append]
  -- a message that does not come is not changed either
  rcases hlast with rfl | rfl <;> exact htrace

end ThreeMove.Talk
