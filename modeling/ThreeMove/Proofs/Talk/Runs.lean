import ThreeMove.Proofs.Talk.Trace

/-!
# Runs of an action

A run of an action is a trace of its talk that ends with an outcome.  Each way to build an
action has one lemma that says what its runs are.
-/

namespace ThreeMove.Action

variable {S ε α β : Type} {state : S} {source : Source} {events : List Event}

/-- The action may meet these events and end with the outcome. -/
def Runs (x : Action S ε α) (state : S) (source : Source) (events : List Event)
    (outcome : Outcome ε α S) : Prop :=
  Talk.Trace (x state source) events outcome

@[simp] theorem runs_pure {a : α} {outcome : Outcome ε α S} :
    (pure a : Action S ε α).Runs state source events outcome ↔
      events = [] ∧ outcome = (.ok a, state, source) :=
  Talk.trace_done

@[simp] theorem runs_fail {e : ε} {outcome : Outcome ε α S} :
    (fail e : Action S ε α).Runs state source events outcome ↔
      events = [] ∧ outcome = (.error e, state, source) :=
  Talk.trace_done

@[simp] theorem runs_ofStep {step : S → Source → Outcome ε α S} {outcome : Outcome ε α S} :
    (ofStep step).Runs state source events outcome ↔
      events = [] ∧ outcome = step state source :=
  Talk.trace_done

@[simp] theorem runs_ofPure {step : S → Except ε α × S} {outcome : Outcome ε α S} :
    (ofPure step).Runs state source events outcome ↔
      events = [] ∧ outcome = ((step state).1, (step state).2, source) :=
  Talk.trace_done

/-- An action that ends in silence has no other runs. -/
theorem runs_of_done {x : Action S ε α} {done outcome : Outcome ε α S}
    (hx : x state source = .done done) :
    x.Runs state source events outcome ↔ events = [] ∧ outcome = done := by
  unfold Runs
  rw [hx]
  exact Talk.trace_done

/-- Either the first action fails, or the second goes on where it ended. -/
theorem runs_bind {x : Action S ε α} {f : α → Action S ε β} {outcome : Outcome ε β S} :
    (x >>= f).Runs state source events outcome ↔
      (∃ e state' source', x.Runs state source events (.error e, state', source') ∧
        outcome = (.error e, state', source')) ∨
      ∃ a state' source' front back, events = front ++ back ∧
        x.Runs state source front (.ok a, state', source') ∧
        (f a).Runs state' source' back outcome := by
  refine Iff.trans Talk.trace_bind ?_
  constructor
  · rintro ⟨⟨result, state', source'⟩, front, back, rfl, hfront, hback⟩
    cases result with
    | error e =>
        obtain ⟨rfl, rfl⟩ := Talk.trace_done.mp hback
        rw [List.append_nil]
        exact .inl ⟨e, state', source', hfront, rfl⟩
    | ok a => exact .inr ⟨a, state', source', front, back, rfl, hfront, hback⟩
  · rintro (⟨e, state', source', hfront, rfl⟩ |
      ⟨a, state', source', front, back, rfl, hfront, hback⟩)
    · exact ⟨_, events, [], (List.append_nil events).symm, hfront, .done _⟩
    · exact ⟨_, front, back, rfl, hfront, hback⟩

theorem Runs.bind {x : Action S ε α} {f : α → Action S ε β} {outcome : Outcome ε β S}
    {a : α} {state' : S} {source' : Source} {front back : List Event}
    (hx : x.Runs state source front (.ok a, state', source'))
    (hf : (f a).Runs state' source' back outcome) :
    (x >>= f).Runs state source (front ++ back) outcome :=
  runs_bind.mpr (.inr ⟨a, state', source', front, back, rfl, hx, hf⟩)

theorem Runs.bind_failed {x : Action S ε α} {f : α → Action S ε β} {e : ε} {state' : S}
    {source' : Source} (hx : x.Runs state source events (.error e, state', source')) :
    (x >>= f).Runs state source events (.error e, state', source') :=
  runs_bind.mpr (.inl ⟨e, state', source', hx, rfl⟩)

theorem bind_of_done {x : Action S ε α} {a : α} {state' : S} {source' : Source}
    (hx : x state source = .done (.ok a, state', source')) (f : α → Action S ε β) :
    (x >>= f) state source = f a state' source' := by
  change (x state source).bind _ = _
  rw [hx]
  rfl

theorem bind_of_failed {x : Action S ε α} {e : ε} {state' : S} {source' : Source}
    (hx : x state source = .done (.error e, state', source')) (f : α → Action S ε β) :
    (x >>= f) state source = .done (.error e, state', source') := by
  change (x state source).bind _ = _
  rw [hx]
  rfl

theorem runs_bind_of_done {x : Action S ε α} {a : α} {state' : S} {source' : Source}
    (hx : x state source = .done (.ok a, state', source')) {f : α → Action S ε β}
    {outcome : Outcome ε β S} :
    (x >>= f).Runs state source events outcome ↔ (f a).Runs state' source' events outcome := by
  unfold Runs
  rw [bind_of_done hx]

theorem runs_map {x : Action S ε α} {f : α → β} {outcome : Outcome ε β S} :
    (x >>= fun a => pure (f a)).Runs state source events outcome ↔
      ∃ result state' source', x.Runs state source events (result, state', source') ∧
        outcome = (result.map f, state', source') := by
  refine Iff.trans runs_bind ?_
  constructor
  · rintro (⟨e, state', source', hx, rfl⟩ | ⟨a, state', source', front, back, rfl, hx, hback⟩)
    · exact ⟨.error e, state', source', hx, rfl⟩
    · obtain ⟨rfl, rfl⟩ := runs_pure.mp hback
      rw [List.append_nil]
      exact ⟨.ok a, state', source', hx, rfl⟩
  · rintro ⟨result, state', source', hx, rfl⟩
    cases result with
    | error e => exact .inl ⟨e, state', source', hx, rfl⟩
    | ok a =>
        exact .inr ⟨a, state', source', events, [], (List.append_nil events).symm, hx,
          runs_pure.mpr ⟨rfl, rfl⟩⟩

theorem runs_discard {x : Action S ε α} {outcome : Outcome ε Unit S} :
    (x >>= fun _ => pure ()).Runs state source events outcome ↔
      ∃ result state' source', x.Runs state source events (result, state', source') ∧
        outcome = (result.map fun _ => (), state', source') :=
  runs_map

@[simp] theorem runs_get_bind {f : S → Action S ε β} {outcome : Outcome ε β S} :
    (get >>= f).Runs state source events outcome ↔ (f state).Runs state source events outcome :=
  Iff.rfl

@[simp] theorem runs_modify_bind {g : S → S} {f : Unit → Action S ε β} {outcome : Outcome ε β S} :
    (modify g >>= f).Runs state source events outcome ↔
      (f ()).Runs (g state) source events outcome :=
  Iff.rfl

@[simp] theorem runs_draw_bind {g : Source → α × Source} {f : α → Action S ε β}
    {outcome : Outcome ε β S} :
    (draw g >>= f).Runs state source events outcome ↔
      (f (g source).1).Runs state (g source).2 events outcome :=
  Iff.rfl

theorem runs_ofExcept_bind {result : Except ε α} {f : α → Action S ε β}
    {outcome : Outcome ε β S} :
    (ofExcept result >>= f).Runs state source events outcome ↔
      match result with
      | .ok a => (f a).Runs state source events outcome
      | .error e => events = [] ∧ outcome = (.error e, state, source) := by
  cases result with
  | ok a => exact Iff.rfl
  | error e => exact Talk.trace_done

theorem runs_ofExcept_map {result : Except ε α} {f : α → β} {outcome : Outcome ε β S} :
    (ofExcept result >>= fun a => pure (f a)).Runs state source events outcome ↔
      events = [] ∧ outcome = (result.map f, state, source) := by
  rw [runs_ofExcept_bind]
  cases result with
  | ok a => exact runs_pure
  | error e => exact Iff.rfl

theorem runs_receive {wrap : ChannelFault → ε} {outcome : Outcome ε Bytes S} :
    (receive wrap).Runs state source events outcome ↔
      ∃ reply, events = [.received reply] ∧ outcome = (reply.mapError wrap, state, source) := by
  refine Iff.trans Talk.trace_receive ?_
  constructor
  · rintro ⟨reply, rest, rfl, hrest⟩
    obtain ⟨rfl, rfl⟩ := Talk.trace_done.mp hrest
    exact ⟨reply, rfl, rfl⟩
  · rintro ⟨reply, rfl, rfl⟩
    exact ⟨reply, [], rfl, .done _⟩

theorem runs_send {wrap : ChannelFault → ε} {message : Bytes} {outcome : Outcome ε Unit S} :
    (send wrap message).Runs state source events outcome ↔
      ∃ reply, events = [.sent message reply] ∧
        outcome = (reply.mapError wrap, state, source) := by
  refine Iff.trans Talk.trace_send ?_
  constructor
  · rintro ⟨reply, rest, rfl, hrest⟩
    obtain ⟨rfl, rfl⟩ := Talk.trace_done.mp hrest
    exact ⟨reply, rfl, rfl⟩
  · rintro ⟨reply, rfl, rfl⟩
    exact ⟨reply, [], rfl, .done _⟩

theorem runs_within {T δ : Type} {part : S → T} {put : S → T → S} {wrap : δ → ε}
    {x : Action T δ α} {outcome : Outcome ε α S} :
    (within part put wrap x).Runs state source events outcome ↔
      ∃ result part' source', x.Runs (part state) source events (result, part', source') ∧
        outcome = (result.mapError wrap, put state part', source') := by
  refine Iff.trans Talk.trace_bind ?_
  constructor
  · rintro ⟨⟨result, part', source'⟩, front, back, rfl, hfront, hback⟩
    obtain ⟨rfl, rfl⟩ := Talk.trace_done.mp hback
    rw [List.append_nil]
    exact ⟨result, part', source', hfront, rfl⟩
  · rintro ⟨result, part', source', hx, rfl⟩
    exact ⟨_, events, [], (List.append_nil events).symm, hx, .done _⟩

theorem runs_within_of_send {T δ : Type} {part : S → T} {put : S → T → S} {wrap : δ → ε}
    {x : Action T δ Unit} {fault : ChannelFault → δ} {message : Bytes} {part' : T}
    {source' : Source}
    (hx : ∀ {events outcome}, x.Runs (part state) source events outcome ↔
      ∃ reply, events = [.sent message reply] ∧ outcome = (reply.mapError fault, part', source'))
    {outcome : Outcome ε Unit S} :
    (within part put wrap x).Runs state source events outcome ↔
      ∃ reply, events = [.sent message reply] ∧
        outcome = (reply.mapError (wrap ∘ fault), put state part', source') := by
  refine Iff.trans runs_within ?_
  constructor
  · rintro ⟨result, _, _, hruns, rfl⟩
    obtain ⟨reply, rfl, hout⟩ := hx.mp hruns
    cases hout
    refine ⟨reply, rfl, ?_⟩
    cases reply <;> rfl
  · rintro ⟨reply, rfl, rfl⟩
    refine ⟨_, _, _, hx.mpr ⟨reply, rfl, rfl⟩, ?_⟩
    cases reply <;> rfl

theorem runs_afterwards {x : Action S ε α} {f : S → S} {outcome : Outcome ε α S} :
    (afterwards x f).Runs state source events outcome ↔
      ∃ result state' source', x.Runs state source events (result, state', source') ∧
        outcome = (result, f state', source') := by
  refine Iff.trans Talk.trace_bind ?_
  constructor
  · rintro ⟨⟨result, state', source'⟩, front, back, rfl, hfront, hback⟩
    obtain ⟨rfl, rfl⟩ := Talk.trace_done.mp hback
    rw [List.append_nil]
    exact ⟨result, state', source', hfront, rfl⟩
  · rintro ⟨result, state', source', hx, rfl⟩
    exact ⟨_, events, [], (List.append_nil events).symm, hx, .done _⟩

theorem Runs.receive_bind {wrap : ChannelFault → ε} {message : Bytes}
    {f : Bytes → Action S ε β} {outcome : Outcome ε β S}
    (hf : (f message).Runs state source events outcome) :
    (receive wrap >>= f).Runs state source (.received (.ok message) :: events) outcome :=
  Runs.bind (runs_receive.mpr ⟨.ok message, rfl, rfl⟩) hf

theorem Runs.send_bind {wrap : ChannelFault → ε} {message : Bytes}
    {f : Unit → Action S ε β} {outcome : Outcome ε β S}
    (hf : (f ()).Runs state source events outcome) :
    (send wrap message >>= f).Runs state source (.sent message (.ok ()) :: events) outcome :=
  Runs.bind (runs_send.mpr ⟨.ok (), rfl, rfl⟩) hf

/-- What a reception does first: it fails, or the message goes on to what follows. -/
theorem runs_receive_bind {wrap : ChannelFault → ε} {f : Bytes → Action S ε β}
    {outcome : Outcome ε β S} :
    (receive wrap >>= f).Runs state source events outcome ↔
      (∃ fault, events = [.received (.error fault)] ∧
        outcome = (.error (wrap fault), state, source)) ∨
      ∃ message rest, events = .received (.ok message) :: rest ∧
        (f message).Runs state source rest outcome := by
  constructor
  · intro h
    rcases runs_bind.mp h with ⟨e, state', source', hx, rfl⟩ |
      ⟨message, state', source', front, back, rfl, hx, hf⟩
    · obtain ⟨reply, rfl, heq⟩ := runs_receive.mp hx
      cases reply with
      | ok message => cases heq
      | error fault =>
          cases heq
          exact .inl ⟨fault, rfl, rfl⟩
    · obtain ⟨reply, rfl, heq⟩ := runs_receive.mp hx
      cases reply with
      | error fault => cases heq
      | ok message =>
          cases heq
          exact .inr ⟨message, back, rfl, hf⟩
  · rintro (⟨fault, rfl, rfl⟩ | ⟨message, rest, rfl, hf⟩)
    · exact Runs.bind_failed (runs_receive.mpr ⟨.error fault, rfl, rfl⟩)
    · exact Runs.receive_bind hf

theorem runs_bind_of_send {x : Action S ε Unit} {wrap : ChannelFault → ε} {message : Bytes}
    {state' : S} {source' : Source}
    (hx : ∀ {events outcome}, x.Runs state source events outcome ↔
      ∃ reply, events = [.sent message reply] ∧ outcome = (reply.mapError wrap, state', source'))
    {f : Unit → Action S ε β} {outcome : Outcome ε β S} :
    (x >>= f).Runs state source events outcome ↔
      (∃ fault, events = [.sent message (.error fault)] ∧
        outcome = (.error (wrap fault), state', source')) ∨
      ∃ rest, events = .sent message (.ok ()) :: rest ∧
        (f ()).Runs state' source' rest outcome := by
  constructor
  · intro h
    rcases runs_bind.mp h with ⟨e, _, _, hruns, rfl⟩ | ⟨_, _, _, front, back, rfl, hruns, hf⟩
    · obtain ⟨reply, rfl, heq⟩ := hx.mp hruns
      cases reply with
      | ok _ => cases heq
      | error fault =>
          cases heq
          exact .inl ⟨fault, rfl, rfl⟩
    · obtain ⟨reply, rfl, heq⟩ := hx.mp hruns
      cases reply with
      | error fault => cases heq
      | ok _ =>
          cases heq
          exact .inr ⟨back, rfl, hf⟩
  · rintro (⟨fault, rfl, rfl⟩ | ⟨rest, rfl, hf⟩)
    · exact Runs.bind_failed (hx.mpr ⟨.error fault, rfl, rfl⟩)
    · exact Runs.bind (hx.mpr ⟨.ok (), rfl, rfl⟩) hf

theorem runs_send_bind {wrap : ChannelFault → ε} {message : Bytes} {f : Unit → Action S ε β}
    {outcome : Outcome ε β S} :
    (send wrap message >>= f).Runs state source events outcome ↔
      (∃ fault, events = [.sent message (.error fault)] ∧
        outcome = (.error (wrap fault), state, source)) ∨
      ∃ rest, events = .sent message (.ok ()) :: rest ∧
        (f ()).Runs state source rest outcome :=
  runs_bind_of_send runs_send

end ThreeMove.Action
