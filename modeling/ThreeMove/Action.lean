import ThreeMove.Outcome
import ThreeMove.Talk

/-!
# Actions of a party

An action works on the party's state and its random source and talks on its channel.  When
it fails, the state and the source stay as they were at the failure.
-/

namespace ThreeMove

def Action (S ε α : Type) : Type :=
  S → Source → Talk (Outcome ε α S)

namespace Action

variable {S ε α β : Type}

def pure (a : α) : Action S ε α := fun state source =>
  .done (.ok a, state, source)

def fail (e : ε) : Action S ε α := fun state source =>
  .done (.error e, state, source)

def bind (x : Action S ε α) (f : α → Action S ε β) : Action S ε β := fun state source =>
  (x state source).bind fun
    | (.ok a, state, source) => f a state source
    | (.error e, state, source) => .done (.error e, state, source)

instance : Monad (Action S ε) where
  pure := pure
  bind := bind

theorem pure_bind (a : α) (f : α → Action S ε β) : bind (pure a) f = f a :=
  rfl

theorem bind_pure (x : Action S ε α) : bind x pure = x := by
  funext state source
  have hpure : (fun outcome : Outcome ε α S =>
      match outcome with
      | (.ok a, state, source) => pure a state source
      | (.error e, state, source) => .done (.error e, state, source)) = Talk.done := by
    funext ⟨result, state, source⟩
    cases result <;> rfl
  unfold bind
  rw [hpure, Talk.bind_done]

theorem bind_assoc {γ : Type} (x : Action S ε α) (f : α → Action S ε β)
    (g : β → Action S ε γ) : bind (bind x f) g = bind x fun a => bind (f a) g := by
  funext state source
  unfold bind
  rw [Talk.bind_assoc]
  congr 1
  funext ⟨result, state, source⟩
  cases result <;> rfl

def get : Action S ε S := fun state source =>
  .done (.ok state, state, source)

def modify (f : S → S) : Action S ε Unit := fun state source =>
  .done (.ok (), f state, source)

/-- Fails with the failure of `result`. -/
def ofExcept (result : Except ε α) : Action S ε α := fun state source =>
  .done (result, state, source)

/-- A step without the channel. -/
def ofStep (step : S → Source → Outcome ε α S) : Action S ε α := fun state source =>
  .done (step state source)

/-- A step without the channel and without randomness. -/
def ofPure (step : S → Except ε α × S) : Action S ε α := fun state source =>
  let (result, state) := step state
  .done (result, state, source)

def draw (f : Source → α × Source) : Action S ε α := fun state source =>
  let (a, source) := f source
  .done (.ok a, state, source)

def receive (wrap : ChannelFault → ε) : Action S ε Bytes := fun state source =>
  .receive fun reply => .done (reply.mapError wrap, state, source)

def send (wrap : ChannelFault → ε) (message : Bytes) : Action S ε Unit := fun state source =>
  .send message fun reply => .done (reply.mapError wrap, state, source)

/-- An action on a part of the state, whose failures are reported as the whole's. -/
def within {T δ : Type} (part : S → T) (put : S → T → S) (wrap : δ → ε)
    (x : Action T δ α) : Action S ε α := fun state source =>
  (x (part state) source).bind fun (result, part, source) =>
    .done (result.mapError wrap, put state part, source)

/-- Changes the state after an action, whether it failed or not. -/
def afterwards (x : Action S ε α) (f : S → S) : Action S ε α := fun state source =>
  (x state source).bind fun (result, state, source) => .done (result, f state, source)

/-- Acts once for every item up to the first failure, and collects the results. -/
def each {ι : Type} (f : ι → Action S ε α) :
    List ι → S → Source → Talk (List (Except ε α) × S × Source)
  | [], state, source => .done ([], state, source)
  | item :: items, state, source =>
      (f item state source).bind fun
        | (.error e, state, source) => .done ([.error e], state, source)
        | (.ok a, state, source) =>
            (each f items state source).bind fun (results, state, source) =>
              .done (.ok a :: results, state, source)

/-- Creates a party and lets it act once for every item, up to the first failure. -/
def createAndEach {ι : Type} (create : Action Unit ε S) (f : ι → Action S ε α)
    (items : List ι) (source : Source) : Talk (Except ε (List (Except ε α)) × Source) :=
  (create () source).bind fun
    | (.error e, _, source) => .done (.error e, source)
    | (.ok party, _, source) =>
        (each f items party source).bind fun (results, _, source) =>
          .done (.ok results, source)

end Action

end ThreeMove
