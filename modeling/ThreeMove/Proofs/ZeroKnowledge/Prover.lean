import ThreeMove.ZeroKnowledge.Prover
import ThreeMove.Proofs.Composition.Begun
import ThreeMove.Proofs.Pedersen.Receiver

/-!
# The moves of a prover on its channel

The first message of a party begins a proof, and the answer is the one of the proof that was
begun.  The receiver of the commitments takes no part in either.
-/

namespace ThreeMove.ZeroKnowledge.Prover

open ThreeMove.Action

variable {E : Type} {t : Nat} {party party' : Prover E t} {source source' : Source}
  {events : List Event}

theorem runs_compute {α : Type}
    {step : ThreeMove.Prover E t → Source → Outcome SigmaFault α (ThreeMove.Prover E t)}
    {outcome : Outcome ProofFault α (Prover E t)} :
    (compute step).Runs party source events outcome ↔
      events = [] ∧ outcome = ((step party.computation source).1.mapError .ofSigma,
        { party with computation := (step party.computation source).2.1 },
        (step party.computation source).2.2) := by
  refine Iff.trans runs_within ?_
  constructor
  · rintro ⟨result, computation, rest, hstep, rfl⟩
    obtain ⟨rfl, hout⟩ := runs_ofStep.mp hstep
    rw [← hout]
    exact ⟨rfl, rfl⟩
  · rintro ⟨rfl, rfl⟩
    exact ⟨_, _, _, runs_ofStep.mpr ⟨rfl, rfl⟩, rfl⟩

theorem runs_onReceiver {α : Type} {x : Action (Pedersen.Receiver E) CommitmentFault α}
    {result : Except ProofFault α} :
    (onReceiver x).Runs party source events (result, party', source') ↔
      ∃ answer receiver, x.Runs party.receiver source events (answer, receiver, source') ∧
        result = answer.mapError .ofCommitment ∧ party' = { party with receiver } := by
  refine Iff.trans runs_within ?_
  constructor
  · rintro ⟨answer, receiver, _, hx, hout⟩
    cases hout
    exact ⟨answer, receiver, hx, rfl, rfl⟩
  · rintro ⟨answer, receiver, hx, rfl, rfl⟩
    exact ⟨answer, receiver, source', hx, rfl⟩

theorem runs_sendMessage {message : Message} {bytes : Bytes} (hbytes : message.encode = .ok bytes)
    {outcome : Outcome ProofFault Unit (Prover E t)} :
    (sendMessage message).Runs party source events outcome ↔
      ∃ reply, events = [.sent bytes reply] ∧
        outcome = (reply.mapError .channel, party, source) := by
  unfold sendMessage
  rw [runs_ofExcept_bind, hbytes]
  exact runs_send

theorem runs_create {computation : ThreeMove.Prover E t}
    (hruns : (create computation).Runs () source events (.ok party, (), source')) :
    party.computation = computation ∧ party.receiver.group = computation.group ∧
      party.receiver.key = computation.group.pow computation.group.generator
        party.receiver.trapdoor ∧
      party.receiver.commitments = .empty ∧
      events = [.sent (computation.group.encode party.receiver.key) (.ok ())] := by
  rcases runs_bind.mp hruns with ⟨e, state, rest, hcreate, hout⟩ |
    ⟨receiver, state, rest, front, back, rfl, hcreate, hback⟩
  · cases hout
  · obtain ⟨rfl, hout⟩ := runs_pure.mp hback
    cases hout
    obtain ⟨result, _, _, hcreate, hout⟩ := runs_within.mp hcreate
    cases result with
    | error e => cases hout
    | ok _ =>
        cases hout
        obtain ⟨hgroup, hkey, hempty, hevents⟩ := Pedersen.Receiver.runs_create hcreate
        rw [List.append_nil]
        exact ⟨rfl, hgroup, hkey, hempty, hevents⟩

/-- Unless the input is misshapen, the first message of a proof that is begun with it is sent. -/
theorem runs_sendFirst {input : ProverInput E} {result : Except ProofFault Unit}
    (hruns : (sendFirst input).Runs party source events (result, party', source')) :
    party'.receiver = party.receiver ∧
      party'.computation.statements = party.computation.statements ∧
      ((∃ fault, (party.computation.first input source).1 = .error fault ∧ events = [] ∧
          result = .error (.ofSigma fault)) ∨
        ∃ (begun : Begun E t) (bytes : Bytes) (reply : Except ChannelFault Unit),
          party.computation.first input source = (.ok begun.firstMessage, begun.prover, source') ∧
          begun.statements = party.computation.statements ∧ begun.Carries input ∧
          begun.firstMessage.encode = .ok bytes ∧ events = [.sent bytes reply] ∧
          result = reply.mapError .channel ∧
          party' = { party with computation := begun.prover }) := by
  have hsame := Prover.statements_first party.computation input source
  rcases runs_bind.mp hruns with ⟨e, state, rest, hcompute, hout⟩ |
    ⟨message, state, rest, front, back, rfl, hcompute, hsend⟩
  · obtain ⟨rfl, heq⟩ := runs_compute.mp hcompute
    cases hout
    rw [Prod.mk.injEq, Prod.mk.injEq] at heq
    obtain ⟨herror, rfl, -⟩ := heq
    refine ⟨rfl, hsame, .inl ?_⟩
    cases hfirst : (party.computation.first input source).1 with
    | ok message =>
        rw [hfirst] at herror
        cases herror
    | error fault =>
        rw [hfirst] at herror
        cases herror
        exact ⟨fault, rfl, rfl, rfl⟩
  · obtain ⟨rfl, heq⟩ := runs_compute.mp hcompute
    generalize hfirst : party.computation.first input source = outcome at heq hsame ⊢
    obtain ⟨answer, computation, left⟩ := outcome
    cases answer with
    | error e => cases heq
    | ok answer =>
        cases heq
        obtain ⟨begun, rfl, rfl, hstatements, hcarries⟩ := Prover.begun_of_first _ _ _ hfirst
        obtain ⟨bytes, hbytes⟩ := begun.encode_firstMessage
        obtain ⟨reply, rfl, hout⟩ := (runs_sendMessage hbytes).mp hsend
        cases hout
        exact ⟨rfl, hsame, .inr ⟨begun, bytes, reply, rfl, hstatements, hcarries, hbytes, rfl, rfl,
          rfl⟩⟩

/-- The first message for an input of the right shape is always sent. -/
theorem runs_sendFirst_of_fits {input : ProverInput E} {result : Except ProofFault Unit}
    (hruns : (sendFirst input).Runs party source events (result, party', source'))
    (hfits : party.computation.Fits input) :
    ∃ (begun : Begun E t) (bytes : Bytes) (reply : Except ChannelFault Unit),
      party.computation.BeginsWith input source bytes ∧ events = [.sent bytes reply] ∧
        result = reply.mapError .channel ∧ party' = { party with computation := begun.prover } := by
  obtain ⟨-, -, hsent⟩ := runs_sendFirst hruns
  rcases hsent with ⟨fault, hfailed, -⟩ |
    ⟨begun, bytes, reply, hfirst, -, -, hbytes, hevents, hresult, hparty⟩
  · obtain ⟨_, _, _, hfirst⟩ := Prover.first_of_fits _ _ source hfits
    rw [hfirst] at hfailed
    cases hfailed
  · exact ⟨begun, bytes, reply, ⟨begun, source', hfirst, hbytes⟩, hevents, hresult, hparty⟩

/-- A begun proof answers a challenge in range, and refuses any other one in silence. -/
theorem runs_sendSecond {challenge : Challenge} {begun : Begun E t}
    (hbegun : party.computation = begun.prover) {result : Except ProofFault Unit}
    (hruns : (sendSecond challenge).Runs party source events (result, party', source')) :
    party'.receiver = party.receiver ∧
      party'.computation.statements = party.computation.statements ∧
      (events = [] ∧ 2 ^ t ≤ challenge ∧ result = .error (.cheating .challengeOutOfRange) ∨
        challenge < 2 ^ t ∧ ∃ bytes reply, (begun.answer challenge).encode = .ok bytes ∧
          events = [.sent bytes reply] ∧ result = reply.mapError .channel) := by
  have hsame := Prover.statements_second challenge party.computation
  rcases runs_bind.mp hruns with ⟨e, state, rest, hcompute, hout⟩ |
    ⟨message, state, rest, front, back, rfl, hcompute, hsend⟩
  · obtain ⟨rfl, heq⟩ := runs_compute.mp hcompute
    cases hout
    rw [Prod.mk.injEq, Prod.mk.injEq] at heq
    obtain ⟨hfault, rfl, -⟩ := heq
    refine ⟨rfl, hsame, .inl ⟨rfl, ?_⟩⟩
    dsimp only at hfault
    rcases Nat.lt_or_ge challenge (2 ^ t) with hlt | hle
    · rw [hbegun, Prover.second_of_lt hlt begun] at hfault
      cases hfault
    · rw [hbegun, Prover.second_of_le hle begun] at hfault
      cases hfault
      exact ⟨hle, rfl⟩
  · obtain ⟨rfl, heq⟩ := runs_compute.mp hcompute
    rcases Nat.lt_or_ge challenge (2 ^ t) with hlt | hle
    · rw [hbegun, Prover.second_of_lt hlt begun] at heq
      cases heq
      obtain ⟨bytes, hbytes⟩ := begun.encode_answer challenge
      obtain ⟨reply, rfl, hout⟩ := (runs_sendMessage hbytes).mp hsend
      cases hout
      refine ⟨rfl, ?_, .inr ⟨hlt, bytes, reply, hbytes, rfl, rfl⟩⟩
      rw [hbegun, begun.statements_answered, begun.statements_prover]
    · rw [hbegun, Prover.second_of_le hle begun] at heq
      cases heq

end ThreeMove.ZeroKnowledge.Prover
