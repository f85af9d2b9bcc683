import ThreeMove.Proofs.ZeroKnowledge.Prover

/-!
# The course of a whole run

A prover that is asked for an input of the right shape goes on until the verifier misbehaves or
the channel fails.  What it has read up to that point decides how the run ends.
-/

namespace ThreeMove.ZeroKnowledge.Prover

open ThreeMove.Action Pedersen

variable {E : Type} {t : Nat} {party party' : Prover E t} {source source' : Source}
  {events : List Event}

def answering (record : Record) : Action (Prover E t) ProofFault Record := do
  let challenge ← onReceiver (Receiver.receiveOpening record.id)
  sendSecond challenge
  return record

def proving (input : ProverInput E) : Action (Prover E t) ProofFault Record := do
  let record ← onReceiver Receiver.receiveRecord
  sendFirst input
  answering record

theorem proving_bind {α : Type} (input : ProverInput E)
    (f : Record → Action (Prover E t) ProofFault α) :
    proving input >>= f = (do
      let record ← onReceiver Receiver.receiveRecord
      sendFirst input
      let challenge ← onReceiver (Receiver.receiveOpening record.id)
      sendSecond challenge
      f record) := by
  have hanswering : ∀ record, Action.bind (answering record) f =
      Action.bind (onReceiver (Receiver.receiveOpening record.id)) fun challenge =>
        Action.bind (sendSecond challenge) fun _ => f record := by
    intro record
    change Action.bind (Action.bind _ fun challenge => Action.bind (sendSecond challenge) fun _ =>
      Action.pure record) _ = _
    simp only [Action.bind_assoc, Action.pure_bind]
  change Action.bind (Action.bind _ fun record => Action.bind _ fun _ => answering record) _ = _
  simp only [Action.bind_assoc, hanswering]
  rfl

theorem prove_eq_proving (input : ProverInput E) :
    (prove input : Action (Prover E t) ProofFault Unit) =
      proving input >>= fun _ => Pure.pure () := by
  rw [proving_bind]
  have hdone : ∀ challenge : Challenge,
      (sendSecond challenge >>= fun _ => Pure.pure () : Action (Prover E t) ProofFault Unit) =
        sendSecond challenge := fun challenge => Action.bind_pure _
  simp only [hdone]
  rfl

structure IsCommitment (group : PrimeGroup E) (bytes : Bytes) (commitment : Commitment)
    (element : E) : Prop where
  read : Commitment.decode group.elementSize bytes = .ok commitment
  decode : group.decode commitment.element = .ok element

/-- How a run goes on until the answer or the first failure. -/
inductive Course (starts : Bytes → Prop) (group : PrimeGroup E) (key : E) (t : Nat) :
    List Event → Except ProofFault Record → Prop where
  | uncommitted {events : List Event} {e : CommitmentFault}
      (hrefused : Receiver.CommitmentRefused group events e) :
      Course starts group key t events (.error (.ofCommitment e))
  | firstLost {bytes first : Bytes} {commitment : Commitment} {element : E}
      (hcommitment : IsCommitment group bytes commitment element) (hfirst : starts first)
      (fault : ChannelFault) :
      Course starts group key t [.received (.ok bytes), .sent first (.error fault)]
        (.error (.channel fault))
  | openingLost {bytes first : Bytes} {commitment : Commitment} {element : E}
      (hcommitment : IsCommitment group bytes commitment element) (hfirst : starts first)
      (fault : ChannelFault) :
      Course starts group key t
        [.received (.ok bytes), .sent first (.ok ()), .received (.error fault)]
        (.error (.channel fault))
  | openingMalformed {bytes first : Bytes} {commitment : Commitment} {element : E}
      (hcommitment : IsCommitment group bytes commitment element) (hfirst : starts first)
      {answer : Bytes} {fault : MessageFault}
      (hread : Opening.decode group.scalarSize answer = .error fault) :
      Course starts group key t
        [.received (.ok bytes), .sent first (.ok ()), .received (.ok answer)]
        (.error (.message fault))
  | openingWrong {bytes first : Bytes} {commitment : Commitment} {element : E}
      (hcommitment : IsCommitment group bytes commitment element) (hfirst : starts first)
      {answer : Bytes} {opening : Opening}
      (hread : Opening.decode group.scalarSize answer = .ok opening)
      (hwrong : Receiver.Opens group key commitment.id element opening → 2 ^ t ≤ opening.value)
      (reason : Reason) :
      Course starts group key t
        [.received (.ok bytes), .sent first (.ok ()), .received (.ok answer)]
        (.error (.cheating reason))
  | answered {bytes first : Bytes} {commitment : Commitment} {element : E}
      (hcommitment : IsCommitment group bytes commitment element) (hfirst : starts first)
      {answer : Bytes} {opening : Opening}
      (hread : Opening.decode group.scalarSize answer = .ok opening)
      (hright : Receiver.Opens group key commitment.id element opening)
      (hlt : opening.value < 2 ^ t) (second : Bytes) (reply : Except ChannelFault Unit)
      (record : Record) :
      Course starts group key t
        [.received (.ok bytes), .sent first (.ok ()), .received (.ok answer), .sent second reply]
        ((reply.mapError .channel).map fun _ => record)

section Opening

variable {starts : Bytes → Prop} {bytes first : Bytes} {commitment : Commitment} {element : E}
  {record : Record}

theorem course_of_refused (hfirst : starts first) {e : CommitmentFault}
    (hcommitment : IsCommitment party.receiver.group bytes commitment element)
    (hkept : party.receiver.commitments.get? commitment.id = some element)
    (hrefused : Receiver.OpeningRefused party.receiver commitment.id events e) :
    Course starts party.receiver.group party.receiver.key t
      (.received (.ok bytes) :: .sent first (.ok ()) :: events) (.error (.ofCommitment e)) := by
  cases hrefused with
  | lost fault => exact .openingLost hcommitment hfirst fault
  | malformed hread => exact .openingMalformed hcommitment hfirst hread
  | wrong hread hwrong reason =>
      exact .openingWrong hcommitment hfirst hread
        (fun hright => (hwrong element hkept hright).elim) reason

theorem course_of_sendSecond {group : PrimeGroup E} {key : E} (hfirst : starts first)
    {answer : Bytes} {opening : Opening} {begun : Begun E t} {result : Except ProofFault Unit}
    (hcommitment : IsCommitment group bytes commitment element)
    (hread : Opening.decode group.scalarSize answer = .ok opening)
    (hright : Receiver.Opens group key commitment.id element opening)
    (hbegun : party.computation = begun.prover)
    (hruns : (sendSecond opening.value).Runs party source events (result, party', source')) :
    Course starts group key t
      (.received (.ok bytes) :: .sent first (.ok ()) :: .received (.ok answer) :: events)
      (result.map fun _ => record) := by
  rcases (runs_sendSecond hbegun hruns).2.2 with ⟨rfl, hle, rfl⟩ |
    ⟨hlt, second, reply, _, rfl, rfl⟩
  · exact .openingWrong hcommitment hfirst hread (fun _ => hle) .challengeOutOfRange
  · exact .answered hcommitment hfirst hread hright hlt second reply record

/-- What has been read of the opening decides how a run ends after its first message. -/
theorem course_of_answering (hfirst : starts first) {begun : Begun E t}
    {outcome : Outcome ProofFault Record (Prover E t)}
    (hruns : (answering record).Runs party source events outcome)
    (hcommitment : IsCommitment party.receiver.group bytes commitment element)
    (hid : commitment.id = record.id)
    (hkept : party.receiver.commitments.get? record.id = some element)
    (hbegun : party.computation = begun.prover) :
    Course starts party.receiver.group party.receiver.key t
      (.received (.ok bytes) :: .sent first (.ok ()) :: events) outcome.1 := by
  rw [← hid] at hkept
  unfold answering at hruns
  rw [← hid] at hruns
  rcases runs_bind.mp hruns with ⟨e, _, _, hopening, rfl⟩ |
    ⟨challenge, _, _, front, back, rfl, hopening, hanswer⟩
  · obtain ⟨result, receiver, hreceiver, hresult, rfl⟩ := runs_onReceiver.mp hopening
    rcases Receiver.runs_receiveOpening hreceiver with ⟨fault, _, rfl, _, hrefused⟩ |
      ⟨_, _, _, _, _, _, _, _, rfl, _⟩
    · cases hresult
      exact course_of_refused hfirst hcommitment hkept hrefused
    · cases hresult
  · obtain ⟨result, receiver, hreceiver, hresult, rfl⟩ := runs_onReceiver.mp hopening
    rcases Receiver.runs_receiveOpening hreceiver with ⟨_, _, rfl, _⟩ |
      ⟨answer, opening, other, rfl, hread, hother, hright, _, rfl, rfl⟩
    · cases hresult
    · cases hresult
      rw [hkept] at hother
      cases hother
      obtain ⟨result, _, _, hsend, rfl⟩ := runs_map.mp hanswer
      exact course_of_sendSecond hfirst hcommitment hread hright (by exact hbegun) hsend

end Opening

theorem course_of_proving {input : ProverInput E} (hfits : party.computation.Fits input)
    {outcome : Outcome ProofFault Record (Prover E t)}
    (hruns : (proving input).Runs party source events outcome) :
    Course (party.computation.BeginsWith input source) party.receiver.group party.receiver.key t
      events outcome.1 := by
  rcases runs_bind.mp hruns with ⟨e, _, _, hrecord, rfl⟩ |
    ⟨record, _, _, front, back, rfl, hrecord, hrest⟩
  · obtain ⟨result, receiver, hreceiver, hresult, rfl⟩ := runs_onReceiver.mp hrecord
    rcases Receiver.runs_receiveRecord hreceiver with ⟨fault, rfl, _, hrefused⟩ |
      ⟨_, _, _, _, _, _, _, rfl, _⟩
    · cases hresult
      exact .uncommitted hrefused
    · cases hresult
  · obtain ⟨result, receiver, hreceiver, hresult, rfl⟩ := runs_onReceiver.mp hrecord
    rcases Receiver.runs_receiveRecord hreceiver with ⟨_, rfl, _⟩ |
      ⟨id, bytes, element, rfl, hlen, hdecode, rfl, rfl, rfl⟩
    · cases hresult
    · cases hresult
      have hcommitment : IsCommitment party.receiver.group (encodeId id ++ bytes) ⟨id, bytes⟩
          element := ⟨Commitment.decode_eq_ok_iff.mpr ⟨rfl, hlen⟩, hdecode⟩
      rcases runs_bind.mp hrest with ⟨e, _, _, hsend, rfl⟩ |
        ⟨_, _, _, middle, rest, rfl, hsend, hopening⟩
      · obtain ⟨_, first, reply, hfirst, rfl, hreply, -⟩ := runs_sendFirst_of_fits hsend hfits
        cases reply with
        | ok _ => cases hreply
        | error fault =>
            cases hreply
            exact .firstLost hcommitment hfirst fault
      · obtain ⟨begun, first, reply, hfirst, rfl, hreply, rfl⟩ :=
          runs_sendFirst_of_fits hsend hfits
        cases reply with
        | error fault => cases hreply
        | ok _ =>
            have hcourse := course_of_answering hfirst hopening hcommitment rfl
              (Ledger.get?_insert_self _ _ _) rfl
            exact hcourse

end ThreeMove.ZeroKnowledge.Prover
