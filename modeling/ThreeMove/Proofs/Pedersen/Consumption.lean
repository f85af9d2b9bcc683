import ThreeMove.Proofs.Group.SafePrime
import ThreeMove.Proofs.Pedersen.Codec
import ThreeMove.Proofs.Pedersen.Deeds
import ThreeMove.Proofs.Talk.History

/-!
# Openings that use a commitment up

An opening phase uses up the commitment that it is asked for, whatever it finds, if only it can
read its message as an opening.  A message that it cannot read leaves the commitment, so the peer
may try again with another one.
-/

namespace ThreeMove.Pedersen

open ThreeMove.Action

variable {E : Type}

/-- The bytes reach up to the value, and what is left for the value is not negative. -/
def Opening.Legible (scalarSize : Nat) (bytes : Bytes) : Prop :=
  8 + scalarSize ≤ bytes.length ∧ (bytes.drop (8 + scalarSize) = [] ∨
    ∃ byte rest, bytes.drop (8 + scalarSize) = byte :: rest ∧ byte.toNat < 128)

namespace Receiver

variable {receiver receiver' : Receiver E} {source source' : Source} {events : List Event}
  {id : Id} {bytes : Bytes}

theorem isOpening_iff (group : PrimeGroup E) (bytes : Bytes) :
    isOpening group bytes = true ↔ Opening.Legible group.scalarSize bytes := by
  rw [Opening.Legible, ← Opening.decodes_iff, isOpening]
  cases Opening.decode group.scalarSize bytes with
  | error fault =>
      refine iff_of_false Bool.false_ne_true ?_
      rintro ⟨opening, hread⟩
      cases hread
  | ok opening => exact iff_of_true rfl ⟨opening, rfl⟩

theorem get?_openingDeeds (group : PrimeGroup E) (id other : Id) (messages : List Bytes)
    (ledger : Ledger E) :
    (Deed.performAll (openingDeeds group id messages) ledger).get? other =
      if id = other ∧ messages.any (isOpening group) = true then none else ledger.get? other := by
  induction messages generalizing ledger with
  | nil => simp [openingDeeds, Deed.performAll]
  | cons message messages ih =>
      by_cases hread : isOpening group message = true
      · have hdeeds : openingDeeds group id (message :: messages) =
            .consume id :: openingDeeds group id messages := by
          rw [openingDeeds, List.filter_cons_of_pos hread]
          rfl
        have hfirst : Deed.performAll (.consume id :: openingDeeds group id messages) ledger =
            Deed.performAll (openingDeeds group id messages) (ledger.erase id) := rfl
        rw [hdeeds, hfirst, ih, Ledger.get?_erase]
        rcases eq_or_ne id other with rfl | hother
        · simp [hread]
        · simp [hother, hother.symm]
      · have hdeeds : openingDeeds group id (message :: messages) =
            openingDeeds group id messages := by
          rw [openingDeeds, List.filter_cons_of_neg hread]
          rfl
        rw [hdeeds, ih]
        simp [hread]

theorem get?_of_receiveOpening {result : Except CommitmentFault Nat}
    (hruns : (receiveOpening id : Action (Receiver E) _ _).Runs receiver source events
      (result, receiver', source')) (other : Id) :
    receiver'.group = receiver.group ∧ receiver'.commitments.get? other =
      if id = other ∧ (Talk.received events).any (isOpening receiver.group) = true then none
      else receiver.commitments.get? other := by
  rw [after_receiveOpening hruns]
  exact ⟨rfl, get?_openingDeeds _ _ _ _ _⟩

theorem exists_runs_receiveOpening (receiver : Receiver E) (id : Id) (bytes : Bytes)
    (source : Source) : ∃ outcome, (receiveOpening id : Action (Receiver E) _ _).Runs receiver
      source [.received (.ok bytes)] outcome := by
  cases hdecode : Opening.decode receiver.group.scalarSize bytes with
  | error fault =>
      refine ⟨(.error (.message fault), receiver, source), Runs.receive_bind ?_⟩
      rw [runs_get_bind, runs_ofExcept_bind, hdecode]
      exact ⟨rfl, rfl⟩
  | ok opening =>
      by_cases hid : opening.id = id
      · refine ⟨((verifyOpening opening receiver).1, (verifyOpening opening receiver).2, source),
          Runs.receive_bind ?_⟩
        rw [runs_get_bind, runs_ofExcept_bind, hdecode]
        dsimp only [Except.mapError]
        rw [if_pos hid]
        exact runs_ofPure.mpr ⟨rfl, rfl⟩
      · refine ⟨(.error (.cheating .identifierMismatch), receiver.after [.consume id], source),
          Runs.receive_bind ?_⟩
        rw [runs_get_bind, runs_ofExcept_bind, hdecode]
        dsimp only [Except.mapError]
        rw [if_neg hid, runs_modify_bind]
        exact runs_fail.mpr ⟨rfl, rfl⟩

/-- A message that cannot be read as an opening leaves everything as it was. -/
theorem eq_of_not_legible {result : Except CommitmentFault Nat}
    (hruns : (receiveOpening id : Action (Receiver E) _ _).Runs receiver source
      [.received (.ok bytes)] (result, receiver', source'))
    (hillegible : ¬ Opening.Legible receiver.group.scalarSize bytes) :
    receiver' = receiver ∧ ∃ fault, result = .error (.message fault) := by
  have hunread : ∀ opening, Opening.decode receiver.group.scalarSize bytes ≠ .ok opening :=
    fun opening hread => hillegible ((Opening.decodes_iff _ _).mp ⟨opening, hread⟩)
  constructor
  · have hmessages : Talk.received [.received (.ok bytes)] = [bytes] := rfl
    rw [after_receiveOpening hruns, hmessages, openingDeeds,
      List.filter_cons_of_neg (mt (isOpening_iff _ _).mp hillegible)]
    rfl
  · rcases runs_receiveOpening hruns with ⟨e, _, rfl, -, hrefused⟩ |
      ⟨_, opening, _, hevents, hread, _⟩
    · cases hrefused with
      | malformed hread => exact ⟨_, rfl⟩
      | wrong hread hwrong reason => exact (hunread _ hread).elim
    · cases hevents
      exact (hunread opening hread).elim

def tryOpening (id : Id) : Action (Receiver E) CommitmentFault Unit := do
  let _ ← receiveOpening id
  return ()

/-- One of the calls for this identifier has read an opening, be it right or wrong. -/
def Tried (group : PrimeGroup E) (calls : List (Entry Id (Receiver E) CommitmentFault)) (id : Id) :
    Prop :=
  ∃ call ∈ calls, call.call = id ∧
    ∃ bytes ∈ Talk.received call.events, Opening.Legible group.scalarSize bytes

theorem tried_snoc {group : PrimeGroup E} {calls : List (Entry Id (Receiver E) CommitmentFault)}
    (call : Entry Id (Receiver E) CommitmentFault) (id : Id) :
    Tried group (calls ++ [call]) id ↔ Tried group calls id ∨
      (call.call = id ∧ (Talk.received call.events).any (isOpening group) = true) := by
  simp [Tried, or_and_right, exists_or, isOpening_iff]

theorem get?_of_history {calls : List (Entry Id (Receiver E) CommitmentFault)}
    (history : History tryOpening receiver source calls receiver' source') (id : Id) :
    receiver'.group = receiver.group ∧
      (Tried receiver.group calls id → receiver'.commitments.get? id = none) ∧
      (¬ Tried receiver.group calls id →
        receiver'.commitments.get? id = receiver.commitments.get? id) := by
  refine history.invariant (fun calls current => current.group = receiver.group ∧
    (Tried receiver.group calls id → current.commitments.get? id = none) ∧
    (¬ Tried receiver.group calls id →
      current.commitments.get? id = receiver.commitments.get? id)) ⟨rfl, ?_, fun _ => rfl⟩ ?_
  · rintro ⟨call, hcall, -⟩
    cases hcall
  · rintro calls current between call events result next rest ⟨hgroup, htried, huntried⟩ hruns
    obtain ⟨answer, _, _, hopening, hout⟩ := runs_discard.mp hruns
    cases hout
    obtain ⟨hsame, hget⟩ := get?_of_receiveOpening hopening id
    rw [hgroup] at hsame hget
    rw [tried_snoc, hget]
    refine ⟨hsame, ?_, fun huntouched => ?_⟩
    · rintro (hbefore | hnow)
      · rw [htried hbefore, ite_self]
      · rw [if_pos hnow]
    · obtain ⟨hbefore, hnow⟩ := not_or.mp huntouched
      rw [if_neg hnow, huntried hbefore]

/-- An opening phase that has read a message leaves the other identifiers alone.  It uses up the
commitment under its own one exactly if the message can be read as an opening; else it fails on the
message and nothing changes.  So through any calls a commitment is kept until the first opening for
it that can be read. -/
theorem commitment_consumed_iff (receiver : Receiver E) :
    (∀ (id : Id) (bytes : Bytes) (source : Source),
      (∃ outcome, (receiveOpening id : Action (Receiver E) _ _).Runs receiver source
        [.received (.ok bytes)] outcome) ∧
      ∀ {result : Except CommitmentFault Nat} {receiver' : Receiver E} {source' : Source},
        (receiveOpening id : Action (Receiver E) _ _).Runs receiver source
          [.received (.ok bytes)] (result, receiver', source') →
        (∀ other, other ≠ id →
          receiver'.commitments.get? other = receiver.commitments.get? other) ∧
        (receiver'.commitments.get? id = none ↔ receiver.commitments.get? id = none ∨
          Opening.Legible receiver.group.scalarSize bytes) ∧
        (¬ Opening.Legible receiver.group.scalarSize bytes →
          receiver' = receiver ∧ ∃ fault, result = .error (.message fault))) ∧
    ∀ {calls : List (Entry Id (Receiver E) CommitmentFault)} {source source' : Source}
      {receiver' : Receiver E},
      History tryOpening receiver source calls receiver' source' → ∀ id,
      (Tried receiver.group calls id → receiver'.commitments.get? id = none) ∧
      (¬ Tried receiver.group calls id →
        receiver'.commitments.get? id = receiver.commitments.get? id) := by
  refine ⟨fun id bytes source => ⟨exists_runs_receiveOpening receiver id bytes source, ?_⟩,
    fun history id => (get?_of_history history id).2⟩
  intro result receiver' source' hruns
  have hget := fun other => (get?_of_receiveOpening hruns other).2
  have hmessages : (Talk.received [.received (.ok bytes)]).any (isOpening receiver.group) = true ↔
      Opening.Legible receiver.group.scalarSize bytes := by
    rw [← isOpening_iff]
    exact (Bool.or_false _).congr_left
  refine ⟨fun other hother => ?_, ?_, eq_of_not_legible hruns⟩
  · rw [hget, if_neg fun hsame => hother hsame.1.symm]
  · rw [hget]
    split
    · next hread => exact iff_of_true rfl (.inr (hmessages.mp hread.2))
    · next hunread =>
      have hillegible := mt hmessages.mpr (not_and.mp hunread rfl)
      exact (or_iff_left hillegible).symm

/-- The first message has no identifier, and the second has another one. -/
theorem commitment_consumed_modulo23 :
    ∃ (receiver receiver' : Receiver Nat) (source source' : Source)
      (calls : List (Entry Id (Receiver Nat) CommitmentFault)),
      receiver.commitments.get? 1 = some 12 ∧ receiver.commitments.get? 2 = some 18 ∧
      calls.map Entry.call = [1, 1] ∧
      calls.map Entry.events =
        [[.received (.ok [0])], [.received (.ok [0, 0, 0, 0, 0, 0, 0, 2, 5])]] ∧
      History tryOpening receiver source calls receiver' source' ∧
      receiver'.commitments.get? 1 = none ∧ receiver'.commitments.get? 2 = some 18 := by
  have hruns : ∃ (receiver receiver' : Receiver Nat) (source between rest : Source),
      receiver.group.scalarSize = 1 ∧
      receiver.commitments.get? 1 = some 12 ∧ receiver.commitments.get? 2 = some 18 ∧
      (tryOpening 1).Runs receiver source [.received (.ok [0])]
        (.error (.message (.malformed .identifierMissing)), receiver, between) ∧
      (tryOpening 1).Runs receiver between [.received (.ok [0, 0, 0, 0, 0, 0, 0, 2, 5])]
        (.error (.cheating .identifierMismatch), receiver', rest) :=
    ⟨⟨SafePrime.modulo23.group, 3, 18, (Ledger.empty.insert 2 18).insert 1 12⟩, _,
      ⟨fun i => UInt8.ofNat (37 * i + 5), 0⟩, _, _, rfl, rfl, rfl, .receive _ (.done _),
      .receive _ (.done _)⟩
  obtain ⟨receiver, receiver', source, between, rest, hsize, hone, htwo, hfirst, hsecond⟩ := hruns
  have history := (History.single hfirst).snoc 1 hsecond
  have hledger := (commitment_consumed_iff receiver).2 history
  refine ⟨receiver, receiver', source, rest, _, hone, htwo, rfl, rfl, history, (hledger 1).1 ?_,
    ((hledger 2).2 ?_).trans htwo⟩
  · refine ⟨_, List.mem_append_right _ (List.mem_singleton.mpr rfl), rfl, _,
      List.mem_singleton.mpr rfl, ?_⟩
    rw [hsize]
    exact ⟨by decide, .inl rfl⟩
  · rintro ⟨call, hcall, hid, -⟩
    rcases List.mem_pair.mp hcall with rfl | rfl <;> cases hid

/-- A message without an identifier leaves the commitment that it was to open. -/
theorem illegible_opening_keeps_commitment_modulo23 :
    let source : Source := ⟨fun i => UInt8.ofNat (37 * i + 5), 0⟩
    ∃ (receiver kept kept' : Receiver Nat) (between rest : Source),
      (create SafePrime.modulo23.group).Runs () source [.sent [8] (.ok ())]
        (.ok receiver, (), between) ∧
      (receiveCommitment : Action (Receiver Nat) _ _).Runs receiver between
        [.received (.ok [0, 0, 0, 0, 0, 0, 0, 1, 12])] (.ok 1, kept, between) ∧
      (receiveOpening 1 : Action (Receiver Nat) _ _).Runs kept between [.received (.ok [0])]
        (.error (.message (.malformed .identifierMissing)), kept', rest) ∧
      kept'.commitments.get? 1 = some 12 :=
  ⟨_, _, _, _, _, .send (.ok ()) (.done _), .receive _ (.done _), .receive _ (.done _), rfl⟩

end Receiver

end ThreeMove.Pedersen
