import Mathlib.Data.List.Induction
import ThreeMove.Proofs.Pedersen.Receiver

/-!
# What a receiver does with its ledger

A receiver keeps an element when it reads a commitment to it.  It uses a commitment up when it
reads an opening for it, if that can be decoded.  The ledger is told by these deeds alone.
-/

namespace ThreeMove.Pedersen

open ThreeMove.Action

variable {E : Type}

namespace Ledger

theorem erase_of_get?_eq_none {ledger : Ledger E} {id : Id} (hnone : ledger.get? id = none) :
    ledger.erase id = ledger := by
  have habsent : ∀ entry ∈ ledger.entries, (entry.1 != id) = true := by
    unfold get? at hnone
    rw [Option.map_eq_none_iff, List.find?_eq_none] at hnone
    intro entry hentry
    simpa using hnone entry hentry
  unfold erase
  rw [List.filter_eq_self.mpr habsent]

end Ledger

inductive Deed (E : Type) where
  | keep (id : Id) (element : E)
  | consume (id : Id)

namespace Deed

def id : Deed E → Id
  | keep id _ => id
  | consume id => id

def perform : Deed E → Ledger E → Ledger E
  | keep id element, ledger => ledger.insert id element
  | consume id, ledger => ledger.erase id

def performAll (deeds : List (Deed E)) (ledger : Ledger E) : Ledger E :=
  deeds.foldl (fun ledger deed => deed.perform ledger) ledger

theorem performAll_append (front back : List (Deed E)) (ledger : Ledger E) :
    performAll (front ++ back) ledger = performAll back (performAll front ledger) :=
  List.foldl_append

def left : Deed E → Option E
  | keep _ element => some element
  | consume _ => none

theorem get?_perform (deed : Deed E) (ledger : Ledger E) (id : Id) :
    (deed.perform ledger).get? id = if id = deed.id then deed.left else ledger.get? id := by
  cases deed with
  | keep other element => exact Ledger.get?_insert ledger other id element
  | consume other => exact Ledger.get?_erase ledger other id

/-- The last deed under the identifier kept the element. -/
def LastKeeps (deeds : List (Deed E)) (id : Id) (element : E) : Prop :=
  ∃ earlier later, deeds = earlier ++ .keep id element :: later ∧ ∀ deed ∈ later, deed.id ≠ id

theorem lastKeeps_here {deed : Deed E} (deeds : List (Deed E)) (element : E) :
    LastKeeps (deeds ++ [deed]) deed.id element ↔ deed.left = some element := by
  constructor
  · rintro ⟨earlier, later, hdeeds, hlater⟩
    rcases List.eq_nil_or_concat later with rfl | ⟨rest, last, rfl⟩
    · have hlast : deed = .keep deed.id element :=
        (List.cons.inj (List.append_inj' hdeeds rfl).2).1
      rw [hlast]
      rfl
    · rw [List.concat_eq_append, ← List.cons_append, ← List.append_assoc] at hdeeds
      have hlast : deed = last := (List.cons.inj (List.append_inj' hdeeds rfl).2).1
      exact (hlater last (by simp) (hlast ▸ rfl)).elim
  · intro hleft
    cases deed with
    | keep id kept =>
        cases hleft
        exact ⟨deeds, [], rfl, nofun⟩
    | consume id => cases hleft

theorem lastKeeps_before {deed : Deed E} {id : Id} (hid : deed.id ≠ id) (deeds : List (Deed E))
    (element : E) : LastKeeps (deeds ++ [deed]) id element ↔ LastKeeps deeds id element := by
  constructor
  · rintro ⟨earlier, later, hdeeds, hlater⟩
    rcases List.eq_nil_or_concat later with rfl | ⟨rest, last, rfl⟩
    · have hlast : deed = .keep id element := (List.cons.inj (List.append_inj' hdeeds rfl).2).1
      exact (hid (hlast ▸ rfl)).elim
    · rw [List.concat_eq_append, ← List.cons_append, ← List.append_assoc] at hdeeds
      exact ⟨earlier, rest, (List.append_inj' hdeeds rfl).1, fun other hother =>
        hlater other (by simp [hother])⟩
  · rintro ⟨earlier, later, rfl, hlater⟩
    refine ⟨earlier, later ++ [deed], by simp, fun other hother => ?_⟩
    rcases List.mem_append.mp hother with hother | hother
    · exact hlater other hother
    · rw [List.mem_singleton.mp hother]
      exact hid

theorem get?_performAll_iff (deeds : List (Deed E)) (id : Id) (element : E) :
    (performAll deeds .empty).get? id = some element ↔ LastKeeps deeds id element := by
  induction deeds using List.reverseRecOn with
  | nil =>
      refine iff_of_false nofun ?_
      rintro ⟨earlier, later, hdeeds, -⟩
      simp at hdeeds
  | append_singleton deeds deed ih =>
      have hlast : performAll (deeds ++ [deed]) .empty = deed.perform (performAll deeds .empty) :=
        performAll_append deeds [deed] .empty
      rw [hlast, get?_perform]
      by_cases hid : id = deed.id
      · rw [if_pos hid, hid, lastKeeps_here]
      · rw [if_neg hid, ih, lastKeeps_before (Ne.symm hid)]

end Deed

namespace Receiver

variable {receiver receiver' : Receiver E} {source source' : Source} {events : List Event}

def isOpening (group : PrimeGroup E) (bytes : Bytes) : Bool :=
  (Opening.decode group.scalarSize bytes).isOk

/-- The deeds of a commitment phase that has read these messages. -/
def commitmentDeeds (group : PrimeGroup E) : List Bytes → List (Deed E)
  | [] => []
  | bytes :: _ =>
      match Commitment.decode group.elementSize bytes with
      | .error _ => []
      | .ok commitment =>
          match group.decode commitment.element with
          | .error _ => []
          | .ok element => [.keep commitment.id element]

def openingDeeds (group : PrimeGroup E) (id : Id) (messages : List Bytes) : List (Deed E) :=
  (messages.filter (isOpening group)).map fun _ => .consume id

def after (receiver : Receiver E) (deeds : List (Deed E)) : Receiver E :=
  { receiver with commitments := Deed.performAll deeds receiver.commitments }

theorem after_append (receiver : Receiver E) (front back : List (Deed E)) :
    receiver.after (front ++ back) = (receiver.after front).after back :=
  congrArg (Receiver.mk _ _ _) (Deed.performAll_append front back receiver.commitments)

theorem commitmentDeeds_of_refused {group : PrimeGroup E} {e : CommitmentFault}
    (hrefused : CommitmentRefused group events e) :
    commitmentDeeds group (Talk.received events) = [] := by
  cases hrefused with
  | lost fault => rfl
  | @malformed bytes hsize fault =>
      have hmessages : Talk.received [.received (.ok bytes)] = [bytes] := rfl
      cases hread : Commitment.decode group.elementSize bytes with
      | error fault => rw [hmessages, commitmentDeeds, hread]
      | ok commitment => exact (hsize (Commitment.length_of_decode hread)).elim
  | @noElement bytes commitment fault hread helement =>
      have hmessages : Talk.received [.received (.ok bytes)] = [bytes] := rfl
      simp only [hmessages, commitmentDeeds, hread, helement]

/-- A commitment phase either fails and does nothing, or keeps the element that it returns. -/
theorem after_receiveRecord {result : Except CommitmentFault Record}
    (hruns : (receiveRecord : Action (Receiver E) _ _).Runs receiver source events
      (result, receiver', source')) :
    receiver' = receiver.after (commitmentDeeds receiver.group (Talk.received events)) ∧
      ((∃ e, result = .error e ∧
          commitmentDeeds receiver.group (Talk.received events) = []) ∨
        ∃ record bytes element, result = .ok record ∧ Talk.received events = [bytes] ∧
          ∀ messages, commitmentDeeds receiver.group (bytes :: messages) =
            [.keep record.id element]) := by
  rcases runs_receiveRecord hruns with ⟨e, rfl, rfl, hrefused⟩ |
    ⟨id, bytes, element, rfl, hlen, hdecode, -, rfl, rfl⟩
  · have hnothing := commitmentDeeds_of_refused hrefused
    rw [hnothing]
    exact ⟨rfl, .inl ⟨e, rfl, rfl⟩⟩
  · have hmessages : Talk.received [.received (.ok (encodeId id ++ bytes))] =
        [encodeId id ++ bytes] := rfl
    have hread : Commitment.decode receiver.group.elementSize (encodeId id ++ bytes) =
        .ok ⟨id, bytes⟩ := Commitment.decode_eq_ok_iff.mpr ⟨rfl, hlen⟩
    have hkeep : ∀ messages, commitmentDeeds receiver.group ((encodeId id ++ bytes) :: messages) =
        [.keep id element] := by
      intro messages
      simp only [commitmentDeeds, hread, hdecode]
    rw [hmessages, hkeep]
    exact ⟨rfl, .inr ⟨_, _, element, rfl, rfl, hkeep⟩⟩

/-- The opening of a commitment uses it up, whether it is right or not. -/
theorem verifyOpening_snd (opening : Opening) (receiver : Receiver E) :
    (verifyOpening opening receiver).2 = receiver.after [.consume opening.id] := by
  unfold verifyOpening
  cases hkept : receiver.commitments.get? opening.id with
  | none => exact (congrArg (Receiver.mk _ _ _) (Ledger.erase_of_get?_eq_none hkept)).symm
  | some element => rfl

/-- An opening phase uses the commitment up exactly if it reads an opening that can be decoded. -/
theorem after_receiveOpening {id : Id} {result : Except CommitmentFault Nat}
    (hruns : (receiveOpening id : Action (Receiver E) _ _).Runs receiver source events
      (result, receiver', source')) :
    receiver' = receiver.after (openingDeeds receiver.group id (Talk.received events)) := by
  rcases runs_receive_bind.mp hruns with ⟨fault, rfl, hout⟩ | ⟨message, rest, rfl, hrest⟩
  · cases hout
    rfl
  · rw [runs_get_bind, runs_ofExcept_bind] at hrest
    cases hdecode : Opening.decode receiver.group.scalarSize message with
    | error fault =>
        rw [hdecode] at hrest
        obtain ⟨rfl, hout⟩ := hrest
        cases hout
        have hunread : isOpening receiver.group message = false := by
          rw [isOpening, hdecode]
          rfl
        have hmessages : Talk.received [.received (.ok message)] = [message] := rfl
        rw [hmessages, openingDeeds, List.filter_cons_of_neg (by simp [hunread])]
        rfl
    | ok opening =>
        have hread : isOpening receiver.group message = true := by
          rw [isOpening, hdecode]
          rfl
        have hdeeds : openingDeeds receiver.group id [message] = [.consume id] := by
          rw [openingDeeds, List.filter_cons_of_pos hread]
          rfl
        rw [hdecode] at hrest
        dsimp only [Except.mapError] at hrest
        split at hrest
        · next hid =>
          obtain ⟨rfl, hout⟩ := runs_ofPure.mp hrest
          obtain ⟨-, hstate⟩ := Prod.mk.inj hout
          obtain ⟨hreceiver, -⟩ := Prod.mk.inj hstate
          have hmessages : Talk.received [.received (.ok message)] = [message] := rfl
          rw [hreceiver, verifyOpening_snd, hid, hmessages, hdeeds]
        · rw [runs_modify_bind] at hrest
          obtain ⟨rfl, hout⟩ := runs_fail.mp hrest
          cases hout
          have hmessages : Talk.received [.received (.ok message)] = [message] := rfl
          rw [hmessages, hdeeds]
          rfl

end Receiver

end ThreeMove.Pedersen
