import ThreeMove.Proofs.KnowledgeProof.Steps
import ThreeMove.Proofs.Talk.History

/-!
# Logs of a prover of knowledge

A log lists the steps that were called, with their events.  The steps of a run stand in it one
after the other, with nothing but refused calls between them.
-/

namespace ThreeMove.KnowledgeProof.Prover

open ThreeMove.Action

variable {E : Type} {t : Nat}

inductive Step (E : Type) where
  | receiveCommitment
  | first (input : ProverInput E)
  | receiveOpening
  | second

namespace Step

def act : Step E → Action (Prover E t) ProofFault Unit
  | receiveCommitment => do
      let _ ← Prover.receiveCommitment
  | first input => Prover.first input
  | receiveOpening => do
      let _ ← Prover.receiveOpening
  | second => Prover.second

end Step

abbrev StepEntry (E : Type) (t : Nat) := Entry (Step E) (Prover E t) ProofFault

variable {log front middle : List (StepEntry E t)} {entry : StepEntry E t}

def Quiet (pause : List (StepEntry E t)) : Prop :=
  ∀ entry ∈ pause, IsRefusal entry.events entry.result

/-- The last call that was not refused, with the log before it, is as described. -/
def Last (P : List (StepEntry E t) → StepEntry E t → Prop) (log : List (StepEntry E t)) : Prop :=
  ∃ front entry pause, log = front ++ entry :: pause ∧ P front entry ∧ Quiet pause

namespace Last

variable {P Q : List (StepEntry E t) → StepEntry E t → Prop}

theorem here (hentry : P log entry) : Last P (log ++ [entry]) :=
  ⟨log, entry, [], rfl, hentry, fun _ hmem => (List.not_mem_nil hmem).elim⟩

theorem refused (hlast : Last P log) (hentry : IsRefusal entry.events entry.result) :
    Last P (log ++ [entry]) := by
  obtain ⟨front, last, pause, rfl, hP, hquiet⟩ := hlast
  refine ⟨front, last, pause ++ [entry], by rw [List.append_assoc]; rfl, hP, ?_⟩
  intro other hother
  rcases List.mem_append.mp hother with hother | hother
  · exact hquiet other hother
  · rw [List.mem_singleton.mp hother]
    exact hentry

theorem mono (himp : ∀ front entry, P front entry → Q front entry) (hlast : Last P log) :
    Last Q log := by
  obtain ⟨front, last, pause, hlog, hP, hquiet⟩ := hlast
  exact ⟨front, last, pause, hlog, himp _ _ hP, hquiet⟩

/-- A call that was not refused and is not as described comes before the one that is. -/
theorem after (hlast : Last P (front ++ entry :: middle))
    (hentry : ¬ IsRefusal entry.events entry.result) (hother : ∀ before, ¬ P before entry) :
    Last (fun between => P (front ++ entry :: between)) middle := by
  obtain ⟨before, last, pause, hlog, hP, hquiet⟩ := hlast
  rcases List.append_eq_append_iff.mp hlog with ⟨rest, rfl, hrest⟩ | ⟨rest, rfl, hrest⟩
  · cases rest with
    | nil =>
        cases hrest
        exact (hother _ hP).elim
    | cons _ rest =>
        cases hrest
        exact ⟨rest, last, pause, rfl, hP, hquiet⟩
  · cases rest with
    | nil =>
        cases hrest
        exact (hother _ hP).elim
    | cons _ rest =>
        cases hrest
        exact (hentry (hquiet entry (List.mem_append_right _ List.mem_cons_self))).elim

end Last

/-- A commitment was read: the bytes under an identifier, and the member that they encode. -/
structure CommitmentRead (group : PrimeGroup E) (id : Id) (bytes : Bytes) (commitment : E)
    (entry : StepEntry E t) : Prop where
  call : entry.call = .receiveCommitment
  events : entry.events = [.received (.ok (Pedersen.encodeId id ++ bytes))]
  decode : group.decode bytes = .ok commitment
  member : group.isMember commitment = true

/-- What was fixed in a run up to its first message. -/
structure Exchange (E : Type) (t : Nat) where
  id : Id
  bytes : Bytes
  commitment : E
  input : ProverInput E
  begun : Begun E t

namespace Exchange

/-- A first message was written: the one of the proof that was begun with the input. -/
structure FirstWritten (origin : Prover E t) (exchange : Exchange E t)
    (entry : StepEntry E t) : Prop where
  call : entry.call = .first exchange.input
  first : ∃ rest, entry.state.base.computation.first exchange.input entry.source =
    (.ok exchange.begun.firstMessage, exchange.begun.prover, rest)
  statements : exchange.begun.statements = origin.base.computation.statements
  carries : exchange.begun.Carries exchange.input
  events : ∃ bytes, exchange.begun.firstMessage.encode = .ok bytes ∧
    entry.events = [.sent bytes (.ok ())]

structure OpeningRead (origin : Prover E t) (exchange : Exchange E t) (challenge : Challenge)
    (entry : StepEntry E t) : Prop where
  call : entry.call = .receiveOpening
  events : ∃ bytes randomness, entry.events = [.received (.ok bytes)] ∧
    Pedersen.Opening.decode origin.base.receiver.group.scalarSize bytes =
      .ok ⟨exchange.id, randomness, challenge⟩ ∧
    exchange.commitment = Pedersen.hide origin.base.receiver.group origin.base.receiver.key
      randomness challenge

/-- The answer was written and then, unless the channel failed, the record of the commit
phase. -/
structure AnswerWritten (origin : Prover E t) (exchange : Exchange E t) (challenge : Challenge)
    (entry : StepEntry E t) : Prop where
  lt : challenge < 2 ^ t
  events : ∃ bytes, (exchange.begun.answer challenge).encode = .ok bytes ∧
    ((∃ fault, entry.events = [.sent bytes (.error fault)]) ∨
      ∃ reply, entry.events = [.sent bytes (.ok ()),
        .sent (Pedersen.encodeId exchange.id ++
          origin.base.receiver.group.encode origin.base.receiver.key ++ exchange.bytes) reply])

end Exchange

def Committed (origin : Prover E t) (id : Id) (bytes : Bytes) (commitment : E) :
    List (StepEntry E t) → Prop :=
  Last fun _ => CommitmentRead origin.base.receiver.group id bytes commitment

namespace Exchange

def Sent (origin : Prover E t) (exchange : Exchange E t) : List (StepEntry E t) → Prop :=
  Last fun front entry => exchange.FirstWritten origin entry ∧
    Committed origin exchange.id exchange.bytes exchange.commitment front

/-- After the first message the commitment was opened to the challenge. -/
def Opened (origin : Prover E t) (exchange : Exchange E t) (challenge : Challenge) :
    List (StepEntry E t) → Prop :=
  Last fun front entry => exchange.OpeningRead origin challenge entry ∧
    exchange.Sent origin front

end Exchange

end ThreeMove.KnowledgeProof.Prover
