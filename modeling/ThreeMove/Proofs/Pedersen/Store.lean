import Mathlib.Data.List.Induction
import Mathlib.Logic.Function.Basic
import ThreeMove.Challenge

/-!
# A store of sealed values

Seen from outside, a committer and its receiver keep one value under each identifier.  It is
sealed by a commitment and opened once, and the committer forgets it when it is removed.
-/

namespace ThreeMove.Pedersen

inductive Request where
  | commit (value : Nat)
  | reveal
  | remove
deriving DecidableEq

structure Operation where
  id : Id
  request : Request
deriving DecidableEq

inductive Answer where
  | committed (result : Except CommitmentFault Id)
  | revealed (result : Except CommitmentFault Nat)
  | removed (kept : Option Nat)

def performAll {σ : Type} (perform : Operation → σ → Answer × σ) :
    List Operation → σ → List (Operation × Answer) × σ
  | [], state => ([], state)
  | operation :: operations, state =>
      let (answer, state) := perform operation state
      let (log, state) := performAll perform operations state
      ((operation, answer) :: log, state)

theorem performAll_append {σ : Type} (perform : Operation → σ → Answer × σ)
    (front back : List Operation) (state : σ) :
    performAll perform (front ++ back) state =
      ((performAll perform front state).1 ++
          (performAll perform back (performAll perform front state).2).1,
        (performAll perform back (performAll perform front state).2).2) := by
  induction front generalizing state with
  | nil => rfl
  | cons operation front ih => simp [performAll, ih]

/-- Two systems that answer alike from related states, and stay related, have the same log. -/
theorem performAll_simulates {σ τ : Type} {perform : Operation → σ → Answer × σ}
    {simulate : Operation → τ → Answer × τ} (related : σ → τ → Prop)
    (hstep : ∀ operation state other, related state other →
      (perform operation state).1 = (simulate operation other).1 ∧
        related (perform operation state).2 (simulate operation other).2)
    (operations : List Operation) {state : σ} {other : τ} (hrelated : related state other) :
    (performAll perform operations state).1 = (performAll simulate operations other).1 ∧
      related (performAll perform operations state).2 (performAll simulate operations other).2 := by
  induction operations generalizing state other with
  | nil => exact ⟨rfl, hrelated⟩
  | cons operation operations ih =>
      obtain ⟨hanswer, hnext⟩ := hstep operation state other hrelated
      obtain ⟨hlog, hlast⟩ := ih hnext
      exact ⟨by simp [performAll, hanswer, hlog], hlast⟩

/-- What is kept under an identifier.  An opened value is still held by the committer. -/
inductive Slot where
  | vacant
  | sealed (value : Nat)
  | opened (value : Nat)
deriving DecidableEq

/-- A commitment to a value below the order takes the place of what was kept. -/
def Slot.perform (order : Nat) (id : Id) : Request → Slot → Answer × Slot
  | .commit value, slot =>
      if order ≤ value then (.committed (.error (.unsuitable .commitValueOutOfRange)), slot)
      else (.committed (.ok id), .sealed value)
  | .reveal, .vacant => (.revealed (.error (.unsuitable .nothingCommitted)), .vacant)
  | .reveal, .sealed value => (.revealed (.ok value), .opened value)
  | .reveal, .opened value => (.revealed (.error (.cheating .nothingReceived)), .opened value)
  | .remove, .vacant => (.removed none, .vacant)
  | .remove, .sealed value => (.removed (some value), .vacant)
  | .remove, .opened value => (.removed (some value), .vacant)

abbrev Store := Id → Slot

namespace Store

variable {order value : Nat} {id : Id} {operations since : List Operation} {store other : Store}

def empty : Store := fun _ => .vacant

def perform (order : Nat) (operation : Operation) (store : Store) : Answer × Store :=
  let (answer, slot) := Slot.perform order operation.id operation.request (store operation.id)
  (answer, Function.update store operation.id slot)

theorem perform_apart {operation : Operation} (hid : id ≠ operation.id) :
    (perform order operation store).2 id = store id := by
  simp [perform, hid]

/-- What is answered under an identifier depends on the operations under it alone. -/
theorem log_filter (order : Nat) (id : Id) (operations : List Operation)
    (hsame : store id = other id) :
    (performAll (perform order) operations store).1.filter (fun entry => entry.1.id = id) =
      (performAll (perform order) (operations.filter fun operation => operation.id = id)
        other).1 := by
  induction operations generalizing store other with
  | nil => rfl
  | cons operation operations ih =>
      by_cases hid : operation.id = id
      · have hnext : (perform order operation store).2 id =
            (perform order operation other).2 id := by
          simp [perform, hid, hsame]
        have hanswer : (perform order operation store).1 = (perform order operation other).1 := by
          simp [perform, hid, hsame]
        simp [performAll, hid, hanswer, ih hnext]
      · have hnext : (perform order operation store).2 id = other id := by
          rw [perform_apart (Ne.symm hid), hsame]
        simp [performAll, hid, ih hnext]

/-- The value is the one of the latest commitment under the identifier, which has not been removed
since. -/
structure Holds (order : Nat) (id : Id) (operations : List Operation) (value : Nat)
    (since : List Operation) : Prop where
  split : ∃ front, operations = front ++ ⟨id, .commit value⟩ :: since
  value_lt : value < order
  latest : ∀ other < order, ⟨id, .commit other⟩ ∉ since
  kept : ⟨id, .remove⟩ ∉ since

def Spares (order : Nat) (id : Id) (operation : Operation) : Prop :=
  operation ≠ ⟨id, .remove⟩ ∧ ∀ value < order, operation ≠ ⟨id, .commit value⟩

theorem Holds.spares {operation : Operation} (hholds : Holds order id operations value since)
    (hmem : operation ∈ since) : Spares order id operation := by
  refine ⟨fun hremove => hholds.kept (hremove ▸ hmem), fun other hlt hcommit => ?_⟩
  exact hholds.latest other hlt (hcommit ▸ hmem)

theorem Holds.snoc {operation : Operation} (hholds : Holds order id operations value since)
    (hspares : Spares order id operation) :
    Holds order id (operations ++ [operation]) value (since ++ [operation]) := by
  obtain ⟨front, rfl⟩ := hholds.split
  refine ⟨⟨front, by simp⟩, hholds.value_lt, ?_, ?_⟩
  · intro other hlt hmem
    rcases List.mem_append.mp hmem with hmem | hmem
    · exact hholds.latest other hlt hmem
    · exact hspares.2 other hlt (List.mem_singleton.mp hmem).symm
  · intro hmem
    rcases List.mem_append.mp hmem with hmem | hmem
    · exact hholds.kept hmem
    · exact hspares.1 (List.mem_singleton.mp hmem).symm

theorem perform_of_spares {operation : Operation} (hspares : Spares order id operation)
    (store : Store) :
    (perform order operation store).2 id =
      if operation = ⟨id, .reveal⟩ then (Slot.perform order id .reveal (store id)).2
      else store id := by
  by_cases hid : operation.id = id
  · obtain ⟨_, request⟩ := operation
    subst hid
    cases request with
    | commit value =>
        have hle : order ≤ value := Nat.le_of_not_lt fun hlt => hspares.2 value hlt rfl
        simp [perform, Slot.perform, hle]
    | reveal => simp [perform]
    | remove => exact (hspares.1 rfl).elim
  · have hother : operation ≠ ⟨id, .reveal⟩ := fun heq => hid (heq ▸ rfl)
    rw [perform_apart (Ne.symm hid), if_neg hother]

theorem slot_of_spares (hspares : ∀ operation ∈ operations, Spares order id operation)
    (hslot : store id = .sealed value ∨ store id = .opened value) :
    (performAll (perform order) operations store).2 id =
      if ⟨id, .reveal⟩ ∈ operations then .opened value else store id := by
  induction operations generalizing store with
  | nil => rfl
  | cons operation operations ih =>
      have hnext := perform_of_spares (hspares operation List.mem_cons_self) store
      have hothers := fun other hmem => hspares other (List.mem_cons_of_mem operation hmem)
      simp only [performAll, List.mem_cons]
      by_cases hreveal : operation = ⟨id, .reveal⟩
      · -- the slot is opened now, whether it was before or not
        have hopened : (perform order operation store).2 id = .opened value := by
          rw [hnext, if_pos hreveal]
          rcases hslot with hslot | hslot <;> simp [hslot, Slot.perform]
        rw [ih hothers (.inr hopened), hopened]
        simp [hreveal]
      · rw [if_neg hreveal] at hnext
        rw [ih hothers (by rwa [hnext]), hnext]
        simp [Ne.symm hreveal]

theorem slot_of_holds (hholds : Holds order id operations value since) (store : Store) :
    (performAll (perform order) operations store).2 id =
      if ⟨id, .reveal⟩ ∈ since then .opened value else .sealed value := by
  obtain ⟨front, rfl⟩ := hholds.split
  rw [performAll_append]
  generalize (performAll (perform order) front store).2 = before
  have hsealed : (perform order ⟨id, .commit value⟩ before).2 id = .sealed value := by
    simp [perform, Slot.perform, Nat.not_le.mpr hholds.value_lt]
  have hlast := slot_of_spares (fun _ hmem => hholds.spares hmem) (.inl hsealed)
  rw [hsealed] at hlast
  exact hlast

theorem vacant_or_holds (order : Nat) (id : Id) (operations : List Operation) :
    (performAll (perform order) operations empty).2 id = .vacant ∨
      ∃ value since, Holds order id operations value since := by
  induction operations using List.reverseRecOn with
  | nil => exact .inl rfl
  | append_singleton operations operation ih =>
      have hlast : (performAll (perform order) (operations ++ [operation]) empty).2 =
          (perform order operation (performAll (perform order) operations empty).2).2 := by
        rw [performAll_append]
        rfl
      rw [hlast]
      by_cases hspares : Spares order id operation
      · rcases ih with hvacant | ⟨value, since, hholds⟩
        · rw [perform_of_spares hspares, hvacant]
          exact .inl (ite_self _)
        · exact .inr ⟨value, since ++ [operation], hholds.snoc hspares⟩
      · by_cases hremove : operation = ⟨id, .remove⟩
        · subst hremove
          refine .inl ?_
          cases hslot : (performAll (perform order) operations empty).2 id <;>
            simp [perform, Slot.perform, hslot]
        · obtain ⟨value, hlt, rfl⟩ : ∃ value < order, operation = ⟨id, .commit value⟩ := by
            simpa [Spares, hremove] using hspares
          exact .inr ⟨value, [], ⟨operations, rfl⟩, hlt, nofun, nofun⟩

theorem slot_of_no_holds (hnone : ∀ value since, ¬ Holds order id operations value since) :
    (performAll (perform order) operations empty).2 id = .vacant := by
  rcases vacant_or_holds order id operations with hvacant | ⟨value, since, hholds⟩
  · exact hvacant
  · exact (hnone value since hholds).elim

end Store

end ThreeMove.Pedersen
