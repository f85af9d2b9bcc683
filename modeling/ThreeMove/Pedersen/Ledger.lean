import ThreeMove.Challenge

/-!
# Ledgers

What a party of the commitment scheme keeps under each identifier.
-/

namespace ThreeMove.Pedersen

structure Ledger (α : Type) where
  entries : List (Id × α)

namespace Ledger

variable {α : Type}

def empty : Ledger α := ⟨[]⟩

def get? (ledger : Ledger α) (id : Id) : Option α :=
  (ledger.entries.find? fun entry => entry.1 == id).map Prod.snd

def erase (ledger : Ledger α) (id : Id) : Ledger α :=
  ⟨ledger.entries.filter fun entry => entry.1 != id⟩

/-- Takes the place of what was kept under the identifier. -/
def insert (ledger : Ledger α) (id : Id) (value : α) : Ledger α :=
  ⟨(id, value) :: (ledger.erase id).entries⟩

@[simp] theorem get?_empty (id : Id) : (empty : Ledger α).get? id = none :=
  rfl

theorem get?_erase (ledger : Ledger α) (id other : Id) :
    (ledger.erase id).get? other = if other = id then none else ledger.get? other := by
  rcases ledger with ⟨entries⟩
  unfold get? erase
  dsimp only
  induction entries with
  | nil => simp
  | cons entry entries ih =>
      by_cases hentry : entry.1 = id
      · rw [List.filter_cons_of_neg (by simp [hentry]), ih]
        by_cases hother : other = id
        · rw [if_pos hother, if_pos hother]
        · rw [if_neg hother, if_neg hother, List.find?_cons_of_neg]
          simp [hentry, Ne.symm hother]
      · rw [List.filter_cons_of_pos (by simp [hentry])]
        by_cases hfound : entry.1 = other
        · have hother : other ≠ id := hfound ▸ hentry
          simp [hfound, hother]
        · rw [List.find?_cons_of_neg (by simp [hfound]), ih,
            List.find?_cons_of_neg (by simp [hfound])]

theorem get?_insert (ledger : Ledger α) (id other : Id) (value : α) :
    (ledger.insert id value).get? other =
      if other = id then some value else ledger.get? other := by
  by_cases hid : other = id
  · subst hid
    simp [get?, insert]
  · have hother := get?_erase ledger id other
    rw [if_neg hid] at hother ⊢
    rw [← hother]
    simp [get?, insert, Ne.symm hid]

@[simp] theorem get?_insert_self (ledger : Ledger α) (id : Id) (value : α) :
    (ledger.insert id value).get? id = some value := by
  rw [get?_insert, if_pos rfl]

/-- What was kept under the only identifier is gone after its removal. -/
@[simp] theorem erase_insert_empty (id : Id) (value : α) :
    (empty.insert id value).erase id = empty := by
  simp [erase, insert, empty]

def size (ledger : Ledger α) : Nat :=
  ledger.entries.length

end Ledger

end ThreeMove.Pedersen
