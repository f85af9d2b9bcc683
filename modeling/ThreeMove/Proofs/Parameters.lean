import ThreeMove.Parameters
import ThreeMove.Proofs.Group.SafePrime
import ThreeMove.Proofs.Wire

/-!
# Which parameters are accepted

A soundness parameter `t` is compared with the order in two steps: by digits, and then, if it
passed, by the number `2 ^ t` of challenges.  Together they decide `2 ^ t < order`, and the
number is not computed before `t` is known to be below the digits of the order.
-/

namespace ThreeMove.Parameters

variable {E : Type} {group : PrimeGroup E} {t : Nat}

theorem challengeBound_eq_two_pow (params : Parameters E t) : params.challengeBound = 2 ^ t := by
  rw [params.challengeBound_eq, challengeCount, Nat.one_shiftLeft]

theorem two_pow_lt_order (params : Parameters E t) : 2 ^ t < params.group.order := by
  have hcount := params.challengeCount_lt
  rwa [challengeCount, Nat.one_shiftLeft] at hcount

theorem eq_of_group_eq {params params' : Parameters E t} (hgroup : params.group = params'.group) :
    params = params' := by
  obtain ⟨group, hvalid, hcount, bound, hbound⟩ := params
  obtain ⟨group', hvalid', hcount', bound', hbound'⟩ := params'
  subst hgroup hbound hbound'
  rfl

/-- An order of no more than `t` digits is refused by the comparison as well. -/
theorem order_le_of_bitLength_le (hdigits : bitLength group.order ≤ t) :
    group.order ≤ challengeCount t :=
  Nat.le_of_lt ((bitLength_le_iff group.order t).mp hdigits)

/-- The comparison of digits changes no answer. -/
theorem ofGroup_eq (group : PrimeGroup E) (t : Nat) :
    ofGroup group t =
      if hv : group.isValid = true then
        if hc : challengeCount t < group.order then .ok ⟨group, hv, hc, challengeCount t, rfl⟩
        else .error (.unsuitable .soundnessTooLarge)
      else .error (.unsuitable .groupInvalid) := by
  unfold ofGroup ofGroupCounting
  by_cases hvalid : group.isValid = true
  · rw [dif_pos hvalid, dif_pos hvalid]
    by_cases hdigits : bitLength group.order ≤ t
    · rw [if_pos hdigits, dif_neg (Nat.not_lt.mpr (order_le_of_bitLength_le hdigits))]
      rfl
    · rw [if_neg hdigits, pure_bind]
      by_cases hcount : challengeCount t < group.order
      · rw [dif_pos hcount]
        exact congrArg Id.run (dif_pos hcount)
      · rw [dif_neg hcount]
        exact congrArg Id.run (dif_neg hcount)
  · rw [dif_neg hvalid, dif_neg hvalid]
    rfl

/-- In every monad the number is computed once if `t` is below the digits of the order of a
valid group, and otherwise not at all. -/
theorem ofGroupCounting_eq {m : Type → Type} [Monad m] [LawfulMonad m]
    (count : (t : Nat) → m { bound : Nat // bound = challengeCount t })
    (group : PrimeGroup E) (t : Nat) :
    ofGroupCounting count group t =
      if group.isValid = true ∧ t < bitLength group.order then
        (fun _ => ofGroup group t) <$> count t
      else pure (ofGroup group t) := by
  rw [ofGroup_eq]
  unfold ofGroupCounting
  by_cases hvalid : group.isValid = true
  · rw [dif_pos hvalid, dif_pos hvalid]
    by_cases hdigits : bitLength group.order ≤ t
    · rw [if_pos hdigits, if_neg fun h => Nat.not_lt.mpr hdigits h.2,
        dif_neg (Nat.not_lt.mpr (order_le_of_bitLength_le hdigits))]
    · rw [if_neg hdigits, if_pos ⟨hvalid, Nat.not_le.mp hdigits⟩, map_eq_pure_bind]
      refine bind_congr fun counted => ?_
      obtain ⟨_, rfl⟩ := counted
      dsimp only
      split <;> rfl
  · rw [dif_neg hvalid, dif_neg hvalid, if_neg fun h => hvalid h.1]

theorem ofGroup_eq_ok_iff {params : Parameters E t} :
    ofGroup group t = .ok params ↔ params.group = group := by
  rw [ofGroup_eq]
  constructor
  · intro hok
    split at hok
    · split at hok
      · cases hok
        rfl
      · cases hok
    · cases hok
  · rintro rfl
    rw [dif_pos params.isValid, dif_pos params.challengeCount_lt]
    exact congrArg Except.ok (eq_of_group_eq rfl)

theorem ofGroup_eq_error_iff {fault : ParameterFault} :
    ofGroup group t = .error fault ↔
      (group.isValid = false ∧ fault = .unsuitable .groupInvalid) ∨
        (group.isValid = true ∧ group.order ≤ 2 ^ t ∧
          fault = .unsuitable .soundnessTooLarge) := by
  rw [ofGroup_eq]
  by_cases hvalid : group.isValid = true
  · rw [dif_pos hvalid]
    by_cases hcount : challengeCount t < group.order
    · rw [dif_pos hcount]
      rw [challengeCount, Nat.one_shiftLeft] at hcount
      simp [hvalid, hcount]
    · rw [dif_neg hcount]
      rw [challengeCount, Nat.one_shiftLeft, Nat.not_lt] at hcount
      simp [hvalid, hcount, eq_comm]
  · rw [dif_neg hvalid]
    simp [hvalid, eq_comm]

theorem exists_group_eq_iff :
    (∃ params : Parameters E t, params.group = group) ↔
      group.isValid = true ∧ 2 ^ t < group.order := by
  constructor
  · rintro ⟨params, rfl⟩
    exact ⟨params.isValid, params.two_pow_lt_order⟩
  · rintro ⟨hvalid, hlt⟩
    rw [← Nat.one_shiftLeft] at hlt
    exact ⟨⟨group, hvalid, hlt, challengeCount t, rfl⟩, rfl⟩

/-- Parameters of a group, where each soundness parameter whose number of challenges is computed
is put down. -/
def ofGroupLogged (group : PrimeGroup E) (t : Nat) :
    StateM (List Nat) (Except ParameterFault (Parameters E t)) :=
  ofGroupCounting (fun t => do
    modify fun log => log ++ [t]
    return ⟨2 ^ t, (Nat.one_shiftLeft t).symm⟩) group t

theorem run_ofGroupLogged (group : PrimeGroup E) (t : Nat) (log : List Nat) :
    (ofGroupLogged group t).run log =
      (ofGroup group t,
        if group.isValid = true ∧ t < bitLength group.order then log ++ [t] else log) := by
  unfold ofGroupLogged
  rw [ofGroupCounting_eq]
  by_cases hcounted : group.isValid = true ∧ t < bitLength group.order
  · rw [if_pos hcounted, if_pos hcounted]
    rfl
  · rw [if_neg hcounted, if_neg hcounted]
    rfl

/-- Parameters are accepted exactly for a valid group with `2 ^ t` below its order.  They hold
that number, and it is only computed for a `t` below the digits of the order. -/
theorem ofGroup_decides (group : PrimeGroup E) (t : Nat) :
    ((∃ params, ofGroup group t = .ok params) ↔ group.isValid = true ∧ 2 ^ t < group.order) ∧
      (∀ params, ofGroup group t = .ok params →
        params.group = group ∧ params.challengeBound = 2 ^ t) ∧
      (∀ fault, ofGroup group t = .error fault ↔
        (group.isValid = false ∧ fault = .unsuitable .groupInvalid) ∨
          (group.isValid = true ∧ group.order ≤ 2 ^ t ∧
            fault = .unsuitable .soundnessTooLarge)) ∧
      ∀ log, (ofGroupLogged group t).run log =
        (ofGroup group t,
          if group.isValid = true ∧ t < bitLength group.order then log ++ [t] else log) := by
  refine ⟨?_, fun params hok => ?_, fun fault => ofGroup_eq_error_iff, run_ofGroupLogged group t⟩
  · simp only [ofGroup_eq_ok_iff]
    exact exists_group_eq_iff
  · exact ⟨ofGroup_eq_ok_iff.mp hok, params.challengeBound_eq_two_pow⟩

/-- The squares modulo 23 leave room for eight challenges.  Sixteen are too many, and they are not
counted. -/
theorem ofGroup_modulo23 :
    (∃ params, ofGroup SafePrime.modulo23.group 3 = .ok params) ∧
      (ofGroupLogged SafePrime.modulo23.group 4).run [] =
        (.error (.unsuitable .soundnessTooLarge), []) := by
  obtain ⟨hok, -, -, -⟩ := ofGroup_decides SafePrime.modulo23.group 3
  obtain ⟨-, -, hfault, hlog⟩ := ofGroup_decides SafePrime.modulo23.group 4
  refine ⟨hok.mpr ⟨by rfl, by decide⟩, ?_⟩
  rw [hlog, (hfault _).mpr (.inr ⟨by rfl, by decide, rfl⟩)]
  rfl

end ThreeMove.Parameters
