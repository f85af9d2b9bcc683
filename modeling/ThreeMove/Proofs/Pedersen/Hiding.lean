import ThreeMove.Proofs.Composition.Simulation
import ThreeMove.Proofs.Pedersen.Binding

/-!
# Hiding

With the trapdoor, a commitment can be opened to any value, and for each value there is exactly
one randomness that does so.  So a commitment says nothing about its value.
-/

namespace ThreeMove.Pedersen

variable {E : Type} {group : PrimeGroup E} {order trapdoor r s x y : Nat}

/-- The randomness that opens a commitment to `value` to `other`. -/
def equivocate (order trapdoor randomness value other : Nat) : Nat :=
  ((randomness + trapdoor * (value - other) : Int) % order).toNat

theorem equivocate_lt (hpos : 0 < order) : equivocate order trapdoor r x y < order := by
  unfold equivocate
  have hlt := Int.emod_lt_of_pos (r + trapdoor * (x - y) : Int) (Int.natCast_pos.mpr hpos)
  omega

/-- For each value there is one randomness below the order that gives the same exponent. -/
theorem modEq_iff_eq_equivocate (hs : s < order) :
    r + trapdoor * x ≡ s + trapdoor * y [MOD order] ↔ s = equivocate order trapdoor r x y := by
  have hdiff : ((s + trapdoor * y : Nat) - (r + trapdoor * x : Nat) : Int) =
      s - (r + trapdoor * (x - y)) := by
    push_cast
    ring
  have hmod : (s : Int) % order = s := by
    apply Int.emod_eq_of_lt <;> omega
  rw [← Int.natCast_modEq_iff, Int.modEq_iff_dvd, hdiff, ← Int.modEq_iff_dvd, Int.ModEq, hmod,
    equivocate]
  have hnonneg := Int.emod_nonneg (r + trapdoor * (x - y) : Int) (by omega : (order : Int) ≠ 0)
  omega

theorem hide_keyOf (laws : group.Lawful) :
    hide group (Receiver.keyOf group trapdoor) r x =
      group.pow group.generator (r + trapdoor * x) := by
  rw [hide, Receiver.keyOf, laws.pow_pow laws.isMember_generator,
    laws.mul_pow_pow laws.isMember_generator]

theorem hide_eq_hide_iff (laws : group.Lawful) (hs : s < group.order) :
    hide group (Receiver.keyOf group trapdoor) r x =
        hide group (Receiver.keyOf group trapdoor) s y ↔
      s = equivocate group.order trapdoor r x y := by
  rw [hide_keyOf laws, hide_keyOf laws, laws.pow_generator_eq_iff, modEq_iff_eq_equivocate hs]

/-- Whatever the value is, the randomness below the order is taken one to one to the members of
the group. -/
theorem bijOn_hide (laws : group.Lawful) (trapdoor x : Nat) :
    Set.BijOn (fun r => hide group (Receiver.keyOf group trapdoor) r x) (Set.Iio group.order)
      {element | group.isMember element = true} := by
  refine ⟨fun r _ => isMember_hide laws (Receiver.isMember_keyOf laws trapdoor) r x, ?_, ?_⟩
  · intro r hr s hs hsame
    dsimp only at hsame
    rw [hide_keyOf laws, hide_keyOf laws, laws.pow_generator_eq_iff] at hsame
    exact (Nat.ModEq.add_right_cancel' _ hsame).eq_of_lt_of_lt hr hs
  · intro element hmember
    obtain ⟨n, rfl⟩ := laws.exists_pow_generator hmember
    have hlt : equivocate group.order trapdoor n 0 x < group.order := equivocate_lt laws.order_pos
    have hzero : group.pow group.generator n =
        hide group (Receiver.keyOf group trapdoor) n 0 := by
      rw [hide_keyOf laws, Nat.mul_zero, Nat.add_zero]
    rw [hzero]
    exact ⟨_, hlt, ((hide_eq_hide_iff laws hlt).mpr rfl).symm⟩

namespace Receiver

variable {receiver : Receiver E} {committer : Committer E} {value : Nat}

/-- Among the openings of a commitment to another value, one is accepted. -/
theorem accepts_iff_eq_equivocate (laws : receiver.group.Lawful)
    (htrapdoor : receiver.key = keyOf receiver.group receiver.trapdoor) {id : Id}
    (hkept : receiver.commitments.get? id = some (hide receiver.group receiver.key r x))
    (hs : s < receiver.group.order) (hy : y < receiver.group.order) :
    receiver.Accepts (hide receiver.group receiver.key r x) ⟨id, s, y⟩ ↔
      s = equivocate receiver.group.order receiver.trapdoor r x y := by
  rw [accepts_iff_opens, ← hide_eq_hide_iff laws hs, ← htrapdoor]
  constructor
  · intro haccepts
    have hmembers := isMember_hide laws (htrapdoor ▸ isMember_keyOf laws receiver.trapdoor)
    exact laws.encode_inj (hmembers r x) (hmembers s y) haccepts.2.encode_eq
  · intro hsame
    exact ⟨hkept, rfl, hy, congrArg receiver.group.encode hsame⟩

theorem setOf_accepts (laws : receiver.group.Lawful)
    (htrapdoor : receiver.key = keyOf receiver.group receiver.trapdoor) {id : Id}
    (hkept : receiver.commitments.get? id = some (hide receiver.group receiver.key r x))
    (hy : y < receiver.group.order) :
    {s | s < receiver.group.order ∧
        receiver.Accepts (hide receiver.group receiver.key r x) ⟨id, s, y⟩} =
      {equivocate receiver.group.order receiver.trapdoor r x y} := by
  ext s
  constructor
  · intro hopens
    exact (accepts_iff_eq_equivocate laws htrapdoor hkept hopens.1 hy).mp hopens.2
  · intro hequal
    have hs : s < receiver.group.order := hequal ▸ equivocate_lt laws.order_pos
    exact ⟨hs, (accepts_iff_eq_equivocate laws htrapdoor hkept hs hy).mpr hequal⟩

/-- A commitment under a key with a trapdoor is opened to every value by one randomness, and
commitments to any two values have the same distribution: the randomness is drawn from all numbers
below the order, and it is taken one to one to the members of the group. -/
theorem perfectly_hiding (laws : receiver.group.Lawful)
    (htrapdoor : receiver.key = keyOf receiver.group receiver.trapdoor)
    (hgroup : committer.group = receiver.group) (hkey : committer.key = receiver.key)
    (hvalue : value < receiver.group.order) :
    let group := receiver.group
    (∀ id source,
      let drawn := source.below group.order
      let element := hide group receiver.key drawn.1 value
      let recorded := { receiver with commitments := receiver.commitments.insert id element }
      drawn.1 < group.order ∧
        committer.commitTo value id source =
          (.ok ⟨id, group.encode element⟩, committer.keep id drawn.1 value, drawn.2) ∧
        receiver.record ⟨id, group.encode element⟩ = (.ok id, recorded) ∧
        ∀ other < group.order,
          {r | r < group.order ∧ recorded.Accepts element ⟨id, r, other⟩} =
            {equivocate group.order receiver.trapdoor drawn.1 value other}) ∧
      (∀ r < group.order, ∃ source : Source, (source.below group.order).1 = r) ∧
      Set.BijOn (fun r => hide group receiver.key r value) (Set.Iio group.order)
        {element | group.isMember element = true} ∧
      ∀ other < group.order, ∀ (id : Id) (event : Set Commitment),
        {r ∈ Set.Iio group.order |
            (⟨id, group.encode (hide group receiver.key r value)⟩ : Commitment) ∈ event}.ncard =
          {r ∈ Set.Iio group.order |
            (⟨id, group.encode (hide group receiver.key r other)⟩ : Commitment) ∈ event}.ncard := by
  intro group
  have hmember : group.isMember receiver.key = true := htrapdoor ▸ isMember_keyOf laws _
  have hbijection : ∀ x, Set.BijOn (fun r => hide group receiver.key r x) (Set.Iio group.order)
      {element | group.isMember element = true} := by
    rw [htrapdoor]
    exact bijOn_hide laws receiver.trapdoor
  refine ⟨?_, fun r => Source.exists_source_below, hbijection value, ?_⟩
  · intro id source drawn element recorded
    have hcommit := Committer.commitTo_of_lt id (hgroup ▸ hvalue) source
    rw [hgroup, hkey] at hcommit
    have hrecord := record_of_member laws (isMember_hide laws hmember drawn.1 value) id
    have hlaws : recorded.group.Lawful := laws
    have hkept : recorded.commitments.get? id = some element := Ledger.get?_insert_self _ id element
    exact ⟨Source.below_lt source laws.order_pos, hcommit, hrecord,
      fun other => setOf_accepts hlaws htrapdoor hkept⟩
  · intro other _ id event
    let favourable : Set E := {element | ⟨id, group.encode element⟩ ∈ event}
    have hthis := ncard_of_bijOn (hbijection value) favourable
    have hother := ncard_of_bijOn (hbijection other) favourable
    exact hthis.trans hother.symm

/-- The value 2 is committed to, and the randomness 8 opens the commitment to 9. -/
theorem perfectly_hiding_modulo23 :
    ∃ source : Source,
      (Committer.commitTo 2 1 ⟨SafePrime.modulo23.group, 18, .empty⟩ source).1 = .ok ⟨1, [16]⟩ ∧
        {r | r < 11 ∧ (modulo23 (Ledger.empty.insert 1 16)).Accepts 16 ⟨1, r, 9⟩} = {8} ∧
        Set.BijOn (fun r => hide SafePrime.modulo23.group 18 r 2) (Set.Iio 11)
          {element | SafePrime.modulo23.group.isMember element = true} := by
  have laws : (modulo23 .empty).group.Lawful := SafePrime.lawful_modulo23
  have hkey : (⟨SafePrime.modulo23.group, 18, .empty⟩ : Committer Nat).key =
    (modulo23 .empty).key := rfl
  have hvalue : 2 < (modulo23 .empty).group.order := (by decide : 2 < 11)
  obtain ⟨hcommit, -, hbijection, -⟩ := perfectly_hiding laws rfl rfl hkey hvalue
  obtain ⟨-, hmessage, -, hopenings⟩ := hcommit 1 ⟨fun i => UInt8.ofNat (37 * i + 5), 0⟩
  have hopening := hopenings 9 (by decide : 9 < 11)
  exact ⟨_, (congrArg Prod.fst hmessage).trans rfl, hopening, hbijection⟩

end Receiver

end ThreeMove.Pedersen
