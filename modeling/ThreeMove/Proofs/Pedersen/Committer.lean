import ThreeMove.Proofs.Challenge
import ThreeMove.Proofs.Group.Lawful
import ThreeMove.Proofs.Talk.Runs
import ThreeMove.Pedersen.Committer

/-!
# What a committer sends

A commitment to a value below the order always has its bytes, and so has its opening.  Both
are determined by the key, the identifier and the drawn randomness.
-/

namespace ThreeMove.Pedersen

variable {E : Type} {group : PrimeGroup E} {key : E}

theorem isMember_hide (laws : group.Lawful) (hkey : group.isMember key = true)
    (randomness value : Nat) : group.isMember (hide group key randomness value) = true :=
  laws.isMember_mul (laws.isMember_pow laws.isMember_generator _) (laws.isMember_pow hkey _)

theorem decodeElement_eq_ok_iff {bytes : Bytes} {element : E} :
    decodeElement group bytes = .ok element ↔ group.decode bytes = .ok element := by
  unfold decodeElement
  cases group.decode bytes <;> simp

theorem decodeElement_eq_error {bytes : Bytes} {fault : GroupFault}
    (hdecode : group.decode bytes = .error fault) :
    decodeElement group bytes = .error (.cheating .elementInvalid) := by
  rw [decodeElement, hdecode]

theorem checkGroup_eq_ok (hhides : group.hidesLogarithms = true) (hvalid : group.isValid = true) :
    checkGroup group = .ok () := by
  simp [checkGroup, hhides, hvalid]

namespace Committer

open ThreeMove.Action

variable {committer : Committer E} {source source' : Source} {events : List Event}

theorem ofKey_eq_ok {bytes : Bytes} (hmade : ofKey group bytes = .ok committer) :
    group.decode bytes = .ok committer.key ∧ committer = ⟨group, committer.key, .empty⟩ := by
  unfold ofKey at hmade
  rw [except_bind_eq_ok_iff] at hmade
  obtain ⟨_, _, hkey⟩ := hmade
  rw [except_bind_eq_ok_iff] at hkey
  obtain ⟨key, hdecode, hdone⟩ := hkey
  cases hdone
  exact ⟨decodeElement_eq_ok_iff.mp hdecode, rfl⟩

theorem runs_create (hruns : (create group).Runs () source events (.ok committer, (), source')) :
    ∃ bytes, events = [.received (.ok bytes)] ∧ group.decode bytes = .ok committer.key ∧
      committer = ⟨group, committer.key, .empty⟩ ∧ source' = source := by
  rcases runs_receive_bind.mp hruns with ⟨fault, _, hout⟩ | ⟨bytes, rest, rfl, hkey⟩
  · cases hout
  · obtain ⟨rfl, hout⟩ := Talk.trace_done.mp hkey
    obtain ⟨hmade, hrest⟩ := Prod.mk.inj hout
    obtain ⟨-, hsource⟩ := Prod.mk.inj hrest
    obtain ⟨hdecode, hcommitter⟩ := ofKey_eq_ok hmade.symm
    exact ⟨bytes, rfl, hdecode, hcommitter, hsource⟩

theorem ofKey_of_member (laws : group.Lawful) (hhides : group.hidesLogarithms = true)
    (hvalid : group.isValid = true) (hkey : group.isMember key = true) :
    ofKey group (group.encode key) = .ok ⟨group, key, .empty⟩ := by
  unfold ofKey
  rw [checkGroup_eq_ok hhides hvalid, decodeElement_eq_ok_iff.mpr (laws.decode_encode hkey)]
  rfl

theorem create_of_member (laws : group.Lawful) (hhides : group.hidesLogarithms = true)
    (hvalid : group.isValid = true) (hkey : group.isMember key = true) (source : Source) :
    (create group).Runs () source [.received (.ok (group.encode key))]
      (.ok ⟨group, key, .empty⟩, (), source) := by
  refine Runs.receive_bind (Talk.trace_done.mpr ⟨rfl, ?_⟩)
  rw [ofKey_of_member laws hhides hvalid hkey]

def keep (committer : Committer E) (id : Id) (randomness value : Nat) : Committer E :=
  { committer with
    secrets := committer.secrets.insert id
      ⟨randomness, value, hide committer.group committer.key randomness value⟩ }

theorem commitTo_of_lt {value : Nat} (id : Id) (hvalue : value < committer.group.order)
    (source : Source) :
    commitTo value id committer source =
      (.ok ⟨id, committer.group.encode (hide committer.group committer.key
          (source.below committer.group.order).1 value)⟩,
        committer.keep id (source.below committer.group.order).1 value,
        (source.below committer.group.order).2) := by
  rw [commitTo, if_neg (Nat.not_le.mpr hvalue)]
  rfl

theorem commitTo_of_le {value : Nat} (hvalue : committer.group.order ≤ value) (id : Id)
    (source : Source) :
    commitTo value id committer source =
      (.error (.unsuitable .commitValueOutOfRange), committer, source) :=
  if_pos hvalue

theorem runs_commit {value : Nat} {id : Id} (hvalue : value < committer.group.order)
    {outcome : Outcome CommitmentFault Unit (Committer E)} :
    (commit value id).Runs committer source events outcome ↔
      ∃ reply, events = [.sent (encodeId id ++ committer.group.encode (hide committer.group
          committer.key (source.below committer.group.order).1 value)) reply] ∧
        outcome = (reply.mapError .channel,
          committer.keep id (source.below committer.group.order).1 value,
          (source.below committer.group.order).2) := by
  have hcommit := commitTo_of_lt id hvalue source
  constructor
  · intro hruns
    rcases runs_bind.mp hruns with ⟨e, _, _, hstep, hout⟩ |
      ⟨commitment, _, _, front, back, rfl, hstep, hsend⟩
    · obtain ⟨-, heq⟩ := runs_ofStep.mp hstep
      rw [hcommit] at heq
      cases heq
    · obtain ⟨rfl, heq⟩ := runs_ofStep.mp hstep
      rw [hcommit] at heq
      cases heq
      exact runs_send.mp hsend
  · intro hsend
    exact Runs.bind (runs_ofStep.mpr ⟨rfl, hcommit.symm⟩) (runs_send.mpr hsend)

theorem openingOf_of_kept {id : Id} {secret : Secret E}
    (hkept : committer.secrets.get? id = some secret) :
    committer.openingOf id = .ok ⟨id, secret.randomness, secret.value⟩ := by
  rw [openingOf, hkept]

theorem runs_decommit {id : Id} {secret : Secret E}
    (hkept : committer.secrets.get? id = some secret)
    (hrandomness : secret.randomness < committer.group.order)
    {outcome : Outcome CommitmentFault Unit (Committer E)} :
    (decommit id).Runs committer source events outcome ↔
      ∃ reply, events = [.sent (encodeId id ++
          Bytes.ofNat committer.group.scalarSize secret.randomness ++
          Bytes.shortest secret.value) reply] ∧
        outcome = (reply.mapError .channel, committer, source) := by
  have hfits := Nat.le_of_lt (committer.group.bitLength_lt_scalarSize hrandomness)
  unfold decommit
  rw [runs_get_bind, runs_ofExcept_bind, openingOf_of_kept hkept]
  dsimp only
  rw [runs_ofExcept_bind, Opening.encode_of_fits _ hfits]
  exact runs_send

end Committer

end ThreeMove.Pedersen
