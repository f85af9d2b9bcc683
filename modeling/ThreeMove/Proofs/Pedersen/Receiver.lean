import ThreeMove.Pedersen.Receiver
import ThreeMove.Proofs.Pedersen.Committer

/-!
# What a receiver accepts

A commitment phase that succeeds has read the encoding of an element, and the opening that
succeeds afterwards belongs to the element that was kept under its identifier.
-/

namespace ThreeMove.Pedersen

namespace Receiver

open ThreeMove.Action

variable {E : Type} {receiver receiver' : Receiver E} {source source' : Source}
  {events : List Event}

def keyOf (group : PrimeGroup E) (trapdoor : Nat) : E :=
  group.pow group.generator trapdoor

theorem isMember_keyOf {group : PrimeGroup E} (laws : group.Lawful) (trapdoor : Nat) :
    group.isMember (keyOf group trapdoor) = true :=
  laws.isMember_pow laws.isMember_generator trapdoor

def ofTrapdoor (group : PrimeGroup E) (trapdoor : Nat) : Receiver E :=
  ⟨group, trapdoor, keyOf group trapdoor, .empty⟩

/-- A lawful group passes the drawn tests as well. -/
theorem generate_of_lawful {group : PrimeGroup E} (laws : group.Lawful)
    (hhides : group.hidesLogarithms = true) (source : Source) :
    ∃ trapdoor rest, generate group source = (.ok (ofTrapdoor group trapdoor), rest) := by
  have hvalid := laws.checkValid_fst source
  have hcheck : checkGroupDrawing group source = (.ok (), (group.checkValid source).2) := by
    unfold checkGroupDrawing
    rw [hhides]
    generalize group.checkValid source = outcome at hvalid ⊢
    obtain ⟨answer, rest⟩ := outcome
    cases hvalid
    rfl
  refine ⟨((group.checkValid source).2.below group.order).1,
    ((group.checkValid source).2.below group.order).2, ?_⟩
  rw [generate, hcheck]
  rfl

theorem create_of_generate {group : PrimeGroup E} {rest : Source}
    (hgenerate : generate group source = (.ok receiver, rest)) :
    (create group).Runs () source [.sent (group.encode receiver.key) (.ok ())]
      (.ok receiver, (), rest) := by
  have hdraw : (ofStep fun _ source =>
      ((generate group source).1, (), (generate group source).2) :
        Action Unit CommitmentFault (Receiver E)) () source =
        .done (.ok receiver, (), rest) := by
    rw [ofStep, hgenerate]
  exact (runs_bind_of_done hdraw).mpr (Runs.send_bind (runs_pure.mpr ⟨rfl, rfl⟩))

theorem generate_eq_ok {group : PrimeGroup E}
    (hgenerate : generate group source = (.ok receiver, source')) :
    receiver.group = group ∧ receiver.key = group.pow group.generator receiver.trapdoor ∧
      receiver.commitments = .empty := by
  unfold generate at hgenerate
  split at hgenerate
  · cases hgenerate
  · cases hgenerate
    exact ⟨rfl, rfl, rfl⟩

theorem runs_create {group : PrimeGroup E}
    (hruns : (create group).Runs () source events (.ok receiver, (), source')) :
    receiver.group = group ∧ receiver.key = group.pow group.generator receiver.trapdoor ∧
      receiver.commitments = .empty ∧
      events = [.sent (group.encode receiver.key) (.ok ())] := by
  rcases runs_bind.mp hruns with ⟨e, state, rest, _, hout⟩ |
    ⟨drawn, state, rest, front, back, rfl, hdraw, hback⟩
  · cases hout
  · obtain ⟨rfl, heq⟩ := runs_ofStep.mp hdraw
    rcases runs_send_bind.mp hback with ⟨fault, _, hout⟩ | ⟨others, rfl, hpure⟩
    · cases hout
    · obtain ⟨rfl, hout⟩ := runs_pure.mp hpure
      cases hout
      generalize hgenerate : generate group source = generated at heq
      obtain ⟨result, left⟩ := generated
      cases heq
      obtain ⟨hgroup, hkey, hempty⟩ := generate_eq_ok hgenerate
      exact ⟨hgroup, hkey, hempty, rfl⟩

inductive CommitmentRefused (group : PrimeGroup E) : List Event → CommitmentFault → Prop where
  | lost (fault : ChannelFault) :
      CommitmentRefused group [.received (.error fault)] (.channel fault)
  | malformed {bytes : Bytes} (hsize : bytes.length ≠ 8 + group.elementSize)
      (fault : MessageFault) : CommitmentRefused group [.received (.ok bytes)] (.message fault)
  | noElement {bytes : Bytes} {commitment : Commitment} {fault : GroupFault}
      (hread : Commitment.decode group.elementSize bytes = .ok commitment)
      (helement : group.decode commitment.element = .error fault) :
      CommitmentRefused group [.received (.ok bytes)] (.cheating .elementInvalid)

theorem CommitmentRefused.events_eq {group : PrimeGroup E} {e : CommitmentFault}
    (hrefused : CommitmentRefused group events e) : ∃ reply, events = [.received reply] := by
  cases hrefused <;> exact ⟨_, rfl⟩

theorem runs_receiveCommitment {result : Except CommitmentFault Id}
    (hruns : (receiveCommitment : Action (Receiver E) _ _).Runs receiver source events
      (result, receiver', source')) :
    (∃ e, result = .error e ∧ receiver' = receiver ∧
        CommitmentRefused receiver.group events e) ∨
      ∃ id bytes element, result = .ok id ∧ events = [.received (.ok (encodeId id ++ bytes))] ∧
        bytes.length = receiver.group.elementSize ∧
        receiver.group.decode bytes = .ok element ∧ source' = source ∧
        receiver' = { receiver with commitments := receiver.commitments.insert id element } := by
  rcases runs_receive_bind.mp hruns with ⟨fault, rfl, hout⟩ | ⟨message, rest, rfl, hrest⟩
  · cases hout
    exact .inl ⟨_, rfl, rfl, .lost fault⟩
  · rw [runs_get_bind, runs_ofExcept_bind] at hrest
    cases hdecode : Commitment.decode receiver.group.elementSize message with
    | error fault =>
        rw [hdecode] at hrest
        obtain ⟨rfl, hout⟩ := hrest
        cases hout
        exact .inl ⟨_, rfl, rfl, .malformed (Commitment.length_ne_of_decode hdecode) fault⟩
    | ok commitment =>
        rw [hdecode] at hrest
        obtain ⟨rfl, hout⟩ := runs_ofPure.mp hrest
        unfold record at hout
        cases helement : receiver.group.decode commitment.element with
        | error fault =>
            rw [decodeElement_eq_error helement] at hout
            cases hout
            exact .inl ⟨_, rfl, rfl, .noElement hdecode helement⟩
        | ok element =>
            rw [decodeElement_eq_ok_iff.mpr helement] at hout
            cases hout
            obtain ⟨rfl, hlen⟩ := Commitment.decode_eq_ok_iff.mp hdecode
            exact .inr ⟨commitment.id, commitment.element, element, rfl, rfl, hlen, helement, rfl,
              rfl⟩

/-- A commitment phase leaves the key alone.  If it succeeds, its record is the one of the
element that was read. -/
theorem runs_receiveRecord {result : Except CommitmentFault Record}
    (hruns : (receiveRecord : Action (Receiver E) _ _).Runs receiver source events
      (result, receiver', source')) :
    (∃ e, result = .error e ∧ receiver' = receiver ∧
        CommitmentRefused receiver.group events e) ∨
      ∃ id bytes element, events = [.received (.ok (encodeId id ++ bytes))] ∧
        bytes.length = receiver.group.elementSize ∧
        receiver.group.decode bytes = .ok element ∧ source' = source ∧
        result = .ok ⟨id, receiver.group.encode receiver.key, receiver.group.encode element⟩ ∧
        receiver' = { receiver with commitments := receiver.commitments.insert id element } := by
  rcases runs_bind.mp hruns with ⟨e, state, rest, hcommit, hout⟩ |
    ⟨id, state, rest, front, back, rfl, hcommit, hback⟩
  · cases hout
    rcases runs_receiveCommitment hcommit with ⟨_, herror, rfl, hrefused⟩ | ⟨_, _, _, hok, _⟩
    · cases herror
      exact .inl ⟨e, rfl, rfl, hrefused⟩
    · cases hok
  · rcases runs_receiveCommitment hcommit with ⟨_, herror, _⟩ |
      ⟨_, bytes, element, hok, rfl, hlen, hdecode, rfl, rfl⟩
    · cases herror
    · cases hok
      rw [runs_get_bind, Ledger.get?_insert_self] at hback
      obtain ⟨rfl, hout⟩ := runs_pure.mp hback
      cases hout
      exact .inr ⟨id, bytes, element, rfl, hlen, hdecode, rfl, rfl, rfl⟩

/-- The opening belongs to the element that was kept under the identifier. -/
structure Opens (group : PrimeGroup E) (key : E) (id : Id) (element : E) (opening : Opening) :
    Prop where
  id : opening.id = id
  value_lt : opening.value < group.order
  encode_eq : group.encode element =
    group.encode (hide group key opening.randomness opening.value)

theorem opens_eq_ok {group : PrimeGroup E} {key element : E} {opening : Opening} {value : Nat}
    (hopens : opens group key element opening = .ok value) :
    value = opening.value ∧ Opens group key opening.id element opening := by
  unfold opens at hopens
  split at hopens
  · cases hopens
  · next hlt =>
    split at hopens
    · next hsame =>
      cases hopens
      exact ⟨rfl, rfl, Nat.lt_of_not_le hlt, hsame⟩
    · cases hopens

theorem opens_eq_error {group : PrimeGroup E} {key element : E} {opening : Opening}
    {fault : CommitmentFault} (hopens : opens group key element opening = .error fault) :
    (∃ reason, fault = .cheating reason) ∧ ∀ id, ¬ Opens group key id element opening := by
  unfold opens at hopens
  split at hopens
  · next hle =>
    cases hopens
    exact ⟨⟨_, rfl⟩, fun id hright => Nat.not_le_of_lt hright.value_lt hle⟩
  · split at hopens
    · cases hopens
    · next hother =>
      cases hopens
      exact ⟨⟨_, rfl⟩, fun id hright => hother hright.encode_eq⟩

theorem verifyOpening_cases {opening : Opening} {result : Except CommitmentFault Nat}
    (hverify : verifyOpening opening receiver = (result, receiver')) :
    (∃ reason commitments, result = .error (.cheating reason) ∧
        receiver' = { receiver with commitments } ∧
        ∀ element, receiver.commitments.get? opening.id = some element →
          ¬ Opens receiver.group receiver.key opening.id element opening) ∨
      ∃ element, receiver.commitments.get? opening.id = some element ∧
        Opens receiver.group receiver.key opening.id element opening ∧
        result = .ok opening.value ∧
        receiver' = { receiver with commitments := receiver.commitments.erase opening.id } := by
  unfold verifyOpening at hverify
  cases helement : receiver.commitments.get? opening.id with
  | none =>
      rw [helement] at hverify
      cases hverify
      exact .inl ⟨_, _, rfl, rfl, nofun⟩
  | some element =>
      rw [helement] at hverify
      obtain ⟨hresult, rfl⟩ := Prod.mk.inj hverify
      cases hopens : opens receiver.group receiver.key element opening with
      | error fault =>
          obtain ⟨⟨reason, rfl⟩, hwrong⟩ := opens_eq_error hopens
          refine .inl ⟨reason, _, hresult.symm.trans hopens, rfl, ?_⟩
          intro other hother
          cases hother
          exact hwrong opening.id
      | ok value =>
          obtain ⟨rfl, hright⟩ := opens_eq_ok hopens
          exact .inr ⟨element, rfl, hright, hresult.symm.trans hopens, rfl⟩

inductive OpeningRefused (receiver : Receiver E) (id : Id) :
    List Event → CommitmentFault → Prop where
  | lost (fault : ChannelFault) :
      OpeningRefused receiver id [.received (.error fault)] (.channel fault)
  | malformed {bytes : Bytes} {fault : MessageFault}
      (hread : Opening.decode receiver.group.scalarSize bytes = .error fault) :
      OpeningRefused receiver id [.received (.ok bytes)] (.message fault)
  | wrong {bytes : Bytes} {opening : Opening}
      (hread : Opening.decode receiver.group.scalarSize bytes = .ok opening)
      (hwrong : ∀ element, receiver.commitments.get? id = some element →
        ¬ Opens receiver.group receiver.key id element opening) (reason : Reason) :
      OpeningRefused receiver id [.received (.ok bytes)] (.cheating reason)

theorem OpeningRefused.events_eq {id : Id} {e : CommitmentFault}
    (hrefused : OpeningRefused receiver id events e) : ∃ reply, events = [.received reply] := by
  cases hrefused <;> exact ⟨_, rfl⟩

/-- The reception of an opening leaves the key alone.  If it succeeds, the opening is one of the
element that was kept. -/
theorem runs_receiveOpening {id : Id} {result : Except CommitmentFault Nat}
    (hruns : (receiveOpening id : Action (Receiver E) _ _).Runs receiver source events
      (result, receiver', source')) :
    (∃ e commitments, result = .error e ∧ receiver' = { receiver with commitments } ∧
        OpeningRefused receiver id events e) ∨
      ∃ bytes opening element, events = [.received (.ok bytes)] ∧
        Opening.decode receiver.group.scalarSize bytes = .ok opening ∧
        receiver.commitments.get? id = some element ∧
        Opens receiver.group receiver.key id element opening ∧
        source' = source ∧ result = .ok opening.value ∧
        receiver' = { receiver with commitments := receiver.commitments.erase id } := by
  rcases runs_receive_bind.mp hruns with ⟨fault, rfl, hout⟩ | ⟨message, rest, rfl, hrest⟩
  · cases hout
    exact .inl ⟨_, _, rfl, rfl, .lost fault⟩
  · rw [runs_get_bind, runs_ofExcept_bind] at hrest
    cases hdecode : Opening.decode receiver.group.scalarSize message with
    | error fault =>
        rw [hdecode] at hrest
        obtain ⟨rfl, hout⟩ := hrest
        cases hout
        exact .inl ⟨_, _, rfl, rfl, .malformed hdecode⟩
    | ok opening =>
        rw [hdecode] at hrest
        dsimp only [Except.mapError] at hrest
        split at hrest
        · next hid =>
          subst hid
          obtain ⟨rfl, hout⟩ := runs_ofPure.mp hrest
          obtain ⟨hverify, hsource⟩ : verifyOpening opening receiver = (result, receiver') ∧
              source' = source := by
            cases hout
            exact ⟨rfl, rfl⟩
          rcases verifyOpening_cases hverify with ⟨reason, commitments, rfl, rfl, hwrong⟩ |
            ⟨element, helement, hright, rfl, rfl⟩
          · exact .inl ⟨_, commitments, rfl, rfl, .wrong hdecode hwrong reason⟩
          · exact .inr ⟨message, opening, element, rfl, hdecode, helement, hright, hsource, rfl,
              rfl⟩
        · next hid =>
          rw [runs_modify_bind] at hrest
          obtain ⟨rfl, hout⟩ := runs_fail.mp hrest
          cases hout
          exact .inl ⟨_, _, rfl, rfl,
            .wrong hdecode (fun element _ hright => hid hright.id) .identifierMismatch⟩

theorem record_of_member (laws : receiver.group.Lawful) {element : E}
    (hmember : receiver.group.isMember element = true) (id : Id) :
    record ⟨id, receiver.group.encode element⟩ receiver =
      (.ok id, { receiver with commitments := receiver.commitments.insert id element }) := by
  rw [record, decodeElement_eq_ok_iff.mpr (laws.decode_encode hmember)]

theorem receiveRecord_of_member (receiver : Receiver E) (laws : receiver.group.Lawful)
    {element : E} (hmember : receiver.group.isMember element = true) (id : Id) (source : Source) :
    (receiveRecord : Action (Receiver E) _ _).Runs receiver source
      [.received (.ok (encodeId id ++ receiver.group.encode element))]
      (.ok ⟨id, receiver.group.encode receiver.key, receiver.group.encode element⟩,
        { receiver with commitments := receiver.commitments.insert id element }, source) := by
  have hdecode : Commitment.decode receiver.group.elementSize
      (encodeId id ++ receiver.group.encode element) = .ok ⟨id, receiver.group.encode element⟩ :=
    Commitment.decode_eq_ok_iff.mpr ⟨rfl, laws.length_encode hmember⟩
  have hcommit : (receiveCommitment : Action (Receiver E) _ _).Runs receiver source
      [.received (.ok (encodeId id ++ receiver.group.encode element))]
      (.ok id, { receiver with commitments := receiver.commitments.insert id element },
        source) := by
    refine Runs.receive_bind ?_
    rw [runs_get_bind, runs_ofExcept_bind, hdecode]
    refine runs_ofPure.mpr ⟨rfl, ?_⟩
    rw [record_of_member laws hmember]
  refine Runs.bind hcommit ?_
  rw [runs_get_bind, Ledger.get?_insert_self]
  exact runs_pure.mpr ⟨rfl, rfl⟩

theorem verifyOpening_of_hide {id : Id} {randomness value : Nat}
    (hkept : receiver.commitments.get? id =
      some (hide receiver.group receiver.key randomness value))
    (hvalue : value < receiver.group.order) :
    verifyOpening ⟨id, randomness, value⟩ receiver =
      (.ok value, { receiver with commitments := receiver.commitments.erase id }) := by
  rw [verifyOpening, hkept]
  dsimp only
  rw [opens, if_neg (Nat.not_le.mpr hvalue), if_pos rfl]

theorem receiveOpening_of_fits (id : Id) {randomness : Nat}
    (hrandomness : randomness < receiver.group.order) (value : Nat) (source : Source) :
    (receiveOpening id : Action (Receiver E) _ _).Runs receiver source
      [.received (.ok (encodeId id ++ Bytes.ofNat receiver.group.scalarSize randomness ++
        Bytes.shortest value))]
      ((verifyOpening ⟨id, randomness, value⟩ receiver).1,
        (verifyOpening ⟨id, randomness, value⟩ receiver).2, source) := by
  have hfits := Nat.le_of_lt (receiver.group.bitLength_lt_scalarSize hrandomness)
  have hdecode := Opening.decode_encode (Opening.encode_of_fits ⟨id, randomness, value⟩ hfits)
  refine Runs.receive_bind ?_
  rw [runs_get_bind, runs_ofExcept_bind, hdecode]
  dsimp only [Except.mapError]
  rw [if_pos rfl]
  exact runs_ofPure.mpr ⟨rfl, rfl⟩

/-- The opening of a commitment to a value below the order is accepted. -/
theorem receiveOpening_of_hide {id : Id} {randomness value : Nat}
    (hkept : receiver.commitments.get? id =
      some (hide receiver.group receiver.key randomness value))
    (hrandomness : randomness < receiver.group.order) (hvalue : value < receiver.group.order)
    (source : Source) :
    (receiveOpening id : Action (Receiver E) _ _).Runs receiver source
      [.received (.ok (encodeId id ++ Bytes.ofNat receiver.group.scalarSize randomness ++
        Bytes.shortest value))]
      (.ok value, { receiver with commitments := receiver.commitments.erase id }, source) := by
  have hopening := receiveOpening_of_fits id hrandomness value source
  rw [verifyOpening_of_hide hkept hvalue] at hopening
  exact hopening

theorem receiveOpening_of_mismatch (receiver : Receiver E) {id : Id} {element : E}
    {randomness value : Nat} (hkept : receiver.commitments.get? id = some element)
    (hrandomness : randomness < receiver.group.order) (hvalue : value < receiver.group.order)
    (hother : receiver.group.encode element ≠
      receiver.group.encode (hide receiver.group receiver.key randomness value))
    (source : Source) :
    (receiveOpening id : Action (Receiver E) _ _).Runs receiver source
      [.received (.ok (encodeId id ++ Bytes.ofNat receiver.group.scalarSize randomness ++
        Bytes.shortest value))]
      (.error (.cheating .openingMismatch),
        { receiver with commitments := receiver.commitments.erase id }, source) := by
  have hopening := receiveOpening_of_fits id hrandomness value source
  rw [verifyOpening, hkept] at hopening
  dsimp only at hopening
  rw [opens, if_neg (Nat.not_le.mpr hvalue), if_neg hother] at hopening
  exact hopening

end Receiver

end ThreeMove.Pedersen
