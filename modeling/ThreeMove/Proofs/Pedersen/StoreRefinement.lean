import ThreeMove.Proofs.Group.SafePrime
import ThreeMove.Proofs.Pedersen.Receiver
import ThreeMove.Proofs.Pedersen.Store

/-!
# Commitments refine a store

A committer and the receiver whose key it uses answer every sequence of operations as the store
does, although each keeps a ledger of its own and all they exchange is written in bytes.
-/

namespace ThreeMove.Pedersen

variable {E : Type}

/-- A committer and a receiver, each with what it keeps. -/
structure Parties (E : Type) where
  committer : Committer E
  receiver : Receiver E

namespace Parties

def commit (value : Nat) (id : Id) (parties : Parties E) (source : Source) :
    Outcome CommitmentFault Id (Parties E) :=
  match parties.committer.commitTo value id source with
  | (.error e, committer, rest) => (.error e, { parties with committer }, rest)
  | (.ok commitment, committer, rest) =>
      match Commitment.decode parties.receiver.group.elementSize commitment.encode with
      | .error e => (.error (.message e), { parties with committer }, rest)
      | .ok commitment =>
          let (result, receiver) := parties.receiver.record commitment
          (result, ⟨committer, receiver⟩, rest)

def openingRead (id : Id) (parties : Parties E) : Except CommitmentFault Opening := do
  let opening ← parties.committer.openingOf id
  let bytes ← (opening.encode parties.committer.group.scalarSize).mapError CommitmentFault.message
  (Opening.decode parties.receiver.group.scalarSize bytes).mapError CommitmentFault.message

def reveal (id : Id) (parties : Parties E) : Except CommitmentFault Nat × Parties E :=
  match parties.openingRead id with
  | .error e => (.error e, parties)
  | .ok opening =>
      let (result, receiver) := parties.receiver.verifyOpening opening
      (result, { parties with receiver })

def remove (id : Id) (parties : Parties E) : Option Nat × Parties E :=
  ((parties.committer.secrets.get? id).map Secret.value,
    { parties with committer := parties.committer.erase id })

def perform (operation : Operation) : Parties E × Source → Answer × Parties E × Source
  | (parties, source) =>
    match operation.request with
    | .commit value =>
        let (result, parties, rest) := parties.commit value operation.id source
        (.committed result, parties, rest)
    | .reveal =>
        let (result, parties) := parties.reveal operation.id
        (.revealed result, parties, source)
    | .remove =>
        let (kept, parties) := parties.remove operation.id
        (.removed kept, parties, source)

variable {group : PrimeGroup E} {key : E} {parties : Parties E} {store : Store}
  {source : Source} {id : Id}

/-- What the two ledgers have under an identifier for each slot of the store.  A receiver may
keep a commitment that the committer has removed. -/
inductive Agrees (group : PrimeGroup E) (key : E) :
    Slot → Option (Secret E) → Option E → Prop where
  | vacant (recorded : Option E) : Agrees group key .vacant none recorded
  | sealed {randomness value : Nat} (hrandomness : randomness < group.order)
      (hvalue : value < group.order) :
      Agrees group key (.sealed value)
        (some ⟨randomness, value, hide group key randomness value⟩)
        (some (hide group key randomness value))
  | opened {secret : Secret E} (hrandomness : secret.randomness < group.order) :
      Agrees group key (.opened secret.value) (some secret) none

/-- The parties use one group and one key, and their ledgers stand for the store. -/
inductive Represents (group : PrimeGroup E) (key : E) : Parties E → Store → Prop where
  | intro {secrets : Ledger (Secret E)} {commitments : Ledger E} {store : Store} (trapdoor : Nat)
      (hagrees : ∀ id, Agrees group key (store id) (secrets.get? id) (commitments.get? id)) :
      Represents group key ⟨⟨group, key, secrets⟩, ⟨group, trapdoor, key, commitments⟩⟩ store

def SameAt (id : Id) (parties other : Parties E) : Prop :=
  parties.committer.secrets.get? id = other.committer.secrets.get? id ∧
    parties.receiver.commitments.get? id = other.receiver.commitments.get? id

/-- The outcome of an operation is the one of the store, and the ledgers are the same as before
under all other identifiers. -/
structure Follows (group : PrimeGroup E) (key : E) (operation : Operation) (parties : Parties E)
    (store : Store) (outcome : Answer × Parties E × Source) : Prop where
  answer : outcome.1 = (Store.perform group.order operation store).1
  represents : Represents group key outcome.2.1 (Store.perform group.order operation store).2
  apart : ∀ id, id ≠ operation.id → SameAt id outcome.2.1 parties

theorem Represents.pause {operation : Operation} {answer : Answer}
    (hrepresents : Represents group key parties store)
    (hslot : Slot.perform group.order operation.id operation.request (store operation.id) =
      (answer, store operation.id)) (source : Source) :
    Follows group key operation parties store (answer, parties, source) := by
  have hstore : Store.perform group.order operation store = (answer, store) := by
    simp [Store.perform, hslot]
  refine ⟨by rw [hstore], ?_, fun _ _ => ⟨rfl, rfl⟩⟩
  rw [hstore]
  exact hrepresents

section

variable {secrets secrets' : Ledger (Secret E)} {commitments commitments' : Ledger E}
  {trapdoor value : Nat}

theorem Represents.touch {operation : Operation} {answer : Answer} {slot : Slot}
    (hrepresents : Represents group key
      ⟨⟨group, key, secrets⟩, ⟨group, trapdoor, key, commitments⟩⟩ store)
    (hslot : Slot.perform group.order operation.id operation.request (store operation.id) =
      (answer, slot))
    (hapart : ∀ id, id ≠ operation.id → secrets'.get? id = secrets.get? id ∧
      commitments'.get? id = commitments.get? id)
    (hagrees : Agrees group key slot (secrets'.get? operation.id)
      (commitments'.get? operation.id)) (source : Source) :
    Follows group key operation ⟨⟨group, key, secrets⟩, ⟨group, trapdoor, key, commitments⟩⟩ store
      (answer, ⟨⟨group, key, secrets'⟩, ⟨group, trapdoor, key, commitments'⟩⟩, source) := by
  have hstore : Store.perform group.order operation store =
      (answer, Function.update store operation.id slot) := by
    simp [Store.perform, hslot]
  refine ⟨by rw [hstore], ?_, hapart⟩
  rw [hstore]
  cases hrepresents with
  | intro _ hbefore =>
      refine .intro trapdoor fun id => ?_
      dsimp only
      by_cases hid : id = operation.id
      · rw [hid, Function.update_self]
        exact hagrees
      · obtain ⟨hsecret, hrecorded⟩ := hapart id hid
        rw [Function.update_of_ne hid, hsecret, hrecorded]
        exact hbefore id

/-- A value below the order is committed to, and the receiver has the same element. -/
theorem commit_of_lt (laws : group.Lawful) (hkey : group.isMember key = true)
    (hvalue : value < group.order) (id : Id) (source : Source) :
    commit value id ⟨⟨group, key, secrets⟩, ⟨group, trapdoor, key, commitments⟩⟩ source =
      (.ok id,
        ⟨⟨group, key, secrets.insert id ⟨(source.below group.order).1, value,
            hide group key (source.below group.order).1 value⟩⟩,
          ⟨group, trapdoor, key,
            commitments.insert id (hide group key (source.below group.order).1 value)⟩⟩,
        (source.below group.order).2) := by
  have hmember := isMember_hide laws hkey (source.below group.order).1 value
  have hlen := laws.length_encode hmember
  let receiver : Receiver E := ⟨group, trapdoor, key, commitments⟩
  have hrecord : receiver.record _ = _ := Receiver.record_of_member laws hmember id
  unfold commit
  rw [Committer.commitTo_of_lt id hvalue]
  dsimp only
  rw [Commitment.decode_encode hlen]
  dsimp only
  rw [hrecord]
  rfl

theorem commit_of_le (hvalue : group.order ≤ value) (id : Id) (receiver : Receiver E)
    (source : Source) :
    commit value id ⟨⟨group, key, secrets⟩, receiver⟩ source =
      (.error (.unsuitable .commitValueOutOfRange), ⟨⟨group, key, secrets⟩, receiver⟩, source) := by
  rw [commit, Committer.commitTo_of_le hvalue]

theorem openingRead_of_kept {secret : Secret E} (hkept : secrets.get? id = some secret)
    (hrandomness : secret.randomness < group.order) :
    openingRead id ⟨⟨group, key, secrets⟩, ⟨group, trapdoor, key, commitments⟩⟩ =
      .ok ⟨id, secret.randomness, secret.value⟩ := by
  have hfits := Nat.le_of_lt (group.bitLength_lt_scalarSize hrandomness)
  have hencode := Opening.encode_of_fits ⟨id, secret.randomness, secret.value⟩ hfits
  have hdecode := Opening.decode_encode hencode
  unfold openingRead
  rw [Committer.openingOf_of_kept hkept, except_bind_eq_ok_iff]
  refine ⟨_, rfl, ?_⟩
  rw [hencode, except_bind_eq_ok_iff]
  refine ⟨_, rfl, ?_⟩
  rw [hdecode]
  rfl

/-- Nothing of the receiver is touched by an opening that the committer cannot make. -/
theorem reveal_of_vacant (hsecret : secrets.get? id = none) (receiver : Receiver E) :
    reveal id ⟨⟨group, key, secrets⟩, receiver⟩ =
      (.error (.unsuitable .nothingCommitted), ⟨⟨group, key, secrets⟩, receiver⟩) := by
  have hread : openingRead id ⟨⟨group, key, secrets⟩, receiver⟩ =
      .error (.unsuitable .nothingCommitted) := by
    rw [openingRead, Committer.openingOf, hsecret]
    rfl
  rw [reveal, hread]

theorem reveal_of_sealed {secret : Secret E} (hsecret : secrets.get? id = some secret)
    (hrecorded : commitments.get? id = some (hide group key secret.randomness secret.value))
    (hrandomness : secret.randomness < group.order) (hvalue : secret.value < group.order) :
    reveal id ⟨⟨group, key, secrets⟩, ⟨group, trapdoor, key, commitments⟩⟩ =
      (.ok secret.value,
        ⟨⟨group, key, secrets⟩, ⟨group, trapdoor, key, commitments.erase id⟩⟩) := by
  let receiver : Receiver E := ⟨group, trapdoor, key, commitments⟩
  have hverify : receiver.verifyOpening _ = _ := Receiver.verifyOpening_of_hide hrecorded hvalue
  rw [reveal, openingRead_of_kept hsecret hrandomness]
  dsimp only
  rw [hverify]

theorem reveal_of_opened {secret : Secret E} (hsecret : secrets.get? id = some secret)
    (hrecorded : commitments.get? id = none) (hrandomness : secret.randomness < group.order) :
    reveal id ⟨⟨group, key, secrets⟩, ⟨group, trapdoor, key, commitments⟩⟩ =
      (.error (.cheating .nothingReceived),
        ⟨⟨group, key, secrets⟩, ⟨group, trapdoor, key, commitments⟩⟩) := by
  rw [reveal, openingRead_of_kept hsecret hrandomness]
  dsimp only
  rw [Receiver.verifyOpening, hrecorded]

theorem follows_commit (laws : group.Lawful) (hkey : group.isMember key = true)
    (hrepresents : Represents group key parties store) (id : Id) (value : Nat) (source : Source) :
    Follows group key ⟨id, .commit value⟩ parties store
      (perform ⟨id, .commit value⟩ (parties, source)) := by
  cases hrepresents with
  | intro trapdoor hagrees =>
    have hrepresents := Represents.intro trapdoor hagrees
    by_cases hvalue : value < group.order
    · have hslot : Slot.perform group.order id (.commit value) (store id) =
          (.committed (.ok id), .sealed value) := if_neg (Nat.not_le.mpr hvalue)
      simp only [perform, commit_of_lt laws hkey hvalue]
      refine hrepresents.touch hslot ?_ ?_ _
      · intro other hother
        simp [Ledger.get?_insert, hother]
      · simp only [Ledger.get?_insert_self]
        exact .sealed (Source.below_lt source laws.order_pos) hvalue
    · have hle := Nat.le_of_not_lt hvalue
      have hslot : Slot.perform group.order id (.commit value) (store id) =
          (.committed (.error (.unsuitable .commitValueOutOfRange)), store id) := if_pos hle
      simp only [perform, commit_of_le hle]
      exact hrepresents.pause hslot source

theorem follows_reveal (hrepresents : Represents group key parties store) (id : Id)
    (source : Source) :
    Follows group key ⟨id, .reveal⟩ parties store (perform ⟨id, .reveal⟩ (parties, source)) := by
  cases hrepresents with
  | @intro secrets commitments store trapdoor hagrees =>
    have hrepresents := Represents.intro trapdoor hagrees
    have hat := hagrees id
    generalize hslot : store id = slot at hat
    generalize hsecret : secrets.get? id = secret at hat
    generalize hrecorded : commitments.get? id = recorded at hat
    cases hat with
    | vacant =>
        have hstep : Slot.perform group.order id .reveal (store id) =
            (.revealed (.error (.unsuitable .nothingCommitted)), store id) := by
          rw [hslot, Slot.perform]
        simp only [perform, reveal_of_vacant hsecret]
        exact hrepresents.pause hstep source
    | @sealed randomness value hrandomness hvalue =>
        have hstep : Slot.perform group.order id .reveal (store id) =
            (.revealed (.ok value), .opened value) := by
          rw [hslot, Slot.perform]
        simp only [perform, reveal_of_sealed hsecret hrecorded hrandomness hvalue]
        refine hrepresents.touch hstep ?_ ?_ source
        · intro other hother
          rw [Ledger.get?_erase, if_neg hother]
          exact ⟨rfl, rfl⟩
        · dsimp only
          rw [hsecret, Ledger.get?_erase, if_pos rfl]
          exact @Agrees.opened _ _ _ ⟨randomness, value, _⟩ hrandomness
    | opened hrandomness =>
        have hstep : Slot.perform group.order id .reveal (store id) =
            (.revealed (.error (.cheating .nothingReceived)), store id) := by
          rw [hslot, Slot.perform]
        simp only [perform, reveal_of_opened hsecret hrecorded hrandomness]
        exact hrepresents.pause hstep source

theorem follows_remove (hrepresents : Represents group key parties store) (id : Id)
    (source : Source) :
    Follows group key ⟨id, .remove⟩ parties store (perform ⟨id, .remove⟩ (parties, source)) := by
  cases hrepresents with
  | @intro secrets commitments store trapdoor hagrees =>
    have hrepresents := Represents.intro trapdoor hagrees
    have hstep : Slot.perform group.order id .remove (store id) =
        (.removed ((secrets.get? id).map Secret.value), .vacant) := by
      have hat := hagrees id
      generalize store id = slot at hat ⊢
      generalize secrets.get? id = secret at hat ⊢
      generalize commitments.get? id = recorded at hat
      cases hat <;> rfl
    refine hrepresents.touch hstep ?_ ?_ source
    · intro other hother
      rw [Ledger.get?_erase, if_neg hother]
      exact ⟨rfl, rfl⟩
    · rw [Ledger.get?_erase, if_pos rfl]
      exact .vacant _

end

theorem follows_perform (laws : group.Lawful) (hkey : group.isMember key = true)
    (hrepresents : Represents group key parties store) (operation : Operation) (source : Source) :
    Follows group key operation parties store (perform operation (parties, source)) := by
  obtain ⟨id, request⟩ := operation
  cases request with
  | commit value => exact follows_commit laws hkey hrepresents id value source
  | reveal => exact follows_reveal hrepresents id source
  | remove => exact follows_remove hrepresents id source

/-- Parties that stand for a store answer any sequence of operations as it does, and stand for the
store behind it. -/
theorem performAll_refines (laws : group.Lawful) (hkey : group.isMember key = true)
    (hrepresents : Represents group key parties store) (operations : List Operation)
    (source : Source) :
    (performAll perform operations (parties, source)).1 =
        (performAll (Store.perform group.order) operations store).1 ∧
      Represents group key (performAll perform operations (parties, source)).2.1
        (performAll (Store.perform group.order) operations store).2 := by
  let related : Parties E × Source → Store → Prop := fun state => Represents group key state.1
  refine performAll_simulates related ?_ operations hrepresents
  intro operation state store hrelated
  have hfollows := follows_perform laws hkey hrelated operation state.2
  exact ⟨hfollows.answer, hfollows.represents⟩

theorem represents_empty {receiver : Receiver E} {committer : Committer E} {drawn rest : Source}
    (laws : group.Lawful) (hgenerate : Receiver.generate group drawn = (.ok receiver, rest))
    (hkey : Committer.ofKey group (group.encode receiver.key) = .ok committer) :
    group.isMember receiver.key = true ∧
      Represents group receiver.key ⟨committer, receiver⟩ .empty := by
  obtain ⟨hgroup, hpow, hcommitments⟩ := Receiver.generate_eq_ok hgenerate
  obtain ⟨hdecode, hcommitter⟩ := Committer.ofKey_eq_ok hkey
  have hmember : group.isMember receiver.key = true := by
    rw [hpow]
    exact Receiver.isMember_keyOf laws _
  have hsame : committer.key = receiver.key := by
    rw [laws.decode_encode hmember] at hdecode
    exact (Except.ok.inj hdecode).symm
  obtain ⟨_, trapdoor, key, commitments⟩ := receiver
  subst hgroup hcommitments
  rw [hcommitter, hsame]
  exact ⟨hmember, .intro trapdoor fun id => .vacant _⟩

theorem Represents.commit_eq (laws : group.Lawful) (hkey : group.isMember key = true)
    (hrepresents : Represents group key parties store) (id : Id) (value : Nat) (source : Source) :
    (parties.commit value id source).1 =
      if value < group.order then .ok id else .error (.unsuitable .commitValueOutOfRange) := by
  cases hrepresents with
  | intro trapdoor hagrees =>
    by_cases hvalue : value < group.order
    · rw [commit_of_lt laws hkey hvalue, if_pos hvalue]
    · rw [commit_of_le (Nat.le_of_not_lt hvalue), if_neg hvalue]

theorem Represents.reveal_eq (hrepresents : Represents group key parties store) (id : Id) :
    .revealed (parties.reveal id).1 = (Slot.perform group.order id .reveal (store id)).1 :=
  (follows_reveal hrepresents id ⟨fun _ => 0, 0⟩).answer

theorem Represents.get?_eq_none_iff (hrepresents : Represents group key parties store) (id : Id) :
    parties.committer.secrets.get? id = none ↔ store id = .vacant := by
  cases hrepresents with
  | @intro secrets commitments store _ hagrees =>
    have hat := hagrees id
    dsimp only
    generalize store id = slot at hat ⊢
    generalize secrets.get? id = secret at hat ⊢
    generalize commitments.get? id = recorded at hat
    cases hat <;> simp

/-- What the parties do after some operations is told by the list of these operations. -/
structure Remember (order : Nat) (operations : List Operation) (parties : Parties E) : Prop where
  commit_eq : ∀ id value source, (parties.commit value id source).1 =
    if value < order then .ok id else .error (.unsuitable .commitValueOutOfRange)
  /-- The latest value is opened once. -/
  reveal_of_holds : ∀ id value since, Store.Holds order id operations value since →
    (parties.reveal id).1 =
      if ⟨id, .reveal⟩ ∈ since then .error (.cheating .nothingReceived) else .ok value
  held_iff : ∀ id, (∃ value since, Store.Holds order id operations value since) ↔
    parties.committer.secrets.get? id ≠ none
  /-- Without a commitment at the committer, nothing is tried at the receiver. -/
  reveal_of_none : ∀ id, parties.committer.secrets.get? id = none →
    parties.reveal id = (.error (.unsuitable .nothingCommitted), parties)
  apart : ∀ operation source id, id ≠ operation.id →
    SameAt id (perform operation (parties, source)).2.1 parties

theorem Represents.remember {operations : List Operation} (laws : group.Lawful)
    (hkey : group.isMember key = true)
    (hrepresents : Represents group key parties
      (performAll (Store.perform group.order) operations .empty).2) :
    Remember group.order operations parties := by
  refine ⟨hrepresents.commit_eq laws hkey, ?_, ?_, ?_, ?_⟩
  · intro id value since hholds
    have hanswer := hrepresents.reveal_eq id
    rw [Store.slot_of_holds hholds] at hanswer
    by_cases hopened : ⟨id, .reveal⟩ ∈ since
    · simpa [hopened, Slot.perform] using hanswer
    · simpa [hopened, Slot.perform] using hanswer
  · intro id
    rw [Ne, hrepresents.get?_eq_none_iff]
    constructor
    · intro hholds hvacant
      obtain ⟨value, since, hholds⟩ := hholds
      rw [Store.slot_of_holds hholds] at hvacant
      split at hvacant <;> cases hvacant
    · intro hvacant
      by_contra hnone
      exact hvacant (Store.slot_of_no_holds fun value since hholds => hnone ⟨value, since, hholds⟩)
  · intro id hnone
    cases hrepresents with
    | intro trapdoor hagrees => exact reveal_of_vacant hnone _
  · exact fun operation source => (follows_perform laws hkey hrepresents operation source).apart

/-- A committer that uses the key of a drawn receiver and that receiver are a store of sealed
values: every sequence of operations has the answers of the store, the answers under an identifier
are those to the operations under it alone, and the parties remember the operations. -/
theorem performAll_refines_store {receiver : Receiver E} {committer : Committer E}
    {drawn rest : Source} (laws : group.Lawful)
    (hgenerate : Receiver.generate group drawn = (.ok receiver, rest))
    (hkey : Committer.ofKey group (group.encode receiver.key) = .ok committer)
    {operations : List Operation} {log : List (Operation × Answer)} {left : Source}
    (hperformed : performAll perform operations (⟨committer, receiver⟩, source) =
      (log, parties, left)) :
    log = (performAll (Store.perform group.order) operations .empty).1 ∧
      (∀ id other, log.filter (fun entry => entry.1.id = id) =
        (performAll perform (operations.filter fun operation => operation.id = id)
          (⟨committer, receiver⟩, other)).1) ∧
      Remember group.order operations parties := by
  obtain ⟨hmember, hempty⟩ := represents_empty laws hgenerate hkey
  have hrefines := performAll_refines laws hmember hempty
  obtain ⟨hlog, hrepresents⟩ := hrefines operations source
  rw [hperformed] at hlog hrepresents
  refine ⟨hlog, fun id other => ?_, hrepresents.remember laws hmember⟩
  have hapart := (hrefines (operations.filter fun operation => operation.id = id) other).1
  dsimp only at hlog
  rw [hlog, hapart]
  exact Store.log_filter group.order id operations rfl

/-- A value that is out of range leaves the first commitment alone, the next one takes its place,
and it is opened once.  The other identifier has nothing to do with this. -/
theorem performAll_refines_store_modulo23 :
    let group := SafePrime.modulo23.group
    let drawn : Source := ⟨fun i => UInt8.ofNat (37 * i + 5), 0⟩
    let operations : List Operation := [⟨1, .commit 5⟩, ⟨2, .commit 7⟩, ⟨1, .commit 11⟩,
      ⟨1, .commit 3⟩, ⟨1, .reveal⟩, ⟨1, .reveal⟩, ⟨1, .remove⟩, ⟨1, .reveal⟩, ⟨2, .reveal⟩]
    ∃ receiver rest committer, Receiver.generate group drawn = (.ok receiver, rest) ∧
      Committer.ofKey group (group.encode receiver.key) = .ok committer ∧
      (performAll perform operations (⟨committer, receiver⟩, rest)).1.map Prod.snd =
        [.committed (.ok 1), .committed (.ok 2),
          .committed (.error (.unsuitable .commitValueOutOfRange)), .committed (.ok 1),
          .revealed (.ok 3), .revealed (.error (.cheating .nothingReceived)), .removed (some 3),
          .revealed (.error (.unsuitable .nothingCommitted)), .revealed (.ok 7)] := by
  intro group drawn operations
  have laws := SafePrime.lawful_modulo23
  obtain ⟨trapdoor, rest, hgenerate⟩ := Receiver.generate_of_lawful laws rfl drawn
  have hmember := Receiver.isMember_keyOf laws trapdoor
  have hkey := Committer.ofKey_of_member laws rfl rfl hmember
  refine ⟨_, rest, _, hgenerate, hkey, ?_⟩
  generalize hperformed : performAll perform operations (_, rest) = outcome
  obtain ⟨log, parties, left⟩ := outcome
  obtain ⟨hlog, -, -⟩ := performAll_refines_store laws hgenerate hkey hperformed
  rw [hlog]
  rfl

end Parties

end ThreeMove.Pedersen
