import ThreeMove.ZeroKnowledge.Verifier
import ThreeMove.Proofs.Composition.Statements
import ThreeMove.Proofs.Pedersen.Committer
import ThreeMove.Proofs.Talk.History

/-!
# The exchange with a committed challenge

All draws of a run are made before anything is sent.  Then the commitment is sent first, and
its opening only after the first message of the prover was read.
-/

namespace ThreeMove.ZeroKnowledge.Verifier

open ThreeMove.Action

variable {E : Type} {t : Nat} {party party' : Verifier E t} {source source' : Source}
  {events : List Event}

/-- What is drawn for a run, and the source behind it. -/
structure Draw where
  id : Id
  challenge : Challenge
  randomness : Nat
  rest : Source

namespace Draw

def ofSource (t order : Nat) (source : Source) : Draw :=
  let challenge := Challenge.sample t source.word.2
  let randomness := challenge.2.below order
  ⟨source.word.1, challenge.1, randomness.1, randomness.2⟩

def commitment (draw : Draw) (group : PrimeGroup E) (key : E) : E :=
  Pedersen.hide group key draw.randomness draw.challenge

def commitmentBytes (draw : Draw) (group : PrimeGroup E) (key : E) : Bytes :=
  Pedersen.encodeId draw.id ++ group.encode (draw.commitment group key)

def openingBytes (draw : Draw) (group : PrimeGroup E) : Bytes :=
  Pedersen.encodeId draw.id ++ Bytes.ofNat group.scalarSize draw.randomness ++
    Bytes.shortest draw.challenge

def recordBytes (draw : Draw) (group : PrimeGroup E) (key : E) : Bytes :=
  Pedersen.encodeId draw.id ++ group.encode key ++ group.encode (draw.commitment group key)

end Draw

def draws (party : Verifier E t) (source : Source) : Draw :=
  .ofSource t party.committer.group.order source

def sends (party : Verifier E t) (draw : Draw) : Bytes × Bytes :=
  (draw.commitmentBytes party.committer.group party.committer.key,
    draw.openingBytes party.committer.group)

def engaged (party : Verifier E t) (draw : Draw) : Verifier E t :=
  ⟨party.computation.setChallenge draw.challenge,
    party.committer.keep draw.id draw.randomness draw.challenge⟩

def released (party : Verifier E t) (draw : Draw) : Verifier E t :=
  clear draw.id (party.engaged draw)

/-- The commitments are made in the group of the first statement. -/
def Coherent (party : Verifier E t) : Prop :=
  party.committer.group = party.computation.group

def Listening (events : List Event) : Prop :=
  ∀ event ∈ events, ∃ reply, event = .received reply

/-- The commitment is sent first, and the opening only after a message was read. -/
def Ordered (commitment opening : Bytes) (events : List Event) : Prop :=
  (∃ reply tail, events = .sent commitment reply :: tail ∧ Listening tail) ∨
    ∃ message reply tail, events = .sent commitment (.ok ()) :: .received (.ok message) ::
      .sent opening reply :: tail ∧ Listening tail

theorem Listening.single (reply : Except ChannelFault Bytes) : Listening [.received reply] := by
  intro event hevent
  exact ⟨reply, List.mem_singleton.mp hevent⟩

theorem listening_nil : Listening [] :=
  fun _ hevent => (List.not_mem_nil hevent).elim

theorem Listening.append {front back : List Event} (hfront : Listening front)
    (hback : Listening back) : Listening (front ++ back) := by
  intro event hevent
  rcases List.mem_append.mp hevent with hevent | hevent
  · exact hfront event hevent
  · exact hback event hevent

theorem Ordered.append {commitment opening : Bytes} {tail : List Event}
    (hordered : Ordered commitment opening events) (htail : Listening tail) :
    Ordered commitment opening (events ++ tail) := by
  rcases hordered with ⟨reply, rest, rfl, hrest⟩ | ⟨message, reply, rest, rfl, hrest⟩
  · exact .inl ⟨reply, rest ++ tail, rfl, hrest.append htail⟩
  · exact .inr ⟨message, reply, rest ++ tail, rfl, hrest.append htail⟩

theorem challenge_lt_order (hcoherent : party.Coherent) {challenge : Challenge}
    (hlt : challenge < 2 ^ t) : challenge < party.committer.group.order := by
  rw [hcoherent]
  exact Challenge.lt_order party.computation.params hlt

theorem randomness_lt (hcoherent : party.Coherent) (source : Source) :
    (draws party source).randomness < party.committer.group.order :=
  Source.below_lt _ (Nat.zero_lt_of_lt (challenge_lt_order hcoherent (Nat.two_pow_pos t)))

theorem runs_commit (hcoherent : party.Coherent) {id : Id} {challenge : Challenge}
    (hlt : challenge < 2 ^ t) {outcome : Outcome ProofFault Unit (Verifier E t)} :
    (onCommitter (Pedersen.Committer.commit challenge id)).Runs party source events outcome ↔
      ∃ reply, events = [.sent (Pedersen.encodeId id ++ party.committer.group.encode
          (Pedersen.hide party.committer.group party.committer.key
            (source.below party.committer.group.order).1 challenge)) reply] ∧
        outcome = (reply.mapError (.ofCommitment ∘ .channel),
          ⟨party.computation, party.committer.keep id
            (source.below party.committer.group.order).1 challenge⟩,
          (source.below party.committer.group.order).2) :=
  runs_within_of_send (Pedersen.Committer.runs_commit (challenge_lt_order hcoherent hlt))

theorem runs_decommit {id : Id} {secret : Pedersen.Secret E}
    (hkept : party.committer.secrets.get? id = some secret)
    (hrandomness : secret.randomness < party.committer.group.order)
    {outcome : Outcome ProofFault Unit (Verifier E t)} :
    (onCommitter (Pedersen.Committer.decommit id)).Runs party source events outcome ↔
      ∃ reply, events = [.sent (Pedersen.encodeId id ++
          Bytes.ofNat party.committer.group.scalarSize secret.randomness ++
          Bytes.shortest secret.value) reply] ∧
        outcome = (reply.mapError (.ofCommitment ∘ .channel), party, source) :=
  runs_within_of_send (Pedersen.Committer.runs_decommit hkept hrandomness)

theorem runs_sampleChallenge_bind {α : Type} {f : Challenge → Action (Verifier E t) ProofFault α}
    {outcome : Outcome ProofFault α (Verifier E t)} :
    (sampleChallenge >>= f).Runs party source events outcome ↔
      (f (Challenge.sample t source).1).Runs
        { party with
          computation := party.computation.setChallenge (Challenge.sample t source).1 }
        (Challenge.sample t source).2 events outcome :=
  Iff.rfl

theorem runs_commit_draws (hcoherent : party.Coherent) {α : Type}
    {f : Unit → Action (Verifier E t) ProofFault α}
    {outcome : Outcome ProofFault α (Verifier E t)} :
    (sampleChallenge >>= fun challenge =>
        onCommitter (Pedersen.Committer.commit challenge (draws party source).id) >>= f).Runs
      party source.word.2 events outcome ↔
      (∃ fault, events = [.sent (party.sends (draws party source)).1 (.error fault)] ∧
        outcome = (.error (.ofCommitment (.channel fault)), party.engaged (draws party source),
          (draws party source).rest)) ∨
      ∃ rest, events = .sent (party.sends (draws party source)).1 (.ok ()) :: rest ∧
        (f ()).Runs (party.engaged (draws party source)) (draws party source).rest rest
          outcome := by
  rw [runs_sampleChallenge_bind]
  have hlt := Challenge.sample_lt t source.word.2
  have hstep : Coherent (⟨party.computation.setChallenge (Challenge.sample t source.word.2).1,
      party.committer⟩ : Verifier E t) :=
    hcoherent.trans (Composition.group_map _ _ _).symm
  exact runs_bind_of_send (runs_commit hstep hlt)

theorem runs_decommit_draws (hcoherent : party.Coherent) {α : Type} {between : Source}
    {f : Unit → Action (Verifier E t) ProofFault α}
    {outcome : Outcome ProofFault α (Verifier E t)} :
    (onCommitter (Pedersen.Committer.decommit (draws party source).id) >>= f).Runs
      (party.engaged (draws party source)) between events outcome ↔
      (∃ fault, events = [.sent (party.sends (draws party source)).2 (.error fault)] ∧
        outcome = (.error (.ofCommitment (.channel fault)), party.engaged (draws party source),
          between)) ∨
      ∃ rest, events = .sent (party.sends (draws party source)).2 (.ok ()) :: rest ∧
        (f ()).Runs (party.engaged (draws party source)) between rest outcome := by
  have hkept : (party.engaged (draws party source)).committer.secrets.get?
      (draws party source).id = some ⟨(draws party source).randomness,
        (draws party source).challenge,
        (draws party source).commitment party.committer.group party.committer.key⟩ :=
    Pedersen.Ledger.get?_insert_self _ _ _
  exact runs_bind_of_send (runs_decommit hkept (randomness_lt hcoherent source))

/-- What happens in an exchange up to the first failure of the channel, and what is read. -/
inductive Exchanged (commitment opening : Bytes) :
    List Event → Except ChannelFault (Bytes × Bytes) → Prop where
  | commitmentLost (fault : ChannelFault) :
      Exchanged commitment opening [.sent commitment (.error fault)] (.error fault)
  | firstLost (fault : ChannelFault) :
      Exchanged commitment opening [.sent commitment (.ok ()), .received (.error fault)]
        (.error fault)
  | openingLost (first : Bytes) (fault : ChannelFault) :
      Exchanged commitment opening [.sent commitment (.ok ()), .received (.ok first),
        .sent opening (.error fault)] (.error fault)
  | secondLost (first : Bytes) (fault : ChannelFault) :
      Exchanged commitment opening [.sent commitment (.ok ()), .received (.ok first),
        .sent opening (.ok ()), .received (.error fault)] (.error fault)
  | complete (first second : Bytes) :
      Exchanged commitment opening [.sent commitment (.ok ()), .received (.ok first),
        .sent opening (.ok ()), .received (.ok second)] (.ok (first, second))

theorem Exchanged.ordered {commitment opening : Bytes}
    {replies : Except ChannelFault (Bytes × Bytes)}
    (hexchanged : Exchanged commitment opening events replies) :
    Ordered commitment opening events := by
  cases hexchanged with
  | commitmentLost fault => exact .inl ⟨_, [], rfl, listening_nil⟩
  | firstLost fault => exact .inl ⟨_, _, rfl, .single _⟩
  | openingLost first fault => exact .inr ⟨first, _, [], rfl, listening_nil⟩
  | secondLost first fault => exact .inr ⟨first, _, _, rfl, .single _⟩
  | complete first second => exact .inr ⟨first, _, _, rfl, .single _⟩

def decodes (party : Verifier E t) (replies : Bytes × Bytes) : Option Message × Option Message :=
  ((Message.decode party.computation.firstLayout replies.1).toOption,
    (Message.decode party.computation.secondLayout replies.2).toOption)

theorem decodes_engaged (party : Verifier E t) (draw : Draw) :
    (party.engaged draw).decodes = party.decodes := by
  have hfirst : (party.engaged draw).computation.firstLayout =
      party.computation.firstLayout := Composition.firstLayout_map _ _ _
  have hsecond : (party.engaged draw).computation.secondLayout =
      party.computation.secondLayout := Composition.secondLayout_map _ _ _
  funext replies
  rw [decodes, decodes, hfirst, hsecond]

/-- However the channel answers, an exchange goes on to its end or to the first failure. -/
theorem exchanged_of_runs (hcoherent : party.Coherent)
    {result : Except ProofFault (Option Message × Option Message)}
    (hruns : (exchange (draws party source).id).Runs party source.word.2 events
      (result, party', source')) :
    party' = party.engaged (draws party source) ∧ source' = (draws party source).rest ∧
      ∃ replies, Exchanged (party.sends (draws party source)).1
          (party.sends (draws party source)).2 events replies ∧
        result = (replies.mapError ProofFault.channel).map party.decodes := by
  unfold exchange at hruns
  rw [← decodes_engaged party (draws party source)]
  rcases (runs_commit_draws hcoherent).mp hruns with ⟨fault, rfl, hout⟩ | ⟨_, rfl, hreceive⟩
  · cases hout
    exact ⟨rfl, rfl, _, .commitmentLost fault, rfl⟩
  · rw [runs_get_bind] at hreceive
    rcases runs_receive_bind.mp hreceive with ⟨fault, rfl, hout⟩ | ⟨first, _, rfl, hopen⟩
    · cases hout
      exact ⟨rfl, rfl, _, .firstLost fault, rfl⟩
    · rcases (runs_decommit_draws hcoherent).mp hopen with ⟨fault, rfl, hout⟩ | ⟨_, rfl, hanswer⟩
      · cases hout
        exact ⟨rfl, rfl, _, .openingLost first fault, rfl⟩
      · rcases runs_receive_bind.mp hanswer with ⟨fault, rfl, hout⟩ | ⟨second, _, rfl, hdone⟩
        · cases hout
          exact ⟨rfl, rfl, _, .secondLost first fault, rfl⟩
        · obtain ⟨rfl, hout⟩ := runs_pure.mp hdone
          cases hout
          exact ⟨rfl, rfl, _, .complete first second, rfl⟩

theorem exchange_undisturbed (hcoherent : party.Coherent) (source : Source)
    (first second : Bytes) :
    (exchange (draws party source).id).Runs party source.word.2
      [.sent (party.sends (draws party source)).1 (.ok ()), .received (.ok first),
        .sent (party.sends (draws party source)).2 (.ok ()), .received (.ok second)]
      (.ok ((Message.decode party.computation.firstLayout first).toOption,
        (Message.decode party.computation.secondLayout second).toOption),
        party.engaged (draws party source), (draws party source).rest) := by
  have hdecodes := congrFun (decodes_engaged party (draws party source)) (first, second)
  unfold exchange
  refine (runs_commit_draws hcoherent).mpr (.inr ⟨_, rfl, ?_⟩)
  rw [runs_get_bind]
  refine Runs.receive_bind ((runs_decommit_draws hcoherent).mpr (.inr ⟨_, rfl, ?_⟩))
  refine Runs.receive_bind (runs_pure.mpr ⟨rfl, ?_⟩)
  exact congrArg (fun read => (Except.ok read, _, _)) hdecodes.symm

theorem runs_create {computation : ThreeMove.Verifier E t}
    (hruns : (create computation).Runs () source events (.ok party, (), source')) :
    ∃ bytes, events = [.received (.ok bytes)] ∧
      computation.group.decode bytes = .ok party.committer.key ∧
      party = ⟨computation, computation.group, party.committer.key, .empty⟩ := by
  rcases runs_bind.mp hruns with ⟨e, _, _, _, hout⟩ |
    ⟨committer, _, _, front, back, rfl, hcreate, hback⟩
  · cases hout
  · obtain ⟨rfl, hout⟩ := runs_pure.mp hback
    cases hout
    obtain ⟨result, _, _, hcreate, hout⟩ := runs_within.mp hcreate
    cases result with
    | error e => cases hout
    | ok _ =>
        cases hout
        obtain ⟨bytes, rfl, hkey, hcommitter, _⟩ := Pedersen.Committer.runs_create hcreate
        exact ⟨bytes, rfl, hkey, congrArg (Verifier.mk computation) hcommitter⟩

/-- The party proves the statements of a computation under a key. -/
structure Stands (computation : ThreeMove.Verifier E t) (key : E) (party : Verifier E t) :
    Prop where
  statements : party.computation.statements = computation.statements
  group : party.committer.group = computation.group
  key : party.committer.key = key

namespace Stands

variable {computation : ThreeMove.Verifier E t} {key : E}

theorem coherent (hstands : Stands computation key party) : party.Coherent :=
  hstands.group.trans (Composition.group_of_statements hstands.statements).symm

theorem draws (hstands : Stands computation key party) (source : Source) :
    party.draws source = .ofSource t computation.group.order source := by
  rw [Verifier.draws, hstands.group]

theorem sends (hstands : Stands computation key party) (draw : Draw) :
    party.sends draw =
      (draw.commitmentBytes computation.group key, draw.openingBytes computation.group) := by
  rw [Verifier.sends, hstands.group, hstands.key]

theorem released (hstands : Stands computation key party) (draw : Draw) :
    Stands computation key (party.released draw) := by
  refine ⟨?_, hstands.group, hstands.key⟩
  rw [← hstands.statements]
  exact (Composition.statements_map _ _ _).trans (Composition.statements_map _ _ _)

end Stands

/-- A run under a fresh identifier leaves nothing behind. -/
theorem runs_underFreshId {α : Type} {run : Id → Action (Verifier E t) ProofFault α}
    {outcome : Outcome ProofFault α (Verifier E t)} :
    (underFreshId run).Runs party source events outcome ↔
      ∃ result party' source', (run source.word.1).Runs party source.word.2 events
          (result, party', source') ∧
        outcome = (result, clear source.word.1 party', source') :=
  Iff.trans runs_draw_bind runs_afterwards

theorem runs_judge [DecidableEq E] {input : CommonInput E} {a z : Message}
    {outcome : Outcome ProofFault Bool (Verifier E t)} :
    (judge input a z).Runs party source events outcome ↔
      events = [] ∧ outcome = ((party.computation.verify input a z).mapError .ofSigma, party,
        source) :=
  Talk.trace_done

theorem stands_of_create {computation : ThreeMove.Verifier E t} {party : Verifier E t}
    {start source : Source} {creation : List Event}
    (created : (create computation).Runs () start creation (.ok party, (), source)) :
    Stands computation party.committer.key party := by
  obtain ⟨bytes, -, -, hparty⟩ := runs_create created
  rw [hparty]
  exact ⟨rfl, rfl, rfl⟩

/-- A party that every call releases stands for its statements after any calls. -/
theorem stands_of_history {κ : Type} {act : κ → Action (Verifier E t) ProofFault Unit}
    (hact : ∀ {call party source events result party' source'}, Coherent party →
      (act call).Runs party source events (result, party', source') →
      party' = released party (draws party source))
    {computation : ThreeMove.Verifier E t} {key : E} {origin : Verifier E t} {start : Source}
    {calls : List (Entry κ (Verifier E t) ProofFault)} (hstands : Stands computation key origin)
    (history : History act origin start calls party source) : Stands computation key party := by
  refine history.invariant (fun _ party => Stands computation key party) hstands ?_
  intro entries state source call events result state' source' hstate hruns
  rw [hact hstate.coherent hruns]
  exact hstate.released _

def verdict [DecidableEq E] (party : Verifier E t) (input : CommonInput E) :
    Option Message × Option Message → Except ProofFault Bool
  | (some a, some z) => (party.computation.verify input a z).mapError .ofSigma
  | _ => .ok false

theorem runs_verdict [DecidableEq E] {input : CommonInput E}
    {read : Option Message × Option Message} {outcome : Outcome ProofFault Bool (Verifier E t)} :
    (match read with
      | (some a, some z) => judge input a z
      | _ => return false : Action (Verifier E t) ProofFault Bool).Runs party source events
        outcome ↔
      events = [] ∧ outcome = (verdict party input read, party, source) := by
  obtain ⟨a, z⟩ := read
  cases a with
  | none => exact runs_pure
  | some a =>
      cases z with
      | none => exact runs_pure
      | some z => exact runs_judge

/-- However the channel answers, a run leaves the party released, and it ends with a verdict or
with the failure of the channel. -/
theorem course_of_verify [DecidableEq E] (hcoherent : party.Coherent) {input : CommonInput E}
    {result : Except ProofFault Bool}
    (hruns : (verify input).Runs party source events (result, party', source')) :
    party' = released party (draws party source) ∧ source' = (draws party source).rest ∧
      ∃ replies, Exchanged (sends party (draws party source)).1
          (sends party (draws party source)).2 events replies ∧
        result = (replies.mapError ProofFault.channel).bind fun messages =>
          verdict (engaged party (draws party source)) input (party.decodes messages) := by
  obtain ⟨answer, _, _, hrun, hout⟩ := runs_underFreshId.mp hruns
  cases hout
  rcases runs_bind.mp hrun with ⟨e, _, _, hexchange, hout⟩ |
    ⟨read, _, _, front, back, rfl, hexchange, hjudge⟩
  · cases hout
    obtain ⟨rfl, rfl, replies, hexchanged, hresult⟩ := exchanged_of_runs hcoherent hexchange
    refine ⟨rfl, rfl, replies, hexchanged, ?_⟩
    cases replies with
    | error fault =>
        cases hresult
        rfl
    | ok messages => cases hresult
  · obtain ⟨rfl, rfl, replies, hexchanged, hresult⟩ := exchanged_of_runs hcoherent hexchange
    obtain ⟨rfl, hout⟩ := runs_verdict.mp hjudge
    cases hout
    rw [List.append_nil]
    refine ⟨rfl, rfl, replies, hexchanged, ?_⟩
    cases replies with
    | error fault => cases hresult
    | ok messages =>
        cases hresult
        rfl

/-- The calls of a party. -/
def act [DecidableEq E] (input : CommonInput E) : Action (Verifier E t) ProofFault Unit := do
  let _ ← verify input

theorem released_of_act [DecidableEq E] {input : CommonInput E} {result : Except ProofFault Unit}
    (hcoherent : party.Coherent)
    (hruns : (act input).Runs party source events (result, party', source')) :
    party' = released party (draws party source) := by
  obtain ⟨answer, _, _, hverify, hout⟩ := runs_discard.mp hruns
  cases hout
  exact (course_of_verify hcoherent hverify).1

end ThreeMove.ZeroKnowledge.Verifier
