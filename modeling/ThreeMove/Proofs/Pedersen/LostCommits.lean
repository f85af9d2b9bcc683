import ThreeMove.Proofs.Group.SafePrime
import ThreeMove.Proofs.Pedersen.Committer
import ThreeMove.Proofs.Pedersen.Deeds
import ThreeMove.Proofs.Talk.History

/-!
# Commitments that get lost

A committer keeps the secret of a commitment before it sends the commitment.  If the channel does
not take it, the secret stays, in the place of one whose commitment may have been sent before.
The ledger thus tells what the committer has tried, and not what it has sent.
-/

namespace ThreeMove.Pedersen

open ThreeMove.Action

variable {E : Type}

def Secret.drawn (group : PrimeGroup E) (key : E) (value : Nat) (source : Source) : Secret E :=
  let randomness := (source.below group.order).1
  ⟨randomness, value, hide group key randomness value⟩

theorem Secret.drawn_randomness_lt {group : PrimeGroup E} {value : Nat}
    (hvalue : value < group.order) (key : E) (source : Source) :
    (drawn group key value source).randomness < group.order :=
  Source.below_lt source (Nat.zero_lt_of_lt hvalue)

namespace Committer

/-- A commitment may be generated for a caller who sends it. -/
inductive Call where
  | commit (value : Nat) (id : Id)
  | generate (value : Nat) (id : Id)
  | decommit (id : Id)
  | remove (id : Id)

namespace Call

def act : Call → Action (Committer E) CommitmentFault Unit
  | commit value id => Committer.commit value id
  | generate value id => do
      let _ ← Action.ofStep (commitTo value id)
      return ()
  | decommit id => Committer.decommit id
  | remove id => Action.modify fun committer => committer.erase id

/-- What a call does to the ledger.  The channel has no say in it. -/
def deeds (group : PrimeGroup E) (key : E) (source : Source) : Call → List (Deed (Secret E))
  | commit value id | generate value id =>
      if value < group.order then [.keep id (Secret.drawn group key value source)] else []
  | decommit _ => []
  | remove id => [.consume id]

end Call

def deedsOf (group : PrimeGroup E) (key : E)
    (calls : List (Entry Call (Committer E) CommitmentFault)) : List (Deed (Secret E)) :=
  calls.flatMap fun call => call.call.deeds group key call.source

def after (committer : Committer E) (deeds : List (Deed (Secret E))) : Committer E :=
  { committer with secrets := Deed.performAll deeds committer.secrets }

variable {committer committer' : Committer E} {source source' : Source} {events : List Event}
  {value : Nat} {id : Id}

theorem commit_of_le (hvalue : committer.group.order ≤ value) (id : Id) (source : Source) :
    commit value id committer source =
      .done (.error (.unsuitable .commitValueOutOfRange), committer, source) :=
  bind_of_failed (congrArg Talk.done (commitTo_of_le hvalue id source)) _

theorem runs_decommit_state {result : Except CommitmentFault Unit}
    (hruns : (decommit id : Action (Committer E) _ _).Runs committer source events
      (result, committer', source')) : committer' = committer := by
  unfold decommit at hruns
  rw [runs_get_bind, runs_ofExcept_bind] at hruns
  split at hruns
  · rw [runs_ofExcept_bind] at hruns
    split at hruns
    · obtain ⟨reply, -, hout⟩ := runs_send.mp hruns
      cases hout
      rfl
    · obtain ⟨-, hout⟩ := hruns
      cases hout
      rfl
  · obtain ⟨-, hout⟩ := hruns
    cases hout
    rfl

/-- One call: however it ends, the ledger has its deeds. -/
theorem runs_act (call : Call) {result : Except CommitmentFault Unit}
    (hruns : call.act.Runs committer source events (result, committer', source')) :
    committer' = committer.after (call.deeds committer.group committer.key source) := by
  cases call with
  | commit value id =>
      by_cases hvalue : value < committer.group.order
      · obtain ⟨reply, -, hout⟩ := (runs_commit hvalue).mp hruns
        cases hout
        rw [Call.deeds, if_pos hvalue]
        rfl
      · obtain ⟨-, hout⟩ := (runs_of_done (commit_of_le (Nat.not_lt.mp hvalue) id source)).mp hruns
        cases hout
        rw [Call.deeds, if_neg hvalue]
        rfl
  | generate value id =>
      obtain ⟨answer, _, _, hstep, hout⟩ := runs_discard.mp hruns
      cases hout
      obtain ⟨-, hstep⟩ := runs_ofStep.mp hstep
      by_cases hvalue : value < committer.group.order
      · rw [commitTo_of_lt id hvalue] at hstep
        cases hstep
        rw [Call.deeds, if_pos hvalue]
        rfl
      · rw [commitTo_of_le (Nat.not_lt.mp hvalue)] at hstep
        cases hstep
        rw [Call.deeds, if_neg hvalue]
        rfl
  | decommit id => exact runs_decommit_state hruns
  | remove id =>
      obtain ⟨-, hout⟩ := Talk.trace_done.mp hruns
      cases hout
      rfl

theorem after_of_history {calls : List (Entry Call (Committer E) CommitmentFault)}
    (history : History Call.act committer source calls committer' source') :
    committer' = committer.after (deedsOf committer.group committer.key calls) := by
  induction history with
  | nil => rfl
  | snoc _ call ran ih =>
      rw [runs_act call ran, ih]
      simp [after, deedsOf, Deed.performAll_append]

theorem randomness_lt_of_lastKeeps {group : PrimeGroup E} {key : E} {secret : Secret E}
    {calls : List (Entry Call (Committer E) CommitmentFault)}
    (hkeeps : Deed.LastKeeps (deedsOf group key calls) id secret) :
    secret.randomness < group.order := by
  obtain ⟨earlier, later, hdeeds, -⟩ := hkeeps
  have hmem : Deed.keep id secret ∈ deedsOf group key calls := by
    rw [hdeeds]
    exact List.mem_append_right _ List.mem_cons_self
  obtain ⟨⟨call, _, _, _, _⟩, -, hdeed⟩ := List.mem_flatMap.mp hmem
  have hdrawn : ∀ {value : Nat} {other : Id} {source : Source},
      Deed.keep id secret ∈ (if value < group.order then
        [Deed.keep other (Secret.drawn group key value source)] else []) →
      secret.randomness < group.order := by
    intro value other source hmem
    split at hmem
    · next hvalue =>
      cases List.mem_singleton.mp hmem
      exact Secret.drawn_randomness_lt hvalue key source
    · cases hmem
  cases call with
  | commit value other => exact hdrawn hdeed
  | generate value other => exact hdrawn hdeed
  | decommit other => cases hdeed
  | remove other => cases List.mem_singleton.mp hdeed

/-- A value out of range is refused before anything happens.  The secret of any other is kept
whether the channel takes the commitment or not.  After any calls, what is kept under an identifier
is therefore the secret of the last commitment that was tried under it, if it was not removed
since, and an opening is sent for that secret. -/
theorem secrets_kept_whether_sent {group : PrimeGroup E} {bytes : Bytes}
    (hmade : ofKey group bytes = .ok committer)
    {calls : List (Entry Call (Committer E) CommitmentFault)} {origin : Source}
    (history : History Call.act committer origin calls committer' source) :
    (∀ value id, group.order ≤ value → commit value id committer' source =
      .done (.error (.unsuitable .commitValueOutOfRange), committer', source)) ∧
    (∀ value id, value < group.order → ∀ events outcome,
      (commit value id).Runs committer' source events outcome ↔
        ∃ reply, events = [.sent (encodeId id ++ group.encode
            (Secret.drawn group committer.key value source).element) reply] ∧
          outcome = (reply.mapError .channel,
            committer'.after [.keep id (Secret.drawn group committer.key value source)],
            (source.below group.order).2)) ∧
    (∀ id secret, committer'.secrets.get? id = some secret ↔
      Deed.LastKeeps (deedsOf group committer.key calls) id secret) ∧
    ∀ id secret, committer'.secrets.get? id = some secret → ∀ events outcome,
      (decommit id).Runs committer' source events outcome ↔
        ∃ reply, events = [.sent (encodeId id ++
            Bytes.ofNat group.scalarSize secret.randomness ++
            Bytes.shortest secret.value) reply] ∧
          outcome = (reply.mapError .channel, committer', source) := by
  obtain ⟨-, hcommitter⟩ := ofKey_eq_ok hmade
  have hafter := after_of_history history
  have hkept : ∀ id secret, committer'.secrets.get? id = some secret ↔
      Deed.LastKeeps (deedsOf group committer.key calls) id secret := by
    intro id secret
    rw [← Deed.get?_performAll_iff, hafter, hcommitter]
    rfl
  have hgroup : committer'.group = group := by
    rw [hafter, hcommitter]
    rfl
  have hkey : committer'.key = committer.key := by
    rw [hafter]
    rfl
  rw [← hgroup, ← hkey] at hkept ⊢
  refine ⟨fun value id hvalue => commit_of_le hvalue id source, ?_, hkept, ?_⟩
  · exact fun value id hvalue events outcome => runs_commit hvalue
  · intro id secret hsecret events outcome
    exact runs_decommit hsecret (randomness_lt_of_lastKeeps ((hkept id secret).mp hsecret))

/-- The second commitment is lost, and still its secret is what is opened. -/
theorem secrets_kept_whether_sent_modulo23 :
    ∃ (committer lost : Committer Nat) (origin source : Source)
      (calls : List (Entry Call (Committer Nat) CommitmentFault)),
      ofKey SafePrime.modulo23.group [8] = .ok committer ∧
      calls.map Entry.call = [.commit 5 1, .commit 7 1] ∧
      calls.map Entry.result = [.ok (), .error (.channel .disconnected)] ∧
      History Call.act committer origin calls lost source ∧
      lost.secrets.get? 1 = some ⟨9, 7, 18⟩ := by
  have hcalls : ∃ (committer sent lost : Committer Nat) (origin between rest : Source)
      (element other : Bytes),
      ofKey SafePrime.modulo23.group [8] = .ok committer ∧
      (Call.commit 5 1).act.Runs committer origin [.sent element (.ok ())]
        (.ok (), sent, between) ∧
      (Call.commit 7 1).act.Runs sent between [.sent other (.error .disconnected)]
        (.error (.channel .disconnected), lost, rest) ∧
      Secret.drawn SafePrime.modulo23.group committer.key 7 between = ⟨9, 7, 18⟩ :=
    ⟨_, _, _, ⟨fun i => UInt8.ofNat (37 * i + 5), 4⟩, _, _, _, _, rfl, .send (.ok ()) (.done _),
      .send (.error .disconnected) (.done _), rfl⟩
  obtain ⟨committer, sent, lost, origin, between, rest, _, _, hmade, hsent, hlost, hdrawn⟩ := hcalls
  have history := (History.single hsent).snoc _ hlost
  obtain ⟨-, -, hkept, -⟩ := secrets_kept_whether_sent hmade history
  refine ⟨committer, lost, origin, rest, _, hmade, rfl, rfl, history, (hkept 1 _).mpr ?_⟩
  exact ⟨_, [], by rw [← hdrawn]; rfl, nofun⟩

/-- The receiver has the first commitment and the second one is lost.  The opening that is sent
then makes the committer look like a cheat. -/
theorem lost_commit_breaks_opening_modulo23 :
    let group := SafePrime.modulo23.group
    let origin : Source := ⟨fun i => UInt8.ofNat (37 * i + 5), 0⟩
    ∃ (receiver recorded consumed : Receiver Nat) (committer sent lost : Committer Nat)
      (source between rest : Source),
      (Receiver.create group).Runs () origin [.sent [8] (.ok ())] (.ok receiver, (), source) ∧
      (create group).Runs () source [.received (.ok [8])] (.ok committer, (), source) ∧
      (commit 5 1).Runs committer source [.sent [0, 0, 0, 0, 0, 0, 0, 1, 16] (.ok ())]
        (.ok (), sent, between) ∧
      (Receiver.receiveCommitment : Action (Receiver Nat) _ _).Runs receiver between
        [.received (.ok [0, 0, 0, 0, 0, 0, 0, 1, 16])] (.ok 1, recorded, between) ∧
      (commit 7 1).Runs sent between
        [.sent [0, 0, 0, 0, 0, 0, 0, 1, 18] (.error .disconnected)]
        (.error (.channel .disconnected), lost, rest) ∧
      (sent.secrets.get? 1).map Secret.value = some 5 ∧
      (lost.secrets.get? 1).map Secret.value = some 7 ∧
      (decommit 1 : Action (Committer Nat) _ _).Runs lost rest
        [.sent [0, 0, 0, 0, 0, 0, 0, 1, 9, 7] (.ok ())] (.ok (), lost, rest) ∧
      (Receiver.receiveOpening 1 : Action (Receiver Nat) _ _).Runs recorded rest
        [.received (.ok [0, 0, 0, 0, 0, 0, 0, 1, 9, 7])]
        (.error (.cheating .openingMismatch), consumed, rest) :=
  ⟨_, _, _, _, _, _, _, _, _, .send (.ok ()) (.done _), .receive _ (.done _),
    .send (.ok ()) (.done _), .receive _ (.done _), .send (.error .disconnected) (.done _),
    rfl, rfl, .send (.ok ()) (.done _), .receive _ (.done _)⟩

end Committer

end ThreeMove.Pedersen
