import ThreeMove.Proofs.Interactive.Course
import ThreeMove.Proofs.KnowledgeProof.Course
import ThreeMove.Proofs.Talk.Channel

/-!
# Misbehaviour of a verifier

A prover that is asked for an input of the right shape fails for three reasons only: the channel
fails, the verifier sends something that is no message of the protocol, or it sends a message
that no honest verifier sends.  The fault says which of them it was, and the answer is kept back.
-/

namespace ThreeMove

open ThreeMove.Action Pedersen

/-- What a fault blames: the other party, the form of its messages, the channel, or the party
itself and the way in which it is used. -/
inductive Cause where
  | cheating
  | message
  | channel
  | usage
deriving DecidableEq

def SigmaFault.cause : SigmaFault → Cause
  | cheating _ => .cheating
  | message _ => .message
  | channel _ => .channel
  | unsuitable _ => .usage
  | outOfOrder _ => .usage
  | misshapen _ => .usage

def ProofFault.cause : ProofFault → Cause
  | cheating _ => .cheating
  | message _ => .message
  | channel _ => .channel
  | sigma _ => .usage
  | commitment _ => .usage

variable {E : Type} {t : Nat} {α β ε : Type}

/-- Each fault of a run has its cause in what happened on the channel, and blames it.  A run that
fails while the channel works has sent at most the message that starts a proof, and one that does
not fail has read and sent all its messages. -/
structure Classified (cause : ε → Cause) (dishonest malformed : List Bytes → Prop)
    (starts : Bytes → Prop) (reads writes : Nat) (events : List Event) (result : Except ε α) :
    Prop where
  used : ∀ e, result = .error e → cause e ≠ .usage
  cheating_iff : (∃ e, result = .error e ∧ cause e = .cheating) ↔ dishonest (Talk.received events)
  message_iff : (∃ e, result = .error e ∧ cause e = .message) ↔ malformed (Talk.received events)
  channel_iff : (∃ e, result = .error e ∧ cause e = .channel) ↔ ¬ Talk.Undisturbed events
  started : ∀ first ∈ (Talk.sent events)[0]?, starts first
  unanswered : ∀ e, result = .error e → cause e ≠ .channel → (Talk.sent events).length ≤ 1
  completed : ∀ a, result = .ok a →
    (Talk.received events).length = reads ∧ (Talk.sent events).length = writes

namespace Classified

variable {cause : ε → Cause} {dishonest malformed : List Bytes → Prop} {starts : Bytes → Prop}
  {reads writes : Nat} {events : List Event} {e : ε}

theorem of_ok (hhonest : ¬ dishonest (Talk.received events))
    (hformed : ¬ malformed (Talk.received events)) (hundisturbed : Talk.Undisturbed events)
    (hstarted : ∀ first ∈ (Talk.sent events)[0]?, starts first)
    (hreads : (Talk.received events).length = reads)
    (hwrites : (Talk.sent events).length = writes) (a : α) :
    Classified cause dishonest malformed starts reads writes events (.ok a : Except ε α) where
  used := nofun
  cheating_iff := by simp [hhonest]
  message_iff := by simp [hformed]
  channel_iff := by simp [hundisturbed]
  started := hstarted
  unanswered := nofun
  completed _ _ := ⟨hreads, hwrites⟩

theorem of_channel (hcause : cause e = .channel) (hhonest : ¬ dishonest (Talk.received events))
    (hformed : ¬ malformed (Talk.received events)) (hdisturbed : ¬ Talk.Undisturbed events)
    (hstarted : ∀ first ∈ (Talk.sent events)[0]?, starts first) :
    Classified cause dishonest malformed starts reads writes events (.error e : Except ε α) where
  used := by simp [hcause]
  cheating_iff := by simp [hcause, hhonest]
  message_iff := by simp [hcause, hformed]
  channel_iff := by simp [hcause, hdisturbed]
  started := hstarted
  unanswered := by simp [hcause]
  completed := nofun

theorem of_cheating (hcause : cause e = .cheating) (hdishonest : dishonest (Talk.received events))
    (hformed : ¬ malformed (Talk.received events)) (hundisturbed : Talk.Undisturbed events)
    (hstarted : ∀ first ∈ (Talk.sent events)[0]?, starts first)
    (hsent : (Talk.sent events).length ≤ 1) :
    Classified cause dishonest malformed starts reads writes events (.error e : Except ε α) where
  used := by simp [hcause]
  cheating_iff := by simp [hcause, hdishonest]
  message_iff := by simp [hcause, hformed]
  channel_iff := by simp [hcause, hundisturbed]
  started := hstarted
  unanswered _ _ _ := hsent
  completed := nofun

theorem of_message (hcause : cause e = .message) (hhonest : ¬ dishonest (Talk.received events))
    (hmalformed : malformed (Talk.received events)) (hundisturbed : Talk.Undisturbed events)
    (hstarted : ∀ first ∈ (Talk.sent events)[0]?, starts first)
    (hsent : (Talk.sent events).length ≤ 1) :
    Classified cause dishonest malformed starts reads writes events (.error e : Except ε α) where
  used := by simp [hcause]
  cheating_iff := by simp [hcause, hhonest]
  message_iff := by simp [hcause, hmalformed]
  channel_iff := by simp [hcause, hundisturbed]
  started := hstarted
  unanswered _ _ _ := hsent
  completed := nofun

/-- Only the faults of a run are blamed, whatever it returns if it succeeds. -/
theorem of_errors {result : Except ε α} {result' : Except ε β} {reads' writes' : Nat}
    (classified : Classified cause dishonest malformed starts reads writes events result)
    (herror : ∀ e, result' = .error e ↔ result = .error e)
    (hcompleted : ∀ b, result' = .ok b →
      (Talk.received events).length = reads' ∧ (Talk.sent events).length = writes') :
    Classified cause dishonest malformed starts reads' writes' events result' where
  used e he := classified.used e ((herror e).mp he)
  cheating_iff := by simp only [herror, classified.cheating_iff]
  message_iff := by simp only [herror, classified.message_iff]
  channel_iff := by simp only [herror, classified.channel_iff]
  started := classified.started
  unanswered e he := classified.unanswered e ((herror e).mp he)
  completed := hcompleted

theorem map {result : Except ε α}
    (classified : Classified cause dishonest malformed starts reads writes events result)
    (f : α → β) :
    Classified cause dishonest malformed starts reads writes events (result.map f) := by
  refine classified.of_errors (by cases result <;> simp [Except.map]) fun b hok => ?_
  cases result with
  | error e => cases hok
  | ok a => exact classified.completed a rfl

/-- How long a run would have been does not matter if it fails. -/
theorem failed
    (classified : Classified cause dishonest malformed starts reads writes events
      (.error e : Except ε α)) (reads' writes' : Nat) :
    Classified cause dishonest malformed starts reads' writes' events (.error e : Except ε β) :=
  classified.of_errors (by simp) nofun

theorem honest {a : α}
    (classified : Classified cause dishonest malformed starts reads writes events (.ok a)) :
    ¬ dishonest (Talk.received events) ∧ ¬ malformed (Talk.received events) ∧
      Talk.Undisturbed events := by
  refine ⟨mt classified.cheating_iff.mpr (by simp), mt classified.message_iff.mpr (by simp), ?_⟩
  exact Classical.not_not.mp (mt classified.channel_iff.mpr (by simp))

theorem sent {a : α}
    (classified : Classified cause dishonest malformed starts reads writes events (.ok a))
    (hwrites : 0 < writes) {channel : ChannelFault → ε}
    (hchannel : ∀ fault, cause (channel fault) = .channel) (message : Bytes)
    (reply : Except ChannelFault Unit) :
    Classified cause dishonest malformed starts reads (writes + 1)
      (events ++ [.sent message reply]) (reply.mapError channel) := by
  obtain ⟨hhonest, hformed, hundisturbed⟩ := classified.honest
  obtain ⟨hreads, hwritten⟩ := classified.completed a rfl
  have hreceived : Talk.received (events ++ [.sent message reply]) = Talk.received events := by
    rw [Talk.received_append]
    exact List.append_nil _
  have hsent : Talk.sent (events ++ [.sent message reply]) = Talk.sent events ++ [message] :=
    Talk.sent_append _ _
  have hstarted : ∀ first ∈ (Talk.sent (events ++ [.sent message reply]))[0]?, starts first := by
    rw [hsent, List.getElem?_append_left (hwritten ▸ hwrites)]
    exact classified.started
  rw [← hreceived] at hhonest hformed
  cases reply with
  | error fault =>
      exact .of_channel (hchannel fault) hhonest hformed (by simp [Talk.undisturbed_append])
        hstarted
  | ok _ =>
      exact .of_ok hhonest hformed (by simp [Talk.undisturbed_append, hundisturbed]) hstarted
        (hreceived ▸ hreads) (by rw [hsent, List.length_append, hwritten]; rfl) ()

end Classified

namespace Interactive.Prover

def OutOfRange (t : Nat) (received : List Bytes) : Prop :=
  ∃ bytes ∈ received[0]?, ∀ challenge, Challenge.decode bytes = .ok challenge → 2 ^ t ≤ challenge

theorem Course.started {starts : Bytes → Prop} {events : List Event}
    {result : Except SigmaFault Unit} (hcourse : Course starts t events result) :
    ∀ first ∈ (Talk.sent events)[0]?, starts first := by
  cases hcourse <;> simpa [Talk.sent]

theorem Course.classified {starts : Bytes → Prop} {events : List Event}
    {result : Except SigmaFault Unit} (hcourse : Course starts t events result) :
    Classified SigmaFault.cause (OutOfRange t) (fun _ => False) starts 1 2 events result := by
  have hstarted := hcourse.started
  cases hcourse with
  | firstLost hfirst fault =>
      exact .of_channel rfl (by simp [OutOfRange, Talk.received]) not_false (by simp) hstarted
  | challengeLost hfirst fault =>
      exact .of_channel rfl (by simp [OutOfRange, Talk.received]) not_false (by simp) hstarted
  | challengeRefused hfirst hrefused reason =>
      exact .of_cheating rfl ⟨_, rfl, hrefused⟩ not_false (by simp) hstarted (by simp [Talk.sent])
  | @answered _ bytes challenge hfirst hread hlt second reply =>
      have hhonest : ¬ OutOfRange t [bytes] := by
        simp [OutOfRange, hread, hlt]
      cases reply with
      | error fault => exact .of_channel rfl hhonest not_false (by simp) hstarted
      | ok _ => exact .of_ok hhonest not_false (by simp) hstarted rfl rfl ()

/-- Between two runs an interactive prover classifies what goes wrong in the next one. -/
theorem classified_prove {computation : ThreeMove.Prover E t} {input : ProverInput E}
    (hfits : computation.Fits input) (source : Source) :
    (prove input).OnEveryChannel ⟨computation, false⟩ source fun events outcome =>
      Classified SigmaFault.cause (OutOfRange t) (fun _ => False)
        (computation.BeginsWith input source) 1 2 events outcome.1 :=
  onEveryChannel_iff.mpr fun _ _ hruns => (course_of_prove hfits hruns).classified

end Interactive.Prover

namespace ZeroKnowledge.Prover

variable {group : PrimeGroup E} {key : E}

/-- The commitment has another length than one has, or the opening cannot be read. -/
def Malformed (group : PrimeGroup E) (received : List Bytes) : Prop :=
  (∃ bytes ∈ received[0]?, bytes.length ≠ 8 + group.elementSize) ∨
    ∃ answer ∈ received[1]?, ∃ fault, Opening.decode group.scalarSize answer = .error fault

/-- There is no element in the commitment, the opening is one of something else, or it opens the
commitment to a challenge that is out of range. -/
inductive Dishonest (group : PrimeGroup E) (key : E) (t : Nat) (received : List Bytes) : Prop where
  | commitment {bytes : Bytes} {commitment : Commitment} {fault : GroupFault}
      (hfirst : received[0]? = some bytes)
      (hread : Commitment.decode group.elementSize bytes = .ok commitment)
      (helement : group.decode commitment.element = .error fault)
  | opening {bytes answer : Bytes} {commitment : Commitment} {element : E} {opening : Opening}
      (hfirst : received[0]? = some bytes)
      (hcommitment : IsCommitment group bytes commitment element)
      (hsecond : received[1]? = some answer)
      (hread : Opening.decode group.scalarSize answer = .ok opening)
      (hwrong : Receiver.Opens group key commitment.id element opening → 2 ^ t ≤ opening.value)

section Commitment

variable {bytes : Bytes} {commitment : Commitment} {element : E} {later : List Bytes}

theorem IsCommitment.malformed_iff (hcommitment : IsCommitment group bytes commitment element) :
    Malformed group (bytes :: later) ↔
      ∃ answer ∈ later[0]?, ∃ fault, Opening.decode group.scalarSize answer = .error fault := by
  have hlen : bytes.length = 8 + group.elementSize := Commitment.length_of_decode hcommitment.read
  simp [Malformed, hlen]

/-- After a commitment only the opening can be dishonest. -/
theorem IsCommitment.dishonest_iff (hcommitment : IsCommitment group bytes commitment element) :
    Dishonest group key t (bytes :: later) ↔ ∃ answer ∈ later[0]?, ∃ opening,
      Opening.decode group.scalarSize answer = .ok opening ∧
        (Receiver.Opens group key commitment.id element opening → 2 ^ t ≤ opening.value) := by
  constructor
  · intro hdishonest
    cases hdishonest with
    | commitment hfirst hread helement =>
        cases hfirst
        rw [hcommitment.read] at hread
        cases hread
        rw [hcommitment.decode] at helement
        cases helement
    | opening hfirst hother hsecond hread hwrong =>
        cases hfirst
        obtain ⟨rfl⟩ := Except.ok.inj (hcommitment.read.symm.trans hother.read)
        obtain ⟨rfl⟩ := Except.ok.inj (hcommitment.decode.symm.trans hother.decode)
        exact ⟨_, hsecond, _, hread, hwrong⟩
  · intro h
    obtain ⟨answer, hsecond, opening, hread, hwrong⟩ := h
    exact .opening rfl hcommitment hsecond hread hwrong

theorem Dishonest.length_eq (hdishonest : Dishonest group key t (bytes :: later)) :
    bytes.length = 8 + group.elementSize := by
  cases hdishonest with
  | commitment hfirst hread _ =>
      cases hfirst
      exact Commitment.length_of_decode hread
  | opening hfirst hcommitment _ _ _ =>
      cases hfirst
      exact Commitment.length_of_decode hcommitment.read

end Commitment

theorem classified_of_refused {starts : Bytes → Prop} {reads writes : Nat} {events : List Event}
    {e : CommitmentFault} (hrefused : Receiver.CommitmentRefused group events e) :
    Classified ProofFault.cause (Dishonest group key t) (Malformed group) starts reads writes events
      (.error (.ofCommitment e) : Except ProofFault α) := by
  cases hrefused with
  | lost fault => exact .of_channel rfl nofun (by simp [Malformed, Talk.received]) (by simp) nofun
  | malformed hsize fault =>
      exact .of_message rfl (fun hdishonest => hsize hdishonest.length_eq) (.inl ⟨_, rfl, hsize⟩)
        (by simp) nofun (by simp [Talk.sent])
  | noElement hread helement =>
      have hlen := Commitment.length_of_decode hread
      exact .of_cheating rfl (.commitment rfl hread helement)
        (by simp [Malformed, Talk.received, hlen]) (by simp) nofun (by simp [Talk.sent])

theorem Course.started {starts : Bytes → Prop} {events : List Event}
    {result : Except ProofFault Record} (hcourse : Course starts group key t events result) :
    ∀ first ∈ (Talk.sent events)[0]?, starts first := by
  cases hcourse with
  | uncommitted hrefused =>
      obtain ⟨_, rfl⟩ := hrefused.events_eq
      nofun
  | _ => simpa [Talk.sent]

theorem Course.classified {starts : Bytes → Prop} {events : List Event}
    {result : Except ProofFault Record} (hcourse : Course starts group key t events result) :
    Classified ProofFault.cause (Dishonest group key t) (Malformed group) starts 2 2 events
      result := by
  have hstarted := hcourse.started
  cases hcourse with
  | uncommitted hrefused => exact classified_of_refused hrefused
  | firstLost hcommitment hfirst fault =>
      exact .of_channel rfl (mt hcommitment.dishonest_iff.mp (by simp))
        (mt hcommitment.malformed_iff.mp (by simp)) (by simp) hstarted
  | openingLost hcommitment hfirst fault =>
      exact .of_channel rfl (mt hcommitment.dishonest_iff.mp (by simp))
        (mt hcommitment.malformed_iff.mp (by simp)) (by simp) hstarted
  | openingMalformed hcommitment hfirst hread =>
      exact .of_message rfl (mt hcommitment.dishonest_iff.mp (by simp [hread]))
        (hcommitment.malformed_iff.mpr ⟨_, rfl, _, hread⟩) (by simp)
        hstarted (by simp [Talk.sent])
  | openingWrong hcommitment hfirst hread hwrong reason =>
      exact .of_cheating rfl (hcommitment.dishonest_iff.mpr ⟨_, rfl, _, hread, hwrong⟩)
        (mt hcommitment.malformed_iff.mp (by simp [hread])) (by simp)
        hstarted (by simp [Talk.sent])
  | @answered bytes _ _ _ hcommitment hfirst answer _ hread hright hlt second reply record =>
      have hhonest : ¬ Dishonest group key t [bytes, answer] :=
        mt hcommitment.dishonest_iff.mp (by simp [hread, hright, hlt])
      have hformed : ¬ Malformed group [bytes, answer] :=
        mt hcommitment.malformed_iff.mp (by simp [hread])
      cases reply with
      | error fault => exact .of_channel rfl hhonest hformed (by simp) hstarted
      | ok _ => exact .of_ok hhonest hformed (by simp) hstarted rfl rfl record

theorem classified_prove {computation : ThreeMove.Prover E t} {input : ProverInput E}
    (hfits : computation.Fits input) (receiver : Receiver E) (source : Source) :
    (prove input).OnEveryChannel ⟨computation, receiver⟩ source fun events outcome =>
      Classified ProofFault.cause (Dishonest receiver.group receiver.key t)
        (Malformed receiver.group) (computation.BeginsWith input source) 2 2 events
        outcome.1 := by
  refine onEveryChannel_iff.mpr fun events outcome hruns => ?_
  rw [prove_eq_proving] at hruns
  obtain ⟨result, _, _, hproving, rfl⟩ := runs_discard.mp hruns
  exact (course_of_proving (by exact hfits) hproving).classified.map fun _ => ()

end ZeroKnowledge.Prover

namespace KnowledgeProof.Prover

open ZeroKnowledge.Prover (Dishonest Malformed course_of_proving)

theorem classified_prove {base : ZeroKnowledge.Prover E t} {input : ProverInput E}
    (hfits : base.computation.Fits input) (source : Source) :
    (prove input).OnEveryChannel ⟨base, .idle⟩ source fun events outcome =>
      Classified ProofFault.cause (Dishonest base.receiver.group base.receiver.key t)
        (Malformed base.receiver.group) (base.computation.BeginsWith input source) 2 3 events
        outcome.1 := by
  refine onEveryChannel_iff.mpr fun events ⟨result, party', source'⟩ hruns => ?_
  obtain ⟨base', rfl, hbase⟩ := mirrors_prove input _ _ _ _ _ hruns
  rcases runs_bind.mp hbase with ⟨e, _, _, hproving, hout⟩ |
    ⟨record, _, _, front, back, rfl, hproving, hsend⟩
  · cases hout
    exact (course_of_proving hfits hproving).classified.failed 2 3
  · obtain ⟨reply, rfl, hout⟩ := runs_send.mp hsend
    cases hout
    exact (course_of_proving hfits hproving).classified.sent Nat.two_pos (fun _ => rfl) _ reply

end KnowledgeProof.Prover

/-- Whatever a verifier sends and wherever the channel fails, each prover blames the one or the
other, and never its own input, parts or order of steps.  It succeeds only after a whole exchange,
in which it has read and sent as many messages as with an honest verifier. -/
theorem provers_classify_misbehaviour {computation : ThreeMove.Prover E t} {input : ProverInput E}
    (hfits : computation.Fits input) (source : Source) :
    ((Interactive.Prover.prove input).OnEveryChannel ⟨computation, false⟩ source
      fun events outcome => Classified SigmaFault.cause (Interactive.Prover.OutOfRange t)
        (fun _ => False) (computation.BeginsWith input source) 1 2 events outcome.1) ∧
    ∀ receiver : Receiver E,
      ((ZeroKnowledge.Prover.prove input).OnEveryChannel ⟨computation, receiver⟩ source
        fun events outcome => Classified ProofFault.cause
          (ZeroKnowledge.Prover.Dishonest receiver.group receiver.key t)
          (ZeroKnowledge.Prover.Malformed receiver.group)
          (computation.BeginsWith input source) 2 2 events outcome.1) ∧
      ((KnowledgeProof.Prover.prove input).OnEveryChannel ⟨⟨computation, receiver⟩, .idle⟩ source
        fun events outcome => Classified ProofFault.cause
          (ZeroKnowledge.Prover.Dishonest receiver.group receiver.key t)
          (ZeroKnowledge.Prover.Malformed receiver.group)
          (computation.BeginsWith input source) 2 3 events outcome.1) := by
  refine ⟨Interactive.Prover.classified_prove hfits source, fun receiver => ⟨?_, ?_⟩⟩
  · exact ZeroKnowledge.Prover.classified_prove hfits receiver source
  · exact KnowledgeProof.Prover.classified_prove (by exact hfits) source

theorem provers_classify_misbehaviour_pairModulo23 :
    let computation : ThreeMove.Prover Nat 3 := .pairModulo23 none ()
    let input : ProverInput Nat := .all [.one ⟨18, 3⟩, .one ⟨12, 5⟩]
    let source : Source := ⟨fun i => UInt8.ofNat (37 * i + 5), 0⟩
    let receiver := Receiver.ofTrapdoor SafePrime.modulo23.group 3
    ((Interactive.Prover.prove input).OnEveryChannel ⟨computation, false⟩ source
      fun events outcome => Classified SigmaFault.cause (Interactive.Prover.OutOfRange 3)
        (fun _ => False) (computation.BeginsWith input source) 1 2 events outcome.1) ∧
    ((ZeroKnowledge.Prover.prove input).OnEveryChannel ⟨computation, receiver⟩ source
      fun events outcome => Classified ProofFault.cause
        (ZeroKnowledge.Prover.Dishonest receiver.group receiver.key 3)
        (ZeroKnowledge.Prover.Malformed receiver.group)
        (computation.BeginsWith input source) 2 2 events outcome.1) ∧
    ((KnowledgeProof.Prover.prove input).OnEveryChannel ⟨⟨computation, receiver⟩, .idle⟩ source
      fun events outcome => Classified ProofFault.cause
        (ZeroKnowledge.Prover.Dishonest receiver.group receiver.key 3)
        (ZeroKnowledge.Prover.Malformed receiver.group)
        (computation.BeginsWith input source) 2 3 events outcome.1) := by
  intro computation input source receiver
  have hfits : computation.Fits input := ⟨trivial, trivial, trivial⟩
  obtain ⟨hinteractive, hcommitted⟩ := provers_classify_misbehaviour hfits source
  exact ⟨hinteractive, (hcommitted receiver).1, (hcommitted receiver).2⟩

end ThreeMove
