import ThreeMove.Interactive.Prover
import ThreeMove.Proofs.Composition.Begun
import ThreeMove.Proofs.Talk.Runs

/-!
# The course of an interactive proof

A prover that is asked for an input of the right shape sends its first message and waits for a
challenge.  What it reads then decides how the run ends, unless the channel fails.
-/

namespace ThreeMove.Interactive.Prover

open ThreeMove.Action

variable {E : Type} {t : Nat} {party : Prover E t} {source rest : Source} {events : List Event}
  {computation : ThreeMove.Prover E t}

theorem compute_eq_done {α : Type}
    {step : ThreeMove.Prover E t → Source → Outcome SigmaFault α (ThreeMove.Prover E t)} {a : α}
    (hstep : step party.computation source = (.ok a, computation, rest)) :
    compute step party source = .done (.ok a, { party with computation }, rest) := by
  unfold compute within ofStep
  dsimp only
  rw [hstep]
  rfl

theorem compute_eq_failed {α : Type}
    {step : ThreeMove.Prover E t → Source → Outcome SigmaFault α (ThreeMove.Prover E t)}
    {fault : SigmaFault}
    (hstep : step party.computation source = (.error fault, computation, rest)) :
    compute step party source = .done (.error fault, { party with computation }, rest) := by
  unfold compute within ofStep
  dsimp only
  rw [hstep]
  rfl

theorem runs_sendMessage {message : Message} {bytes : Bytes} (hbytes : message.encode = .ok bytes)
    {outcome : Outcome SigmaFault Unit (Prover E t)} :
    (sendMessage message).Runs party source events outcome ↔
      ∃ reply, events = [.sent bytes reply] ∧
        outcome = (reply.mapError .channel, party, source) := by
  unfold sendMessage
  rw [runs_ofExcept_bind, hbytes]
  exact runs_send

/-- How a run goes on until the answer or the first failure. -/
inductive Course (starts : Bytes → Prop) (t : Nat) :
    List Event → Except SigmaFault Unit → Prop where
  | firstLost {first : Bytes} (hfirst : starts first) (fault : ChannelFault) :
      Course starts t [.sent first (.error fault)] (.error (.channel fault))
  | challengeLost {first : Bytes} (hfirst : starts first) (fault : ChannelFault) :
      Course starts t [.sent first (.ok ()), .received (.error fault)] (.error (.channel fault))
  | challengeRefused {first bytes : Bytes} (hfirst : starts first)
      (hrefused : ∀ challenge, Challenge.decode bytes = .ok challenge → 2 ^ t ≤ challenge)
      (reason : Reason) :
      Course starts t [.sent first (.ok ()), .received (.ok bytes)] (.error (.cheating reason))
  | answered {first bytes : Bytes} {challenge : Challenge} (hfirst : starts first)
      (hread : Challenge.decode bytes = .ok challenge) (hlt : challenge < 2 ^ t) (second : Bytes)
      (reply : Except ChannelFault Unit) :
      Course starts t [.sent first (.ok ()), .received (.ok bytes), .sent second reply]
        (reply.mapError .channel)

theorem runs_first_of_begun {input : ProverInput E} {begun : Begun E t} {bytes : Bytes}
    (hfirst : computation.first input source = (.ok begun.firstMessage, begun.prover, rest))
    (hbytes : begun.firstMessage.encode = .ok bytes)
    {outcome : Outcome SigmaFault Unit (Prover E t)} :
    (first input).Runs ⟨computation, false⟩ source events outcome ↔
      ∃ reply, events = [.sent bytes reply] ∧
        outcome = (reply.mapError .channel, ⟨begun.prover, reply.isOk⟩, rest) := by
  have hcompute : compute (fun computation source => computation.first input source)
      ⟨computation, false⟩ source = .done (.ok begun.firstMessage, ⟨begun.prover, false⟩, rest) :=
    compute_eq_done hfirst
  unfold first
  rw [runs_get_bind, if_neg (by simp), runs_bind_of_done hcompute,
    runs_bind_of_send (runs_sendMessage hbytes)]
  constructor
  · intro hruns
    rcases hruns with ⟨fault, rfl, rfl⟩ | ⟨others, rfl, hset⟩
    · exact ⟨.error fault, rfl, rfl⟩
    · obtain ⟨rfl, rfl⟩ := Talk.trace_done.mp hset
      exact ⟨.ok (), rfl, rfl⟩
  · intro hruns
    obtain ⟨reply, rfl, rfl⟩ := hruns
    cases reply with
    | error fault => exact .inl ⟨fault, rfl, rfl⟩
    | ok _ => exact .inr ⟨[], rfl, .done _⟩

inductive FirstCourse (computation : ThreeMove.Prover E t) (input : ProverInput E)
    (source : Source) : List Event → Outcome SigmaFault Unit (Prover E t) → Prop where
  | misshapen {reason : Reason} {left : ThreeMove.Prover E t} {rest : Source}
      (hfirst : computation.first input source = (.error (.misshapen reason), left, rest)) :
      FirstCourse computation input source [] (.error (.misshapen reason), ⟨left, false⟩, rest)
  | written {begun : Begun E t} {bytes : Bytes} {rest : Source}
      (hfirst : computation.first input source = (.ok begun.firstMessage, begun.prover, rest))
      (hsame : begun.statements = computation.statements)
      (hbytes : begun.firstMessage.encode = .ok bytes) (reply : Except ChannelFault Unit) :
      FirstCourse computation input source [.sent bytes reply]
        (reply.mapError .channel, ⟨begun.prover, reply.isOk⟩, rest)

theorem FirstCourse.statements_eq {input : ProverInput E}
    {outcome : Outcome SigmaFault Unit (Prover E t)}
    (hcourse : FirstCourse computation input source events outcome) :
    outcome.2.1.computation.statements = computation.statements := by
  cases hcourse with
  | misshapen hfirst =>
      have hsame := Prover.statements_first computation input source
      rw [hfirst] at hsame
      exact hsame
  | @written begun _ _ _ hsame _ _ => exact begun.statements_prover.trans hsame

/-- Without a challenge that is due, the shape of the input and the channel decide how the first
step ends. -/
theorem course_of_first {input : ProverInput E} {outcome : Outcome SigmaFault Unit (Prover E t)}
    (hruns : (first input).Runs ⟨computation, false⟩ source events outcome) :
    FirstCourse computation input source events outcome := by
  cases hfirst : computation.first input source with
  | mk result after =>
    obtain ⟨left, rest⟩ := after
    cases result with
    | error fault =>
        obtain ⟨reason, rfl⟩ := Prover.misshapen_of_first _ _ _ hfirst
        have hcompute : compute (fun computation source => computation.first input source)
            ⟨computation, false⟩ source =
            .done (.error (.misshapen reason), ⟨left, false⟩, rest) := compute_eq_failed hfirst
        unfold first at hruns
        rw [runs_get_bind, if_neg (by simp)] at hruns
        obtain ⟨rfl, rfl⟩ := (runs_of_done (bind_of_failed hcompute _)).mp hruns
        exact .misshapen hfirst
    | ok message =>
        obtain ⟨begun, rfl, rfl, hsame, -⟩ := Prover.begun_of_first _ _ _ hfirst
        obtain ⟨bytes, hbytes⟩ := begun.encode_firstMessage
        obtain ⟨reply, rfl, rfl⟩ := (runs_first_of_begun hfirst hbytes).mp hruns
        exact .written hfirst hsame hbytes reply

def answer (challenge : Challenge) : Action (Prover E t) SigmaFault Unit := do
  let message ← compute fun computation source =>
    let (result, computation) := computation.second challenge
    (result, computation, source)
  sendMessage message

theorem runs_answer {begun : Begun E t} {challenge : Challenge}
    {outcome : Outcome SigmaFault Unit (Prover E t)}
    (hruns : (answer challenge).Runs ⟨begun.prover, false⟩ source events outcome) :
    (2 ^ t ≤ challenge ∧ events = [] ∧ outcome = (.error (.cheating .challengeOutOfRange),
        ⟨(begun.prover.second challenge).2, false⟩, source)) ∨
      challenge < 2 ^ t ∧ ∃ bytes reply, (begun.answer challenge).encode = .ok bytes ∧
        events = [.sent bytes reply] ∧
        outcome = (reply.mapError .channel, ⟨begun.answered, false⟩, source) := by
  rcases Nat.lt_or_ge challenge (2 ^ t) with hlt | hle
  · obtain ⟨bytes, hbytes⟩ := begun.encode_answer challenge
    have hcompute : compute (fun computation source =>
          ((computation.second challenge).1, (computation.second challenge).2, source))
        ⟨begun.prover, false⟩ source =
        .done (.ok (begun.answer challenge), ⟨begun.answered, false⟩, source) := by
      refine compute_eq_done ?_
      dsimp only
      rw [Prover.second_of_lt hlt]
    obtain ⟨reply, rfl, rfl⟩ :=
      (runs_sendMessage hbytes).mp ((runs_bind_of_done hcompute).mp hruns)
    exact .inr ⟨hlt, bytes, reply, hbytes, rfl, rfl⟩
  · have hcompute : compute (fun computation source =>
          ((computation.second challenge).1, (computation.second challenge).2, source))
        ⟨begun.prover, false⟩ source =
        .done (.error (.cheating .challengeOutOfRange),
          ⟨(begun.prover.second challenge).2, false⟩, source) := by
      refine compute_eq_failed ?_
      dsimp only
      rw [Prover.second_of_le hle]
    obtain ⟨rfl, rfl⟩ := (runs_of_done (bind_of_failed hcompute _)).mp hruns
    exact .inl ⟨hle, rfl, rfl⟩

inductive SecondCourse (begun : Begun E t) (source : Source) :
    List Event → Outcome SigmaFault Unit (Prover E t) → Prop where
  | lost (fault : ChannelFault) :
      SecondCourse begun source [.received (.error fault)]
        (.error (.channel fault), ⟨begun.prover, false⟩, source)
  | refused {bytes : Bytes}
      (hrefused : ∀ challenge, Challenge.decode bytes = .ok challenge → 2 ^ t ≤ challenge)
      (reason : Reason) {left : ThreeMove.Prover E t}
      (hsame : left.statements = begun.statements) :
      SecondCourse begun source [.received (.ok bytes)]
        (.error (.cheating reason), ⟨left, false⟩, source)
  | answered {bytes message : Bytes} {challenge : Challenge}
      (hread : Challenge.decode bytes = .ok challenge) (hlt : challenge < 2 ^ t)
      (hmessage : (begun.answer challenge).encode = .ok message)
      (reply : Except ChannelFault Unit) :
      SecondCourse begun source [.received (.ok bytes), .sent message reply]
        (reply.mapError .channel, ⟨begun.answered, false⟩, source)

theorem SecondCourse.statements_eq {begun : Begun E t}
    {outcome : Outcome SigmaFault Unit (Prover E t)}
    (hcourse : SecondCourse begun source events outcome) :
    outcome.2.1.awaiting = false ∧
      outcome.2.1.computation.statements = begun.statements := by
  cases hcourse with
  | lost fault => exact ⟨rfl, begun.statements_prover⟩
  | refused _ _ hsame => exact ⟨rfl, hsame⟩
  | answered _ _ _ reply => exact ⟨rfl, begun.statements_answered⟩

/-- The challenge that is received decides how the last step of a run ends. -/
theorem course_of_second {begun : Begun E t} {outcome : Outcome SigmaFault Unit (Prover E t)}
    (hruns : second.Runs ⟨begun.prover, true⟩ source events outcome) :
    SecondCourse begun source events outcome := by
  unfold second at hruns
  rw [runs_get_bind, if_pos (by simp)] at hruns
  rcases runs_receive_bind.mp (runs_modify_bind.mp hruns) with ⟨fault, rfl, rfl⟩ |
    ⟨reply, others, rfl, hrest⟩
  · exact .lost fault
  · rw [runs_ofExcept_bind] at hrest
    cases hread : Challenge.decode reply with
    | error fault =>
        rw [hread] at hrest
        obtain ⟨rfl, rfl⟩ := hrest
        exact .refused (by simp [hread]) _ begun.statements_prover
    | ok challenge =>
        rw [hread] at hrest
        have hanswer : (answer challenge).Runs ⟨begun.prover, false⟩ source others outcome := hrest
        rcases runs_answer hanswer with ⟨hle, rfl, rfl⟩ |
          ⟨hlt, message, reply, hmessage, rfl, rfl⟩
        · have hsame := Prover.statements_second challenge begun.prover
          exact .refused (by simpa [hread] using hle) _ (hsame.trans begun.statements_prover)
        · exact .answered hread hlt hmessage reply

theorem SecondCourse.course {begun : Begun E t} {outcome : Outcome SigmaFault Unit (Prover E t)}
    (hsecond : SecondCourse begun source events outcome) {starts : Bytes → Prop} {first : Bytes}
    (hfirst : starts first) : Course starts t (.sent first (.ok ()) :: events) outcome.1 := by
  cases hsecond with
  | lost fault => exact .challengeLost hfirst fault
  | refused hrefused reason _ => exact .challengeRefused hfirst hrefused reason
  | @answered bytes message challenge hread hlt _ reply =>
      exact .answered hfirst hread hlt message reply

/-- A run ends with its first step, or goes on with the proof that this step has begun. -/
theorem runs_prove {input : ProverInput E} {outcome : Outcome SigmaFault Unit (Prover E t)}
    (hruns : (prove input).Runs ⟨computation, false⟩ source events outcome) :
    (FirstCourse computation input source events outcome ∧ outcome.2.1.awaiting = false) ∨
      ∃ (begun : Begun E t) (bytes : Bytes) (rest : Source) (back : List Event),
        computation.BeginsWith input source bytes ∧ begun.statements = computation.statements ∧
        events = .sent bytes (.ok ()) :: back ∧ SecondCourse begun rest back outcome := by
  rcases runs_bind.mp hruns with ⟨e, party', rest, hfirst, rfl⟩ |
    ⟨_, party', rest, front, back, rfl, hfirst, hsecond⟩
  · have hcourse := course_of_first hfirst
    refine .inl ⟨hcourse, ?_⟩
    generalize hout : ((.error e, party', rest) : Outcome SigmaFault Unit (Prover E t)) = outcome
      at hcourse ⊢
    cases hcourse with
    | misshapen hfirst => rfl
    | written hfirst hsame hbytes reply =>
        cases reply with
        | error fault => rfl
        | ok _ => cases hout
  · have hcourse := course_of_first hfirst
    generalize hout : ((.ok (), party', rest) : Outcome SigmaFault Unit (Prover E t)) = outcome
      at hcourse
    cases hcourse with
    | misshapen hfirst => cases hout
    | @written begun bytes _ hfirst hsame hbytes reply =>
        cases reply with
        | error fault => cases hout
        | ok _ =>
            cases hout
            exact .inr ⟨begun, bytes, rest, back, ⟨begun, rest, hfirst, hbytes⟩, hsame, rfl,
              course_of_second hsecond⟩

theorem course_of_prove {input : ProverInput E} (hfits : computation.Fits input)
    {outcome : Outcome SigmaFault Unit (Prover E t)}
    (hruns : (prove input).Runs ⟨computation, false⟩ source events outcome) :
    Course (computation.BeginsWith input source) t events outcome.1 := by
  rcases runs_prove hruns with ⟨hfirst, hidle⟩ |
    ⟨begun, bytes, rest, back, hbegins, _, rfl, hsecond⟩
  · cases hfirst with
    | misshapen hfailed =>
        obtain ⟨_, _, _, hdone⟩ := Prover.first_of_fits computation input source hfits
        rw [hdone] at hfailed
        cases hfailed
    | @written begun bytes rest hfirst _ hbytes reply =>
        cases reply with
        | error fault => exact .firstLost ⟨begun, rest, hfirst, hbytes⟩ fault
        | ok _ => cases hidle
  · exact hsecond.course hbegins

end ThreeMove.Interactive.Prover
