import ThreeMove.Prover
import ThreeMove.Proofs.Composition.Statements
import ThreeMove.Proofs.Wire

/-!
# Begun proofs

After a first message every statement holds a nonce and a logarithm.  Such a composition
determines the message that was sent and the answer to each challenge, and the prover's moves
are described by it alone.
-/

namespace ThreeMove

/-- The proof that a prover has begun: what is pending at each statement. -/
abbrev Begun (E : Type) (t : Nat) := Composition E t Pending Unit

namespace Begun

open ThreeMove.Composition

variable {E : Type} {t : Nat}

/-- The prover that waits for the challenge. -/
def prover (begun : Begun E t) : Prover E t :=
  begun.map some id

def answered (begun : Begun E t) : Prover E t :=
  begun.map (fun _ => none) id

mutual

def firstMessage : Begun E t → Message
  | .one params pending =>
      .element (params.group.encode (params.group.pow params.group.generator pending.nonce))
  | .all _ _ parts => .tuple (firstMessages parts)

def firstMessages : List (Begun E t) → List Message
  | [] => []
  | part :: parts => firstMessage part :: firstMessages parts

end

mutual

def answer (challenge : Challenge) : Begun E t → Message
  | .one params pending => Prover.answer params pending challenge
  | .all _ _ parts => .tuple (answers challenge parts)

def answers (challenge : Challenge) : List (Begun E t) → List Message
  | [] => []
  | part :: parts => answer challenge part :: answers challenge parts

end

/-- At each statement the pending logarithm is the one of the input. -/
def Carries (begun : Begun E t) (input : ProverInput E) : Prop :=
  begun.AtEach (fun _ pending item => pending.logarithm = item.logarithm) input

@[simp] theorem statements_prover (begun : Begun E t) :
    begun.prover.statements = begun.statements :=
  statements_map some id begun

@[simp] theorem statements_answered (begun : Begun E t) :
    begun.answered.statements = begun.statements :=
  statements_map (fun _ => none) id begun

end Begun

namespace Prover

open ThreeMove.Composition

variable {E : Type} {t : Nat}

mutual

theorem statements_first : ∀ (prover : Prover E t) (input : ProverInput E) (source : Source),
    (first prover input source).2.1.statements = prover.statements
  | .one _ _, .one _, _ => rfl
  | .one _ _, .all _, _ => rfl
  | .all _ _ _, .one _, _ => rfl
  | .all params state parts, .all inputs, source => by
      unfold first
      split
      · exact congrArg (Composition.all params ()) (statements_firstAll parts inputs source)
      · rfl

theorem statements_firstAll : ∀ (parts : List (Prover E t)) (inputs : List (ProverInput E))
    (source : Source), mapAll (fun _ => ()) (fun _ => ()) (firstAll parts inputs source).2.1 =
      mapAll (fun _ => ()) (fun _ => ()) parts
  | [], _, _ => by
      rw [firstAll]
      nofun
  | _ :: _, [], _ => rfl
  | part :: parts, input :: inputs, source => by
      have hpart := statements_first part input source
      unfold firstAll
      generalize first part input source = outcome at hpart ⊢
      obtain ⟨result, part', rest⟩ := outcome
      cases result with
      | error e => exact congrArg (· :: _) hpart
      | ok message => exact congrArg₂ List.cons hpart (statements_firstAll parts inputs rest)

end

mutual

theorem misshapen_of_first : ∀ (prover : Prover E t) (input : ProverInput E) (source : Source)
    {e : SigmaFault} {prover' : Prover E t} {rest : Source},
    first prover input source = (.error e, prover', rest) → ∃ reason, e = .misshapen reason
  | .one _ _, .one _, _, _, _, _, hfirst => by cases hfirst
  | .one _ _, .all _, _, _, _, _, hfirst => by
      cases hfirst
      exact ⟨_, rfl⟩
  | .all _ _ _, .one _, _, _, _, _, hfirst => by
      cases hfirst
      exact ⟨_, rfl⟩
  | .all _ _ parts, .all inputs, source, _, _, _, hfirst => by
      unfold first at hfirst
      split at hfirst
      · generalize hparts : firstAll parts inputs source = outcome at hfirst
        obtain ⟨result, parts', rest⟩ := outcome
        cases result with
        | ok messages => cases hfirst
        | error e =>
            cases hfirst
            exact misshapen_of_firstAll parts inputs source hparts
      · cases hfirst
        exact ⟨_, rfl⟩

theorem misshapen_of_firstAll : ∀ (parts : List (Prover E t)) (inputs : List (ProverInput E))
    (source : Source) {e : SigmaFault} {parts' : List (Prover E t)} {rest : Source},
    firstAll parts inputs source = (.error e, parts', rest) → ∃ reason, e = .misshapen reason
  | [], _, _, _, _, _, hfirst => by
      rw [firstAll] at hfirst
      · cases hfirst
      · nofun
  | _ :: _, [], _, _, _, _, hfirst => by cases hfirst
  | part :: parts, input :: inputs, source, _, _, _, hfirst => by
      unfold firstAll at hfirst
      generalize hpart : first part input source = outcome at hfirst
      obtain ⟨result, part', rest⟩ := outcome
      cases result with
      | error e =>
          cases hfirst
          exact misshapen_of_first part input source hpart
      | ok message =>
          dsimp only at hfirst
          generalize hparts : firstAll parts inputs rest = outcome at hfirst
          obtain ⟨result, parts', rest'⟩ := outcome
          cases result with
          | ok messages => cases hfirst
          | error e =>
              cases hfirst
              exact misshapen_of_firstAll parts inputs rest hparts

end

mutual

/-- A first message that succeeds begins a proof with the logarithms of the input. -/
theorem begun_of_first : ∀ (prover : Prover E t) (input : ProverInput E) (source : Source)
    {message : Message} {prover' : Prover E t} {rest : Source},
    first prover input source = (.ok message, prover', rest) →
    ∃ begun : Begun E t, message = begun.firstMessage ∧ prover' = begun.prover ∧
      begun.statements = prover.statements ∧ begun.Carries input
  | .one params state, .one item, source, message, prover', rest, hfirst => by
      cases hfirst
      exact ⟨.one params ⟨(source.below params.group.order).1, item.logarithm⟩, rfl, rfl, rfl, rfl⟩
  | .one _ _, .all _, _, _, _, _, hfirst => by cases hfirst
  | .all _ _ _, .one _, _, _, _, _, hfirst => by cases hfirst
  | .all params state parts, .all inputs, source, message, prover', rest, hfirst => by
      unfold first at hfirst
      split at hfirst
      · next hlen =>
        generalize hparts : firstAll parts inputs source = outcome at hfirst
        obtain ⟨result, parts', rest'⟩ := outcome
        cases result with
        | error e => cases hfirst
        | ok messages =>
            cases hfirst
            obtain ⟨begun, rfl, rfl, hsame, hcarries⟩ :=
              begun_of_firstAll parts inputs source hlen hparts
            exact ⟨.all params () begun, rfl, rfl,
              congrArg (Composition.all params ()) hsame, hcarries⟩
      · cases hfirst

theorem begun_of_firstAll : ∀ (parts : List (Prover E t)) (inputs : List (ProverInput E))
    (source : Source) {messages : List Message} {parts' : List (Prover E t)} {rest : Source},
    parts.length = inputs.length →
    firstAll parts inputs source = (.ok messages, parts', rest) →
    ∃ begun : List (Begun E t), messages = Begun.firstMessages begun ∧
      parts' = mapAll some id begun ∧
      mapAll (fun _ => ()) (fun _ => ()) begun = mapAll (fun _ => ()) (fun _ => ()) parts ∧
      AtEachAll (fun _ pending item => pending.logarithm = item.logarithm) begun inputs
  | [], [], source, messages, parts', rest, _, hfirst => by
      cases hfirst
      exact ⟨[], rfl, rfl, rfl, trivial⟩
  | [], _ :: _, _, _, _, _, hlen, _ => by cases hlen
  | _ :: _, [], _, _, _, _, hlen, _ => by cases hlen
  | part :: parts, input :: inputs, source, messages, parts', rest, hlen, hfirst => by
      unfold firstAll at hfirst
      generalize hpart : first part input source = outcome at hfirst
      obtain ⟨result, part', rest'⟩ := outcome
      cases result with
      | error e => cases hfirst
      | ok message =>
          dsimp only at hfirst
          generalize hparts : firstAll parts inputs rest' = outcome at hfirst
          obtain ⟨result, parts'', rest''⟩ := outcome
          cases result with
          | error e => cases hfirst
          | ok messages =>
              cases hfirst
              obtain ⟨begun, rfl, rfl, hsame, hcarries⟩ :=
                begun_of_first part input source hpart
              obtain ⟨others, rfl, rfl, hsames, hcarriesAll⟩ :=
                begun_of_firstAll parts inputs rest' (Nat.succ.inj hlen) hparts
              exact ⟨begun :: others, rfl, rfl,
                congrArg₂ List.cons hsame hsames, hcarries, hcarriesAll⟩

end

/-- The bytes are the first message of a proof that is begun with the input. -/
def BeginsWith (prover : Prover E t) (input : ProverInput E) (source : Source) (bytes : Bytes) :
    Prop :=
  ∃ (begun : Begun E t) (rest : Source),
    first prover input source = (.ok begun.firstMessage, begun.prover, rest) ∧
      begun.firstMessage.encode = .ok bytes

mutual

theorem first_of_fits : ∀ (prover : Prover E t) (input : ProverInput E) (source : Source),
    prover.Fits input → ∃ message prover' rest,
      first prover input source = (.ok message, prover', rest)
  | .one _ _, .one _, _, _ => ⟨_, _, _, rfl⟩
  | .all params state parts, .all inputs, source, hfits => by
      obtain ⟨messages, parts', rest, hparts⟩ := firstAll_of_fits parts inputs source hfits
      refine ⟨.tuple messages, .all params state parts', rest, ?_⟩
      rw [first, if_pos (length_of_atEachAll hfits), hparts]
      rfl

theorem firstAll_of_fits : ∀ (parts : List (Prover E t)) (inputs : List (ProverInput E))
    (source : Source), AtEachAll (fun _ _ _ => True) parts inputs →
    ∃ messages parts' rest, firstAll parts inputs source = (.ok messages, parts', rest)
  | [], [], _, _ => ⟨_, _, _, rfl⟩
  | part :: parts, input :: inputs, source, ⟨hfits, hfitsAll⟩ => by
      obtain ⟨message, part', rest, hpart⟩ := first_of_fits part input source hfits
      obtain ⟨messages, parts', rest', hparts⟩ := firstAll_of_fits parts inputs rest hfitsAll
      refine ⟨message :: messages, part' :: parts', rest', ?_⟩
      rw [firstAll, hpart]
      dsimp only
      rw [hparts]
      rfl

end

mutual

theorem statements_second (challenge : Challenge) : ∀ prover : Prover E t,
    (second prover challenge).2.statements = prover.statements
  | .one _ none => rfl
  | .one _ (some _) => rfl
  | .all params state parts => by
      unfold second
      cases challenge.check t with
      | error e => rfl
      | ok _ => exact congrArg (Composition.all params ()) (statements_secondAll challenge parts)

theorem statements_secondAll (challenge : Challenge) : ∀ parts : List (Prover E t),
    mapAll (fun _ => ()) (fun _ => ()) (secondAll parts challenge).2 =
      mapAll (fun _ => ()) (fun _ => ()) parts
  | [] => rfl
  | part :: parts => by
      have hpart := statements_second challenge part
      unfold secondAll
      generalize second part challenge = outcome at hpart ⊢
      obtain ⟨result, part'⟩ := outcome
      cases result with
      | error e => exact congrArg (· :: _) hpart
      | ok message => exact congrArg₂ List.cons hpart (statements_secondAll challenge parts)

end

mutual

/-- A begun proof answers every challenge in range, and is then used up. -/
theorem second_of_lt {challenge : Challenge} (hlt : challenge < 2 ^ t) :
    ∀ begun : Begun E t,
      second begun.prover challenge = (.ok (begun.answer challenge), begun.answered)
  | .one params pending => by
      change ((challenge.check t).map _, _) = _
      rw [Challenge.check_of_lt hlt]
      rfl
  | .all params state parts => by
      change second (.all params state (mapAll some id parts)) challenge = _
      rw [second, Challenge.check_of_lt hlt]
      dsimp only
      rw [secondAll_of_lt hlt parts]
      rfl

theorem secondAll_of_lt {challenge : Challenge} (hlt : challenge < 2 ^ t) :
    ∀ begun : List (Begun E t),
      secondAll (mapAll some id begun) challenge =
        (.ok (Begun.answers challenge begun), mapAll (fun _ => none) id begun)
  | [] => rfl
  | part :: parts => by
      have hpart := second_of_lt hlt part
      unfold Begun.prover at hpart
      rw [mapAll, secondAll, hpart]
      dsimp only
      rw [secondAll_of_lt hlt parts]
      rfl

end

theorem second_of_le {challenge : Challenge} (hle : 2 ^ t ≤ challenge) (begun : Begun E t) :
    (second begun.prover challenge).1 = .error (.cheating .challengeOutOfRange) := by
  have hcheck := Challenge.check_of_le hle
  cases begun with
  | one params pending =>
      change ((challenge.check t).map _ : Except SigmaFault Message) = _
      rw [hcheck]
      rfl
  | all params state parts =>
      change (second (.all params state (mapAll some id parts)) challenge).1 = _
      rw [second, hcheck]

mutual

/-- A challenge in range is only refused where no first message was computed before. -/
theorem outOfOrder_of_second {e : Challenge} (he : e < 2 ^ t) : ∀ {prover : Prover E t}
    {fault : SigmaFault}, (second prover e).1 = .error fault →
    fault = .outOfOrder .secondBeforeFirst
  | .one _ none, _, hsecond => by
      cases hsecond
      rfl
  | .one _ (some _), _, hsecond => by
      rw [second, Challenge.check_of_lt he] at hsecond
      cases hsecond
  | .all _ _ parts, _, hsecond => by
      rw [second, Challenge.check_of_lt he] at hsecond
      dsimp only at hsecond
      cases hparts : (secondAll parts e).1 with
      | ok messages =>
          rw [hparts] at hsecond
          cases hsecond
      | error fault =>
          rw [hparts] at hsecond
          cases hsecond
          exact outOfOrder_of_secondAll he hparts

theorem outOfOrder_of_secondAll {e : Challenge} (he : e < 2 ^ t) : ∀ {parts : List (Prover E t)}
    {fault : SigmaFault}, (secondAll parts e).1 = .error fault →
    fault = .outOfOrder .secondBeforeFirst
  | [], _, hsecond => by cases hsecond
  | part :: parts, _, hsecond => by
      unfold secondAll at hsecond
      generalize hpart : second part e = outcome at hsecond
      obtain ⟨result, part'⟩ := outcome
      cases result with
      | error fault =>
          cases hsecond
          exact outOfOrder_of_second he (congrArg Prod.fst hpart)
      | ok message =>
          dsimp only at hsecond
          cases hparts : (secondAll parts e).1 with
          | ok messages =>
              rw [hparts] at hsecond
              cases hsecond
          | error fault =>
              rw [hparts] at hsecond
              cases hsecond
              exact outOfOrder_of_secondAll he hparts

end

end Prover

namespace Begun

open ThreeMove.Composition

variable {E : Type} {t : Nat}

mutual

theorem encode_firstMessage : ∀ begun : Begun E t, ∃ bytes,
    begun.firstMessage.encode = .ok bytes
  | .one _ _ => ⟨_, rfl⟩
  | .all _ _ parts => encode_firstMessages parts

theorem encode_firstMessages : ∀ begun : List (Begun E t), ∃ bytes,
    Message.encodeAll (firstMessages begun) = .ok bytes
  | [] => ⟨_, rfl⟩
  | part :: parts => by
      obtain ⟨bytes, hbytes⟩ := encode_firstMessage part
      obtain ⟨others, hothers⟩ := encode_firstMessages parts
      refine ⟨bytes ++ others, ?_⟩
      rw [firstMessages, Message.encodeAll, hbytes, except_bind_eq_ok_iff]
      refine ⟨bytes, rfl, ?_⟩
      rw [hothers]
      rfl

end

mutual

theorem layout_firstMessage : ∀ {begun : Begun E t}, (∀ group ∈ begun.groups, group.Sized) →
    begun.firstMessage.layout = begun.firstLayout
  | .one _ pending, hsized =>
      congrArg Layout.element (hsized _ (List.mem_singleton.mpr rfl) pending.nonce)
  | .all _ _ _, hsized =>
      congrArg Layout.tuple
        (layout_firstMessages fun group hgroup => hsized group (List.mem_cons_of_mem _ hgroup))

theorem layout_firstMessages : ∀ {begun : List (Begun E t)},
    (∀ group ∈ groupsAll begun, group.Sized) →
    Message.layoutAll (firstMessages begun) = firstLayouts begun
  | [], _ => rfl
  | _ :: _, hsized =>
      congrArg₂ List.cons
        (layout_firstMessage fun group hgroup => hsized group (List.mem_append_left _ hgroup))
        (layout_firstMessages fun group hgroup => hsized group (List.mem_append_right _ hgroup))

end

mutual

theorem encode_answer (challenge : Challenge) : ∀ begun : Begun E t, ∃ bytes,
    (begun.answer challenge).encode = .ok bytes
  | .one params pending => by
      have hpos := Nat.zero_lt_of_lt params.challengeCount_lt
      have hroom := params.group.bitLength_lt_scalarSize (Nat.mod_lt
        (pending.nonce + challenge * pending.logarithm) hpos)
      rw [answer, Prover.answer, Message.encode, if_pos hroom]
      exact ⟨_, rfl⟩
  | .all _ _ parts => encode_answers challenge parts

theorem encode_answers (challenge : Challenge) : ∀ begun : List (Begun E t), ∃ bytes,
    Message.encodeAll (answers challenge begun) = .ok bytes
  | [] => ⟨_, rfl⟩
  | part :: parts => by
      obtain ⟨bytes, hbytes⟩ := encode_answer challenge part
      obtain ⟨others, hothers⟩ := encode_answers challenge parts
      refine ⟨bytes ++ others, ?_⟩
      rw [answers, Message.encodeAll, hbytes, except_bind_eq_ok_iff]
      refine ⟨bytes, rfl, ?_⟩
      rw [hothers]
      rfl

end

mutual

theorem layout_answer (challenge : Challenge) : ∀ begun : Begun E t,
    (begun.answer challenge).layout = begun.secondLayout
  | .one _ _ => rfl
  | .all _ _ parts => congrArg Layout.tuple (layout_answers challenge parts)

theorem layout_answers (challenge : Challenge) : ∀ begun : List (Begun E t),
    Message.layoutAll (answers challenge begun) = secondLayouts begun
  | [] => rfl
  | part :: parts =>
      congrArg₂ List.cons (layout_answer challenge part) (layout_answers challenge parts)

end

end Begun

end ThreeMove
