import ThreeMove.KnowledgeProof.Verifier
import ThreeMove.Proofs.Composition.Verdict
import ThreeMove.Proofs.Talk.History
import ThreeMove.Proofs.ZeroKnowledge.Verifier

/-!
# What a verifier of knowledge accepts

A run is accepted exactly when both messages are read, the record tells the key and the
commitment of this run, and the equations of all statements hold under the drawn challenge.
-/

namespace ThreeMove.KnowledgeProof.Verifier

open ThreeMove.Action ZeroKnowledge.Verifier

variable {E : Type} {t : Nat} [DecidableEq E] {party party' : Verifier E t}
  {source source' : Source} {events : List Event} {input : CommonInput E}

def verdict (party : Verifier E t) (input : CommonInput E) (id : Id) (a z : Option Message)
    (record : Except MessageFault Pedersen.Record) : Except ProofFault Bool :=
  match a, z, record with
  | some a, some z, .ok record =>
      ((party.computation.verify input a z).mapError .ofSigma).map fun accepted =>
        record.id == id && party.committer.confirms record && accepted
  | _, _, _ => .ok false

theorem runs_verdict {id : Id} {a z : Option Message}
    {record : Except MessageFault Pedersen.Record}
    {outcome : Outcome ProofFault Bool (Verifier E t)} :
    (match a, z, record with
      | some a, some z, .ok record => do
          let accepted ← judge input a z
          return record.id == id && party.committer.confirms record && accepted
      | _, _, _ => return false : Action (Verifier E t) ProofFault Bool).Runs party source events
        outcome ↔
      events = [] ∧ outcome = (verdict party input id a z record, party, source) := by
  rcases a with _ | a
  · exact runs_pure
  · rcases z with _ | z
    · exact runs_pure
    · rcases record with fault | record
      · exact runs_pure
      · exact runs_ofExcept_map

/-- However the channel answers, a run leaves the party released.  It ends with the failure of the
channel in the exchange, or it goes on to the third message and to the verdict. -/
theorem course_of_verify (hcoherent : Coherent party) {result : Except ProofFault Bool}
    (hruns : (verify input).Runs party source events (result, party', source')) :
    party' = released party (draws party source) ∧ source' = (draws party source).rest ∧
      ∃ front replies, Exchanged (sends party (draws party source)).1
          (sends party (draws party source)).2 front replies ∧
        ((∃ fault, replies = .error fault ∧ events = front ∧ result = .error (.channel fault)) ∨
          ∃ messages reply, replies = .ok messages ∧ events = front ++ [.received reply] ∧
            result = (reply.mapError ProofFault.channel).bind fun third =>
              verdict (engaged party (draws party source)) input (draws party source).id
                (party.decodes messages).1 (party.decodes messages).2
                (Pedersen.Record.decode
                  (engaged party (draws party source)).computation.group.elementSize third)) := by
  obtain ⟨answer, _, _, hrun, hout⟩ := runs_underFreshId.mp hruns
  cases hout
  rcases runs_bind.mp hrun with ⟨e, _, _, hexchange, hout⟩ |
    ⟨⟨a, z⟩, _, _, front, back, rfl, hexchange, hrest⟩
  · cases hout
    obtain ⟨rfl, rfl, replies, hexchanged, hresult⟩ := exchanged_of_runs hcoherent hexchange
    cases replies with
    | error fault =>
        cases hresult
        exact ⟨rfl, rfl, _, _, hexchanged, .inl ⟨fault, rfl, rfl, rfl⟩⟩
    | ok messages => cases hresult
  · obtain ⟨rfl, rfl, replies, hexchanged, hresult⟩ := exchanged_of_runs hcoherent hexchange
    cases replies with
    | error fault => cases hresult
    | ok messages =>
        cases hresult
        rcases runs_receive_bind.mp hrest with ⟨fault, rfl, hout⟩ | ⟨third, _, rfl, hjudge⟩
        · cases hout
          exact ⟨rfl, rfl, _, _, hexchanged, .inr ⟨messages, .error fault, rfl, rfl, rfl⟩⟩
        · obtain ⟨rfl, hout⟩ := runs_verdict.mp hjudge
          cases hout
          exact ⟨rfl, rfl, _, _, hexchanged, .inr ⟨messages, .ok third, rfl, rfl, rfl⟩⟩

theorem runs_verify (hcoherent : Coherent party) {result : Except ProofFault Bool}
    (hruns : (verify input).Runs party source events (result, party', source')) :
    party' = released party (draws party source) ∧ source' = (draws party source).rest ∧
      Ordered (sends party (draws party source)).1
        (sends party (draws party source)).2 events := by
  obtain ⟨hreleased, hrest, front, replies, hexchanged, hends⟩ := course_of_verify hcoherent hruns
  refine ⟨hreleased, hrest, ?_⟩
  rcases hends with ⟨fault, -, rfl, -⟩ | ⟨messages, reply, -, rfl, -⟩
  · exact hexchanged.ordered
  · exact hexchanged.ordered.append (.single _)

theorem verify_undisturbed (hcoherent : Coherent party) (source : Source)
    (input : CommonInput E) (first second third : Bytes) :
    (verify input).Runs party source
      [.sent (sends party (draws party source)).1 (.ok ()), .received (.ok first),
        .sent (sends party (draws party source)).2 (.ok ()), .received (.ok second),
        .received (.ok third)]
      (verdict (engaged party (draws party source)) input (draws party source).id
          (Message.decode party.computation.firstLayout first).toOption
          (Message.decode party.computation.secondLayout second).toOption
          (Pedersen.Record.decode
            (engaged party (draws party source)).computation.group.elementSize third),
        released party (draws party source), (draws party source).rest) := by
  refine runs_underFreshId.mpr ⟨_, _, _, ?_, rfl⟩
  refine Runs.bind (exchange_undisturbed hcoherent source first second) (Runs.receive_bind ?_)
  exact runs_verdict.mpr ⟨rfl, rfl⟩

theorem verify_alone (hcoherent : Coherent party) (source : Source) (input : CommonInput E)
    (first second third : Bytes) :
    (verify input party source).alone [first, second, third] =
      ((verdict (engaged party (draws party source)) input (draws party source).id
          (Message.decode party.computation.firstLayout first).toOption
          (Message.decode party.computation.secondLayout second).toOption
          (Pedersen.Record.decode
            (engaged party (draws party source)).computation.group.elementSize third),
        released party (draws party source), (draws party source).rest),
        [(sends party (draws party source)).1, (sends party (draws party source)).2]) := by
  refine Talk.Trace.alone (verify_undisturbed hcoherent source input first second third) ?_
  intro event hevent
  fin_cases hevent <;> simp

omit [DecidableEq E] in
/-- The record has to tell the key and the commitment of the run, byte for byte. -/
theorem confirms_engaged {computation : ThreeMove.Verifier E t} {key : E}
    (laws : computation.group.Lawful) (hstands : Stands computation key party)
    (hkey : computation.group.isMember key = true) (draw : Draw) (bytes : Bytes) :
    (∃ record, Pedersen.Record.decode (engaged party draw).computation.group.elementSize bytes =
        .ok record ∧ record.id = draw.id ∧
        (engaged party draw).committer.confirms record = true) ↔
      bytes = draw.recordBytes computation.group key := by
  have hsize : (engaged party draw).computation.group = party.committer.group :=
    (Composition.group_map _ _ _).trans hstands.coherent.symm
  rw [← hstands.group] at laws hkey ⊢
  rw [← hstands.key] at hkey ⊢
  have hkept : (engaged party draw).committer.secrets.get? draw.id =
      some ⟨draw.randomness, draw.challenge,
        draw.commitment party.committer.group party.committer.key⟩ :=
    Pedersen.Ledger.get?_insert_self _ _ _
  have hmember := Pedersen.isMember_hide laws hkey draw.randomness draw.challenge
  rw [hsize]
  constructor
  · rintro ⟨record, hdecode, hid, hconfirms⟩
    obtain ⟨rfl, -, -⟩ := Pedersen.Record.decode_eq_ok_iff.mp hdecode
    rw [Pedersen.Committer.confirms, hid, hkept] at hconfirms
    obtain ⟨hkeyBytes, helement⟩ := Bool.and_eq_true_iff.mp hconfirms
    rw [Pedersen.Record.encode, hid, ← eq_of_beq hkeyBytes, ← eq_of_beq helement]
    rfl
  · rintro rfl
    refine ⟨⟨draw.id, party.committer.group.encode party.committer.key,
      party.committer.group.encode (draw.commitment party.committer.group party.committer.key)⟩,
      ?_, rfl, ?_⟩
    · exact Pedersen.Record.decode_eq_ok_iff.mpr
        ⟨rfl, laws.length_encode hkey, laws.length_encode hmember⟩
    · rw [Pedersen.Committer.confirms, hkept]
      exact Bool.and_eq_true_iff.mpr ⟨beq_self_eq_true _, beq_self_eq_true _⟩

theorem verdict_eq_true_iff {id : Id} {a z : Option Message}
    {record : Except MessageFault Pedersen.Record} :
    verdict party input id a z record = .ok true ↔
      ∃ a', a = some a' ∧ ∃ z', z = some z' ∧
        (∃ record', record = .ok record' ∧ record'.id = id ∧
          party.committer.confirms record' = true) ∧
        party.computation.verify input a' z' = .ok true := by
  rcases a with _ | a
  · simp [verdict]
  · rcases z with _ | z
    · simp [verdict]
    · rcases record with fault | record
      · simp [verdict]
      · cases hverify : party.computation.verify input a z with
        | error e => simp [verdict, hverify, Except.map, Except.mapError]
        | ok accepted => simp [verdict, hverify, Except.map, Except.mapError, and_assoc]

def act (input : CommonInput E) : Action (Verifier E t) ProofFault Unit := do
  let _ ← verify input

theorem released_of_act {result : Except ProofFault Unit} (hcoherent : Coherent party)
    (hruns : (act input).Runs party source events (result, party', source')) :
    party' = released party (draws party source) := by
  obtain ⟨answer, _, _, hverify, hout⟩ := runs_discard.mp hruns
  cases hout
  exact (runs_verify hcoherent hverify).1

theorem stands_of_history {computation : ThreeMove.Verifier E t} {key : E}
    {origin : Verifier E t} {start : Source}
    {calls : List (Entry (CommonInput E) (Verifier E t) ProofFault)}
    (hstands : Stands computation key origin)
    (history : History act origin start calls party source) : Stands computation key party :=
  ZeroKnowledge.Verifier.stands_of_history released_of_act hstands history

/-- After any earlier runs, a run that is given three messages sends its commitment and its
opening, and it is accepted exactly when both messages are read under the layouts, the third
one is the record of the key and of this commitment, and all equations hold under the drawn
challenge.  On every channel the opening is sent after the first message was read only. -/
theorem accepts_iff {computation : ThreeMove.Verifier E t} (laws : computation.Lawful)
    {origin : Verifier E t} {start between : Source} {creation : List Event}
    {calls : List (Entry (CommonInput E) (Verifier E t) ProofFault)}
    (created : (create computation).Runs () start creation (.ok origin, (), between))
    (history : History act origin between calls party source) (input : CommonInput E)
    (first second third : Bytes) :
    let group := computation.group
    let key := origin.committer.key
    let draw := Draw.ofSource t group.order source
    creation = [.received (.ok (group.encode key))] ∧
      ((verify input party source).alone [first, second, third]).2 =
        [draw.commitmentBytes group key, draw.openingBytes group] ∧
      (((verify input party source).alone [first, second, third]).1.1 = .ok true ↔
        computation.Fits input ∧ ∃ a z vs,
          Message.decode computation.firstLayout first = .ok a ∧
          Message.decode computation.secondLayout second = .ok z ∧
          third = draw.recordBytes group key ∧
          computation.views input a z = some vs ∧ ∀ view ∈ vs, view.Holds draw.challenge) ∧
      ∀ events outcome, (verify input).Runs party source events outcome →
        Ordered (draw.commitmentBytes group key) (draw.openingBytes group) events := by
  intro group key draw
  obtain ⟨bytes, rfl, hdecode, horigin⟩ := runs_create created
  have lawful := laws _ computation.group_mem_groups
  obtain ⟨hmember, rfl⟩ := lawful.of_decode hdecode
  have hstands : Stands computation key party := by
    refine stands_of_history ?_ history
    rw [horigin]
    exact ⟨rfl, rfl, rfl⟩
  have hlaws : party.computation.Lawful :=
    Composition.lawful_of_statements hstands.statements.symm laws
  have hrecord := confirms_engaged lawful hstands hmember draw third
  rw [verify_alone hstands.coherent, hstands.draws, hstands.sends,
    Composition.firstLayout_of_statements hstands.statements,
    Composition.secondLayout_of_statements hstands.statements]
  refine ⟨rfl, rfl, ?_, fun events outcome hruns => ?_⟩
  · have hverify : ∀ a z, (engaged party draw).computation.verify input a z = .ok true ↔
        ∃ vs, computation.views input a z = some vs ∧ ∀ view ∈ vs, view.Holds draw.challenge := by
      intro a z
      rw [← Composition.views_of_statements hstands.statements]
      exact ThreeMove.Verifier.verify_eq_true_iff draw.challenge hlaws
    rw [verdict_eq_true_iff]
    constructor
    · rintro ⟨a, hfirst, z, hsecond, hconfirms, haccepted⟩
      obtain ⟨vs, hviews, hholds⟩ := (hverify a z).mp haccepted
      exact ⟨Composition.fits_of_views hviews, a, z, vs, toOption_eq_some_iff.mp hfirst,
        toOption_eq_some_iff.mp hsecond, hrecord.mp hconfirms, hviews, hholds⟩
    · rintro ⟨-, a, z, vs, hfirst, hsecond, hthird, hviews, hholds⟩
      exact ⟨a, toOption_eq_some_iff.mpr hfirst, z, toOption_eq_some_iff.mpr hsecond,
        hrecord.mpr hthird, (hverify a z).mpr ⟨vs, hviews, hholds⟩⟩
  · have hordered := (runs_verify hstands.coherent hruns).2.2
    rw [hstands.draws, hstands.sends] at hordered
    exact hordered

theorem accepts_pairModulo23 :
    ((verify (.all [.one 18, .one 12])
        ⟨.pairModulo23 none none, SafePrime.modulo23.group, 8, .empty⟩
        ⟨fun i => UInt8.ofNat (37 * i + 5), 0⟩ : Talk (Outcome _ _ (Verifier Nat 3))).alone
      [[16, 8], [3, 5], [8, 227, 190, 153, 116, 79, 42, 5, 8, 13]]).1.1 = .ok true := by
  have created : (create (.pairModulo23 none none)).Runs () ⟨fun i => UInt8.ofNat (37 * i + 5), 0⟩
      [.received (.ok [8])] (.ok (⟨.pairModulo23 none none, SafePrime.modulo23.group, 8, .empty⟩ :
        Verifier Nat 3), (), ⟨fun i => UInt8.ofNat (37 * i + 5), 0⟩) := .receive (.ok [8]) (.done _)
  refine (accepts_iff (Composition.lawful_pairModulo23 none none) created .nil _ _ _ _).2.2.1.mpr ?_
  refine ⟨by simp [Composition.Fits, Composition.AtEach, Composition.AtEachAll,
    Composition.pairModulo23], _, _, _, rfl, rfl, rfl, rfl, ?_⟩
  intro view hview
  fin_cases hview
  · exact ⟨rfl, 16, rfl, rfl, rfl⟩
  · exact ⟨rfl, 8, rfl, rfl, rfl⟩

end ThreeMove.KnowledgeProof.Verifier
