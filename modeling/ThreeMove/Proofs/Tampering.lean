import ThreeMove.Proofs.KnowledgeProof.Mismatch
import ThreeMove.Proofs.KnowledgeProof.Replaced

/-!
# Tampering with one message

In a session the prover of knowledge sends its key, and in every run a first message, an answer
and a record.  Whoever replaces one of them on its way, other than an answer, is found out: a run
is not accepted if its first message or its record was replaced, and no run is if the key was.
-/

namespace ThreeMove.KnowledgeProof

open ThreeMove.Action ThreeMove.Talk
open ZeroKnowledge (drawsFor)
open ZeroKnowledge.Verifier (resting)
open Pedersen.Receiver (keyOf ofTrapdoor)

/-- The messages of a prover in a session, other than its answers. -/
inductive Slot where
  | key
  | first (run : Nat)
  | record (run : Nat)

namespace Slot

def number : Slot → Nat
  | key => 0
  | first run => 3 * run + 1
  -- the answer of the run stands between the two
  | record run => 3 * run + 3

def Concerns : Slot → Nat → Prop
  | key, _ => True
  | first run, other => run = other
  | record run, other => run = other

end Slot

/-- How the two parties of a session end after a message was replaced. -/
inductive Foiled (runs : Nat) : Slot → Except ProofFault (List (Except ProofFault Unit)) →
    Except ProofFault (List (Except ProofFault Bool)) → Prop where
  /-- There is no verifier, and the prover waits for a commitment. -/
  | keyRefused :
      Foiled runs .key (.ok (List.replicate (min 1 runs) (.error (.channel .disconnected))))
        (.error (.cheating .elementInvalid))
  /-- The commitment was not made under the prover's key, and the verifier waits for an answer. -/
  | openingRefused {run : Nat} (hrun : run < runs) :
      Foiled runs .key (.ok (List.replicate run (.ok ()) ++ [.error (.cheating .openingMismatch)]))
        (.ok (List.replicate run (.ok false) ++ [.error (.channel .disconnected)]))
  /-- The prover finds nothing wrong, but the records do not tell the verifier's key. -/
  | keyUnconfirmed :
      Foiled runs .key (.ok (List.replicate runs (.ok ()))) (.ok (List.replicate runs (.ok false)))
  | rejected {slot : Slot} (run : Nat) (hslot : slot = .first run ∨ slot = .record run) :
      Foiled runs slot (.ok (List.replicate runs (.ok ())))
        (.ok ((List.replicate runs (.ok true)).set run (.ok false)))

theorem Foiled.not_accepted {runs run : Nat} {slot : Slot}
    {told : Except ProofFault (List (Except ProofFault Unit))}
    {judged : Except ProofFault (List (Except ProofFault Bool))}
    (hfoiled : Foiled runs slot told judged) (hconcerns : slot.Concerns run)
    {verdicts : List (Except ProofFault Bool)} (hjudged : judged = .ok verdicts) :
    verdicts[run]? ≠ some (.ok true) := by
  intro haccepted
  cases hfoiled with
  | keyRefused => cases hjudged
  | openingRefused hrun =>
      cases hjudged
      rcases List.mem_append.mp (List.mem_of_getElem? haccepted) with hmem | hmem
      · cases (List.mem_replicate.mp hmem).2
      · cases List.mem_singleton.mp hmem
  | keyUnconfirmed =>
      cases hjudged
      cases (List.mem_replicate.mp (List.mem_of_getElem? haccepted)).2
  | rejected other hslot =>
      cases hjudged
      have hsame : other = run := by
        rcases hslot with rfl | rfl <;> exact hconcerns
      subst hsame
      rw [List.getElem?_set_self'] at haccepted
      simp at haccepted

variable {E : Type} {t : Nat} [DecidableEq E] {verifier : ThreeMove.Verifier E t}
  {prover : ThreeMove.Prover E t} {trapdoor trapdoor' : Nat}

/-- Ready parties come to a verdict by the first message and the record that reach the verifier,
and they are ready again. -/
theorem exists_run (laws : verifier.Lawful) (hsame : prover.statements = verifier.statements)
    {input : ProverInput E} (hknows : prover.Knows input) {party : Prover E t}
    {peer : Verifier E t} (hready : Ready verifier trapdoor prover party peer)
    (source drawn : Source) :
    ∃ (commitment first opening second record : Bytes) (prover' : ThreeMove.Prover E t)
      (party' : Prover E t) (peer' : Verifier E t) (rest left : Source),
      prover'.statements = prover.statements ∧ Ready verifier trapdoor prover' party' peer' ∧
      (Prover.prove input).Runs party source
        [.received (.ok commitment), .sent first (.ok ()), .received (.ok opening),
          .sent second (.ok ()), .sent record (.ok ())] (.ok (), party', rest) ∧
      ∀ message message', (Verifier.verify input.common).Runs peer drawn
        [.sent commitment (.ok ()), .received (.ok message), .sent opening (.ok ()),
          .received (.ok second), .received (.ok message')]
        (.ok (decide (message = first ∧ message' = record)), peer', left) := by
  obtain ⟨base, phase⟩ := party
  obtain ⟨⟨rfl, current, hrested, rfl⟩, rfl⟩ := hready
  have hlt := ZeroKnowledge.challenge_drawsFor_lt verifier drawn
  have hkey := Pedersen.Receiver.isMember_keyOf (laws _ verifier.group_mem_groups) trapdoor
  obtain ⟨begun, first, second, rest, accepted, transcribed⟩ :=
    exists_transcribed laws hsame hknows.fits hlt source
  obtain rfl := transcribed.complete laws hsame hknows
  have hready' : Ready verifier trapdoor begun.answered
      ⟨⟨begun.answered, ofTrapdoor verifier.group trapdoor⟩, .idle⟩
      ((resting verifier.group trapdoor current).released (drawsFor verifier drawn)) :=
    ⟨⟨rfl, _, hrested.clear _,
      ZeroKnowledge.Verifier.released_resting (drawsFor verifier drawn)⟩, rfl⟩
  have hprove := Prover.runs_prove laws trapdoor (ZeroKnowledge.randomness_drawsFor_lt laws drawn)
    hlt transcribed
  have hverify := Verifier.runs_verify_replaced laws
    (ZeroKnowledge.Verifier.stands_resting hrested) hkey transcribed
  exact ⟨_, first, _, second, _, begun.answered, _, _, rest, _,
    (Composition.statements_map _ _ _).trans transcribed.statements, hready', hprove, hverify⟩

/-- In a session of ready parties every verdict is in favour of the prover, but the one on a run
whose first message or record was replaced. -/
theorem each_replaced (laws : verifier.Lawful) {original : ThreeMove.Prover E t}
    (hsame : original.statements = verifier.statements) :
    ∀ (inputs : List (ProverInput E)) {prover : ThreeMove.Prover E t} {party : Prover E t}
      {peer : Verifier E t} (source drawn : Source), (∀ input ∈ inputs, original.Knows input) →
      prover.statements = original.statements → Ready verifier trapdoor prover party peer →
      ∃ (conversation : Conversation) (party' : Prover E t) (peer' : Verifier E t)
        (rest left : Source),
        Halts (each Prover.prove inputs party source) (conversation.events .left)
          (List.replicate inputs.length (.ok ()), party', rest) ∧
        Halts (each Verifier.verify (inputs.map ProverInput.common) peer drawn)
          (conversation.events .right) (List.replicate inputs.length (.ok true), peer', left) ∧
        (sent (conversation.events .left)).length = 3 * inputs.length ∧
        ∀ place original message number,
          (sent (conversation.events .left))[place]? = some original → place % 3 ≠ 1 →
          message ≠ original →
          Halts (each Verifier.verify (inputs.map ProverInput.common) peer drawn)
            (alteredEvents (replacing (number + place) message) number
              (conversation.events .right))
            ((List.replicate inputs.length (.ok true)).set (place / 3) (.ok false), peer', left)
  | [], prover, party, peer, source, drawn, _, _, _ => by
      refine ⟨[], party, peer, source, drawn, (Trace.done _).halts, (Trace.done _).halts, rfl, ?_⟩
      intro place original message number hsent
      cases hsent
  | input :: inputs, prover, party, peer, source, drawn, hknows, hstatements, hready => by
      obtain ⟨hknow, hknows⟩ := List.forall_mem_cons.mp hknows
      obtain ⟨commitment, first, opening, second, record, prover', party', peer', rest, left,
          hstatements', hready', hprove, hverify⟩ :=
        exists_run laws (hstatements.trans hsame)
          (Composition.atEach_of_statements hstatements.symm hknow) hready source drawn
      obtain ⟨conversation, party'', peer'', rest', left', hproves, hverifies, hlength,
          hreplaced⟩ :=
        each_replaced laws hsame inputs rest left hknows (hstatements'.trans hstatements) hready'
      have hfirst := halts_each_cons (hverify first record) hverifies
      rw [decide_eq_true ⟨rfl, rfl⟩] at hfirst
      refine ⟨(.right, commitment) :: (.left, first) :: (.right, opening) :: (.left, second) ::
        (.left, record) :: conversation, party'', peer'', rest', left',
        halts_each_cons hprove hproves, hfirst, ?_, ?_⟩
      · change (sent (conversation.events .left)).length + 3 = 3 * (inputs.length + 1)
        omega
      · intro place original message number hsent hplace hother
        change Halts _ (.sent commitment (.ok ()) ::
          .received (.ok (replacing (number + place) message number first)) ::
          .sent opening (.ok ()) ::
          .received (.ok (replacing (number + place) message (number + 1) second)) ::
          .received (.ok (replacing (number + place) message (number + 2) record)) ::
          alteredEvents (replacing (number + place) message) (number + 3)
            (conversation.events .right)) _
        -- the first message, the answer and the record of this run, or a message of a later one
        rcases place with _ | _ | _ | place
        · cases hsent
          rw [Nat.add_zero, replacing_self, replacing_of_ne (by omega), replacing_of_ne (by omega),
            alteredEvents_replacing _ _ (.inl (by omega))]
          have hrejected := halts_each_cons (hverify message record) hverifies
          rw [decide_eq_false fun hsame => hother hsame.1] at hrejected
          exact hrejected
        · exact (hplace rfl).elim
        · cases hsent
          rw [replacing_of_ne (by omega), replacing_of_ne (by omega), replacing_self,
            alteredEvents_replacing _ _ (.inl (by omega))]
          have hrejected := halts_each_cons (hverify first message) hverifies
          rw [decide_eq_false fun hsame => hother hsame.2] at hrejected
          exact hrejected
        · have hrest := hreplaced place original message (number + 3) hsent (by omega) hother
          have hnumber : number + 3 + place = number + (place + 3) := by omega
          have hrun : (place + 3) / 3 = place / 3 + 1 := by omega
          rw [hnumber] at hrest
          rw [hrun, replacing_of_ne (by omega), replacing_of_ne (by omega),
            replacing_of_ne (by omega)]
          have haccepted := halts_each_cons (hverify first record) hrest
          rw [decide_eq_true ⟨rfl, rfl⟩] at haccepted
          exact haccepted

/-- A session of a verifier that was given another key than the prover's.  The prover stops at the
first challenge other than zero, and until then the records are wrong. -/
theorem each_mismatched (laws : verifier.Lawful) {original : ThreeMove.Prover E t}
    (hsame : original.statements = verifier.statements)
    (hother : keyOf verifier.group trapdoor' ≠ keyOf verifier.group trapdoor) :
    ∀ (inputs : List (ProverInput E)) {prover : ThreeMove.Prover E t}
      {current : ThreeMove.Verifier E t} (source drawn : Source),
      (∀ input ∈ inputs, original.Knows input) → prover.statements = original.statements →
      verifier.Rested current →
      ∃ (conversation : Conversation) (told : List (Except ProofFault Unit))
        (judged : List (Except ProofFault Bool)) (party' : Prover E t) (peer' : Verifier E t)
        (rest left : Source),
        Halts (each Prover.prove inputs
          ⟨⟨prover, ofTrapdoor verifier.group trapdoor⟩, .idle⟩ source)
          (conversation.events .left) (told, party', rest) ∧
        Halts (each Verifier.verify (inputs.map ProverInput.common)
          (resting verifier.group trapdoor' current) drawn)
          (conversation.events .right) (judged, peer', left) ∧
        Foiled inputs.length .key (.ok told) (.ok judged)
  | [], prover, current, source, drawn, _, _, _ =>
      ⟨[], [], [], _, _, _, _, (Trace.done _).halts, (Trace.done _).halts, .keyUnconfirmed⟩
  | input :: inputs, prover, current, source, drawn, hknows, hstatements, hrested => by
      obtain ⟨hknow, hknows⟩ := List.forall_mem_cons.mp hknows
      have lawful := laws _ verifier.group_mem_groups
      have hmember := fun trapdoor => Pedersen.Receiver.isMember_keyOf lawful trapdoor
      have hrandomness := ZeroKnowledge.randomness_drawsFor_lt laws drawn
      have hlt := ZeroKnowledge.challenge_drawsFor_lt verifier drawn
      have hknow := Composition.atEach_of_statements hstatements.symm hknow
      obtain ⟨begun, first, second, rest, accepted, transcribed⟩ :=
        exists_transcribed laws (hstatements.trans hsame) hknow.fits hlt source
      obtain rfl := transcribed.complete laws (hstatements.trans hsame) hknow
      have hstands : ZeroKnowledge.Verifier.Stands verifier (keyOf verifier.group trapdoor')
          (resting verifier.group trapdoor' current) :=
        ZeroKnowledge.Verifier.stands_resting hrested
      by_cases hzero : (drawsFor verifier drawn).challenge = 0
      · -- the prover's commitment is the verifier's, but its record tells its own key
        have hprove := Prover.runs_prove laws trapdoor hrandomness hlt transcribed
        have hverify := Verifier.runs_verify_replaced laws hstands (hmember trapdoor') transcribed
          first ((drawsFor verifier drawn).recordBytes verifier.group
            (keyOf verifier.group trapdoor))
        have hrecord : (drawsFor verifier drawn).recordBytes verifier.group
              (keyOf verifier.group trapdoor) ≠
            (drawsFor verifier drawn).recordBytes verifier.group
              (keyOf verifier.group trapdoor') := fun hrecord =>
          hother.symm (eq_of_recordBytes lawful (hmember trapdoor) (hmember trapdoor') _ hrecord)
        rw [commitmentBytes_of_zero lawful trapdoor trapdoor' hzero] at hprove
        rw [decide_eq_false fun hsame => hrecord hsame.2,
          ZeroKnowledge.Verifier.released_resting] at hverify
        have hstatements' : begun.answered.statements = original.statements :=
          (Composition.statements_map _ _ _).trans (transcribed.statements.trans hstatements)
        obtain ⟨conversation, told, judged, party', peer', rest', left', hproves, hverifies,
            hfoiled⟩ :=
          each_mismatched laws hsame hother inputs rest (drawsFor verifier drawn).rest hknows
            hstatements' (hrested.clear _)
        refine ⟨(.right, _) :: (.left, first) :: (.right, _) :: (.left, second) :: (.left, _) ::
          conversation, _, _, party', peer', rest', left', halts_each_cons hprove hproves,
          halts_each_cons hverify hverifies, ?_⟩
        cases hfoiled with
        | openingRefused hrun => exact .openingRefused (Nat.succ_lt_succ hrun)
        | keyUnconfirmed => exact .keyUnconfirmed
        | rejected _ hslot => rcases hslot with hslot | hslot <;> cases hslot
      · obtain ⟨party', hprove⟩ := Prover.runs_prove_mismatched laws hother hrandomness hlt hzero
          transcribed
        have hverify := Verifier.runs_verify_lost hstands.coherent drawn input.common first
          .disconnected
        rw [hstands.draws, hstands.sends] at hverify
        exact ⟨[(.right, _), (.left, first), (.right, _)], _, _, party', _, rest, _,
          halts_each_failed hprove.halts, halts_each_failed (Trace.halts_waiting hverify),
          .openingRefused (Nat.succ_pos _)⟩

omit [DecidableEq E] in
theorem each_lost (inputs : List (ProverInput E)) (base : ZeroKnowledge.Prover E t)
    (source : Source) :
    ∃ party rest, Halts (each Prover.prove inputs ⟨base, .idle⟩ source) []
      (List.replicate (min 1 inputs.length) (.error (.channel .disconnected)), party, rest) := by
  cases inputs with
  | nil => exact ⟨_, _, (Trace.done _).halts⟩
  | cons input inputs =>
      rw [List.length_cons, Nat.min_eq_left (Nat.succ_pos _)]
      exact ⟨_, _, halts_each_failed
        (Trace.halts_waiting (Prover.runs_prove_lost base .disconnected source))⟩

section Sessions

variable {inputs : List (ProverInput E)} {source drawn rest : Source} {message : Bytes}

def proving (prover : ThreeMove.Prover E t) (inputs : List (ProverInput E)) (source : Source) :
    Talk (Except ProofFault (List (Except ProofFault Unit)) × Source) :=
  createAndEach (Prover.create prover) Prover.prove inputs source

def verifying (verifier : ThreeMove.Verifier E t) (inputs : List (ProverInput E))
    (drawn : Source) : Talk (Except ProofFault (List (Except ProofFault Bool)) × Source) :=
  createAndEach (Verifier.create verifier) Verifier.verify (inputs.map ProverInput.common) drawn

theorem foiled_of_key (laws : verifier.Lawful) (hsame : prover.statements = verifier.statements)
    (hhides : verifier.group.hidesLogarithms = true)
    (hknows : ∀ input ∈ inputs, prover.Knows input)
    (hgenerate : Pedersen.Receiver.generate verifier.group source =
      (.ok (ofTrapdoor verifier.group trapdoor), rest))
    (hother : message ≠ verifier.group.encode (keyOf verifier.group trapdoor)) (drawn : Source) :
    ∃ told judged messages, Standstill (proving prover inputs source)
        ((verifying verifier inputs drawn).altered (replacing 0 message) 0) told judged
        (verifier.group.encode (keyOf verifier.group trapdoor) :: messages) ∧
      Foiled inputs.length .key told.1 judged.1 := by
  have lawful := laws _ verifier.group_mem_groups
  have hcreate := Prover.create_of_generate hsame hgenerate
  cases hdecode : verifier.group.decode message with
  | error fault =>
      have hrefused := Verifier.runs_create_refused hhides hdecode drawn
      obtain ⟨party', rest', hlost⟩ :=
        each_lost inputs ⟨prover, ofTrapdoor verifier.group trapdoor⟩ rest
      have hleft : Halts (proving prover inputs source) _ _ := halts_createAndEach hcreate hlost
      have hright : Halts (verifying verifier inputs drawn) _ _ :=
        (trace_createAndEach_failed hrefused).halts
      rw [← alteredEvents_replacing_next 0 _
        (verifier.group.encode (keyOf verifier.group trapdoor))] at hright
      have hstandstill := standstill_of_conversation
        [(.left, verifier.group.encode (keyOf verifier.group trapdoor))] hleft hright.altered
      exact ⟨_, _, [], hstandstill, .keyRefused⟩
  | ok key =>
      obtain ⟨hmember, rfl⟩ := lawful.of_decode hdecode
      obtain ⟨trapdoor', rfl⟩ := lawful.exists_pow_generator hmember
      have hkeys : keyOf verifier.group trapdoor' ≠ keyOf verifier.group trapdoor :=
        fun hkeys => hother (congrArg _ hkeys)
      obtain ⟨conversation, told, judged, party', peer', rest', left', hproves, hverifies,
          hfoiled⟩ :=
        each_mismatched laws hsame hkeys inputs rest drawn hknows rfl (.inl rfl)
      have hleft : Halts (proving prover inputs source) _ _ := halts_createAndEach hcreate hproves
      have hright : Halts (verifying verifier inputs drawn) _ _ := halts_createAndEach
        (ZeroKnowledge.Verifier.create_resting laws hhides trapdoor') hverifies
      rw [List.cons_append, List.nil_append, ← alteredEvents_replacing_next 0 _
        (verifier.group.encode (keyOf verifier.group trapdoor))] at hright
      have hstandstill := standstill_of_conversation
        ((.left, verifier.group.encode (keyOf verifier.group trapdoor)) :: conversation) hleft
        hright.altered
      exact ⟨_, _, _, hstandstill, hfoiled⟩

/-- A session of honest parties, and all sessions in which a first message or a record was
replaced.  The place of a message is counted without the key. -/
theorem exists_session (laws : verifier.Lawful) (hsame : prover.statements = verifier.statements)
    (hhides : verifier.group.hidesLogarithms = true)
    (hknows : ∀ input ∈ inputs, prover.Knows input)
    (hgenerate : Pedersen.Receiver.generate verifier.group source =
      (.ok (ofTrapdoor verifier.group trapdoor), rest)) (drawn : Source) :
    ∃ messages rest' left, messages.length = 3 * inputs.length ∧
      Standstill (proving prover inputs source) (verifying verifier inputs drawn)
        (.ok (List.replicate inputs.length (.ok ())), rest')
        (.ok (List.replicate inputs.length (.ok true)), left)
        (verifier.group.encode (keyOf verifier.group trapdoor) :: messages) ∧
      ∀ place original message, messages[place]? = some original → place % 3 ≠ 1 →
        message ≠ original →
        Standstill (proving prover inputs source)
          ((verifying verifier inputs drawn).altered (replacing (1 + place) message) 0)
          (.ok (List.replicate inputs.length (.ok ())), rest')
          (.ok ((List.replicate inputs.length (.ok true)).set (place / 3) (.ok false)), left)
          (verifier.group.encode (keyOf verifier.group trapdoor) :: messages) := by
  have hcreate := Prover.create_of_generate hsame hgenerate
  have hcreated : (Verifier.create verifier).Runs () drawn _ _ :=
    ZeroKnowledge.Verifier.create_resting laws hhides trapdoor
  have hready : Ready verifier trapdoor prover
      ⟨⟨prover, ofTrapdoor verifier.group trapdoor⟩, .idle⟩
      (resting verifier.group trapdoor verifier) :=
    ⟨⟨rfl, verifier, .inl rfl, rfl⟩, rfl⟩
  obtain ⟨conversation, party', peer', rest', left, hproves, hverifies, hlength, hreplaced⟩ :=
    each_replaced laws hsame inputs rest drawn hknows rfl hready
  have hleft : Halts (proving prover inputs source) _ _ := halts_createAndEach hcreate hproves
  have hright : Halts (verifying verifier inputs drawn) _ _ :=
    halts_createAndEach hcreated hverifies
  refine ⟨_, rest', left, hlength, standstill_of_conversation
    ((.left, verifier.group.encode (keyOf verifier.group trapdoor)) :: conversation) hleft
    hright, ?_⟩
  intro place original message hsent hplace hother
  have hspoiled : Halts (verifying verifier inputs drawn) _ _ :=
    halts_createAndEach hcreated (hreplaced place original message 1 hsent hplace hother)
  rw [List.cons_append, List.nil_append] at hspoiled
  refine standstill_of_conversation
    ((.left, verifier.group.encode (keyOf verifier.group trapdoor)) :: conversation) hleft
    (Halts.altered ?_)
  change Halts _ (.received (.ok (replacing (1 + place) message 0 _)) ::
    alteredEvents (replacing (1 + place) message) 1 (conversation.events .right)) _
  rw [replacing_of_ne (by omega)]
  exact hspoiled

/-- Whatever the parties draw, in an undisturbed session every run is accepted.  If one message is
replaced by other bytes, no schedule leads to a verdict in favour of the prover on a run that used
the message. -/
theorem tampering_detected (laws : verifier.Lawful)
    (hsame : prover.statements = verifier.statements)
    (hhides : verifier.group.hidesLogarithms = true)
    (hknows : ∀ input ∈ inputs, prover.Knows input) (source drawn : Source) :
    ∃ told judged messages,
      Standstill (proving prover inputs source) (verifying verifier inputs drawn) told judged
        messages ∧
      told.1 = .ok (List.replicate inputs.length (.ok ())) ∧
      judged.1 = .ok (List.replicate inputs.length (.ok true)) ∧
      messages.length = 3 * inputs.length + 1 ∧
      ∀ (slot : Slot) (original message : Bytes), messages[slot.number]? = some original →
        message ≠ original →
        ∃ told' judged' messages',
          Standstill (proving prover inputs source)
            ((verifying verifier inputs drawn).altered (replacing slot.number message) 0) told'
            judged' messages' ∧
          messages'[slot.number]? = some original ∧
          Foiled inputs.length slot told'.1 judged'.1 ∧
          ∀ run verdicts, slot.Concerns run → judged'.1 = .ok verdicts →
            verdicts[run]? ≠ some (.ok true) := by
  obtain ⟨trapdoor, rest, hgenerate⟩ := Pedersen.Receiver.generate_of_lawful
    (laws _ verifier.group_mem_groups) hhides source
  obtain ⟨messages, rest', left, hlength, hhonest, hspoiled⟩ :=
    exists_session laws hsame hhides hknows hgenerate drawn
  refine ⟨_, _, _, hhonest, rfl, rfl, congrArg (· + 1) hlength, ?_⟩
  intro slot original message hsent hother
  cases slot with
  | key =>
      cases hsent
      obtain ⟨told, judged, others, hstandstill, hfoiled⟩ :=
        foiled_of_key laws hsame hhides hknows hgenerate hother drawn
      exact ⟨told, judged, _, hstandstill, rfl, hfoiled,
        fun run verdicts hconcerns => hfoiled.not_accepted hconcerns⟩
  | first run =>
      have hstandstill := hspoiled (3 * run) original message hsent (by omega) hother
      have hrun : 3 * run / 3 = run := by omega
      rw [Nat.add_comm, hrun] at hstandstill
      have hfoiled : Foiled inputs.length (.first run) _ _ := .rejected run (.inl rfl)
      exact ⟨_, _, _, hstandstill, hsent, hfoiled,
        fun other verdicts hconcerns => hfoiled.not_accepted hconcerns⟩
  | record run =>
      have hstandstill := hspoiled (3 * run + 2) original message hsent (by omega) hother
      have hrun : (3 * run + 2) / 3 = run := by omega
      rw [Nat.add_comm, hrun] at hstandstill
      have hfoiled : Foiled inputs.length (.record run) _ _ := .rejected run (.inr rfl)
      exact ⟨_, _, _, hstandstill, hsent, hfoiled,
        fun other verdicts hconcerns => hfoiled.not_accepted hconcerns⟩

/-- A byte is put before the record of the second run. -/
theorem tampering_detected_pairModulo23 :
    let source : Source := ⟨fun i => UInt8.ofNat (37 * i + 5), 0⟩
    let prover : ThreeMove.Prover Nat 3 := .pairModulo23 none ()
    let verifier : ThreeMove.Verifier Nat 3 := .pairModulo23 none none
    let inputs : List (ProverInput Nat) :=
      [.all [.one ⟨18, 3⟩, .one ⟨12, 5⟩], .all [.one ⟨4, 1⟩, .one ⟨18, 3⟩]]
    ∃ record told judged messages,
      Standstill (proving prover inputs source)
        ((verifying verifier inputs source).altered (replacing 6 (0 :: record)) 0) told judged
        messages ∧
      messages[6]? = some record ∧ told.1 = .ok [.ok (), .ok ()] ∧
      judged.1 = .ok [.ok true, .ok false] := by
  intro source prover verifier inputs
  have hknows : ∀ input ∈ inputs, prover.Knows input := by
    refine List.forall_mem_cons.mpr ⟨?_, List.forall_mem_singleton.mpr ?_⟩ <;>
      exact ⟨rfl, rfl, trivial⟩
  obtain ⟨_, _, messages, _, _, _, hlength, hreplaced⟩ :=
    tampering_detected (Composition.lawful_pairModulo23 none none) rfl rfl hknows source source
  have hsent : 6 < messages.length := by
    rw [hlength]
    decide
  have hother : (0 :: messages[6] : Bytes) ≠ messages[6] := List.cons_ne_self _ _
  obtain ⟨told, judged, messages', hstandstill, hrecord, hfoiled, -⟩ :=
    hreplaced (.record 1) messages[6] (0 :: messages[6]) (List.getElem?_eq_getElem hsent) hother
  obtain ⟨told, _⟩ := told
  obtain ⟨judged, _⟩ := judged
  generalize hslot : Slot.record 1 = slot at hfoiled
  cases hfoiled with
  | rejected run heither =>
      obtain rfl : 1 = run := by
        rcases heither with rfl | rfl <;> cases hslot
        rfl
      exact ⟨_, _, _, _, hstandstill, hrecord, rfl, rfl⟩
  | _ => cases hslot

end Sessions

end ThreeMove.KnowledgeProof
