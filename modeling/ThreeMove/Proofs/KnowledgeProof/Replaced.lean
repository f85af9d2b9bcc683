import ThreeMove.Proofs.Composition.Simulation
import ThreeMove.Proofs.Decides
import ThreeMove.Proofs.KnowledgeProof.HonestRun
import ThreeMove.Proofs.Message
import ThreeMove.Proofs.Talk.Altered

/-!
# A replaced first message or record

An accepted answer leaves one first message, and this message has one encoding.  The record has
to tell the key and the commitment byte for byte.  So a verifier that receives the answer of an
honest prover accepts exactly the first message and the record of that prover.
-/

namespace ThreeMove

namespace Composition

variable {E : Type} {t : Nat} {σ ν : Type} {e : Challenge}

mutual

theorem first_unique_of_holds : ∀ {c : Composition E t σ ν} {input : CommonInput E}
    {a a' z : Message} {vs vs' : List (View E t)}, c.Lawful →
    c.views input a z = some vs → c.views input a' z = some vs' →
    (∀ view ∈ vs, view.Holds e) → (∀ view ∈ vs', view.Holds e) → a = a'
  | .one params _, .one h, .element a, .element a', .integer z _, vs, vs', laws, hviews, hviews',
      hholds, hholds' => by
      cases hviews
      cases hviews'
      have lawful := laws _ (List.mem_singleton.mpr rfl)
      have hfirst := (hholds _ (List.mem_singleton.mpr rfl)).first_eq lawful
      have hfirst' := (hholds' _ (List.mem_singleton.mpr rfl)).first_eq lawful
      exact congrArg Message.element (hfirst.trans hfirst'.symm)
  | .all _ _ _, .all _, .tuple _, .tuple _, .tuple _, _, _, laws, hviews, hviews', hholds,
      hholds' =>
      congrArg Message.tuple (firsts_unique_of_holds
        (fun group hgroup => laws group (List.mem_cons_of_mem _ hgroup)) hviews hviews' hholds
        hholds')

theorem firsts_unique_of_holds : ∀ {parts : List (Composition E t σ ν)}
    {inputs : List (CommonInput E)} {firsts firsts' seconds : List Message}
    {vs vs' : List (View E t)}, (∀ group ∈ groupsAll parts, group.Lawful) →
    viewsAll parts inputs firsts seconds = some vs →
    viewsAll parts inputs firsts' seconds = some vs' →
    (∀ view ∈ vs, view.Holds e) → (∀ view ∈ vs', view.Holds e) → firsts = firsts'
  | [], [], [], [], [], _, _, _, _, _, _, _ => rfl
  | _ :: _, _ :: _, _ :: _, _ :: _, _ :: _, _, _, laws, hviews, hviews', hholds, hholds' => by
      obtain ⟨here, others, hhere, hothers, rfl⟩ := viewsAll_cons_eq_some_iff.mp hviews
      obtain ⟨here', others', hhere', hothers', rfl⟩ := viewsAll_cons_eq_some_iff.mp hviews'
      obtain ⟨hholdsHere, hholdsOthers⟩ := List.forall_mem_append.mp hholds
      obtain ⟨hholdsHere', hholdsOthers'⟩ := List.forall_mem_append.mp hholds'
      have hfirst := first_unique_of_holds
        (fun group hgroup => laws group (List.mem_append_left _ hgroup)) hhere hhere' hholdsHere
        hholdsHere'
      have hfirsts := firsts_unique_of_holds
        (fun group hgroup => laws group (List.mem_append_right _ hgroup)) hothers hothers'
        hholdsOthers hholdsOthers'
      exact congrArg₂ List.cons hfirst hfirsts

end

end Composition

namespace KnowledgeProof

open ThreeMove.Action
open ZeroKnowledge (drawsFor)
open ZeroKnowledge.Verifier (Stands Draw engaged released)

variable {E : Type} {t : Nat} [DecidableEq E] {verifier : ThreeMove.Verifier E t}
  {prover : ThreeMove.Prover E t} {input : ProverInput E} {source drawn rest : Source}
  {begun : Begun E t} {first second : Bytes}

namespace Verifier

variable {party : Verifier E t} {key : E}

/-- With the answer of an accepted transcript only its first message is accepted. -/
theorem verdict_engaged_eq_true_iff {draw : Draw} (laws : verifier.Lawful)
    (hstands : Stands verifier key party) (hkey : verifier.group.isMember key = true)
    (transcribed : Transcribed verifier prover input draw.challenge source begun first second rest
      true) (message record : Bytes) :
    verdict (engaged party draw) input.common draw.id
        (Message.decode verifier.firstLayout message).toOption
        (Message.decode verifier.secondLayout second).toOption
        (Pedersen.Record.decode (engaged party draw).computation.group.elementSize record) =
        .ok true ↔
      message = first ∧ record = draw.recordBytes verifier.group key := by
  have hrecord := confirms_engaged (laws _ verifier.group_mem_groups) hstands hkey draw record
  have hset : (engaged party draw).computation = verifier.setChallenge draw.challenge :=
    Composition.map_const_of_statements hstands.statements _ _
  have hjudge : ∀ a z,
      (verifier.setChallenge draw.challenge).verify input.common a z = .ok true ↔
        ∃ vs, verifier.views input.common a z = some vs ∧ ∀ view ∈ vs, view.Holds draw.challenge :=
    fun a z => ThreeMove.Verifier.verify_eq_true_iff draw.challenge laws
  rw [← hset] at hjudge
  rw [transcribed.decode_second, verdict_eq_true_iff]
  constructor
  · rintro ⟨a, hfirst, z, hsecond, hconfirms, haccepted⟩
    cases hsecond
    have hdecode := toOption_eq_some_iff.mp hfirst
    obtain ⟨vs, hviews, hholds⟩ := (hjudge _ _).mp haccepted
    obtain ⟨vs', hviews', hholds'⟩ := (hjudge _ _).mp (hset ▸ transcribed.verify_eq)
    have hsame := Composition.first_unique_of_holds laws hviews hviews' hholds hholds'
    rw [hsame] at hdecode
    exact ⟨Message.decode_inj hdecode transcribed.decode_first, hrecord.mp hconfirms⟩
  · rintro ⟨rfl, hsame⟩
    exact ⟨_, toOption_eq_some_iff.mpr transcribed.decode_first, _, rfl, hrecord.mpr hsame,
      hset ▸ transcribed.verify_eq⟩

/-- A verifier that receives the answer of an honest prover comes to its verdict by the first
message and the record. -/
theorem runs_verify_replaced (laws : verifier.Lawful) (hstands : Stands verifier key party)
    (hkey : verifier.group.isMember key = true)
    (transcribed : Transcribed verifier prover input (drawsFor verifier drawn).challenge source
      begun first second rest true) (message record : Bytes) :
    (verify input.common).Runs party drawn
      [.sent ((drawsFor verifier drawn).commitmentBytes verifier.group key) (.ok ()),
        .received (.ok message),
        .sent ((drawsFor verifier drawn).openingBytes verifier.group) (.ok ()),
        .received (.ok second), .received (.ok record)]
      (.ok (decide (message = first ∧
          record = (drawsFor verifier drawn).recordBytes verifier.group key)),
        party.released (drawsFor verifier drawn), (drawsFor verifier drawn).rest) := by
  obtain ⟨vs, hviews, -⟩ := (ThreeMove.Verifier.verify_eq_true_iff _ laws).mp
    transcribed.verify_eq
  have hfits : party.computation.Fits input.common :=
    Composition.fits_of_statements hstands.statements.symm (Composition.fits_of_views hviews)
  obtain ⟨accepted, hdecided⟩ := exists_verdict_eq_ok hfits (drawsFor verifier drawn)
    (message, second) (Pedersen.Record.decode
      (engaged party (drawsFor verifier drawn)).computation.group.elementSize record)
  have haccepted := verdict_engaged_eq_true_iff laws hstands hkey transcribed message record
  have hrun := verify_undisturbed hstands.coherent drawn input.common message second record
  rw [ZeroKnowledge.Verifier.decodes,
    Composition.firstLayout_of_statements hstands.statements,
    Composition.secondLayout_of_statements hstands.statements] at hdecided
  rw [hstands.draws, hstands.sends, Composition.firstLayout_of_statements hstands.statements,
    Composition.secondLayout_of_statements hstands.statements] at hrun
  dsimp only at hdecided
  rw [hdecided, Except.ok.injEq] at haccepted
  have hverdict : accepted = decide (message = first ∧
      record = (drawsFor verifier drawn).recordBytes verifier.group key) := by
    rw [Bool.eq_iff_iff, haccepted, decide_eq_true_eq]
  rw [← hverdict, ← hdecided]
  exact hrun

end Verifier

end KnowledgeProof

end ThreeMove
