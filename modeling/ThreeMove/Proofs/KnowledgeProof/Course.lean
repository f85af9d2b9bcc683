import ThreeMove.Proofs.KnowledgeProof.Steps
import ThreeMove.Proofs.ZeroKnowledge.Course

/-!
# A whole run of a prover of knowledge

Between two runs the four steps, made one after the other, are a run of the zero-knowledge
protocol that ends with the record of its commitment.
-/

namespace ThreeMove.KnowledgeProof.Prover

open ThreeMove.Action
open ZeroKnowledge.Prover (onReceiver sendFirst sendSecond answering proving)

variable {E : Type} {t : Nat} {base : ZeroKnowledge.Prover E t}

/-- Whatever the action does from the party, the other one does on the underlying party, and no
run is in progress afterwards. -/
def Mirrors {α : Type} (x : Action (Prover E t) ProofFault α) (party : Prover E t)
    (y : Action (ZeroKnowledge.Prover E t) ProofFault α) : Prop :=
  ∀ source events result party' source', x.Runs party source events (result, party', source') →
    ∃ base', party' = ⟨base', .idle⟩ ∧ y.Runs party.base source events (result, base', source')

theorem Mirrors.step {α β γ : Type} {x : Action (ZeroKnowledge.Prover E t) ProofFault α}
    {f : α → β} (phase : α → Phase) {next : β → Action (Prover E t) ProofFault γ}
    {rest : α → Action (ZeroKnowledge.Prover E t) ProofFault γ}
    (hrest : ∀ a base, Mirrors (next (f a)) ⟨base, phase a⟩ (rest a)) :
    Mirrors ((do
      let a ← onBase x
      setPhase (phase a)
      return f a) >>= next) ⟨base, .idle⟩ (x >>= rest) := by
  intro source events result party' source' hruns
  rcases runs_bind.mp hruns with ⟨e, _, _, hstep, hout⟩ | ⟨b, _, _, front, back, rfl, hstep, hnext⟩
  · cases hout
    rcases runs_onBase_advance hstep with ⟨_, base', hx, hfailed, rfl⟩ | ⟨_, _, _, hdone, _⟩
    · cases hfailed
      exact ⟨base', rfl, Runs.bind_failed hx⟩
    · cases hdone
  · rcases runs_onBase_advance hstep with ⟨_, _, _, hfailed, _⟩ | ⟨a, base', hx, hdone, rfl⟩
    · cases hfailed
    · cases hdone
      obtain ⟨last, hparty, hy⟩ := hrest a base' _ _ _ _ _ hnext
      exact ⟨last, hparty, Runs.bind hx hy⟩

theorem mirrors_second {record : Pedersen.Record} {challenge : Challenge} :
    Mirrors second ⟨base, .opened record challenge⟩ (do
      sendSecond challenge
      Action.send .channel record.encode) := by
  intro source events result party' source' hruns
  have hanswer : (do
      onBase (sendSecond challenge)
      Action.send .channel record.encode : Action (Prover E t) ProofFault Unit).Runs ⟨base, .idle⟩
        source events (result, party', source') := hruns
  rcases runs_bind.mp hanswer with ⟨e, _, _, hsecond, hout⟩ |
    ⟨_, _, _, front, back, rfl, hsecond, hsend⟩
  · cases hout
    obtain ⟨base', hbase, rfl⟩ := runs_onBase.mp hsecond
    exact ⟨base', rfl, Runs.bind_failed hbase⟩
  · obtain ⟨base', hbase, rfl⟩ := runs_onBase.mp hsecond
    obtain ⟨reply, rfl, hout⟩ := runs_send.mp hsend
    cases hout
    exact ⟨base', rfl, Runs.bind hbase (runs_send.mpr ⟨reply, rfl, rfl⟩)⟩

/-- A whole run is one of the underlying party that ends with the record. -/
theorem mirrors_prove (input : ProverInput E) :
    Mirrors (prove input) ⟨base, .idle⟩ (do
      let record ← proving input
      Action.send .channel record.encode) := by
  rw [ZeroKnowledge.Prover.proving_bind]
  refine Mirrors.step Phase.committed ?_
  intro record base
  refine Mirrors.step (fun _ => .firstSent record) ?_
  intro _ base
  refine Mirrors.step (Phase.opened record) ?_
  intro challenge base
  exact mirrors_second

end ThreeMove.KnowledgeProof.Prover
