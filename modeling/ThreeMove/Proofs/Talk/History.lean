import Mathlib.Data.List.Forall2
import ThreeMove.Proofs.Talk.Runs

/-!
# Histories of a party

A party is called again and again.  Each call starts where the one before it ended, whether
that one failed or not, and meets whatever its channel answers.
-/

namespace ThreeMove.Action

variable {κ S ε : Type}

/-- One call of a party: where it started, what happened on the channel, and how it ended. -/
structure Entry (κ S ε : Type) where
  call : κ
  state : S
  source : Source
  events : List Event
  result : Except ε Unit

inductive History (act : κ → Action S ε Unit) (start : S) (origin : Source) :
    List (Entry κ S ε) → S → Source → Prop where
  | nil : History act start origin [] start origin
  | snoc {entries : List (Entry κ S ε)} {state state' : S} {source source' : Source}
      {events : List Event} {result : Except ε Unit}
      (prior : History act start origin entries state source) (call : κ)
      (ran : (act call).Runs state source events (result, state', source')) :
      History act start origin (entries ++ [⟨call, state, source, events, result⟩]) state' source'

namespace History

variable {act : κ → Action S ε Unit} {start state middle : S} {origin source between : Source}
  {entries others : List (Entry κ S ε)}

theorem append (hfront : History act start origin entries middle between)
    (hback : History act middle between others state source) :
    History act start origin (entries ++ others) state source := by
  induction hback with
  | nil =>
      rw [List.append_nil]
      exact hfront
  | snoc _ call ran ih =>
      rw [← List.append_assoc]
      exact ih.snoc call ran

theorem single {events : List Event} {result : Except ε Unit} {call : κ}
    (ran : (act call).Runs start origin events (result, state, source)) :
    History act start origin [⟨call, start, origin, events, result⟩] state source :=
  nil.snoc call ran

theorem split (history : History act start origin entries state source)
    {earlier later : List (Entry κ S ε)} {entry : Entry κ S ε}
    (hentries : entries = earlier ++ entry :: later) :
    History act start origin earlier entry.state entry.source ∧
      ∃ state' source', (act entry.call).Runs entry.state entry.source entry.events
        (entry.result, state', source') := by
  induction history generalizing later with
  | nil => simp at hentries
  | snoc prior call ran ih =>
      rcases List.eq_nil_or_concat later with rfl | ⟨rest, last, rfl⟩
      · obtain ⟨rfl, hlast⟩ := List.append_inj' hentries rfl
        cases hlast
        exact ⟨prior, _, _, ran⟩
      · rw [List.concat_eq_append, ← List.cons_append, ← List.append_assoc] at hentries
        exact ih (List.append_inj' hentries rfl).1

/-- What holds at the start and is kept by every call holds after every history. -/
theorem invariant (Inv : List (Entry κ S ε) → S → Prop) (hstart : Inv [] start)
    (hcall : ∀ {entries state source call events result state' source'}, Inv entries state →
      (act call).Runs state source events (result, state', source') →
      Inv (entries ++ [⟨call, state, source, events, result⟩]) state')
    (history : History act start origin entries state source) : Inv entries state := by
  induction history with
  | nil => exact hstart
  | snoc _ call ran ih => exact hcall ih ran

end History

def acts (act : κ → Action S ε Unit) : List κ → Action S ε Unit
  | [] => Action.pure ()
  | call :: calls => Action.bind (act call) fun _ => acts act calls

namespace History

variable {act : κ → Action S ε Unit} {start state : S} {origin source : Source}

theorem block_of_acts {calls : List κ} {events : List Event} {result : Except ε Unit}
    (hruns : (acts act calls).Runs start origin events (result, state, source)) :
    ∃ block, History act start origin block state source ∧ block.map Entry.call <+: calls ∧
      block.flatMap Entry.events = events := by
  induction calls generalizing start origin events with
  | nil =>
      obtain ⟨rfl, hout⟩ := runs_pure.mp hruns
      cases hout
      exact ⟨[], .nil, List.prefix_rfl, rfl⟩
  | cons call calls ih =>
      rcases runs_bind.mp hruns with ⟨e, _, _, hcall, hout⟩ |
        ⟨_, state, between, front, back, rfl, hcall, hrest⟩
      · cases hout
        exact ⟨_, .single hcall, List.prefix_append [call] calls, List.append_nil events⟩
      · obtain ⟨block, hhistory, hcalls, hevents⟩ := ih hrest
        refine ⟨_, (single hcall).append hhistory, ?_, ?_⟩
        · exact List.cons_prefix_cons.mpr ⟨rfl, hcalls⟩
        · rw [← hevents]
          rfl

/-- If each call makes steps one after the other, a history of calls is one of steps. -/
theorem exists_blocks {ι : Type} {whole : ι → Action S ε Unit} {steps : ι → List κ}
    (hwhole : ∀ call, whole call = acts act (steps call)) {entries : List (Entry ι S ε)}
    (history : History whole start origin entries state source) :
    ∃ blocks : List (List (Entry κ S ε)),
      List.Forall₂ (fun call block => block.map Entry.call <+: steps call.call ∧
        block.flatMap Entry.events = call.events) entries blocks ∧
      History act start origin blocks.flatten state source := by
  induction history with
  | nil => exact ⟨[], .nil, .nil⟩
  | snoc prior call ran ih =>
      obtain ⟨blocks, hspells, hblocks⟩ := ih
      rw [hwhole call] at ran
      obtain ⟨block, hblock, hcalls, hevents⟩ := block_of_acts ran
      refine ⟨blocks ++ [block], List.rel_append hspells (.cons ⟨hcalls, hevents⟩ .nil), ?_⟩
      rw [List.flatten_append, List.flatten_singleton]
      exact hblocks.append hblock

end History

end ThreeMove.Action
