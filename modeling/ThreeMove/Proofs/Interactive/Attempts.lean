import ThreeMove.Proofs.Interactive.Discipline
import ThreeMove.Proofs.Talk.Channel

/-!
# Attempts to verify

A verifier is asked for whole runs, again and again, on a channel that may fail at any point.  An
attempt that cannot read leaves it ready for the next one.  An attempt that cannot write its
challenge does not: its run stays open, and every later attempt is refused.
-/

namespace ThreeMove.Interactive.Verifier

open ThreeMove.Action

variable {E : Type} {t : Nat}

def ChallengeLost (events : List Event) : Prop :=
  ∃ message fault, Event.sent message (.error fault) ∈ events

abbrev Attempt (E : Type) (t : Nat) := Entry (CommonInput E) (Verifier E t) SigmaFault

def Interrupted (attempts : List (Attempt E t)) : Prop :=
  ∃ entry ∈ attempts, ChallengeLost entry.events

variable {computation computation' : ThreeMove.Verifier E t} {attempts : List (Attempt E t)}
  {entry : Attempt E t} {party party' : Verifier E t} {start source source' : Source}
  {events : List Event}

theorem interrupted_snoc :
    Interrupted (attempts ++ [entry]) ↔ Interrupted attempts ∨ ChallengeLost entry.events := by
  simp [Interrupted, or_and_right, exists_or]

/-- What attempts leave behind: the statements are the same, and a run is open just if a challenge
was lost. -/
structure Standing (computation : ThreeMove.Verifier E t) (attempts : List (Attempt E t))
    (party : Verifier E t) : Prop where
  statements : party.computation.statements = computation.statements
  phase : Interrupted attempts ∧ party.phase = .firstReceived ∨
    ¬ Interrupted attempts ∧ party.phase ∈ [.idle, .challengeFixed]

variable [DecidableEq E] {input : CommonInput E} {kept : Option Message} {e : Challenge}

namespace Course

variable {verdict : Except SigmaFault Bool}

/-- Nothing counts in a course but the statements and the message that is kept. -/
theorem of_statements (hsame : computation.statements = computation'.statements)
    (hcourse : Course computation kept e input events verdict party) :
    Course computation' kept e input events verdict party := by
  have hset : computation.setChallenge e = computation'.setChallenge e :=
    Composition.map_const_of_statements hsame _ _
  have hcleared : computation.clearChallenge = computation'.clearChallenge :=
    Composition.map_const_of_statements hsame _ _
  have hfirst := Composition.firstLayout_of_statements hsame
  have hsecond := Composition.secondLayout_of_statements hsame
  cases hcourse with
  | firstLost fault =>
      rw [hset]
      exact .firstLost fault
  | challengeLost first fault =>
      rw [hset, hfirst]
      exact .challengeLost first fault
  | judged first reply =>
      rw [hset, hcleared, hfirst, hsecond]
      exact .judged first reply

theorem ordered (hcourse : Course computation kept e input events verdict party)
    (reason : Reason) : verdict ≠ .error (.outOfOrder reason) := by
  cases hcourse with
  | firstLost fault => exact nofun
  | challengeLost first fault => exact nofun
  | judged first reply =>
      cases reply with
      | error fault => exact nofun
      | ok second =>
          intro hrefused
          rcases judged_or_misshapen computation e input first second with
            ⟨accepted, _, hverdict⟩ | ⟨shape, hverdict⟩
          · cases hverdict.symm.trans hrefused
          · cases hverdict.symm.trans hrefused

theorem statements_eq (hcourse : Course computation kept e input events verdict party) :
    party.computation.statements = computation.statements := by
  cases hcourse with
  | firstLost fault => exact Composition.statements_map _ _ _
  | challengeLost first fault => exact Composition.statements_map _ _ _
  | judged first reply => exact Composition.statements_map _ _ _

theorem phase_cases (hcourse : Course computation kept e input events verdict party) :
    ChallengeLost events ∧ party.phase = .firstReceived ∨
      ¬ ChallengeLost events ∧ party.phase ∈ [.idle, .challengeFixed] := by
  cases hcourse with
  | firstLost fault =>
      exact .inr ⟨by simp [ChallengeLost], List.mem_cons_of_mem _ (List.mem_singleton.mpr rfl)⟩
  | challengeLost first fault =>
      exact .inl ⟨⟨_, fault, List.mem_cons_of_mem _ (List.mem_singleton.mpr rfl)⟩, rfl⟩
  | judged first reply => exact .inr ⟨by simp [ChallengeLost], List.mem_cons_self⟩

end Course

def attempt (input : CommonInput E) : Action (Verifier E t) SigmaFault Unit :=
  (Call.verify input).act

/-- As long as no challenge was lost, an attempt takes its course as on a new verifier. -/
theorem Standing.course (hstanding : Standing computation attempts party)
    (hready : ¬ Interrupted attempts) {outcome : Outcome SigmaFault Bool (Verifier E t)}
    (hruns : (verify input).Runs party source events outcome) :
    outcome.2.2 = (Challenge.sample t source).2 ∧
      Course computation party.firstMessage (Challenge.sample t source).1 input events outcome.1
        outcome.2.1 := by
  rcases hstanding.phase with ⟨hlost, _⟩ | ⟨_, hphase⟩
  · exact (hready hlost).elim
  · obtain ⟨hsource, hcourse⟩ := course_of_verify hphase hruns
    exact ⟨hsource, hcourse.of_statements hstanding.statements⟩

/-- Once a challenge was lost, an attempt is refused and leaves everything as it is. -/
theorem Standing.refused (hstanding : Standing computation attempts party)
    (hlost : Interrupted attempts) (input : CommonInput E) (source : Source) :
    verify input party source = .done (.error (.outOfOrder .challengeChanged), party, source) := by
  rcases hstanding.phase with ⟨_, hphase⟩ | ⟨hready, _⟩
  · exact verify_of_notMem (by simp [hphase]) source
  · exact (hready hlost).elim

theorem Standing.attempt {result : Except SigmaFault Unit}
    (hstanding : Standing computation attempts party)
    (hruns : (attempt input).Runs party source events (result, party', source')) :
    Standing computation (attempts ++ [⟨input, party, source, events, result⟩]) party' := by
  obtain ⟨verdict, _, _, hverify, hout⟩ := runs_discard.mp hruns
  cases hout
  by_cases hlost : Interrupted attempts
  · obtain ⟨rfl, hout⟩ := (runs_of_done (hstanding.refused hlost _ _)).mp hverify
    cases hout
    obtain ⟨_, hphase⟩ := hstanding.phase.resolve_right fun hready => hready.1 hlost
    exact ⟨hstanding.statements, .inl ⟨interrupted_snoc.mpr (.inl hlost), hphase⟩⟩
  · obtain ⟨_, hcourse⟩ := hstanding.course hlost hverify
    refine ⟨hcourse.statements_eq, ?_⟩
    rw [interrupted_snoc, or_iff_right hlost]
    exact hcourse.phase_cases

theorem standing_of_history
    (history : History attempt (create computation) start attempts party source) :
    Standing computation attempts party :=
  history.invariant (Standing computation)
    ⟨rfl, .inr ⟨fun ⟨_, hmem, _⟩ => List.not_mem_nil hmem, List.mem_cons_self⟩⟩
    fun hstanding hruns => hstanding.attempt hruns

/-- A new verifier is asked for whole runs, whatever is read and wherever the channel fails.  As
long as it could write every challenge that it got to, the next run draws a challenge of its own
and is not refused.  Once a challenge could not be written, all further runs are refused before
anything is drawn. -/
theorem attempts_refused_after_loss
    (history : History attempt (create computation) start attempts party source)
    (input : CommonInput E) :
    (¬ Interrupted attempts → (verify input).OnEveryChannel party source fun events outcome =>
      (∀ reason, outcome.1 ≠ .error (.outOfOrder reason)) ∧
      outcome.2.2 = (Challenge.sample t source).2 ∧
      Course computation party.firstMessage (Challenge.sample t source).1 input events outcome.1
        outcome.2.1) ∧
    (Interrupted attempts → verify input party source =
      .done (.error (.outOfOrder .challengeChanged), party, source)) := by
  have hstanding := standing_of_history history
  refine ⟨fun hready => onEveryChannel_iff.mpr fun events outcome hruns => ?_,
    fun hlost => hstanding.refused hlost input source⟩
  obtain ⟨hsource, hcourse⟩ := hstanding.course hready hruns
  exact ⟨hcourse.ordered, hsource, hcourse⟩

/-- After a message that was lost the next run is not refused.  After a challenge that was lost it
is. -/
theorem attempts_refused_after_loss_pairModulo23 :
    let computation : ThreeMove.Verifier Nat 3 := .pairModulo23 none none
    let input : CommonInput Nat := .all [.one 18, .one 12]
    let source : Source := ⟨fun i => UInt8.ofNat (37 * i + 5), 0⟩
    ∃ (ready stuck : Verifier Nat 3) (source' source'' : Source) (lost lostLater : Attempt Nat 3),
      History attempt (create computation) source [lost] ready source' ∧
      History attempt (create computation) source [lost, lostLater] stuck source'' ∧
      ¬ ChallengeLost lost.events ∧ ChallengeLost lostLater.events ∧
      (verify input).OnEveryChannel ready source' (fun _ outcome =>
        ∀ reason, outcome.1 ≠ .error (.outOfOrder reason)) ∧
      verify input stuck source'' =
        .done (.error (.outOfOrder .challengeChanged), stuck, source'') := by
  intro computation input source
  let drawn := Challenge.sample 3 source
  let drawnLater := Challenge.sample 3 drawn.2
  let ready : Verifier Nat 3 := ⟨computation.setChallenge drawn.1, .challengeFixed, none⟩
  let stuck : Verifier Nat 3 := ⟨computation.setChallenge drawnLater.1, .firstReceived,
    some (.tuple [.element [1], .element [13]])⟩
  have hlost : (attempt input).Runs (create computation) source [.received (.error .disconnected)]
      (.error (.channel .disconnected), ready, drawn.2) := .receive (.error .disconnected) (.done _)
  have hlostLater : (attempt input).Runs ready drawn.2
      [.received (.ok [1, 13]), .sent (Challenge.encode drawnLater.1) (.error .disconnected)]
      (.error (.channel .disconnected), stuck, drawnLater.2) :=
    .receive (.ok [1, 13]) (.send (.error .disconnected) (.done _))
  have hread : ¬ ChallengeLost [.received (.error .disconnected)] := by simp [ChallengeLost]
  have hwrite : ChallengeLost
      [.received (.ok [1, 13]), .sent (Challenge.encode drawnLater.1) (.error .disconnected)] :=
    ⟨_, .disconnected, List.mem_cons_of_mem _ List.mem_cons_self⟩
  have first := History.single hlost
  have both := first.snoc input hlostLater
  obtain ⟨hready, -⟩ := attempts_refused_after_loss first input
  obtain ⟨-, hstuck⟩ := attempts_refused_after_loss both input
  have hordered := onEveryChannel_iff.mp (hready (by simpa [Interrupted] using hread))
  exact ⟨ready, stuck, _, _, _, _, first, both, hread, hwrite,
    onEveryChannel_iff.mpr fun events outcome hruns => (hordered events outcome hruns).1,
    hstuck (interrupted_snoc.mpr (.inr hwrite))⟩

/-- One challenge that could not be written, and a new verifier is of no use any more. -/
theorem lost_challenge_blocks_pairModulo23 :
    let computation : ThreeMove.Verifier Nat 3 := .pairModulo23 none none
    let input : CommonInput Nat := .all [.one 18, .one 12]
    let source : Source := ⟨fun i => UInt8.ofNat (37 * i + 5), 0⟩
    ∃ (attempts : List (Attempt Nat 3)) (party : Verifier Nat 3) (source' : Source),
      History attempt (create computation) source attempts party source' ∧
      verify input party source' =
        .done (.error (.outOfOrder .challengeChanged), party, source') := by
  intro computation input source
  have hlost : (attempt input).Runs (create computation) source
      [.received (.ok [1, 13]),
        .sent (Challenge.encode (Challenge.sample 3 source).1) (.error .disconnected)]
      (.error (.channel .disconnected), _, _) :=
    .receive (.ok [1, 13]) (.send (.error .disconnected) (.done _))
  exact ⟨_, _, _, .single hlost, rfl⟩

end ThreeMove.Interactive.Verifier
