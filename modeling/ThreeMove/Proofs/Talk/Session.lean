import ThreeMove.Proofs.Talk.Conversation

/-!
# Sessions

A party is created and acts once for every item of a list, up to the first failure.  The party
that is left at the end is a part of the result.
-/

namespace ThreeMove.Action

variable {S ε α ι : Type}

def session (create : Action Unit ε S) (f : ι → Action S ε α) (items : List ι)
    (source : Source) : Talk (Except ε (List (Except ε α) × S) × Source) :=
  (create () source).bind fun
    | (.error e, _, source) => .done (.error e, source)
    | (.ok party, _, source) =>
        (each f items party source).bind fun (results, party, source) =>
          .done (.ok (results, party), source)

theorem createAndEach_eq_session (create : Action Unit ε S) (f : ι → Action S ε α)
    (items : List ι) (source : Source) :
    createAndEach create f items source =
      (session create f items source).bind fun (result, source) =>
        .done (result.map Prod.fst, source) := by
  unfold createAndEach session
  rw [Talk.bind_assoc]
  congr 1
  funext ⟨result, state, source⟩
  cases result with
  | error e => rfl
  | ok party =>
      dsimp only
      rw [Talk.bind_assoc]
      rfl

variable {create : Action Unit ε S} {f : ι → Action S ε α} {item : ι} {items : List ι}
  {source between rest : Source} {party party' party'' : S} {a : α} {e : ε}
  {results : List (Except ε α)} {front back events : List Event}

open Talk

theorem halts_each_cons (hfirst : (f item).Runs party source front (.ok a, party', between))
    (hrest : Halts (each f items party' between) back (results, party'', rest)) :
    Halts (each f (item :: items) party source) (front ++ back)
      (.ok a :: results, party'', rest) := by
  obtain ⟨last, hlast, htrace⟩ := hrest
  refine ⟨last, hlast, ?_⟩
  rw [List.append_assoc, each]
  refine trace_bind.mpr ⟨_, front, back ++ last, rfl, hfirst, ?_⟩
  exact trace_bind.mpr ⟨_, back ++ last, [], (List.append_nil _).symm, htrace, .done _⟩

theorem halts_each_failed
    (hfailed : Halts (f item party source) events (.error e, party', rest)) :
    Halts (each f (item :: items) party source) events ([.error e], party', rest) := by
  obtain ⟨last, hlast, htrace⟩ := hfailed
  refine ⟨last, hlast, ?_⟩
  rw [each]
  exact trace_bind.mpr ⟨_, events ++ last, [], (List.append_nil _).symm, htrace, .done _⟩

theorem halts_session (hcreate : create.Runs () source front (.ok party, (), between))
    (hrest : Halts (each f items party between) back (results, party', rest)) :
    Halts (session create f items source) (front ++ back) (.ok (results, party'), rest) := by
  obtain ⟨last, hlast, htrace⟩ := hrest
  refine ⟨last, hlast, ?_⟩
  rw [List.append_assoc, session]
  refine trace_bind.mpr ⟨_, front, back ++ last, rfl, hcreate, ?_⟩
  exact trace_bind.mpr ⟨_, back ++ last, [], (List.append_nil _).symm, htrace, .done _⟩

theorem halts_createAndEach (hcreate : create.Runs () source front (.ok party, (), between))
    (hrest : Halts (each f items party between) back (results, party', rest)) :
    Halts (createAndEach create f items source) (front ++ back) (.ok results, rest) := by
  obtain ⟨last, hlast, htrace⟩ := halts_session hcreate hrest
  refine ⟨last, hlast, ?_⟩
  rw [createAndEach_eq_session]
  exact trace_bind.mpr ⟨_, (front ++ back) ++ last, [], (List.append_nil _).symm, htrace, .done _⟩

theorem trace_createAndEach_failed
    (hfailed : create.Runs () source events (.error e, (), rest)) :
    Trace (createAndEach create f items source) events (.error e, rest) :=
  trace_bind.mpr ⟨_, events, [], (List.append_nil _).symm, hfailed, .done _⟩

end ThreeMove.Action
