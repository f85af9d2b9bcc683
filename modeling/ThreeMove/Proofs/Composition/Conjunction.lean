import ThreeMove.Proofs.Composition.Verdict
import ThreeMove.Proofs.Message

/-!
# Verdicts are conjunctions

How statements are grouped decides which inputs and messages have the right shape.  Nothing else
depends on it: the verdict on a transcript of the right shape only looks at the rows of
statements, items, elements and integers from left to right.  And whatever the root was asked for
before, the challenge that it holds is the one that every statement is judged under.
-/

namespace ThreeMove

variable {E : Type} {t : Nat} {σ ν α β : Type}

namespace Input

mutual

def items : Input α → List α
  | one item => [item]
  | all parts => itemsAll parts

def itemsAll : List (Input α) → List α
  | [] => []
  | part :: parts => part.items ++ itemsAll parts

end

end Input

namespace Message

def element? : Message → Option Bytes
  | element bytes => some bytes
  | integer _ _ => none
  | tuple _ => none

def integer? : Message → Option Nat
  | element _ => none
  | integer value _ => some value
  | tuple _ => none

mutual

def elements : Message → List Bytes
  | element bytes => [bytes]
  | integer _ _ => []
  | tuple parts => elementsAll parts

def elementsAll : List Message → List Bytes
  | [] => []
  | part :: parts => part.elements ++ elementsAll parts

end

def values (message : Message) : List Nat :=
  message.integers.map Prod.fst

end Message

namespace View

def row : List (Parameters E t) → List E → List Bytes → List Nat → List (View E t)
  | params :: others, h :: hs, a :: firsts, z :: seconds =>
      ⟨params, h, a, z⟩ :: row others hs firsts seconds
  | _, _, _, _ => []

theorem row_map (vs : List (View E t)) :
    row (vs.map params) (vs.map element) (vs.map first) (vs.map second) = vs := by
  induction vs with
  | nil => rfl
  | cons view vs ih => exact congrArg (view :: ·) ih

end View

namespace Composition

mutual

def leaves : Composition E t σ ν → List (Parameters E t)
  | one params _ => [params]
  | all _ _ parts => leavesAll parts

def leavesAll : List (Composition E t σ ν) → List (Parameters E t)
  | [] => []
  | part :: parts => part.leaves ++ leavesAll parts

end

mutual

/-- The message is grouped like the composition, and `read` finds something in its part for each
statement. -/
def MessageFits (read : Message → Option β) : Composition E t σ ν → Message → Prop
  | one _ _, message => (read message).isSome
  | all _ _ parts, .tuple messages => MessageFitsAll read parts messages
  | all _ _ _, .element _ => False
  | all _ _ _, .integer _ _ => False

def MessageFitsAll (read : Message → Option β) :
    List (Composition E t σ ν) → List Message → Prop
  | [], [] => True
  | part :: parts, message :: messages =>
      part.MessageFits read message ∧ MessageFitsAll read parts messages
  | [], _ :: _ => False
  | _ :: _, [] => False

end

/-- The input and both messages have the shape of the composition. -/
def Shaped (c : Composition E t σ ν) (input : CommonInput E) (a z : Message) : Prop :=
  c.Fits input ∧ c.MessageFits Message.element? a ∧ c.MessageFits Message.integer? z

mutual

/-- There are views exactly of what has the shape of the composition. -/
theorem exists_views_iff : ∀ (c : Composition E t σ ν) (input : CommonInput E) (a z : Message),
    (∃ vs, c.views input a z = some vs) ↔ c.Shaped input a z
  | one _ _, input, a, z => by
      cases input <;> cases a <;> cases z <;>
        simp [views, Shaped, Fits, AtEach, MessageFits, Message.element?, Message.integer?]
  | all _ _ _, .one _, _, _ => iff_of_false nofun fun hshaped => hshaped.1
  | all _ _ _, .all _, .element _, _ => iff_of_false nofun fun hshaped => hshaped.2.1
  | all _ _ _, .all _, .integer _ _, _ => iff_of_false nofun fun hshaped => hshaped.2.1
  | all _ _ _, .all _, .tuple _, .element _ => iff_of_false nofun fun hshaped => hshaped.2.2
  | all _ _ _, .all _, .tuple _, .integer _ _ => iff_of_false nofun fun hshaped => hshaped.2.2
  | all _ _ parts, .all inputs, .tuple firsts, .tuple seconds =>
      exists_viewsAll_iff parts inputs firsts seconds

theorem exists_viewsAll_iff : ∀ (parts : List (Composition E t σ ν))
    (inputs : List (CommonInput E)) (firsts seconds : List Message),
    (∃ vs, viewsAll parts inputs firsts seconds = some vs) ↔
      AtEachAll (fun _ _ _ => True) parts inputs ∧
        MessageFitsAll Message.element? parts firsts ∧
        MessageFitsAll Message.integer? parts seconds
  | [], inputs, firsts, seconds => by
      cases inputs <;> cases firsts <;> cases seconds <;>
        simp [viewsAll, AtEachAll, MessageFitsAll]
  | _ :: _, [], _, _ => iff_of_false nofun fun hshaped => hshaped.1
  | _ :: _, _ :: _, [], _ => iff_of_false nofun fun hshaped => hshaped.2.1
  | _ :: _, _ :: _, _ :: _, [] => iff_of_false nofun fun hshaped => hshaped.2.2
  | part :: parts, input :: inputs, a :: firsts, z :: seconds => by
      have hhere := exists_views_iff part input a z
      have hothers := exists_viewsAll_iff parts inputs firsts seconds
      simp only [viewsAll_cons_eq_some_iff, AtEachAll, MessageFitsAll]
      constructor
      · rintro ⟨_, here, others, hviews, hviewsAll, _⟩
        obtain ⟨hinput, ha, hz⟩ := hhere.mp ⟨here, hviews⟩
        obtain ⟨hinputs, hfirsts, hseconds⟩ := hothers.mp ⟨others, hviewsAll⟩
        exact ⟨⟨hinput, hinputs⟩, ⟨ha, hfirsts⟩, hz, hseconds⟩
      · rintro ⟨⟨hinput, hinputs⟩, ⟨ha, hfirsts⟩, hz, hseconds⟩
        obtain ⟨here, hviews⟩ := hhere.mpr ⟨hinput, ha, hz⟩
        obtain ⟨others, hviewsAll⟩ := hothers.mpr ⟨hinputs, hfirsts, hseconds⟩
        exact ⟨_, here, others, hviews, hviewsAll, rfl⟩

end

mutual

theorem maps_of_views : ∀ {c : Composition E t σ ν} {input : CommonInput E} {a z : Message}
    {vs : List (View E t)}, c.views input a z = some vs →
    vs.map View.params = c.leaves ∧ vs.map View.element = input.items ∧
      vs.map View.first = a.elements ∧ vs.map View.second = z.values
  | one _ _, .one _, .element _, .integer _ _, _, hviews => by
      cases hviews
      exact ⟨rfl, rfl, rfl, rfl⟩
  | all _ _ _, .all _, .tuple _, .tuple _, _, hviews => maps_of_viewsAll hviews

theorem maps_of_viewsAll : ∀ {parts : List (Composition E t σ ν)}
    {inputs : List (CommonInput E)} {firsts seconds : List Message} {vs : List (View E t)},
    viewsAll parts inputs firsts seconds = some vs →
    vs.map View.params = leavesAll parts ∧ vs.map View.element = Input.itemsAll inputs ∧
      vs.map View.first = Message.elementsAll firsts ∧
      vs.map View.second = (Message.integersAll seconds).map Prod.fst
  | [], [], [], [], _, hviews => by
      cases hviews
      exact ⟨rfl, rfl, rfl, rfl⟩
  | _ :: _, _ :: _, _ :: _, _ :: _, _, hviews => by
      obtain ⟨here, others, hhere, hothers, rfl⟩ := viewsAll_cons_eq_some_iff.mp hviews
      obtain ⟨hparams, helement, hfirst, hsecond⟩ := maps_of_views hhere
      obtain ⟨hparams', helement', hfirst', hsecond'⟩ := maps_of_viewsAll hothers
      rw [List.map_append, List.map_append, List.map_append, List.map_append, hparams, helement,
        hfirst, hsecond, hparams', helement', hfirst', hsecond']
      exact ⟨rfl, rfl, rfl, List.map_append.symm⟩

end

theorem views_of_shaped {c : Composition E t σ ν} {input : CommonInput E} {a z : Message}
    (hshaped : c.Shaped input a z) :
    c.views input a z = some (View.row c.leaves input.items a.elements z.values) := by
  obtain ⟨vs, hviews⟩ := (exists_views_iff c input a z).mpr hshaped
  obtain ⟨hparams, helement, hfirst, hsecond⟩ := maps_of_views hviews
  rw [hviews, ← hparams, ← helement, ← hfirst, ← hsecond, View.row_map]

end Composition

namespace Verifier

open ThreeMove.Composition

/-- What the root is asked for.  Each challenge may be drawn from a source of its own. -/
inductive Request (E : Type) where
  | setChallenge (challenge : Challenge)
  | sampleChallenge (source : Source)
  | clearChallenge
  | verify (input : CommonInput E) (a z : Message)

/-- The verifier behind a request.  A verdict is asked for at a verifier that could change, but
no statement and no conjunction is changed by one, so that the same verifier is left. -/
def handle (verifier : Verifier E t) : Request E → Verifier E t
  | .setChallenge challenge => verifier.setChallenge challenge
  | .sampleChallenge source => (verifier.sampleChallenge source).2.1
  | .clearChallenge => verifier.clearChallenge
  | .verify _ _ _ => verifier

variable {start verifier : Verifier E t} {e : Challenge}

theorem statements_handle (verifier : Verifier E t) (request : Request E) :
    (verifier.handle request).statements = verifier.statements := by
  cases request with
  | verify input a z => rfl
  | _ => exact statements_map _ _ verifier

theorem statements_handleAll (verifier : Verifier E t) (requests : List (Request E)) :
    (requests.foldl handle verifier).statements = verifier.statements := by
  induction requests generalizing verifier with
  | nil => rfl
  | cons request requests ih => exact (ih _).trans (statements_handle verifier request)

/-- The statements are those of the start, and if the root holds a challenge, then so does every
node. -/
structure Settled (start verifier : Verifier E t) : Prop where
  statements : verifier.statements = start.statements
  held : ∀ e, verifier.challenge = some e → verifier = start.setChallenge e

theorem settled_setChallenge (hsame : verifier.statements = start.statements) (e : Challenge) :
    Settled start (verifier.setChallenge e) where
  statements := (statements_map _ _ verifier).trans hsame
  held := by
    intro other hother
    rw [challenge_setChallenge] at hother
    cases hother
    exact map_const_of_statements hsame _ _

theorem Settled.handle (hsettled : Settled start verifier) (request : Request E) :
    Settled start (verifier.handle request) := by
  cases request with
  | setChallenge e => exact settled_setChallenge hsettled.statements e
  | sampleChallenge source => exact settled_setChallenge hsettled.statements _
  | clearChallenge =>
      refine ⟨(statements_map _ _ verifier).trans hsettled.statements, fun e hheld => ?_⟩
      change verifier.clearChallenge.challenge = some e at hheld
      rw [challenge_clearChallenge] at hheld
      cases hheld
  | verify input a z => exact hsettled

theorem Settled.handleAll (hsettled : Settled start verifier) (requests : List (Request E)) :
    Settled start (requests.foldl Verifier.handle verifier) := by
  induction requests generalizing verifier with
  | nil => exact hsettled
  | cons request requests ih => exact ih (hsettled.handle request)

/-- If a new root holds a challenge in the end, it has handed it to every node. -/
theorem eq_setChallenge_of_requests (hnew : start.challenge = none)
    {requests : List (Request E)}
    (hheld : (requests.foldl handle start).challenge = some e) :
    requests.foldl handle start = start.setChallenge e := by
  have hstart : Settled start start := by
    refine ⟨rfl, fun e hheld => ?_⟩
    rw [hnew] at hheld
    cases hheld
  exact (hstart.handleAll requests).held e hheld

variable [DecidableEq E]

/-- A root is asked for anything until it holds a challenge.  Then the shape of a transcript alone
decides whether it is refused as misshapen, and otherwise the verdict is the conjunction over all
statements under this challenge.  To judge changes nothing, and every node holds the challenge.
Another grouping of the same statements gives the same verdict. -/
theorem verdict_by_statements (hnew : start.challenge = none) {requests : List (Request E)}
    (hheld : (requests.foldl handle start).challenge = some e) (input : CommonInput E)
    (a z : Message) :
    let verifier := requests.foldl handle start
    ((∃ reason, verifier.verify input a z = .error (.misshapen reason)) ↔
      ¬ start.Shaped input a z) ∧
    (start.Shaped input a z → verifier.verify input a z =
      .ok ((View.row start.leaves input.items a.elements z.values).all (View.accepts e))) ∧
    (verifier.handle (.verify input a z) = verifier ∧
      ∀ held ∈ verifier.remembered, held = some e) ∧
    ∀ {start' : Verifier E t} {requests' : List (Request E)} {input' : CommonInput E}
      {a' z' : Message}, start'.challenge = none →
      (requests'.foldl handle start').challenge = some e →
      start.Shaped input a z → start'.Shaped input' a' z' →
      start'.leaves = start.leaves → input'.items = input.items →
      a'.elements = a.elements → z'.values = z.values →
      (requests'.foldl handle start').verify input' a' z' = verifier.verify input a z := by
  have hverdict : ∀ {start : Verifier E t} {requests : List (Request E)}
      {input : CommonInput E} {a z : Message}, start.challenge = none →
      (requests.foldl handle start).challenge = some e → start.Shaped input a z →
      (requests.foldl handle start).verify input a z =
        .ok ((View.row start.leaves input.items a.elements z.values).all (View.accepts e)) := by
    intro start requests input a z hnew hheld hshaped
    rw [eq_setChallenge_of_requests hnew hheld]
    exact verify_of_views e start input a z (views_of_shaped hshaped)
  refine ⟨⟨?_, fun hmisshapen => ?_⟩, hverdict hnew hheld, ⟨rfl, ?_⟩, ?_⟩
  · rintro ⟨reason, hreason⟩ hshaped
    rw [hverdict hnew hheld hshaped] at hreason
    cases hreason
  · rw [eq_setChallenge_of_requests hnew hheld]
    refine verify_of_no_views e start input a z (Option.eq_none_iff_forall_ne_some.mpr ?_)
    exact fun vs hviews => hmisshapen ((exists_views_iff start input a z).mp ⟨vs, hviews⟩)
  · rw [eq_setChallenge_of_requests hnew hheld]
    exact start.held_of_setChallenge e
  · intro start' requests' input' a' z' hnew' hheld' hshaped hshaped' hleaves hitems helements
      hvalues
    rw [hverdict hnew' hheld' hshaped', hverdict hnew hheld hshaped, hleaves, hitems, helements,
      hvalues]

/-- Under the challenge 1 a wrong answer to the first statement is rejected, but a misshapen one to
the second is still reported; a further conjunction around the two changes nothing. -/
theorem verdict_by_statements_pairModulo23 :
    let start : Verifier Nat 3 := pairModulo23 none none
    let requests : List (Request Nat) :=
      [.setChallenge 7, .clearChallenge, .setChallenge 1, .verify (.one 18) (.tuple []) (.tuple [])]
    let input : CommonInput Nat := .all [.one 18, .one 12]
    let a := Message.tuple [.element [16], .element [8]]
    let z := Message.tuple [.integer 5 1, .integer 1 1]
    let wrong := Message.tuple [.integer 6 1, .integer 1 1]
    let verifier := requests.foldl handle start
    let nested : Verifier Nat 3 := requests.foldl handle (.all start.params none [start])
    verifier.verify input a z = .ok true ∧ verifier.verify input a wrong = .ok false ∧
      (∃ reason, verifier.verify input a (.tuple [.integer 6 1, .tuple []]) =
        .error (.misshapen reason)) ∧
      (∀ held ∈ verifier.remembered, held = some 1) ∧
      nested.verify (.all [input]) (.tuple [a]) (.tuple [wrong]) = .ok false := by
  intro start requests input a z wrong verifier nested
  have hnew : start.challenge = none := rfl
  have hheld : (requests.foldl handle start).challenge = some 1 := rfl
  have hshaped : start.Shaped input a z :=
    ⟨⟨trivial, trivial, trivial⟩, ⟨rfl, rfl, trivial⟩, rfl, rfl, trivial⟩
  have hshaped' : start.Shaped input a wrong :=
    ⟨⟨trivial, trivial, trivial⟩, ⟨rfl, rfl, trivial⟩, rfl, rfl, trivial⟩
  have hmisshapen : ¬ start.Shaped input a (.tuple [.integer 6 1, .tuple []]) :=
    fun hshaped => Bool.false_ne_true hshaped.2.2.2.1
  obtain ⟨-, haccepted, ⟨-, hnodes⟩, -⟩ := verdict_by_statements hnew hheld input a z
  obtain ⟨-, hrejected, -, hgrouped⟩ := verdict_by_statements hnew hheld input a wrong
  obtain ⟨hrefused, -⟩ :=
    verdict_by_statements hnew hheld input a (.tuple [.integer 6 1, .tuple []])
  have hnested : nested.verify (.all [input]) (.tuple [a]) (.tuple [wrong]) =
      verifier.verify input a wrong :=
    hgrouped rfl rfl hshaped'
      ⟨⟨hshaped'.1, trivial⟩, ⟨hshaped'.2.1, trivial⟩, hshaped'.2.2, trivial⟩ rfl rfl rfl rfl
  exact ⟨haccepted hshaped, hrejected hshaped', hrefused.mpr hmisshapen, hnodes,
    hnested.trans (hrejected hshaped')⟩

end Verifier

end ThreeMove
