import ThreeMove.Proofs.Composition.Composed
import ThreeMove.Proofs.Composition.Verdict
import ThreeMove.Proofs.Message

/-!
# Accepted answers

An answer counts modulo the order of each statement, but it travels in a width with bits to
spare, and its range is not checked.  So the accepted answers to one challenge are those that come
to the same once every integer is reduced, and only one of them is reduced already.
-/

namespace ThreeMove

namespace View

variable {E : Type} {t : Nat}

/-- Once one answer to a statement holds, the others are those with the same residue. -/
theorem holds_iff_of_holds {params : Parameters E t} (laws : params.group.Lawful) {h : E}
    {first : Bytes} {z z' : Nat} {e : Challenge} (hholds : Holds e ⟨params, h, first, z⟩) :
    Holds e ⟨params, h, first, z'⟩ ↔ z' % params.group.order = z % params.group.order := by
  obtain ⟨hmember, a, hdecode, ha, hequation⟩ := hholds
  have hpow : params.group.pow params.group.generator z' =
      params.group.pow params.group.generator z ↔ z' ≡ z [MOD params.group.order] :=
    laws.pow_generator_eq_iff
  refine Iff.trans ?_ hpow
  dsimp only at hmember hdecode hequation
  constructor
  · rintro ⟨_, a', hdecode', _, hequation'⟩
    dsimp only at hdecode' hequation'
    rw [hdecode] at hdecode'
    cases hdecode'
    exact hequation'.trans hequation.symm
  · intro hsame
    exact ⟨hmember, a, hdecode, ha, hsame.trans hequation⟩

end View

namespace Composition

variable {E : Type} {t : Nat} {σ ν : Type}

mutual

/-- The message with each integer reduced modulo the order of its statement. -/
def reduce : Composition E t σ ν → Message → Message
  | one params _, .integer z size => .integer (z % params.group.order) size
  | all _ _ parts, .tuple seconds => .tuple (reduceAll parts seconds)
  | _, message => message

def reduceAll : List (Composition E t σ ν) → List Message → List Message
  | part :: parts, z :: seconds => part.reduce z :: reduceAll parts seconds
  | _, seconds => seconds

end

mutual

theorem layout_reduce : ∀ (c : Composition E t σ ν) (z : Message),
    (c.reduce z).layout = z.layout
  | one _ _, .element _ => rfl
  | one _ _, .integer _ _ => rfl
  | one _ _, .tuple _ => rfl
  | all _ _ _, .element _ => rfl
  | all _ _ _, .integer _ _ => rfl
  | all _ _ parts, .tuple seconds => congrArg Layout.tuple (layout_reduceAll parts seconds)

theorem layout_reduceAll : ∀ (parts : List (Composition E t σ ν)) (seconds : List Message),
    Message.layoutAll (reduceAll parts seconds) = Message.layoutAll seconds
  | [], [] => rfl
  | [], _ :: _ => rfl
  | _ :: _, [] => rfl
  | part :: parts, z :: seconds =>
      congrArg₂ List.cons (layout_reduce part z) (layout_reduceAll parts seconds)

end

mutual

theorem reduced_reduce : ∀ {c : Composition E t σ ν} {z : Message},
    z.layout = c.secondLayout → c.Reduced (c.reduce z)
  | one params _, .integer z _, _ =>
      Nat.mod_lt z (Nat.zero_lt_of_lt params.challengeCount_lt)
  | all _ _ _, .tuple _, hlayout => reducedAll_reduceAll (Layout.tuple.inj hlayout)

theorem reducedAll_reduceAll : ∀ {parts : List (Composition E t σ ν)} {seconds : List Message},
    Message.layoutAll seconds = secondLayouts parts → ReducedAll parts (reduceAll parts seconds)
  | [], [], _ => trivial
  | _ :: _, _ :: _, hlayout => by
      obtain ⟨hhere, hothers⟩ := List.cons.inj hlayout
      exact ⟨reduced_reduce hhere, reducedAll_reduceAll hothers⟩

end

mutual

theorem reduce_of_reduced : ∀ {c : Composition E t σ ν} {z : Message}, c.Reduced z →
    c.reduce z = z
  | one _ _, .integer _ size, hreduced =>
      congrArg (Message.integer · size) (Nat.mod_eq_of_lt hreduced)
  | all _ _ _, .tuple _, hreduced => congrArg Message.tuple (reduceAll_of_reduced hreduced)

theorem reduceAll_of_reduced : ∀ {parts : List (Composition E t σ ν)} {seconds : List Message},
    ReducedAll parts seconds → reduceAll parts seconds = seconds
  | [], [], _ => rfl
  | _ :: _, _ :: _, ⟨hreduced, hreduceds⟩ =>
      congrArg₂ List.cons (reduce_of_reduced hreduced) (reduceAll_of_reduced hreduceds)

end

mutual

theorem allFit_of_reduced : ∀ {c : Composition E t σ ν} {z : Message},
    z.layout = c.secondLayout → c.Reduced z → Message.AllFit z.integers
  | one params _, .integer z size, hlayout, hreduced => by
      cases hlayout
      exact List.forall_mem_singleton.mpr (params.group.bitLength_lt_scalarSize hreduced)
  | all _ _ _, .tuple _, hlayout, hreduced =>
      allFit_of_reducedAll (Layout.tuple.inj hlayout) hreduced

theorem allFit_of_reducedAll : ∀ {parts : List (Composition E t σ ν)} {seconds : List Message},
    Message.layoutAll seconds = secondLayouts parts → ReducedAll parts seconds →
    Message.AllFit (Message.integersAll seconds)
  | [], [], _, _ => List.forall_mem_nil _
  | _ :: _, _ :: _, hlayout, ⟨hreduced, hreduceds⟩ => by
      obtain ⟨hhere, hothers⟩ := List.cons.inj hlayout
      exact List.forall_mem_append.mpr
        ⟨allFit_of_reduced hhere hreduced, allFit_of_reducedAll hothers hreduceds⟩

end

theorem exists_decode_reduce {c : Composition E t σ ν} {z : Message}
    (hlayout : z.layout = c.secondLayout) :
    ∃ bytes, Message.decode c.secondLayout bytes = .ok (c.reduce z) := by
  have hreduced : (c.reduce z).layout = c.secondLayout := (c.layout_reduce z).trans hlayout
  obtain ⟨bytes, hbytes⟩ := (Message.encodes_iff (c.reduce z)).mpr
    (allFit_of_reduced hreduced (reduced_reduce hlayout))
  exact ⟨bytes, hreduced ▸ Message.decode_encode hbytes⟩

mutual

theorem exists_views_of_layout : ∀ {c : Composition E t σ ν} {input : CommonInput E}
    {a z z' : Message} {vs : List (View E t)}, z'.layout = z.layout →
    c.views input a z = some vs → ∃ vs', c.views input a z' = some vs'
  | one _ _, .one _, .element _, .integer _ _, .integer _ _, _, _, _ => ⟨_, rfl⟩
  | all _ _ _, .all _, .tuple _, .tuple _, .tuple _, _, hlayout, hviews =>
      exists_viewsAll_of_layout (Layout.tuple.inj hlayout) hviews

theorem exists_viewsAll_of_layout : ∀ {parts : List (Composition E t σ ν)}
    {inputs : List (CommonInput E)} {firsts seconds seconds' : List Message}
    {vs : List (View E t)}, Message.layoutAll seconds' = Message.layoutAll seconds →
    viewsAll parts inputs firsts seconds = some vs →
    ∃ vs', viewsAll parts inputs firsts seconds' = some vs'
  | [], [], [], [], [], _, _, _ => ⟨_, rfl⟩
  | _ :: _, _ :: _, _ :: _, _ :: _, _ :: _, _, hlayout, hviews => by
      obtain ⟨hlayoutHere, hlayoutOthers⟩ := List.cons.inj hlayout
      obtain ⟨_, _, hhere, hothers, _⟩ := viewsAll_cons_eq_some_iff.mp hviews
      obtain ⟨here', hhere'⟩ := exists_views_of_layout hlayoutHere hhere
      obtain ⟨others', hothers'⟩ := exists_viewsAll_of_layout hlayoutOthers hothers
      exact ⟨_, viewsAll_cons_eq_some_iff.mpr ⟨here', others', hhere', hothers', rfl⟩⟩

end

variable {e : Challenge}

mutual

/-- If one answer holds at all statements, then the others that do come to the same once they are
reduced. -/
theorem holds_views_iff_reduce_eq : ∀ {c : Composition E t σ ν} {input : CommonInput E}
    {a z z' : Message} {vs vs' : List (View E t)}, c.Lawful → z'.layout = z.layout →
    c.views input a z = some vs → c.views input a z' = some vs' → (∀ view ∈ vs, view.Holds e) →
    ((∀ view ∈ vs', view.Holds e) ↔ c.reduce z' = c.reduce z)
  | one params _, .one h, .element a, .integer z size, .integer z' size', vs, vs', laws, hlayout,
      hviews, hviews', hholds => by
      cases hlayout
      cases hviews
      cases hviews'
      have lawful := laws params.group (List.mem_singleton.mpr rfl)
      have hhere : View.Holds e ⟨params, h, a, z⟩ := List.forall_mem_singleton.mp hholds
      rw [List.forall_mem_singleton, View.holds_iff_of_holds lawful hhere, reduce, reduce,
        Message.integer.injEq]
      exact (and_iff_left rfl).symm
  | all _ _ _, .all _, .tuple _, .tuple _, .tuple _, vs, vs', laws, hlayout, hviews, hviews',
      hholds => by
      have hiff := holds_viewsAll_iff_reduceAll_eq
        (fun group hgroup => laws group (List.mem_cons_of_mem _ hgroup))
        (Layout.tuple.inj hlayout) hviews hviews' hholds
      rw [hiff, reduce, reduce, Message.tuple.injEq]

theorem holds_viewsAll_iff_reduceAll_eq : ∀ {parts : List (Composition E t σ ν)}
    {inputs : List (CommonInput E)} {firsts seconds seconds' : List Message}
    {vs vs' : List (View E t)}, (∀ group ∈ groupsAll parts, group.Lawful) →
    Message.layoutAll seconds' = Message.layoutAll seconds →
    viewsAll parts inputs firsts seconds = some vs →
    viewsAll parts inputs firsts seconds' = some vs' → (∀ view ∈ vs, view.Holds e) →
    ((∀ view ∈ vs', view.Holds e) ↔ reduceAll parts seconds' = reduceAll parts seconds)
  | [], [], [], [], [], _, _, _, _, hviews, hviews', _ => by
      cases hviews
      cases hviews'
      exact iff_of_true (List.forall_mem_nil _) rfl
  | _ :: _, _ :: _, _ :: _, _ :: _, _ :: _, vs, vs', laws, hlayout, hviews, hviews', hholds => by
      obtain ⟨hlayoutHere, hlayoutOthers⟩ := List.cons.inj hlayout
      obtain ⟨here, others, hhere, hothers, rfl⟩ := viewsAll_cons_eq_some_iff.mp hviews
      obtain ⟨here', others', hhere', hothers', rfl⟩ := viewsAll_cons_eq_some_iff.mp hviews'
      obtain ⟨hholdsHere, hholdsOthers⟩ := List.forall_mem_append.mp hholds
      have hiffHere := holds_views_iff_reduce_eq
        (fun group hgroup => laws group (List.mem_append_left _ hgroup)) hlayoutHere hhere hhere'
        hholdsHere
      have hiffOthers := holds_viewsAll_iff_reduceAll_eq
        (fun group hgroup => laws group (List.mem_append_right _ hgroup)) hlayoutOthers hothers
        hothers' hholdsOthers
      rw [List.forall_mem_append, hiffHere, hiffOthers, reduceAll, reduceAll, List.cons.injEq]

end

end Composition

namespace Verifier

open ThreeMove.Composition

variable {E : Type} {t : Nat} [DecidableEq E] {verifier : Verifier E t} {input : CommonInput E}
  {a z z' : Message} {e : Challenge} {second : Bytes}

/-- The bytes are read as an answer to the challenge, and it is accepted. -/
def AcceptsAnswer (verifier : Verifier E t) (input : CommonInput E) (a : Message) (e : Challenge)
    (second : Bytes) : Prop :=
  ∃ z, Message.decode verifier.secondLayout second = .ok z ∧
    (verifier.setChallenge e).verify input a z = .ok true

theorem verify_next_to_accepted (laws : verifier.Lawful) (hlayout : z'.layout = z.layout)
    (haccepts : (verifier.setChallenge e).verify input a z = .ok true) :
    ∃ accepted, (verifier.setChallenge e).verify input a z' = .ok accepted ∧
      (accepted = true ↔ verifier.reduce z' = verifier.reduce z) := by
  obtain ⟨vs, hviews, hholds⟩ := (verify_eq_true_iff e laws).mp haccepts
  obtain ⟨vs', hviews'⟩ := exists_views_of_layout hlayout hviews
  have hverdict := verify_of_views e verifier input a z' hviews'
  refine ⟨_, hverdict, ?_⟩
  rw [← holds_views_iff_reduce_eq laws hlayout hviews hviews' hholds,
    ← verify_eq_true_of_views e laws rfl hviews', hverdict, Except.ok.injEq]

/-- Once an answer is accepted, every other string of bytes that is read as an answer is accepted or
rejected according to the residues of its integers.  Of all strings that are accepted, just one has
every integer below the order of its statement. -/
theorem accepted_answers (laws : verifier.Lawful)
    (haccepts : verifier.AcceptsAnswer input a e second) :
    ∃ z, Message.decode verifier.secondLayout second = .ok z ∧
      (∀ second' z', Message.decode verifier.secondLayout second' = .ok z' →
        ∃ accepted, (verifier.setChallenge e).verify input a z' = .ok accepted ∧
          (accepted = true ↔ verifier.reduce z' = verifier.reduce z)) ∧
      ∃! least, verifier.AcceptsAnswer input a e least ∧
        ∃ z', Message.decode verifier.secondLayout least = .ok z' ∧ verifier.Reduced z' := by
  obtain ⟨z, hdecode, haccepted⟩ := haccepts
  have hlayout := Message.layout_of_decode hdecode
  have hjudged : ∀ second' z', Message.decode verifier.secondLayout second' = .ok z' →
      ∃ accepted, (verifier.setChallenge e).verify input a z' = .ok accepted ∧
        (accepted = true ↔ verifier.reduce z' = verifier.reduce z) :=
    fun second' z' hdecode' => verify_next_to_accepted laws
      ((Message.layout_of_decode hdecode').trans hlayout.symm) haccepted
  obtain ⟨least, hleast⟩ := exists_decode_reduce hlayout
  have hreduced := reduced_reduce hlayout
  obtain ⟨accepted, hverdict, hiff⟩ := hjudged least _ hleast
  rw [hiff.mpr (reduce_of_reduced hreduced)] at hverdict
  refine ⟨z, hdecode, hjudged, least, ⟨⟨_, hleast, hverdict⟩, _, hleast, hreduced⟩, ?_⟩
  rintro other ⟨⟨z', hdecode', hverdict'⟩, z'', hdecode'', hreduced'⟩
  rw [hdecode'] at hdecode''
  cases hdecode''
  obtain ⟨accepted', hother, hiff'⟩ := hjudged other z' hdecode'
  rw [hverdict'] at hother
  have hsame := hiff'.mp (Except.ok.inj hother).symm
  rw [reduce_of_reduced hreduced'] at hsame
  rw [hsame] at hdecode'
  exact Message.decode_inj hdecode' hleast

/-- To the challenge 1 the answer 16 comes to the same as 5, and 6 does not. -/
theorem accepted_answers_pairModulo23 :
    let verifier : Verifier Nat 3 := pairModulo23 none none
    let input : CommonInput Nat := .all [.one 18, .one 12]
    let a := Message.tuple [.element [16], .element [8]]
    verifier.AcceptsAnswer input a 1 [5, 1] ∧
      (verifier.setChallenge 1).verify input a (.tuple [.integer 16 1, .integer 1 1]) = .ok true ∧
      (verifier.setChallenge 1).verify input a (.tuple [.integer 6 1, .integer 1 1]) = .ok false ∧
      ∃! least, verifier.AcceptsAnswer input a 1 least ∧
        ∃ z', Message.decode verifier.secondLayout least = .ok z' ∧ verifier.Reduced z' := by
  intro verifier input a
  have haccepts : verifier.AcceptsAnswer input a 1 [5, 1] := ⟨_, rfl, rfl⟩
  obtain ⟨z, hdecode, hjudged, hleast⟩ :=
    accepted_answers (lawful_pairModulo23 none none) haccepts
  cases hdecode
  obtain ⟨larger, hlarger, hsame⟩ := hjudged [16, 1] _ rfl
  obtain ⟨other, hother, hdifferent⟩ := hjudged [6, 1] _ rfl
  rw [hsame.mpr rfl] at hlarger
  rw [Bool.eq_false_iff.mpr (mt hdifferent.mp nofun)] at hother
  exact ⟨haccepts, hlarger, hother, hleast⟩

/-- Two different strings of bytes are accepted in answer to one challenge. -/
theorem answers_not_unique_pairModulo23 :
    let verifier : Verifier Nat 3 := pairModulo23 none none
    let input : CommonInput Nat := .all [.one 18, .one 12]
    let a := Message.tuple [.element [16], .element [8]]
    verifier.Lawful ∧ verifier.AcceptsAnswer input a 1 [5, 1] ∧
      verifier.AcceptsAnswer input a 1 [16, 1] ∧ ([5, 1] : Bytes) ≠ [16, 1] :=
  ⟨lawful_pairModulo23 none none, ⟨_, rfl, rfl⟩, ⟨_, rfl, rfl⟩, by decide⟩

end Verifier

end ThreeMove
