import Mathlib.Data.Set.Finite.Lattice
import ThreeMove.Proofs.Challenge
import ThreeMove.Proofs.Composition.Statements
import ThreeMove.Prover

/-!
# Draws of a composition

A move with randomness draws one number below the order for each statement, from left to
right.  Nothing in that range is left out: every choice of such numbers comes from some source.
-/

namespace ThreeMove

namespace Bytes

theorem toNatLittle_reverse (bytes : Bytes) : toNatLittle bytes.reverse = bytes.toNat := by
  rw [toNatLittle, List.foldr_reverse, toNat]
  congr 1
  funext n byte
  omega

end Bytes

namespace Source

def skip (source : Source) (count : Nat) : Source :=
  { source with position := source.position + count }

def Starts (source : Source) (bytes : Bytes) : Prop :=
  (source.take bytes.length).1 = bytes

theorem take_add (source : Source) (m n : Nat) :
    (source.take (m + n)).1 = (source.take m).1 ++ ((source.skip m).take n).1 := by
  simp [take, skip, List.range_add, Nat.add_assoc]

theorem skip_skip (source : Source) (m n : Nat) :
    (source.skip m).skip n = source.skip (m + n) := by
  simp [skip, Nat.add_assoc]

theorem starts_append {source : Source} {front back : Bytes} :
    source.Starts (front ++ back) ↔
      source.Starts front ∧ (source.skip front.length).Starts back := by
  have hlen : (source.take front.length).1.length = front.length := by simp [take]
  unfold Starts
  rw [List.length_append, take_add]
  constructor
  · intro happend
    exact List.append_inj happend hlen
  · rintro ⟨hfront, hback⟩
    rw [hfront, hback]

/-- The source that has the given bytes in front and zeros behind. -/
def ofBytes (bytes : Bytes) : Source :=
  ⟨fun i => bytes.getD i 0, 0⟩

theorem starts_ofBytes (bytes : Bytes) : (ofBytes bytes).Starts bytes := by
  unfold Starts take ofBytes
  apply List.ext_getElem
  · simp
  · intro i hi hi'
    simp [hi']

/-- Every number of at most `count` digits is drawn from some bytes. -/
theorem exists_bits {count n : Nat} (hn : n < 2 ^ count) :
    ∃ bytes : Bytes, ∀ source : Source, source.Starts bytes →
      source.bits count = (n, source.skip bytes.length) := by
  rcases Nat.eq_zero_or_pos count with rfl | hpos
  · have hzero : n = 0 := by simpa using hn
    refine ⟨[], fun source _ => ?_⟩
    simp [hzero, bits, take, skip, Bytes.toNatLittle]
  · -- all words but the last one are full, and the last one has `surplus` digits too many
    obtain ⟨words, hwords⟩ : ∃ words, (count + 31) / 32 = words + 1 :=
      ⟨(count + 31) / 32 - 1, by omega⟩
    obtain ⟨surplus, hsurplus⟩ : ∃ surplus, 32 * (words + 1) = count + surplus :=
      ⟨32 * (words + 1) - count, by omega⟩
    let low := n % 2 ^ (32 * words)
    let high := n / 2 ^ (32 * words)
    have hlow : bitLength low ≤ 8 * (4 * words) := by
      rw [← lt_two_pow_iff, show 8 * (4 * words) = 32 * words by omega]
      exact Nat.mod_lt n (Nat.two_pow_pos _)
    have hdigits : high < 2 ^ (32 - surplus) := by
      apply Nat.div_lt_of_lt_mul
      rw [← Nat.pow_add, show 32 * words + (32 - surplus) = count by omega]
      exact hn
    have hhigh : bitLength (high * 2 ^ surplus) ≤ 8 * 4 := by
      rw [← lt_two_pow_iff, show 8 * 4 = 32 - surplus + surplus by omega, Nat.pow_add]
      exact Nat.mul_lt_mul_of_pos_right hdigits (Nat.two_pow_pos _)
    refine ⟨(Bytes.ofNat (4 * words) low).reverse ++ (Bytes.ofNat 4 (high * 2 ^ surplus)).reverse,
      fun source hstarts => ?_⟩
    have hlen : (Bytes.ofNat (4 * words) low).reverse.length = 4 * words := by simp
    have htotal : ((Bytes.ofNat (4 * words) low).reverse ++
        (Bytes.ofNat 4 (high * 2 ^ surplus)).reverse).length = 4 * (words + 1) := by
      simp
      omega
    unfold Starts at hstarts
    rw [htotal] at hstarts
    unfold bits
    dsimp only
    rw [hwords, hstarts, Nat.add_sub_cancel, List.take_left' hlen, List.drop_left' hlen,
      Bytes.toNatLittle_reverse, Bytes.toNatLittle_reverse, Bytes.toNat_ofNat hlow,
      Bytes.toNat_ofNat hhigh, htotal, hsurplus, Nat.add_sub_cancel_left,
      Nat.shiftRight_eq_div_pow, Nat.mul_div_cancel _ (Nat.two_pow_pos _), Nat.shiftLeft_eq,
      Nat.mul_comm high, Nat.mod_add_div]
    rfl

/-- Every number below a bound is drawn in the first attempt from some bytes. -/
theorem exists_below {bound n : Nat} (hn : n < bound) :
    ∃ bytes : Bytes, ∀ source : Source, source.Starts bytes →
      source.below bound = (n, source.skip bytes.length) := by
  have hbound : bound < 2 ^ bitLength bound := by
    rw [lt_two_pow_iff]
  obtain ⟨bytes, hbytes⟩ := exists_bits (Nat.lt_trans hn hbound)
  refine ⟨bytes, fun source hstarts => ?_⟩
  rw [below, belowWithin, hbytes source hstarts]
  simp [hn]

theorem exists_source_below {bound n : Nat} (hn : n < bound) :
    ∃ source : Source, (source.below bound).1 = n := by
  obtain ⟨bytes, hbytes⟩ := exists_below hn
  exact ⟨ofBytes bytes, congrArg Prod.fst (hbytes _ (starts_ofBytes bytes))⟩

theorem exists_skip_below (source : Source) (bound : Nat) :
    ∃ count, (source.below bound).2 = source.skip count := by
  have hwithin : ∀ attempts source, ∃ count,
      (belowWithin bound attempts source).2 = source.skip count := by
    intro attempts
    induction attempts with
    | zero => exact fun _ => ⟨0, rfl⟩
    | succ attempts ih =>
        intro source
        unfold belowWithin
        dsimp only
        split
        · exact ⟨_, rfl⟩
        · obtain ⟨count, hcount⟩ := ih (source.bits (bitLength bound)).2
          exact ⟨_, hcount.trans (skip_skip source _ count)⟩
  exact hwithin 65536 source

end Source

namespace Composition

variable {E : Type} {t : Nat} {σ ν σ' ν' α : Type}

mutual

def draw : Composition E t σ ν → Source → Input Nat × Source
  | one params _, source =>
      let (n, rest) := source.below params.group.order
      (.one n, rest)
  | all _ _ parts, source =>
      let (draws, rest) := drawAll parts source
      (.all draws, rest)

def drawAll : List (Composition E t σ ν) → Source → List (Input Nat) × Source
  | [], source => ([], source)
  | part :: parts, source =>
      let (draw, rest) := part.draw source
      let (draws, rest) := drawAll parts rest
      (draw :: draws, rest)

end

/-- One number below the order for each statement. -/
def IsDraw (c : Composition E t σ ν) (draws : Input Nat) : Prop :=
  c.AtEach (fun params _ n => n < params.group.order) draws

abbrev IsDrawAll (parts : List (Composition E t σ ν)) (draws : List (Input Nat)) : Prop :=
  AtEachAll (fun params _ n => n < params.group.order) parts draws

mutual

theorem isDraw_draw : ∀ (c : Composition E t σ ν) (source : Source), c.IsDraw (c.draw source).1
  | one params _, source => Source.below_lt source (Nat.zero_lt_of_lt params.challengeCount_lt)
  | all _ _ parts, source => isDrawAll_drawAll parts source

theorem isDrawAll_drawAll : ∀ (parts : List (Composition E t σ ν)) (source : Source),
    IsDrawAll parts (drawAll parts source).1
  | [], _ => trivial
  | part :: parts, source =>
      ⟨isDraw_draw part source, isDrawAll_drawAll parts (part.draw source).2⟩

end

mutual

theorem exists_bytes_of_isDraw : ∀ (c : Composition E t σ ν) (draws : Input Nat),
    c.IsDraw draws → ∃ bytes : Bytes, ∀ source : Source, source.Starts bytes →
      c.draw source = (draws, source.skip bytes.length)
  | one params _, .one n, hdraw => by
      obtain ⟨bytes, hbytes⟩ := Source.exists_below hdraw
      refine ⟨bytes, fun source hstarts => ?_⟩
      rw [draw, hbytes source hstarts]
  | all _ _ parts, .all draws, hdraw => by
      obtain ⟨bytes, hbytes⟩ := exists_bytes_of_isDrawAll parts draws hdraw
      refine ⟨bytes, fun source hstarts => ?_⟩
      rw [draw, hbytes source hstarts]

theorem exists_bytes_of_isDrawAll : ∀ (parts : List (Composition E t σ ν))
    (draws : List (Input Nat)), IsDrawAll parts draws →
    ∃ bytes : Bytes, ∀ source : Source, source.Starts bytes →
      drawAll parts source = (draws, source.skip bytes.length)
  | [], [], _ => ⟨[], fun _ _ => rfl⟩
  | part :: parts, n :: draws, ⟨hpart, hparts⟩ => by
      obtain ⟨front, hfront⟩ := exists_bytes_of_isDraw part n hpart
      obtain ⟨back, hback⟩ := exists_bytes_of_isDrawAll parts draws hparts
      refine ⟨front ++ back, fun source hstarts => ?_⟩
      obtain ⟨hhere, hbehind⟩ := Source.starts_append.mp hstarts
      rw [drawAll, hfront source hhere]
      dsimp only
      rw [hback _ hbehind, Source.skip_skip, List.length_append]

end

mutual

theorem draw_map (f : σ → σ') (g : ν → ν') : ∀ (c : Composition E t σ ν) (source : Source),
    (c.map f g).draw source = c.draw source
  | one _ _, _ => rfl
  | all _ _ parts, source => by
      rw [map, draw, draw, drawAll_map f g parts]

theorem drawAll_map (f : σ → σ') (g : ν → ν') : ∀ (parts : List (Composition E t σ ν))
    (source : Source), drawAll (mapAll f g parts) source = drawAll parts source
  | [], _ => rfl
  | part :: parts, source => by
      rw [mapAll, drawAll, drawAll, draw_map f g part]
      dsimp only
      rw [drawAll_map f g parts]

end

mutual

theorem finite_isDraw : ∀ c : Composition E t σ ν, {draws | c.IsDraw draws}.Finite
  | one params _ => by
      refine ((Set.finite_Iio params.group.order).image Input.one).subset ?_
      rintro (n | parts) hdraw
      · exact ⟨n, hdraw, rfl⟩
      · cases hdraw
  | all _ _ parts => by
      refine ((finite_isDrawAll parts).image Input.all).subset ?_
      rintro (n | draws) hdraw
      · cases hdraw
      · exact ⟨draws, hdraw, rfl⟩

theorem finite_isDrawAll : ∀ parts : List (Composition E t σ ν),
    {draws | IsDrawAll parts draws}.Finite
  | [] => by
      refine (Set.finite_singleton []).subset ?_
      rintro (_ | ⟨draw, draws⟩) hdraw
      · rfl
      · cases hdraw
  | part :: parts => by
      refine (Set.Finite.image2 List.cons (finite_isDraw part) (finite_isDrawAll parts)).subset ?_
      rintro (_ | ⟨draw, draws⟩) hdraw
      · cases hdraw
      · exact ⟨draw, hdraw.1, draws, hdraw.2, rfl⟩

end

/-- Every choice of numbers below the orders is drawn from some source. -/
theorem exists_source_of_isDraw {c : Composition E t σ ν} {draws : Input Nat}
    (hdraw : c.IsDraw draws) : ∃ source, (c.draw source).1 = draws := by
  obtain ⟨bytes, hbytes⟩ := exists_bytes_of_isDraw c draws hdraw
  exact ⟨.ofBytes bytes, congrArg Prod.fst (hbytes _ (Source.starts_ofBytes bytes))⟩

mutual

/-- Adds `k` to each draw, modulo the order. -/
def shift (k : Parameters E t → α → Nat) :
    Composition E t σ ν → Input α → Input Nat → Input Nat
  | one params _, .one item, .one n => .one ((n + k params item) % params.group.order)
  | all _ _ parts, .all inputs, .all draws => .all (shiftAll k parts inputs draws)
  | _, _, draws => draws

def shiftAll (k : Parameters E t → α → Nat) :
    List (Composition E t σ ν) → List (Input α) → List (Input Nat) → List (Input Nat)
  | part :: parts, input :: inputs, draw :: draws =>
      shift k part input draw :: shiftAll k parts inputs draws
  | _, _, draws => draws

end

mutual

theorem isDraw_shift (k : Parameters E t → α → Nat) : ∀ {c : Composition E t σ ν}
    {input : Input α} {draws : Input Nat}, c.Fits input → c.IsDraw draws →
    c.IsDraw (c.shift k input draws)
  | one params _, .one _, .one _, _, _ =>
      Nat.mod_lt _ (Nat.zero_lt_of_lt params.challengeCount_lt)
  | all _ _ _, .all _, .all _, hfits, hdraw => isDrawAll_shiftAll k hfits hdraw

theorem isDrawAll_shiftAll (k : Parameters E t → α → Nat) :
    ∀ {parts : List (Composition E t σ ν)} {inputs : List (Input α)} {draws : List (Input Nat)},
    AtEachAll (fun _ _ _ => True) parts inputs → IsDrawAll parts draws →
    IsDrawAll parts (shiftAll k parts inputs draws)
  | [], [], [], _, _ => trivial
  | _ :: _, _ :: _, _ :: _, ⟨hpart, hparts⟩, ⟨hdraw, hdraws⟩ =>
      ⟨isDraw_shift k hpart hdraw, isDrawAll_shiftAll k hparts hdraws⟩

end

mutual

/-- A shift is taken back by one that completes it to a multiple of the order. -/
theorem shift_shift {k k' : Parameters E t → α → Nat}
    (hdvd : ∀ params item, params.group.order ∣ k params item + k' params item) :
    ∀ {c : Composition E t σ ν} {input : Input α} {draws : Input Nat},
    c.Fits input → c.IsDraw draws → c.shift k' input (c.shift k input draws) = draws
  | one params _, .one item, .one n, _, hdraw => by
      obtain ⟨m, hm⟩ := hdvd params item
      change Input.one _ = _
      rw [Nat.mod_add_mod, Nat.add_assoc, hm, Nat.add_mul_mod_self_left, Nat.mod_eq_of_lt hdraw]
  | all _ _ _, .all _, .all _, hfits, hdraw =>
      congrArg Input.all (shiftAll_shiftAll hdvd hfits hdraw)

theorem shiftAll_shiftAll {k k' : Parameters E t → α → Nat}
    (hdvd : ∀ params item, params.group.order ∣ k params item + k' params item) :
    ∀ {parts : List (Composition E t σ ν)} {inputs : List (Input α)} {draws : List (Input Nat)},
    AtEachAll (fun _ _ _ => True) parts inputs → IsDrawAll parts draws →
    shiftAll k' parts inputs (shiftAll k parts inputs draws) = draws
  | [], [], [], _, _ => rfl
  | _ :: _, _ :: _, _ :: _, ⟨hpart, hparts⟩, ⟨hdraw, hdraws⟩ =>
      congrArg₂ List.cons (shift_shift hdvd hpart hdraw) (shiftAll_shiftAll hdvd hparts hdraws)

end

/-- Shifted draws are the draws in another order. -/
theorem bijOn_shift (k : Parameters E t → α → Nat) {c : Composition E t σ ν} {input : Input α}
    (hfits : c.Fits input) :
    Set.BijOn (c.shift k input) {draws | c.IsDraw draws} {draws | c.IsDraw draws} := by
  let back : Parameters E t → α → Nat := fun params item =>
    (params.group.order - 1) * k params item
  have hcycle : ∀ (params : Parameters E t) (item : α),
      k params item + back params item = params.group.order * k params item := by
    intro params item
    have hpos := Nat.zero_lt_of_lt params.challengeCount_lt
    calc k params item + (params.group.order - 1) * k params item
        = (params.group.order - 1 + 1) * k params item := by rw [Nat.succ_mul, Nat.add_comm]
      _ = params.group.order * k params item := by rw [Nat.sub_add_cancel hpos]
  have hleft : ∀ params item, params.group.order ∣ k params item + back params item :=
    fun params item => ⟨k params item, hcycle params item⟩
  have hright : ∀ params item, params.group.order ∣ back params item + k params item := by
    intro params item
    rw [Nat.add_comm]
    exact hleft params item
  have hinverse : Set.InvOn (c.shift back input) (c.shift k input) {draws | c.IsDraw draws}
      {draws | c.IsDraw draws} :=
    ⟨fun draws hdraw => shift_shift hleft hfits hdraw,
      fun draws hdraw => shift_shift hright hfits hdraw⟩
  refine hinverse.bijOn ?_ ?_
  · exact fun draws hdraw => isDraw_shift k hfits hdraw
  · exact fun draws hdraw => isDraw_shift back hfits hdraw

end Composition

namespace Prover

variable {E : Type} {t : Nat}

mutual

theorem exists_skip_first : ∀ (prover : Prover E t) (input : ProverInput E) (source : Source),
    ∃ count, (first prover input source).2.2 = source.skip count
  | .one params _, .one _, source => source.exists_skip_below params.group.order
  | .one _ _, .all _, _ => ⟨0, rfl⟩
  | .all _ _ _, .one _, _ => ⟨0, rfl⟩
  | .all _ _ parts, .all inputs, source => by
      unfold first
      split
      · exact exists_skip_firstAll parts inputs source
      · exact ⟨0, rfl⟩

theorem exists_skip_firstAll : ∀ (parts : List (Prover E t)) (inputs : List (ProverInput E))
    (source : Source), ∃ count, (firstAll parts inputs source).2.2 = source.skip count
  | [], _, _ => by
      rw [firstAll]
      · exact ⟨0, rfl⟩
      · nofun
  | _ :: _, [], _ => ⟨0, rfl⟩
  | part :: parts, input :: inputs, source => by
      obtain ⟨count, hcount⟩ := exists_skip_first part input source
      unfold firstAll
      generalize first part input source = outcome at hcount ⊢
      obtain ⟨result, part', rest⟩ := outcome
      cases result with
      | error e => exact ⟨count, hcount⟩
      | ok message =>
          obtain ⟨more, hmore⟩ := exists_skip_firstAll parts inputs rest
          cases hcount
          exact ⟨count + more, hmore.trans (source.skip_skip count more)⟩

end

end Prover

end ThreeMove
