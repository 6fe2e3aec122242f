import UnitPropagation.Branching
import UnitPropagation.Proofs.Coherence

namespace UnitPropagation

/-! Choosing and deciding, again and again, goes through the open variables once each.

The count of open variables and the list that is chosen from are kept apart, and each choice
changes both.  Of the generator nothing is needed but that it draws below its bound. -/

namespace Assignment

variable {model : Assignment} {x y : Nat} {l : Literal}

theorem openVariables_eq (model : Assignment) :
    model.openVariables = (List.range model.size).filter fun x => model.value x = .unknown := by
  have chosen : (fun x => if model.value x = .unknown then some x else none) =
      Option.guard fun x => decide (model.value x = .unknown) := by
    funext x
    simp [Option.guard]
  rw [openVariables, collectBelow_eq, List.append_nil, chosen, List.filterMap_eq_filter]

theorem mem_openVariables_iff :
    x ∈ model.openVariables ↔ x < model.size ∧ model.value x = .unknown := by
  rw [openVariables_eq, List.mem_filter, List.mem_range, decide_eq_true_eq]

theorem openVariables_ascending (model : Assignment) :
    model.openVariables.Pairwise fun earlier later => earlier < later := by
  rw [openVariables_eq]
  exact List.pairwise_lt_range.filter _

/-- The variables are the open ones and the assigned ones. -/
theorem length_openVariables (model : Assignment) :
    model.openVariables.length = model.numOpen := by
  have assigned : model.numAssigned =
      (List.range model.size).countP fun x => !decide (model.value x = .unknown) := by
    rw [numAssigned, ← Array.countP_toList, values_eq, List.countP_map]
    apply List.countP_congr
    intro x _
    cases stored : model.value x <;> simp [stored, Truth.isAssigned]
  have both := List.length_eq_countP_add_countP
    (fun x => decide (model.value x = .unknown)) (l := List.range model.size)
  rw [List.length_range] at both
  rw [openVariables_eq, ← List.countP_eq_length_filter, numOpen, assigned]
  simp only [decide_eq_true_eq, ← decide_not] at both ⊢
  omega

theorem value_set_of_ne (apart : x ≠ l.var) : (model.set l).value x = model.value x := by
  change (model.set l).truth ⟨x, true⟩ = model.truth ⟨x, true⟩
  exact truth_set_of_ne apart

theorem value_set_self (inside : l.var < model.size) : (model.set l).value l.var ≠ .unknown := by
  intro unknown
  have holds := truth_set_self inside
  cases positive : l.positive <;> simp [truth, positive, unknown, Truth.negate] at holds

/-- Deciding an open variable takes it, and no other, from the open ones. -/
theorem mem_openVariables_set (member : l.var ∈ model.openVariables) :
    y ∈ (model.set l).openVariables ↔ y ∈ model.openVariables ∧ y ≠ l.var := by
  have inside := (mem_openVariables_iff.mp member).1
  rw [mem_openVariables_iff, mem_openVariables_iff, size_set]
  by_cases same : y = l.var
  · simp [same, value_set_self inside]
  · simp [same, value_set_of_ne same]

theorem numOpen_set_of_mem (member : l.var ∈ model.openVariables) :
    (model.set l).numOpen + 1 = model.numOpen := by
  obtain ⟨inside, stored⟩ := mem_openVariables_iff.mp member
  apply numOpen_set inside
  unfold truth
  rw [stored]
  cases l.positive <;> rfl

end Assignment

namespace Generator

theorem drawFair_lt {bound limit : Nat} (positive : 0 < bound) (tries : Nat)
    (generator : Generator) : (drawFair bound limit tries generator).1 < bound := by
  have high : ∀ word : UInt64, word.toNat * bound / UInt64.size < bound := by
    intro word
    apply Nat.div_lt_of_lt_mul
    exact Nat.mul_lt_mul_of_pos_right word.toNat_lt_size positive
  induction tries generalizing generator with
  | zero => exact high _
  | succ tries ih =>
      rw [drawFair]
      dsimp only
      split
      · exact ih _
      · exact high _

theorem below_lt (generator : Generator) {bound : Nat} (positive : 0 < bound) :
    (generator.below bound).1 < bound := drawFair_lt positive _ generator

end Generator

namespace Branching

/-- `pick` with numbers from `draw`. -/
def pickBy (draw : Generator → Nat → Nat × Generator) (branching : Branching)
    (model : Assignment) (numOpen : Nat) : Option Nat × Branching :=
  match branching with
  | .first => (model.openVariables.head?, .first)
  | .random generator =>
      if numOpen = 0 then (none, .random generator)
      else
        let (index, generator) := draw generator numOpen
        (model.openVariables[index]?, .random generator)

theorem pickBy_below : pickBy Generator.below = pick := rfl

/-- What is chosen in a number of rounds.  A variable that is chosen is given the value of
`sign` before the next round. -/
def choices (choose : Branching → Assignment → Nat → Option Nat × Branching) (sign : Nat → Bool) :
    Nat → Branching → Assignment → List (Option Nat)
  | 0, _, _ => []
  | rounds + 1, branching, model =>
      match choose branching model model.numOpen with
      | (none, branching) => none :: choices choose sign rounds branching model
      | (some x, branching) =>
          some x :: choices choose sign rounds branching (model.set ⟨x, sign x⟩)

/-- Rounds of choosing find every open variable of a model once, and nothing after that. -/
structure Exhausts (choose : Branching → Assignment → Nat → Option Nat × Branching)
    (branching : Branching) (model : Assignment) (sign : Nat → Bool) (picked : List Nat) :
    Prop where
  count : picked.length = model.numOpen
  distinct : picked.Nodup
  mem : ∀ x, x ∈ picked ↔ x < model.size ∧ model.value x = .unknown
  ascending : branching = .first → picked.Pairwise fun earlier later => earlier < later
  answers : ∀ extra, choices choose sign (model.numOpen + extra) branching model =
    picked.map some ++ List.replicate extra none

/-- A random choice is the open variable whose rank is the number drawn. -/
structure PicksByRank (draw : Generator → Nat → Nat × Generator)
    (choose : Branching → Assignment → Nat → Option Nat × Branching) (model : Assignment) :
    Prop where
  listed : ∀ {x}, x ∈ model.openVariables ↔ x < model.size ∧ model.value x = .unknown
  ascending : model.openVariables.Pairwise fun earlier later => earlier < later
  drawn : ∀ generator, model.numOpen ≠ 0 → ∃ x,
    model.openVariables[(draw generator model.numOpen).1]? = some x ∧
    choose (.random generator) model model.numOpen =
      (some x, .random (draw generator model.numOpen).2)
  apart : ∀ left right x, (choose (.random left) model model.numOpen).1 = some x →
    (choose (.random right) model model.numOpen).1 = some x →
    (draw left model.numOpen).1 = (draw right model.numOpen).1
  reachable : ∀ x ∈ model.openVariables, ∃ rank < model.numOpen, ∀ generator,
    (draw generator model.numOpen).1 = rank →
    (choose (.random generator) model model.numOpen).1 = some x

variable {draw : Generator → Nat → Nat × Generator} {generator : Generator}
  {branching : Branching} {model : Assignment} {x : Nat} {sign : Nat → Bool}

theorem pickBy_of_full (full : model.numOpen = 0) :
    pickBy draw branching model model.numOpen = (none, branching) := by
  have none : model.openVariables = [] := by
    rw [← List.length_eq_zero_iff, Assignment.length_openVariables, full]
  cases branching with
  | first => simp [pickBy, none]
  | random generator => simp [pickBy, full]

theorem pickBy_random (available : model.numOpen ≠ 0) :
    pickBy draw (.random generator) model model.numOpen =
      (model.openVariables[(draw generator model.numOpen).1]?,
        .random (draw generator model.numOpen).2) := by
  simp only [pickBy, available, ↓reduceIte]

theorem choices_of_full {choose : Branching → Assignment → Nat → Option Nat × Branching}
    (silent : ∀ branching, choose branching model model.numOpen = (none, branching))
    (rounds : Nat) : choices choose sign rounds branching model = List.replicate rounds none := by
  induction rounds with
  | zero => rfl
  | succ rounds ih =>
      rw [choices, silent]
      dsimp only
      rw [ih, List.replicate_succ]

section

variable (below : ∀ generator bound, 0 < bound → (draw generator bound).1 < bound)

include below

theorem getElem?_draw (available : model.numOpen ≠ 0) (generator : Generator) :
    ∃ x ∈ model.openVariables,
      model.openVariables[(draw generator model.numOpen).1]? = some x := by
  have inside : (draw generator model.numOpen).1 < model.openVariables.length := by
    rw [Assignment.length_openVariables]
    exact below generator model.numOpen (Nat.pos_of_ne_zero available)
  exact ⟨_, List.getElem_mem inside, List.getElem?_eq_getElem inside⟩

/-- A choice is an open variable, for the first rule the lowest one. -/
theorem pickBy_of_open (available : model.numOpen ≠ 0) (branching : Branching) :
    ∃ x next, pickBy draw branching model model.numOpen = (some x, next) ∧
      x ∈ model.openVariables ∧
      (branching = .first → next = .first ∧ ∀ y ∈ model.openVariables, x ≤ y) := by
  cases branching with
  | first =>
      cases listed : model.openVariables with
      | nil =>
          rw [← Assignment.length_openVariables, listed] at available
          exact absurd rfl available
      | cons x rest =>
          have ascending := model.openVariables_ascending
          rw [listed, List.pairwise_cons] at ascending
          refine ⟨x, .first, by simp [pickBy, listed], by simp, fun _ => ⟨rfl, ?_⟩⟩
          intro y member
          rcases List.mem_cons.mp member with same | later
          · exact Nat.le_of_eq same.symm
          · exact Nat.le_of_lt (ascending.1 y later)
  | random generator =>
      obtain ⟨x, member, drawn⟩ := getElem?_draw below available generator
      exact ⟨x, .random (draw generator model.numOpen).2, by rw [pickBy_random available, drawn],
        member, by simp⟩

/-- The induction is on the number of open variables, which each choice makes smaller. -/
theorem pickBy_exhausts (branching : Branching) (model : Assignment) (sign : Nat → Bool) :
    ∃ picked, Exhausts (pickBy draw) branching model sign picked := by
  generalize counted : model.numOpen = remaining
  induction remaining generalizing branching model with
  | zero =>
      have noneOpen : model.openVariables = [] := by
        rw [← List.length_eq_zero_iff, Assignment.length_openVariables, counted]
      refine ⟨[], counted.symm, .nil, ?_, fun _ => .nil, ?_⟩
      · intro x
        rw [← Assignment.mem_openVariables_iff, noneOpen]
      · intro extra
        rw [counted, Nat.zero_add]
        exact choices_of_full (fun _ => pickBy_of_full counted) extra
  | succ remaining ih =>
      obtain ⟨x, next, chosen, member, lowest⟩ :=
        pickBy_of_open below (by omega : model.numOpen ≠ 0) branching
      have fewer := Assignment.numOpen_set_of_mem (l := ⟨x, sign x⟩) member
      obtain ⟨picked, rest⟩ := ih next (model.set ⟨x, sign x⟩) (by omega)
      have others : ∀ y, y ∈ picked ↔ y ∈ model.openVariables ∧ y ≠ x := by
        intro y
        rw [rest.mem, ← Assignment.mem_openVariables_iff]
        exact Assignment.mem_openVariables_set member
      refine ⟨x :: picked, by rw [List.length_cons, rest.count, fewer],
        List.nodup_cons.mpr ⟨fun again => ((others x).mp again).2 rfl, rest.distinct⟩, ?_, ?_, ?_⟩
      · intro y
        rw [← Assignment.mem_openVariables_iff, List.mem_cons, others]
        by_cases equal : y = x
        · simp [equal, member]
        · simp [equal]
      · intro first
        obtain ⟨stays, least⟩ := lowest first
        refine List.pairwise_cons.mpr ⟨?_, rest.ascending stays⟩
        intro y later
        obtain ⟨stillOpen, apart⟩ := (others y).mp later
        exact Nat.lt_of_le_of_ne (least y stillOpen) (Ne.symm apart)
      · intro extra
        rw [← fewer, Nat.add_right_comm, choices, chosen]
        dsimp only
        rw [rest.answers extra]
        rfl

theorem pickBy_picksByRank (model : Assignment) : PicksByRank draw (pickBy draw) model where
  listed := Assignment.mem_openVariables_iff
  ascending := model.openVariables_ascending
  drawn := by
    intro generator available
    obtain ⟨x, _, drawn⟩ := getElem?_draw below available generator
    exact ⟨x, drawn, by rw [pickBy_random available, drawn]⟩
  apart := by
    intro left right x leftPicked rightPicked
    by_cases available : model.numOpen = 0
    · rw [pickBy_of_full available] at leftPicked
      nomatch leftPicked
    · rw [pickBy_random available] at leftPicked rightPicked
      have inside := (List.getElem?_eq_some_iff.mp leftPicked).1
      have distinct : model.openVariables.Nodup :=
        model.openVariables_ascending.imp Nat.ne_of_lt
      exact (List.getElem?_inj inside distinct).mp (leftPicked.trans rightPicked.symm)
  reachable := by
    intro x stillOpen
    obtain ⟨rank, inside, stored⟩ := List.mem_iff_getElem.mp stillOpen
    rw [Assignment.length_openVariables] at inside
    refine ⟨rank, inside, ?_⟩
    intro generator drawn
    rw [pickBy_random (by omega), drawn]
    exact List.getElem?_eq_some_iff.mpr ⟨_, stored⟩

end

/-- Only that the generator draws below its bound is asked of it. -/
theorem picks_exhaust_open
    (below : ∀ generator bound, 0 < bound → (draw generator bound).1 < bound) :
    (∀ branching model sign, ∃ picked, Exhausts (pickBy draw) branching model sign picked) ∧
    (∀ model, PicksByRank draw (pickBy draw) model) ∧
    (∀ branching model sign, ∃ picked, Exhausts pick branching model sign picked) ∧
    (∀ model, PicksByRank Generator.below pick model) := by
  have fair : ∀ (generator : Generator) bound, 0 < bound → (generator.below bound).1 < bound :=
    fun generator _ => generator.below_lt
  rw [← pickBy_below]
  exact ⟨pickBy_exhausts below, pickBy_picksByRank below, pickBy_exhausts fair,
    pickBy_picksByRank fair⟩

/-- Three of five variables are open. -/
theorem gaps_exhausted :
    (∀ (generator : Generator) bound, 0 < bound → (generator.below bound).1 < bound) ∧
    (∃ picked, Exhausts pick (.random (.ofSeed standardSeed))
      ⟨#[.unknown, .holds, .unknown, .fails, .unknown]⟩ (fun x => x % 4 = 0) picked) ∧
    choices pick (fun x => x % 4 = 0) 4 (.random (.ofSeed standardSeed))
      ⟨#[.unknown, .holds, .unknown, .fails, .unknown]⟩ = [some 2, some 4, some 0, none] ∧
    choices pick (fun x => x % 4 = 0) 4 .first
      ⟨#[.unknown, .holds, .unknown, .fails, .unknown]⟩ = [some 0, some 2, some 4, none] := by
  have fair : ∀ (generator : Generator) bound, 0 < bound → (generator.below bound).1 < bound :=
    fun generator _ => generator.below_lt
  exact ⟨fair, (picks_exhaust_open fair).2.2.1 _ _ _, by decide +kernel, by decide +kernel⟩

end Branching

end UnitPropagation
