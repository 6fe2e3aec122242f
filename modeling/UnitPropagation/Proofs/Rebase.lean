import UnitPropagation.Proofs.Clause
import UnitPropagation.Proofs.Reachable
import UnitPropagation.Proofs.Soundness

namespace UnitPropagation

/-! What the clauses left under a model, together with the model, say.

Clauses with all their literals false are left out.  Without such clauses nothing is lost: each
true literal stands in the database as a unit clause, so what the clauses left and the model say
together is what the database says. -/

variable {valuation : Nat → Bool}

namespace Assignment

variable {model : Assignment} {l : Literal} {literals : List Literal}

/-- The literals that do not fail. -/
def remainder (model : Assignment) (literals : List Literal) : List Literal :=
  literals.filter fun l => model.truth l ≠ .fails

/-- Neither does a literal hold, nor do all of them fail. -/
def Leaves (model : Assignment) (literals : List Literal) : Prop :=
  ¬ model.Satisfies literals ∧ ¬ model.Falsifies literals

instance (model : Assignment) (literals : List Literal) : Decidable (model.Leaves literals) :=
  inferInstanceAs (Decidable (_ ∧ _))

/-- Every variable with a value has the same value in `valuation`. -/
def Agrees (model : Assignment) (valuation : Nat → Bool) : Prop :=
  ∀ x value, (model.value x).toBool? = some value → valuation x = value

theorem truth_holds_iff : model.truth l = .holds ↔
    (model.value l.var).toBool? = some l.positive := by
  obtain ⟨var, positive⟩ := l
  cases positive <;> cases stored : model.value var <;>
    simp [truth, stored, Truth.negate, Truth.toBool?]

theorem agrees_iff : model.Agrees valuation ↔
    ∀ l, model.truth l = .holds → l.TrueUnder valuation := by
  constructor
  · intro agrees l holds
    exact agrees l.var l.positive (truth_holds_iff.mp holds)
  · intro each x value stored
    exact each ⟨x, value⟩ (truth_holds_iff.mpr stored)

theorem Agrees.not_trueUnder (agrees : model.Agrees valuation) (fails : model.truth l = .fails) :
    ¬ l.TrueUnder valuation := by
  intro holds
  exact holds.not_negate (agrees_iff.mp agrees l.negate (negate_holds_iff.mpr fails))

theorem literals_eq (model : Assignment) : model.literals =
    (List.range model.size).filterMap fun x => (model.value x).toBool?.map (⟨x, ·⟩) := by
  rw [literals, collectBelow_eq, List.append_nil]

theorem mem_literals_iff : l ∈ model.literals ↔ model.truth l = .holds := by
  rw [literals_eq, List.mem_filterMap]
  constructor
  · intro chosen
    obtain ⟨x, _, named⟩ := chosen
    obtain ⟨value, stored, same⟩ := Option.map_eq_some_iff.mp named
    rw [← same, truth_holds_iff]
    exact stored
  · intro holds
    exact ⟨l.var, List.mem_range.mpr (var_lt_of_holds holds), by rw [truth_holds_iff.mp holds]; rfl⟩

theorem literals_ascending (model : Assignment) :
    model.literals.Pairwise fun left right => left.var < right.var := by
  rw [literals_eq]
  apply List.Pairwise.filterMap _ _ List.pairwise_lt_range
  intro x y less left leftNamed right rightNamed
  obtain ⟨_, _, rfl⟩ := Option.map_eq_some_iff.mp leftNamed
  obtain ⟨_, _, rfl⟩ := Option.map_eq_some_iff.mp rightNamed
  exact less

theorem remainder_eq_nil_iff : model.remainder literals = [] ↔ model.Falsifies literals := by
  simp [remainder, Falsifies, List.filter_eq_nil_iff]

theorem unknown_of_mem_remainder (unsatisfied : ¬ model.Satisfies literals)
    (member : l ∈ model.remainder literals) : model.truth l = .unknown := by
  obtain ⟨occurs, possible⟩ := List.mem_filter.mp member
  cases truth : model.truth l with
  | unknown => rfl
  | fails => simp [truth] at possible
  | holds => exact absurd ⟨l, occurs, truth⟩ unsatisfied

end Assignment

namespace Clause

variable {model : Assignment} {clause : Clause}

theorem residue?_eq (clause : Clause) (model : Assignment) : clause.residue? model =
    if model.Leaves clause.literals then some (model.remainder clause.literals) else none := by
  unfold residue?
  by_cases satisfied : model.Satisfies clause.literals
  · have some : clause.literals.any (model.truth · = .holds) = true := by
      simpa [Assignment.Satisfies] using satisfied
    simp [some, Assignment.Leaves, satisfied]
  · have none : clause.literals.any (model.truth · = .holds) = false := by
      simpa [Assignment.Satisfies] using satisfied
    have left : clause.literals.filter (model.truth · ≠ .fails) =
        model.remainder clause.literals := rfl
    simp only [none, left, Bool.false_eq_true, ↓reduceIte, Assignment.Leaves, satisfied,
      not_false_eq_true, true_and, ← Assignment.remainder_eq_nil_iff]
    cases model.remainder clause.literals <;> simp

/-- Under a valuation that agrees with the model, false literals make no difference. -/
theorem trueUnder_remainder_iff (agrees : model.Agrees valuation) :
    (ofLiterals (model.remainder clause.literals)).TrueUnder valuation ↔
      clause.TrueUnder valuation := by
  simp only [TrueUnder, ofLiterals_literals, Literal.mem_sort, Assignment.remainder,
    List.mem_filter, decide_eq_true_eq]
  constructor
  · intro satisfied
    obtain ⟨l, ⟨occurs, _⟩, holds⟩ := satisfied
    exact ⟨l, occurs, holds⟩
  · intro satisfied
    obtain ⟨l, occurs, holds⟩ := satisfied
    exact ⟨l, ⟨occurs, fun fails => agrees.not_trueUnder fails holds⟩, holds⟩

end Clause

namespace State

variable {state : State} {accepted : List Clause} {decided : List Literal}

theorem reduced_eq_map (state : State) : state.reduced =
    (state.clauses.toList.filter fun clause => state.model.Leaves clause.literals).map
      fun clause => .ofLiterals (state.model.remainder clause.literals) := by
  simp only [reduced, Clause.residue?_eq]
  induction state.clauses.toList with
  | nil => rfl
  | cons clause rest ih =>
      by_cases leaves : state.model.Leaves clause.literals
      · simp only [List.filterMap_cons, List.filter_cons, leaves, ↓reduceIte, Option.map_some,
          decide_true, List.map_cons, ih]
      · simp only [List.filterMap_cons, List.filter_cons, leaves, ↓reduceIte, Option.map_none,
          decide_false, Bool.false_eq_true, ih]

theorem forall_mem_reduced {holds : Clause → Prop} : (∀ clause ∈ state.reduced, holds clause) ↔
    ∀ source ∈ state.clauses.toList, state.model.Leaves source.literals →
      holds (.ofLiterals (state.model.remainder source.literals)) := by
  rw [reduced_eq_map, List.forall_mem_map]
  simp only [List.mem_filter, decide_eq_true_eq, and_imp]

theorem forall_mem_units {holds : Clause → Prop} : (∀ clause ∈ state.units, holds clause) ↔
    ∀ l, state.model.truth l = .holds → holds (.ofLiterals [l]) := by
  rw [units, List.forall_mem_map]
  simp only [Assignment.mem_literals_iff]

theorem forall_mem_rebased {holds : Clause → Prop} : (∀ clause ∈ state.rebased, holds clause) ↔
    (∀ source ∈ state.clauses.toList, state.model.Leaves source.literals →
      holds (.ofLiterals (state.model.remainder source.literals))) ∧
    ∀ l, state.model.truth l = .holds → holds (.ofLiterals [l]) := by
  rw [rebased, List.forall_mem_append, forall_mem_reduced, forall_mem_units]

theorem units_trueUnder_iff (state : State) :
    (∀ clause ∈ state.units, clause.TrueUnder valuation) ↔ state.model.Agrees valuation := by
  rw [forall_mem_units, Assignment.agrees_iff]
  simp [Clause.TrueUnder]

theorem reduced_trueUnder_iff (agrees : state.model.Agrees valuation) :
    (∀ clause ∈ state.reduced, clause.TrueUnder valuation) ↔
      ∀ clause ∈ state.clauses.toList,
        ¬ state.model.Falsifies clause.literals → clause.TrueUnder valuation := by
  rw [forall_mem_reduced]
  simp only [Clause.trueUnder_remainder_iff agrees]
  constructor
  · intro each clause member possible
    by_cases satisfied : state.model.Satisfies clause.literals
    · obtain ⟨l, occurs, holds⟩ := satisfied
      exact ⟨l, occurs, Assignment.agrees_iff.mp agrees l holds⟩
    · exact each clause member ⟨satisfied, possible⟩
  · intro each clause member leaves
    exact each clause member leaves.2

theorem rebased_trueUnder_iff (state : State) (valuation : Nat → Bool) :
    (∀ clause ∈ state.rebased, clause.TrueUnder valuation) ↔
      state.model.Agrees valuation ∧ ∀ clause ∈ state.clauses.toList,
        ¬ state.model.Falsifies clause.literals → clause.TrueUnder valuation := by
  rw [rebased, List.forall_mem_append, units_trueUnder_iff, and_comm]
  exact and_congr_right fun agrees => reduced_trueUnder_iff agrees

/-- Each true literal is a unit clause of the database. -/
theorem Ledger.agrees (ledger : state.Ledger accepted decided)
    (satisfied : ∀ clause ∈ state.clauses.toList, clause.TrueUnder valuation) :
    state.model.Agrees valuation := by
  rw [Assignment.agrees_iff]
  intro l holds
  have listed := (ledger.mem_database_iff [l]).mpr (.inr ⟨l, holds, rfl⟩)
  obtain ⟨clause, member, same⟩ := List.mem_map.mp listed
  obtain ⟨witness, occurs, true⟩ := satisfied clause member
  rw [same, List.mem_singleton] at occurs
  rw [← occurs]
  exact true

/-- What the database says is what was accepted and decided: the rest follows. -/
theorem Ledger.database_trueUnder_iff (ledger : state.Ledger accepted decided) :
    (∀ clause ∈ state.clauses.toList, clause.TrueUnder valuation) ↔
      (∀ clause ∈ accepted, clause.TrueUnder valuation) ∧
        ∀ l ∈ decided, l.TrueUnder valuation := by
  constructor
  · intro satisfied
    have agrees := Assignment.agrees_iff.mp (ledger.agrees satisfied)
    constructor
    · intro clause member
      have listed := (ledger.mem_database_iff _).mpr (.inl ⟨clause, member, rfl⟩)
      obtain ⟨stored, inside, same⟩ := List.mem_map.mp listed
      obtain ⟨l, occurs, holds⟩ := satisfied stored inside
      rw [same] at occurs
      exact ⟨l, occurs, holds⟩
    · intro l member
      exact agrees l ((ledger.valid.recorded l).mp (ledger.present l member))
  · intro both clause member
    obtain ⟨satisfied, start⟩ := both
    have listed := (ledger.mem_database_iff _).mp (List.mem_map_of_mem member)
    rcases listed with ⟨origin, inside, same⟩ | ⟨l, holds, same⟩
    · obtain ⟨l, occurs, true⟩ := satisfied origin inside
      rw [same] at occurs
      exact ⟨l, occurs, true⟩
    · -- A unit clause of the model follows from what was accepted and decided before it.
      have trail := ledger.justified.entails satisfied start l
      exact ⟨l, by simp [same], trail ((ledger.valid.recorded l).mpr holds)⟩

theorem Ledger.rebased_trueUnder_iff (ledger : state.Ledger accepted decided)
    (consistent : ¬ state.Conflicted) (valuation : Nat → Bool) :
    (∀ clause ∈ state.rebased, clause.TrueUnder valuation) ↔
      ∀ clause ∈ state.clauses.toList, clause.TrueUnder valuation := by
  rw [State.rebased_trueUnder_iff]
  constructor
  · intro both clause member
    apply both.2 clause member
    intro falsified
    exact consistent ⟨clause.literals, List.mem_map_of_mem member, falsified⟩
  · intro satisfied
    exact ⟨ledger.agrees satisfied, fun clause member _ => satisfied clause member⟩

theorem rebased_occupied (state : State) : ∀ clause ∈ state.rebased, clause.literals ≠ [] := by
  rw [forall_mem_rebased]
  constructor
  · intro clause _ leaves empty
    apply leaves.2
    rw [← Assignment.remainder_eq_nil_iff, ← List.perm_nil, ← empty]
    exact (Literal.sort_perm _).symm
  · intro l _
    simp

/-- `left` has a clause for each one that the model does not decide, in the order of the database:
the same occurrences without those that fail.  `units` has the model, by ascending variable. -/
structure Condenses (state : State) (left units : List Clause) : Prop where
  sources : List.Forall₂
    (fun source clause => clause.literals.Perm (state.model.remainder source.literals))
    (state.clauses.toList.filter fun clause => state.model.Leaves clause.literals) left
  unassigned : ∀ clause ∈ left, ∀ l ∈ clause.literals, state.model.truth l = .unknown
  units : ∃ chosen : List Literal, units.map Clause.literals = chosen.map (fun l => [l]) ∧
    (∀ l, l ∈ chosen ↔ state.model.truth l = .holds) ∧
    chosen.Pairwise fun earlier later => earlier.var < later.var

theorem condenses (state : State) : state.Condenses state.reduced state.units where
  sources := by
    rw [reduced_eq_map, List.forall₂_map_right_iff]
    apply List.forall₂_same.mpr
    intro clause _
    exact Literal.sort_perm _
  unassigned := by
    rw [forall_mem_reduced]
    intro clause _ leaves l member
    rw [Clause.ofLiterals_literals, Literal.mem_sort] at member
    exact Assignment.unknown_of_mem_remainder leaves.1 member
  units := by
    refine ⟨state.model.literals, ?_, fun l => Assignment.mem_literals_iff,
      Assignment.literals_ascending _⟩
    rw [State.units, List.map_map]
    rfl

end State

namespace SharedSession

/-- Whatever has been asked of a session, with or without success, the clauses that are left of it
together with its model say that the model is right and that every clause is true that the model
does not make false. -/
theorem rebase_exact {count : Nat} {start last : SharedSession} (created : create count = .ok start)
    {steps : List (Step Member)} (reached : reach perform start steps = last) :
    ∃ clauses session,
      Session.rebase last.session = .ok clauses session ∧
      (∀ valuation, (∀ clause ∈ clauses, clause.TrueUnder valuation) ↔
        last.state.model.Agrees valuation ∧ ∀ clause ∈ last.state.clauses.toList,
          ¬ last.state.model.Falsifies clause.literals → clause.TrueUnder valuation) ∧
      (¬ last.state.Conflicted → ∀ valuation,
        (∀ clause ∈ clauses, clause.TrueUnder valuation) ↔
          ∀ clause ∈ last.state.clauses.toList, clause.TrueUnder valuation) ∧
      (∀ clause ∈ clauses, clause.literals ≠ []) ∧
      ∃ left units, clauses = left ++ units ∧ last.state.Condenses left units := by
  have accounted := accounted_reach created steps
  rw [reached] at accounted
  obtain ⟨accepted, decided, ledger⟩ := accounted
  obtain ⟨clauses, session, exported, rebased⟩ := Session.rebase_ends last.session ledger.valid
  refine ⟨clauses, session, exported, ?_⟩
  rw [rebased]
  exact ⟨last.state.rebased_trueUnder_iff, ledger.rebased_trueUnder_iff,
    last.state.rebased_occupied, last.state.reduced, last.state.units, rfl, last.state.condenses⟩

/-- The propagator is too small and breaks off with the second clause half taken in, and the next
literal is not there.  In the end the first clause keeps three occurrences, the second holds, and
the last comes when all its literals fail already. -/
def overruled : List (Step Member) :=
  [.add (.ofLiterals [⟨1, true⟩, ⟨0, false⟩, ⟨1, false⟩, ⟨1, true⟩]),
    .add (.ofLiterals [⟨2, true⟩, ⟨0, true⟩]), .propagate ⟨.watchedLiterals, 2, 0⟩,
    .assign ⟨3, true⟩, .assign ⟨2, true⟩, .assign ⟨0, true⟩,
    .add (.ofLiterals [⟨0, false⟩, ⟨2, false⟩])]

theorem overruled_exact :
    ∃ clauses session,
      Session.rebase (reach perform (fresh 3) overruled).session = .ok clauses session ∧
      clauses.map Clause.literals =
        [[⟨1, false⟩, ⟨1, true⟩, ⟨1, true⟩], [⟨0, true⟩], [⟨2, true⟩]] ∧
      (reach perform (fresh 3) overruled).state.Conflicted ∧
      ∀ valuation, (∀ clause ∈ clauses, clause.TrueUnder valuation) ↔
        (reach perform (fresh 3) overruled).state.model.Agrees valuation ∧
          ∀ clause ∈ (reach perform (fresh 3) overruled).state.clauses.toList,
            ¬ (reach perform (fresh 3) overruled).state.model.Falsifies clause.literals →
              clause.TrueUnder valuation := by
  obtain ⟨clauses, session, exported, meaning, _⟩ :=
    rebase_exact (create_eq (by decide : 3 ≤ maxVariables)) (rfl : reach perform _ overruled = _)
  have left : (Session.rebase.answer? (reach perform (fresh 3) overruled).session).map
      (List.map Clause.literals) =
        some [[⟨1, false⟩, ⟨1, true⟩, ⟨1, true⟩], [⟨0, true⟩], [⟨2, true⟩]] := by decide +kernel
  have falsified : ((reach perform (fresh 3) overruled).state.clauses.toList.map
      Clause.literals).any (reach perform (fresh 3) overruled).state.model.Falsifies = true := by
    decide +kernel
  rw [Work.answer?_eq_some_iff.mpr ⟨session, exported⟩, Option.map_some, Option.some.injEq] at left
  simp only [List.any_eq_true, decide_eq_true_eq] at falsified
  exact ⟨clauses, session, exported, left, falsified, meaning⟩

end SharedSession

end UnitPropagation
