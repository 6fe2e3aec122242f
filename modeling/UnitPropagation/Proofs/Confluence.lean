import Mathlib.Data.Multiset.Defs
import UnitPropagation.Proofs.Solver

namespace UnitPropagation

/-! The order of operations does not matter.

Runs over the same clauses and the same literals, in whatever order, end alike once they have
been propagated: all of them meet a contradiction or all of them reach one model. -/

/-- An assignment that was refused, or a propagation that failed. -/
def Entry.Refuses {σ τ : Type} (entry : Entry σ τ) : Prop :=
  entry.step.clause? = none ∧ entry.answer = false

instance {σ τ : Type} (entry : Entry σ τ) : Decidable entry.Refuses :=
  inferInstanceAs (Decidable (_ ∧ _))

theorem State.rejection?_perm {state : State} {clause other : Clause}
    (same : clause.literals.Perm other.literals) (fit : state.rejection? clause = none) :
    state.rejection? other = none := by
  obtain ⟨occupied, inside⟩ := State.rejection?_none_iff.mp fit
  refine State.rejection?_none_iff.mpr ⟨?_, ?_⟩
  · intro empty
    rw [empty] at same
    exact occupied same.eq_nil
  · intro l member
    exact inside l (same.mem_iff.mpr member)

section

variable {σ τ : Type} {view : σ → State} {history otherHistory : List (Entry σ τ)}
  {state other : State} {l : Literal} {clause : Clause}

theorem mem_literals_of_decided (chosen : l ∈ decided view history) :
    l ∈ history.filterMap fun entry => entry.step.literal? := by
  obtain ⟨entry, member, filtered⟩ := List.mem_filterMap.mp chosen
  exact List.mem_filterMap.mpr ⟨entry, member, (Option.filter_eq_some_iff.mp filtered).1⟩

theorem Step.eq_assign_of_literal? {step : Step τ} (named : step.literal? = some l) :
    step = .assign l := by
  cases step with
  | add clause => cases named
  | assign other =>
      cases named
      rfl
  | propagate who => cases named

namespace Records

theorem mem_accepted_iff (records : Records view history state) : clause ∈ accepted history ↔
    (clause ∈ history.filterMap fun entry => entry.step.clause?) ∧
      state.rejection? clause = none := by
  rw [records.offered, List.mem_filter, decide_eq_true_iff]

theorem holds_of_willing (records : Records view history state)
    (willing : ∀ entry ∈ history, ¬ entry.Refuses)
    (named : l ∈ history.filterMap fun entry => entry.step.literal?) :
    state.model.truth l = .holds := by
  obtain ⟨entry, member, literal⟩ := List.mem_filterMap.mp named
  have same := Step.eq_assign_of_literal? literal
  have answered : entry.answer = true := by
    cases answer : entry.answer with
    | true => rfl
    | false => exact absurd ⟨by rw [same]; rfl, answer⟩ (willing entry member)
  rw [records.assigned entry member l same, answered]
  rfl

end Records

/-- The operations of `history`, propagations apart, are among those of `otherHistory`, in any
order and with the literals of each clause in any order. -/
structure Covered (history otherHistory : List (Entry σ τ)) : Prop where
  clauses : ∀ clause ∈ history.filterMap fun entry => entry.step.clause?,
    ∃ other ∈ otherHistory.filterMap fun entry => entry.step.clause?,
      clause.literals.Perm other.literals
  literals : ∀ l ∈ history.filterMap fun entry => entry.step.literal?,
    l ∈ otherHistory.filterMap fun entry => entry.step.literal?

namespace Covered

theorem taken (covered : Covered history otherHistory) (records : Records view history state)
    (otherRecords : Records view otherHistory other) (sameVars : state.numVars = other.numVars)
    (member : clause ∈ accepted history) :
    ∃ equal ∈ accepted otherHistory, clause.literals.Perm equal.literals := by
  obtain ⟨offered, fit⟩ := records.mem_accepted_iff.mp member
  obtain ⟨equal, otherOffered, same⟩ := covered.clauses clause offered
  rw [State.rejection?_congr sameVars] at fit
  exact ⟨equal, otherRecords.mem_accepted_iff.mpr ⟨otherOffered, State.rejection?_perm same fit⟩,
    same⟩

/-- What a run makes true, one makes true as well that covers it, refused nothing and has
nothing left to do. -/
theorem extends_model (covered : Covered history otherHistory)
    (records : Records view history state) (otherRecords : Records view otherHistory other)
    (sameVars : state.numVars = other.numVars)
    (willing : ∀ entry ∈ otherHistory, ¬ entry.Refuses) (settled : other.Settled) :
    other.model.Extends state.model := by
  have clauses : ∀ clause ∈ accepted history, other.model.Settles clause.literals := by
    intro clause member
    obtain ⟨equal, inside, same⟩ := covered.taken records otherRecords sameVars member
    exact (otherRecords.ledger.settled settled inside).perm same.symm
  have literals : ∀ l ∈ decided view history, other.model.truth l = .holds := by
    intro l chosen
    exact otherRecords.holds_of_willing willing
      (covered.literals l (mem_literals_of_decided chosen))
  intro l holds
  exact records.ledger.justified.holds_of_settles clauses literals l
    ((records.ledger.valid.recorded l).mpr holds)

theorem not_refuses (covered : Covered history otherHistory)
    (records : Records view history state) (otherRecords : Records view otherHistory other)
    (sameVars : state.numVars = other.numVars)
    (willing : ∀ entry ∈ otherHistory, ¬ entry.Refuses) (settled : other.Settled) :
    ∀ entry ∈ history, ¬ entry.Refuses := by
  have extended := covered.extends_model records otherRecords sameVars willing settled
  intro entry member refuses
  cases step : entry.step with
  | add clause =>
      have direct := refuses.1
      rw [step] at direct
      cases direct
  | assign l =>
      have fails := records.assigned entry member l step
      rw [refuses.2] at fails
      have named : l ∈ history.filterMap fun entry => entry.step.literal? :=
        List.mem_filterMap.mpr ⟨entry, member, by rw [step]; rfl⟩
      have holds := otherRecords.holds_of_willing willing (covered.literals l named)
      rw [extended.fails fails] at holds
      cases holds
  | propagate who =>
      -- The clause found false is false under the other model too.
      have failed : entry.Failed := ⟨by rw [step]; rfl, refuses.2⟩
      obtain ⟨clause, inside, falsified⟩ :=
        records.ledger.conflicted (records.failed entry member failed)
      obtain ⟨equal, otherInside, same⟩ := covered.taken records otherRecords sameVars inside
      exact (otherRecords.ledger.settled settled otherInside).1
        ((falsified.extend extended).perm same)

end Covered

end

namespace Solver

/-- What the state shows of the run, and that nothing is left to do in it if the last operation
was a propagation that succeeded. -/
structure Chronicled (history : List (Entry Solver Unit)) (solver : Solver) : Prop where
  records : Records state history solver.state
  settled : ∀ entry ∈ history.getLast?, entry.step = .propagate () → entry.answer = true →
    solver.state.Settled

theorem Chronicled.push {past : List (Entry Solver Unit)} {solver after : Solver}
    {step : Step Unit} {answer : Bool} (chronicled : Chronicled past solver)
    (performed : Performed solver step answer after) :
    Chronicled (past ++ [⟨solver, step, answer, after⟩]) after where
  records := chronicled.records.push performed.effect
  settled := by
    intro entry last propagates answered
    rw [List.getLast?_concat, Option.mem_some_iff] at last
    rw [← last] at propagates answered
    have asked : step.propagator? = some () := congrArg Step.propagator? propagates
    exact performed.settled (by rw [asked]; rfl) answered

theorem replay_chronicled (kind : PropagatorKind) {count : Nat} (bound : count ≤ maxVariables)
    (steps : List (Step Unit)) (inside : ∀ l ∈ steps.filterMap Step.literal?, l.var < count) :
    ∃ history last,
      replay perform (create kind count) (steps ++ [.propagate ()]) = .ok (history, last) ∧
      history.map Entry.step = steps ++ [.propagate ()] ∧
      last.state.numVars = count ∧ Records state history last.state ∧
      ((∀ entry ∈ history, ¬ entry.Refuses) → last.state.Settled) := by
  have allowed : ∀ step ∈ steps ++ [.propagate ()],
      ∀ l, step.literal? = some l → l.var < count := by
    apply Step.forall_of_filterMap
    simpa [List.filterMap_append, Step.literal?] using inside
  obtain ⟨history, last, done, chronicled, numVars, same⟩ := record_keeps
    (steps ++ [.propagate ()]) allowed Chronicled (fresh kind count) (sound_fresh kind count)
    (numVars_fresh kind count) ⟨records_nil count, by simp⟩
    fun _ _ _ _ _ _ chronicled performed => chronicled.push performed
  rw [create_eq kind bound]
  refine ⟨history, last, replay_of_record done, same, numVars, chronicled.records, ?_⟩
  intro willing
  have shown := congrArg List.getLast? same
  rw [List.getLast?_map, List.getLast?_concat, Option.map_eq_some_iff] at shown
  obtain ⟨entry, final, step⟩ := shown
  have member : entry ∈ history := List.mem_of_getLast? final
  refine chronicled.settled entry final step ?_
  cases answer : entry.answer with
  | true => rfl
  | false => exact absurd ⟨by rw [step]; rfl, answer⟩ (willing entry member)

section

variable {history otherHistory : List (Entry Solver Unit)} {left right : List (Step Unit)}

theorem filterMap_of_steps {α : Type} (named : Step Unit → Option α)
    (silent : named (.propagate ()) = none)
    (same : history.map Entry.step = left ++ [.propagate ()]) :
    (history.filterMap fun entry => named entry.step) = left.filterMap named := by
  have whole := congrArg (List.filterMap named) same
  rw [List.filterMap_map, List.filterMap_append] at whole
  simpa [silent] using whole

theorem covered_of_perm (steps : history.map Entry.step = left ++ [.propagate ()])
    (otherSteps : otherHistory.map Entry.step = right ++ [.propagate ()])
    (clauses : ((left.filterMap Step.clause?).map fun clause =>
      (clause.literals : Multiset Literal)).Perm
        ((right.filterMap Step.clause?).map fun clause => (clause.literals : Multiset Literal)))
    (literals : (left.filterMap Step.literal?).Perm (right.filterMap Step.literal?)) :
    Covered history otherHistory where
  clauses := by
    rw [filterMap_of_steps Step.clause? rfl steps, filterMap_of_steps Step.clause? rfl otherSteps]
    intro clause member
    have shuffled := clauses.mem_iff.mp (List.mem_map_of_mem member)
    obtain ⟨other, inside, same⟩ := List.mem_map.mp shuffled
    exact ⟨other, inside, (Multiset.coe_eq_coe.mp same).symm⟩
  literals := by
    rw [filterMap_of_steps Step.literal? rfl steps, filterMap_of_steps Step.literal? rfl otherSteps]
    intro l member
    exact literals.mem_iff.mp member

end

/-- Two runs over the same clauses and literals, each in its own order, with its own propagator
and with propagations of its own in between, end alike after a last propagation. -/
theorem runs_confluent {count : Nat} (bound : count ≤ maxVariables) (left right : List (Step Unit))
    (clauses : ((left.filterMap Step.clause?).map fun clause =>
      (clause.literals : Multiset Literal)).Perm
        ((right.filterMap Step.clause?).map fun clause => (clause.literals : Multiset Literal)))
    (literals : (left.filterMap Step.literal?).Perm (right.filterMap Step.literal?))
    (inside : ∀ l ∈ left.filterMap Step.literal?, l.var < count)
    (kind otherKind : PropagatorKind) :
    ∃ history last otherHistory otherLast,
      replay perform (create kind count) (left ++ [.propagate ()]) = .ok (history, last) ∧
      replay perform (create otherKind count) (right ++ [.propagate ()]) =
        .ok (otherHistory, otherLast) ∧
      history.map Entry.step = left ++ [.propagate ()] ∧
      otherHistory.map Entry.step = right ++ [.propagate ()] ∧
      ((∃ entry ∈ history, entry.Refuses) ∧ (∃ entry ∈ otherHistory, entry.Refuses) ∨
        (∀ entry ∈ history, ¬ entry.Refuses) ∧ (∀ entry ∈ otherHistory, ¬ entry.Refuses) ∧
          last.state.model = otherLast.state.model) := by
  have otherInside : ∀ l ∈ right.filterMap Step.literal?, l.var < count :=
    fun l member => inside l (literals.mem_iff.mpr member)
  obtain ⟨history, last, done, steps, numVars, records, settled⟩ :=
    replay_chronicled kind bound left inside
  obtain ⟨otherHistory, otherLast, otherDone, otherSteps, otherNumVars, otherRecords,
    otherSettled⟩ := replay_chronicled otherKind bound right otherInside
  refine ⟨history, last, otherHistory, otherLast, done, otherDone, steps, otherSteps, ?_⟩
  have forth := covered_of_perm steps otherSteps clauses literals
  have back := covered_of_perm otherSteps steps clauses.symm literals.symm
  have sameVars := numVars.trans otherNumVars.symm
  -- Each run refuses nothing if the other does not.
  by_cases refused : ∃ entry ∈ history, entry.Refuses
  · refine .inl ⟨refused, ?_⟩
    obtain ⟨entry, member, refuses⟩ := refused
    by_contra none
    have willing : ∀ entry ∈ otherHistory, ¬ entry.Refuses :=
      fun entry member refuses => none ⟨entry, member, refuses⟩
    exact forth.not_refuses records otherRecords sameVars willing (otherSettled willing) entry
      member refuses
  · have willing : ∀ entry ∈ history, ¬ entry.Refuses :=
      fun entry member refuses => refused ⟨entry, member, refuses⟩
    have otherWilling := back.not_refuses otherRecords records sameVars.symm willing
      (settled willing)
    refine .inr ⟨willing, otherWilling, Assignment.eq_of_extends sameVars ?_ ?_⟩
    · exact back.extends_model otherRecords records sameVars.symm willing (settled willing)
    · exact forth.extends_model records otherRecords sameVars otherWilling
        (otherSettled otherWilling)

/-- The last literal to be assigned fails already. -/
def refusedLate : List (Step Unit) :=
  [.add (.ofLiterals [⟨0, false⟩, ⟨1, true⟩]), .add (.ofLiterals [⟨1, false⟩, ⟨2, true⟩]),
    .assign ⟨0, true⟩, .propagate (), .assign ⟨2, false⟩]

/-- The same literals are assigned before the clauses are there. -/
def assignedEarly : List (Step Unit) :=
  [.assign ⟨2, false⟩, .assign ⟨0, true⟩, .add (.ofLiterals [⟨2, true⟩, ⟨1, false⟩]),
    .add (.ofLiterals [⟨1, true⟩, ⟨0, false⟩])]

theorem refused_late_or_early :
    ∃ history last otherHistory otherLast,
      replay perform (create .watchedLiterals 3) (refusedLate ++ [.propagate ()]) =
        .ok (history, last) ∧
      replay perform (create .fullScan 3) (assignedEarly ++ [.propagate ()]) =
        .ok (otherHistory, otherLast) ∧
      history.map Entry.answer = [true, true, true, true, false, true] ∧
      ∃ entry ∈ otherHistory, entry.Refuses := by
  obtain ⟨history, last, otherHistory, otherLast, done, otherDone, _, _, outcome⟩ :=
    runs_confluent (by decide : 3 ≤ maxVariables) refusedLate assignedEarly (by decide) (by decide)
      (by decide) .watchedLiterals .fullScan
  have answers : (replay perform (create .watchedLiterals 3)
      (refusedLate ++ [.propagate ()])).toOption.map (fun run =>
        (run.1.map Entry.answer, run.1.any fun entry => entry.Refuses)) =
          some ([true, true, true, true, false, true], true) := by decide +kernel
  rw [done] at answers
  simp only [Except.toOption, Option.map_some, Option.some.injEq, Prod.mk.injEq, List.any_eq_true,
    decide_eq_true_eq] at answers
  obtain ⟨given, entry, member, refuses⟩ := answers
  refine ⟨history, last, otherHistory, otherLast, done, otherDone, given, ?_⟩
  cases outcome with
  | inl both => exact both.2
  | inr neither => exact absurd refuses (neither.1 entry member)

end Solver

end UnitPropagation
