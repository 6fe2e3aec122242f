import UnitPropagation.Proofs.OpenSession
import UnitPropagation.Proofs.Rebase

namespace UnitPropagation

/-! Model, trail, database and counters tell the same story.

They are changed in several places and read in each other's stead: the trail counts the assigned
variables, the model stands for the trail when clauses are written, and both the trail and the
database are walked by number.  Whoever has worked on a session, with or without success, they
agree. -/

namespace Assignment

variable {model : Assignment}

theorem values_eq (model : Assignment) :
    model.values.toList = (List.range model.size).map model.value := by
  apply List.ext_getElem
  · simp [size]
  · intro x bound _
    have inside : x < model.values.size := by simpa using bound
    simp [value, inside]

theorem length_literals (model : Assignment) : model.literals.length = model.numAssigned := by
  have chosen : ∀ x, ((model.value x).toBool?.map (Literal.mk x)).isSome =
      (model.value x).isAssigned := by
    intro x
    cases model.value x <;> rfl
  rw [literals_eq, List.length_filterMap_eq_countP, numAssigned, ← Array.countP_toList, values_eq,
    List.countP_map]
  exact List.countP_congr fun x _ => by rw [chosen]; rfl

theorem literals_vars_nodup (model : Assignment) : (model.literals.map Literal.var).Nodup := by
  rw [List.Nodup, List.pairwise_map]
  exact model.literals_ascending.imp Nat.ne_of_lt

end Assignment

/-- The literals ascend by their codes, as they do in a clause when it is made. -/
def Clause.Ascending (clause : Clause) : Prop :=
  clause.literals.Pairwise fun left right => left.code ≤ right.code

instance (clause : Clause) : Decidable clause.Ascending :=
  inferInstanceAs (Decidable (List.Pairwise _ _))

/-- The parts of a state over `count` variables agree with each other, with the clauses that were
accepted and with the number of literals that were decided. -/
structure State.Coherent (state : State) (count : Nat) (accepted : List Clause)
    (decisions : Nat) : Prop where
  size : state.model.size = count
  once : (state.trail.toList.map Literal.var).Nodup
  recorded : ∀ l, l ∈ state.trail.toList ↔ state.model.truth l = .holds
  assigned : state.trail.size = state.model.numAssigned
  clauses : ∀ clause ∈ state.clauses.toList, clause.literals ≠ [] ∧ clause.Ascending ∧
    ∀ l ∈ clause.literals, l.var < count
  /-- Without the accepted clauses, the unit clauses of the trail are left, in its order. -/
  merged : Merged (accepted.map Clause.literals) state.trail.toList
    (state.clauses.toList.map Clause.literals)
  total : state.clauses.size = accepted.length + state.trail.size
  counted : state.counters.propagations + decisions = state.trail.size

namespace State.Ledger

variable {state : State} {accepted : List Clause} {decided : List Literal}

/-- The trail lists the literals that hold, in the order in which they came to hold. -/
theorem trail_perm_literals (ledger : state.Ledger accepted decided) :
    state.trail.toList.Perm state.model.literals := by
  have distinct : state.model.literals.Nodup := state.model.literals_vars_nodup.of_map
  rw [List.perm_ext_iff_of_nodup ledger.distinct distinct]
  intro l
  rw [ledger.valid.recorded, Assignment.mem_literals_iff]

theorem coherent (ledger : state.Ledger accepted decided)
    (fit : ∀ clause ∈ accepted, clause.literals ≠ [] ∧ clause.Ascending) :
    state.Coherent state.numVars accepted decided.length where
  size := rfl
  once := (ledger.trail_perm_literals.map Literal.var).nodup_iff.mpr
    state.model.literals_vars_nodup
  recorded := ledger.valid.recorded
  assigned := by
    rw [← Assignment.length_literals, ← ledger.trail_perm_literals.length_eq, Array.length_toList]
  clauses := by
    intro clause member
    have listed := List.mem_map_of_mem (f := Clause.literals) member
    have inside := ledger.valid.inside clause.literals listed
    rcases (ledger.mem_database_iff _).mp listed with ⟨origin, taken, same⟩ | ⟨l, _, same⟩
    · have kept := fit origin taken
      rw [Clause.Ascending, same] at kept
      exact ⟨kept.1, kept.2, inside⟩
    · refine ⟨by simp [same], ?_, inside⟩
      rw [Clause.Ascending, same]
      exact List.pairwise_singleton _ _
  merged := ledger.merged
  total := by
    have lengths := ledger.merged.length_eq
    simpa [Database.toList, Database.size] using lengths
  counted := ledger.counted

end State.Ledger

namespace Session

/-- Whatever has been asked of a session and whoever propagated on it, with success, refused, in
conflict or broken off, its state is coherent. -/
theorem runs_coherent {count : Nat} {start last : Session} (created : create count = .ok start)
    {steps : List (Step Propagator)}
    (ascending : ∀ clause ∈ steps.filterMap Step.clause?, clause.Ascending)
    {history : List (Entry Session Propagator)}
    (run : attempt perform steps start = (history, last)) :
    last.state.Coherent count (accepted history) (decided state history).length := by
  have kept := kept_attempt created steps
  have offered : ∀ clause ∈ accepted (attempt perform steps start).1, clause.Ascending :=
    fun clause taken => ascending clause (accepted_offered taken)
  rw [run] at kept offered
  rw [← kept.numVars]
  exact kept.ledger.coherent fun clause taken =>
    ⟨kept.occupied clause taken, offered clause taken⟩

/-- Two clauses are unfit.  A propagator that is too small breaks off in the first clause, a scan
forces a literal, the next two literals are refused and not there, and the last propagator finds a
conflict. -/
def mishaps : List (Step Propagator) :=
  [.add (.ofLiterals [⟨0, true⟩, ⟨1, true⟩]), .add (.ofLiterals [⟨3, true⟩]), .add (.ofLiterals []),
    .add (.ofLiterals [⟨2, true⟩, ⟨0, false⟩]),
    .propagate (.watchedLiterals (.forVariables 1)), .assign ⟨0, true⟩, .propagate .fullScan,
    .assign ⟨2, false⟩, .assign ⟨7, true⟩, .add (.ofLiterals [⟨2, false⟩, ⟨0, false⟩]),
    .propagate (.watchedLiterals (.forVariables 3))]

theorem mishaps_coherent :
    ∃ history last, attempt perform mishaps (.ofState (.ofModel (.blank 3))) = (history, last) ∧
      history.map Entry.answer = [true, false, false, true, true, true, false, true, false] ∧
      last.state.trail.toList = [⟨0, true⟩, ⟨2, true⟩] ∧
      last.state.Coherent 3 (accepted history) (decided state history).length := by
  have outcome : ((attempt perform mishaps (.ofState (.ofModel (.blank 3)))).1.map Entry.answer,
      (attempt perform mishaps (.ofState (.ofModel (.blank 3)))).2.state.trail.toList) =
        ([true, false, false, true, true, true, false, true, false],
          [⟨0, true⟩, ⟨2, true⟩]) := by
    decide +kernel
  cases run : attempt perform mishaps (.ofState (.ofModel (.blank 3))) with
  | mk history last =>
      rw [run] at outcome
      obtain ⟨answers, trail⟩ := Prod.mk.inj outcome
      exact ⟨history, last, rfl, answers, trail,
        runs_coherent (create_eq (by decide : 3 ≤ maxVariables)) (by decide) run⟩

end Session

end UnitPropagation
