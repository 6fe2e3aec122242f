import Mathlib.Logic.Relation
import UnitPropagation.Proofs.Evaluation
import UnitPropagation.State

namespace UnitPropagation

/-! What propagation does to a state, change by change.

`Deduction` lists the changes that every propagator makes, and `Advance` adds the moving of
slots, which only watching does.  Whatever holds along the way of a propagator is proved here
for one change and then for any number of them. -/

namespace Clause

@[simp] theorem point_literals (clause : Clause) (slot : Slot) (position : Nat) :
    (clause.point slot position).literals = clause.literals := by
  cases slot <;> rfl

theorem watchPosition?_literals (clause : Clause) (slot : Slot) (position : Nat) :
    ((clause.watchPosition? slot position).getD clause).literals = clause.literals := by
  unfold watchPosition?
  split <;> simp

@[simp] theorem ofLiterals_singleton (l : Literal) : (ofLiterals [l]).literals = [l] := rfl

end Clause

namespace Database

variable {database : Database} {id : Nat} {clause : Clause}

theorem mem_toList_iff : clause ∈ database.toList ↔ ∃ id, database.get? id = some clause := by
  simp only [toList, get?, ← Array.getElem?_toList, List.mem_iff_getElem?]

theorem get?_lt (found : database.get? id = some clause) : id < database.size :=
  (Array.getElem?_eq_some_iff.mp found).1

theorem get?_of_lt (bound : id < database.size) : ∃ clause, database.get? id = some clause :=
  ⟨database.clauses[id], Array.getElem?_eq_getElem bound⟩

theorem lt_of_mem_idsFrom {start : Nat} (member : id ∈ database.idsFrom start) :
    id < database.size := by
  simp only [idsFrom, List.mem_range'_1] at member
  omega

@[simp] theorem size_push (database : Database) (clause : Clause) :
    (database.push clause).size = database.size + 1 := by
  simp [push, size]

@[simp] theorem toList_push (database : Database) (clause : Clause) :
    (database.push clause).toList = database.toList ++ [clause] := by
  simp [push, toList]

theorem get?_of_isPrefix {later : Database} (longer : database.toList <+: later.toList)
    (found : database.get? id = some clause) : later.get? id = some clause := by
  simp only [get?, ← Array.getElem?_toList] at found ⊢
  obtain ⟨more, whole⟩ := longer
  have bound := (List.getElem?_eq_some_iff.mp found).1
  rw [toList, toList] at whole
  rw [← whole, List.getElem?_append_left bound, found]

@[simp] theorem size_watchPosition (database : Database) (id : Nat) (slot : Slot)
    (position : Nat) : (database.watchPosition id slot position).size = database.size := by
  simp [watchPosition, size]

theorem get?_watchPosition (database : Database) (id other : Nat) (slot : Slot) (position : Nat) :
    (database.watchPosition id slot position).get? other =
      if id = other then
        (database.get? other).map fun clause => (clause.watchPosition? slot position).getD clause
      else database.get? other := by
  simp only [watchPosition, get?, Array.getElem?_modify]

theorem watchPosition_of_absent {position : Nat} (slot : Slot)
    (absent : ∀ clause, database.get? id = some clause → clause.size ≤ position) :
    database.watchPosition id slot position = database := by
  have each : ∀ other, (database.watchPosition id slot position).get? other =
      database.get? other := by
    intro other
    rw [get?_watchPosition]
    split
    · rename_i same
      subst same
      cases found : database.get? id with
      | none => rfl
      | some clause => simp [Clause.watchPosition?, Nat.not_lt.mpr (absent clause found)]
    · rfl
  exact congrArg Database.mk (Array.ext_getElem? each)

theorem literals_watchPosition (database : Database) (id : Nat) (slot : Slot) (position : Nat) :
    (database.watchPosition id slot position).toList.map Clause.literals =
      database.toList.map Clause.literals := by
  apply List.ext_getElem?
  intro other
  have moved := database.get?_watchPosition id other slot position
  simp only [get?, ← Array.getElem?_toList] at moved
  simp only [List.getElem?_map, toList, moved]
  split
  · cases database.clauses.toList[other]? with
    | none => rfl
    | some clause => simp [clause.watchPosition?_literals slot position]
  · rfl

end Database

namespace State

variable {state before after : State} {l : Literal}

@[simp] theorem extend_model (state : State) (l : Literal) :
    (state.extend l).model = state.model.set l := rfl

@[simp] theorem extend_clauses (state : State) (l : Literal) :
    (state.extend l).clauses = state.clauses.push (.ofLiterals [l]) := rfl

@[simp] theorem extend_trail (state : State) (l : Literal) :
    (state.extend l).trail = state.trail.push l := rfl

@[simp] theorem watchPosition_clauses (state : State) (id : Nat) (slot : Slot) (position : Nat) :
    (state.watchPosition id slot position).clauses =
      state.clauses.watchPosition id slot position := rfl

/-- Some clause has all its literals false. -/
def Conflicted (state : State) : Prop :=
  ∃ literals ∈ state.clauses.toList.map Clause.literals, state.model.Falsifies literals

/-- No clause has all its literals false, and none without a true literal has exactly one open
occurrence. -/
def Settled (state : State) : Prop :=
  ∀ literals ∈ state.clauses.toList.map Clause.literals, state.model.Settles literals

instance (state : State) : Decidable state.Settled :=
  inferInstanceAs (Decidable (∀ literals ∈ state.clauses.toList.map Clause.literals, _))

theorem Settled.not_conflicted (settled : state.Settled) : ¬ state.Conflicted := by
  intro conflicted
  obtain ⟨literals, member, falsified⟩ := conflicted
  exact (settled literals member).1 falsified

theorem conflicted_of_get? {id : Nat} {clause : Clause}
    (found : state.clauses.get? id = some clause)
    (falsified : state.model.Falsifies clause.literals) : state.Conflicted :=
  ⟨clause.literals, List.mem_map_of_mem (Database.mem_toList_iff.mpr ⟨id, found⟩), falsified⟩

theorem settled_of_get? (each : ∀ id clause, state.clauses.get? id = some clause →
    state.model.Settles clause.literals) : state.Settled := by
  intro literals member
  obtain ⟨clause, inside, rfl⟩ := List.mem_map.mp member
  obtain ⟨id, found⟩ := Database.mem_toList_iff.mp inside
  exact each id clause found

/-- Clauses are over variables of the state, and the trail holds what the model makes true. -/
structure WellFormed (state : State) : Prop where
  inside : ∀ literals ∈ state.clauses.toList.map Clause.literals,
    ∀ l ∈ literals, l.var < state.numVars
  recorded : ∀ l, l ∈ state.trail.toList ↔ state.model.truth l = .holds

theorem WellFormed.var_lt {id : Nat} {clause : Clause} (valid : state.WellFormed)
    (found : state.clauses.get? id = some clause) (member : l ∈ clause.literals) :
    l.var < state.numVars :=
  valid.inside clause.literals
    (List.mem_map_of_mem (Database.mem_toList_iff.mpr ⟨id, found⟩)) l member

theorem WellFormed.holds_of_trail {position : Nat} (valid : state.WellFormed)
    (found : state.trail[position]? = some l) : state.model.truth l = .holds :=
  (valid.recorded l).mp (Array.mem_toList_iff.mpr (Array.mem_of_getElem? found))

theorem WellFormed.addClause {clause : Clause} (valid : state.WellFormed)
    (inside : ∀ l ∈ clause.literals, l.var < state.numVars) :
    (state.addClause clause).WellFormed where
  inside := by
    intro literals member
    simp only [State.addClause, Database.toList_push, List.map_append, List.map_cons, List.map_nil,
      List.mem_append, List.mem_singleton] at member
    rcases member with old | new
    · exact valid.inside literals old
    · rw [new]
      exact inside
  recorded := valid.recorded

theorem WellFormed.extend (valid : state.WellFormed) (inside : l.var < state.numVars)
    (unassigned : state.model.truth l = .unknown) : (state.extend l).WellFormed where
  inside := by
    have size : (state.extend l).numVars = state.numVars := Assignment.size_set _ _
    intro literals member other occurs
    rw [size]
    simp only [extend_clauses, Database.toList_push, List.map_append, List.map_cons,
      Clause.ofLiterals_singleton, List.map_nil, List.mem_append, List.mem_singleton] at member
    rcases member with old | new
    · exact valid.inside literals old other occurs
    · subst literals
      rw [List.mem_singleton.mp occurs]
      exact inside
  recorded := by
    intro other
    rw [extend_model, Assignment.truth_set_holds_iff inside unassigned, ← valid.recorded]
    simp [eq_comm]

/-- Only new literals, new clauses and counters tell `after` from `before`. -/
structure Grows (before after : State) : Prop where
  numVars : after.numVars = before.numVars
  model : after.model.Extends before.model
  trail : before.trail.toList <+: after.trail.toList
  clauses : before.clauses.toList <+: after.clauses.toList

theorem Grows.refl (state : State) : state.Grows state :=
  ⟨rfl, .refl _, List.prefix_refl _, List.prefix_refl _⟩

theorem Grows.trans {last : State} (first : before.Grows after) (second : after.Grows last) :
    before.Grows last :=
  ⟨second.numVars.trans first.numVars, second.model.trans first.model,
    first.trail.trans second.trail, first.clauses.trans second.clauses⟩

theorem Grows.get? {id : Nat} {clause : Clause} (grows : before.Grows after)
    (found : before.clauses.get? id = some clause) : after.clauses.get? id = some clause :=
  Database.get?_of_isPrefix grows.clauses found

theorem Grows.get?_eq {id : Nat} (grows : before.Grows after) (bound : id < before.clauses.size) :
    after.clauses.get? id = before.clauses.get? id := by
  obtain ⟨clause, found⟩ := Database.get?_of_lt bound
  rw [grows.get? found, found]

theorem Grows.size_le (grows : before.Grows after) : before.clauses.size ≤ after.clauses.size := by
  simpa [Database.toList, Database.size] using grows.clauses.length_le

theorem grows_addClause (state : State) (clause : Clause) : state.Grows (state.addClause clause) :=
  ⟨rfl, .refl _, List.prefix_refl _, by simp [addClause]⟩

theorem grows_extend (inside : l.var < state.numVars)
    (unassigned : state.model.truth l = .unknown) : state.Grows (state.extend l) :=
  ⟨Assignment.size_set _ _, Assignment.extends_set inside unassigned, by simp, by simp⟩

/-- From number `first` on, every clause is a single literal that holds. -/
def TrueUnitsFrom (state : State) (first : Nat) : Prop :=
  ∀ id clause, first ≤ id → state.clauses.get? id = some clause →
    ∃ l, clause.literals = [l] ∧ state.model.truth l = .holds

theorem trueUnitsFrom_size (state : State) : state.TrueUnitsFrom state.clauses.size := by
  intro id clause beyond found
  exact absurd (Database.get?_lt found) (by omega)

end State

/-- A change that every propagator makes: it counts, or it makes the literal true that a
clause forces. -/
inductive Deduction : State → State → Prop
  | pass (state : State) : Deduction state state.countPass
  | visit (state : State) : Deduction state state.countVisit
  | conflict (state : State) : Deduction state state.countConflict
  | force {state : State} {id : Nat} {clause : Clause} {l : Literal}
      (found : state.clauses.get? id = some clause)
      (forced : state.model.Forces clause.literals l) :
      Deduction state (state.extend l).countPropagation

/-- A change that some propagator makes. -/
inductive Advance : State → State → Prop
  | deduce {before after : State} (step : Deduction before after) : Advance before after
  | watch (state : State) (id : Nat) (slot : Slot) (position : Nat) :
      Advance state (state.watchPosition id slot position)

namespace Deduction

variable {before after : State}

theorem grows (step : Deduction before after) (valid : before.WellFormed) :
    before.Grows after := by
  cases step with
  | pass | visit | conflict =>
      exact ⟨rfl, .refl _, List.prefix_refl _, List.prefix_refl _⟩
  | force found forced =>
      have inside := valid.var_lt found forced.mem
      have grown := State.grows_extend inside forced.unknown
      exact ⟨grown.numVars, grown.model, grown.trail, grown.clauses⟩

theorem wellFormed (step : Deduction before after) (valid : before.WellFormed) :
    after.WellFormed := by
  cases step with
  | pass | visit | conflict => exact ⟨valid.inside, valid.recorded⟩
  | force found forced =>
      have extended := valid.extend (valid.var_lt found forced.mem) forced.unknown
      exact ⟨extended.inside, extended.recorded⟩

end Deduction

namespace Advance

variable {before after : State}

theorem wellFormed (step : Advance before after) (valid : before.WellFormed) :
    after.WellFormed := by
  cases step with
  | deduce step => exact step.wellFormed valid
  | watch id slot position =>
      refine ⟨?_, valid.recorded⟩
      rw [State.watchPosition_clauses, Database.literals_watchPosition]
      exact valid.inside

theorem numVars (step : Advance before after) : after.numVars = before.numVars := by
  cases step with
  | deduce step => cases step <;> first | rfl | exact Assignment.size_set _ _
  | watch => rfl

theorem extends_model (step : Advance before after) (valid : before.WellFormed) :
    after.model.Extends before.model := by
  cases step with
  | deduce step => exact (step.grows valid).model
  | watch => exact .refl _

theorem literals (step : Advance before after) (valid : before.WellFormed) :
    before.clauses.toList.map Clause.literals <+: after.clauses.toList.map Clause.literals := by
  cases step with
  | deduce step => exact (step.grows valid).clauses.map Clause.literals
  | watch id slot position =>
      simp only [State.watchPosition_clauses, Database.literals_watchPosition, List.prefix_refl]

/-- A literal is put on the trail, and its unit clause into the database, as its variable is
taken from the open ones. -/
theorem sizes (step : Advance before after) (valid : before.WellFormed) :
    after.clauses.size + after.model.numOpen = before.clauses.size + before.model.numOpen ∧
      after.trail.size + after.model.numOpen = before.trail.size + before.model.numOpen := by
  cases step with
  | deduce step =>
      cases step with
      | pass | visit | conflict => exact ⟨rfl, rfl⟩
      | force found forced =>
          rename_i l
          have inside := valid.var_lt found forced.mem
          have less := Assignment.numOpen_set inside forced.unknown
          simp only [State.countPropagation, State.extend_model, State.extend_clauses,
            State.extend_trail, Database.size_push, Array.size_push]
          omega
  | watch => exact ⟨by simp [State.watchPosition], rfl⟩

theorem numOpen_le (step : Advance before after) (valid : before.WellFormed) :
    after.model.numOpen ≤ before.model.numOpen := by
  have longer := (step.literals valid).length_le
  have balance := (step.sizes valid).1
  simp only [List.length_map, Database.toList, Array.length_toList] at longer
  simp only [Database.size] at balance
  omega

theorem trueUnitsFrom {first : Nat} (step : Advance before after) (valid : before.WellFormed)
    (made : before.TrueUnitsFrom first) : after.TrueUnitsFrom first := by
  cases step with
  | deduce step =>
      cases step with
      | pass | visit | conflict => exact made
      | @force _ _ l found forced =>
          have inside := valid.var_lt found forced.mem
          intro id clause beyond stored
          change (before.clauses.push (.ofLiterals [l])).clauses[id]? = some clause at stored
          rw [Database.push, Array.getElem?_push] at stored
          split at stored
          · cases stored
            exact ⟨l, rfl, Assignment.truth_set_self inside⟩
          · obtain ⟨other, single, holds⟩ := made id clause beyond stored
            exact ⟨other, single, Assignment.extends_set inside forced.unknown other holds⟩
  | watch moved slot position =>
      intro id clause beyond stored
      rw [State.watchPosition_clauses, Database.get?_watchPosition] at stored
      split at stored
      · obtain ⟨old, found, rfl⟩ := Option.map_eq_some_iff.mp stored
        rw [old.watchPosition?_literals slot position]
        exact made id old beyond found
      · exact made id clause beyond stored

end Advance

namespace State

variable {before after last : State}

/-- Any number of changes that every propagator makes. -/
abbrev Deduces : State → State → Prop := Relation.ReflTransGen Deduction

/-- Any number of changes that some propagator makes. -/
abbrev Advances : State → State → Prop := Relation.ReflTransGen Advance

theorem Deduces.advances (run : before.Deduces after) : before.Advances after := by
  induction run with
  | refl => exact .refl
  | tail _ step ih => exact ih.tail (.deduce step)

theorem Advances.wellFormed (run : before.Advances after) (valid : before.WellFormed) :
    after.WellFormed := by
  induction run with
  | refl => exact valid
  | tail _ step ih => exact step.wellFormed ih

theorem Deduces.wellFormed (run : before.Deduces after) (valid : before.WellFormed) :
    after.WellFormed := run.advances.wellFormed valid

theorem Deduces.grows (run : before.Deduces after) (valid : before.WellFormed) :
    before.Grows after := by
  induction run with
  | refl => exact .refl _
  | tail run step ih => exact ih.trans (step.grows (Deduces.wellFormed run valid))

theorem Advances.numVars (run : before.Advances after) : after.numVars = before.numVars := by
  induction run with
  | refl => rfl
  | tail _ step ih => exact step.numVars.trans ih

theorem Advances.extends_model (run : before.Advances after) (valid : before.WellFormed) :
    after.model.Extends before.model := by
  induction run with
  | refl => exact .refl _
  | tail run step ih => exact (step.extends_model (Advances.wellFormed run valid)).trans ih

theorem Advances.literals (run : before.Advances after) (valid : before.WellFormed) :
    before.clauses.toList.map Clause.literals <+: after.clauses.toList.map Clause.literals := by
  induction run with
  | refl => exact List.prefix_refl _
  | tail run step ih => exact ih.trans (step.literals (Advances.wellFormed run valid))

theorem Advances.sizes (run : before.Advances after) (valid : before.WellFormed) :
    after.clauses.size + after.model.numOpen = before.clauses.size + before.model.numOpen ∧
      after.trail.size + after.model.numOpen = before.trail.size + before.model.numOpen := by
  induction run with
  | refl => exact ⟨rfl, rfl⟩
  | tail run step ih =>
      have last := step.sizes (Advances.wellFormed run valid)
      exact ⟨last.1.trans ih.1, last.2.trans ih.2⟩

theorem Advances.numOpen_le (run : before.Advances after) (valid : before.WellFormed) :
    after.model.numOpen ≤ before.model.numOpen := by
  induction run with
  | refl => exact Nat.le_refl _
  | tail run step ih => exact Nat.le_trans (step.numOpen_le (Advances.wellFormed run valid)) ih

/-- What propagation adds to the clauses needs no more propagation. -/
theorem Advances.trueUnitsFrom {first : Nat} (run : before.Advances after)
    (valid : before.WellFormed) (made : before.TrueUnitsFrom first) :
    after.TrueUnitsFrom first := by
  induction run with
  | refl => exact made
  | tail run step ih => exact step.trueUnitsFrom (Advances.wellFormed run valid) ih

theorem Conflicted.advances (conflicted : before.Conflicted) (run : before.Advances after)
    (valid : before.WellFormed) : after.Conflicted := by
  obtain ⟨literals, member, falsified⟩ := conflicted
  exact ⟨literals, (run.literals valid).subset member,
    falsified.extend (run.extends_model valid)⟩

theorem Conflicted.grows (conflicted : before.Conflicted) (grown : before.Grows after) :
    after.Conflicted := by
  obtain ⟨literals, member, falsified⟩ := conflicted
  exact ⟨literals, (grown.clauses.map Clause.literals).subset member,
    falsified.extend grown.model⟩

end State

end UnitPropagation
