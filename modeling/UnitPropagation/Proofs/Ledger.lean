import UnitPropagation.Proofs.State

namespace UnitPropagation

/-! What a state owes to its past.

The past is told by the clauses that were accepted and by the literals that were decided.  The
database holds the accepted clauses in their order, with a unit clause for every trail literal
somewhere between them, and each trail literal was decided or follows from an accepted clause
and what stood on the trail before it. -/

variable {accepted more : List Clause} {decided chosen trail : List Literal} {l : Literal}

/-- `database` lists the literals of the accepted clauses in their order and, somewhere between
them, a unit clause for each trail literal in the order of the trail. -/
inductive Merged : List (List Literal) → List Literal → List (List Literal) → Prop
  | empty : Merged [] [] []
  | clause {accepted database : List (List Literal)} {trail : List Literal}
      (merged : Merged accepted trail database) (literals : List Literal) :
      Merged (accepted ++ [literals]) trail (database ++ [literals])
  | unit {accepted database : List (List Literal)} {trail : List Literal}
      (merged : Merged accepted trail database) (l : Literal) :
      Merged accepted (trail ++ [l]) (database ++ [[l]])

namespace Merged

variable {accepted database : List (List Literal)}

theorem length_eq (merged : Merged accepted trail database) :
    database.length = accepted.length + trail.length := by
  induction merged with
  | empty => rfl
  | clause _ literals ih =>
      simp only [List.length_append, List.length_singleton, ih]
      omega
  | unit _ l ih =>
      simp only [List.length_append, List.length_singleton, ih]
      omega

theorem mem_iff (merged : Merged accepted trail database) (literals : List Literal) :
    literals ∈ database ↔ literals ∈ accepted ∨ ∃ l ∈ trail, literals = [l] := by
  induction merged with
  | empty => simp
  | clause _ added ih =>
      rw [List.mem_append, ih, List.mem_append, or_right_comm]
  | unit _ l ih =>
      rw [List.mem_append, ih, or_assoc]
      simp only [List.mem_singleton, List.mem_append, or_and_right, exists_or, exists_eq_left]

theorem filterMap_eq {α : Type} (merged : Merged accepted trail database)
    (choose : List Literal → Option α) (dropped : ∀ l ∈ trail, choose [l] = none) :
    database.filterMap choose = accepted.filterMap choose := by
  induction merged with
  | empty => rfl
  | clause _ literals ih => rw [List.filterMap_append, List.filterMap_append, ih dropped]
  | unit _ l ih =>
      have old : ∀ other, _ → choose [other] = none := fun other member =>
        dropped other (List.mem_append.mpr (.inl member))
      have new : choose [l] = none := dropped l (by simp)
      rw [List.filterMap_append, ih old]
      simp [new]

end Merged

/-- `l` stands at one position of the clause only, and every other position holds a literal
whose negation is among `earlier`. -/
def Clause.Reason (clause : Clause) (l : Literal) (earlier : List Literal) : Prop :=
  ∃ before after, clause.literals = before ++ l :: after ∧ l ∉ before ++ after ∧
    ∀ other ∈ before ++ after, other.negate ∈ earlier

/-- Each literal of the trail was decided, or an accepted clause and the trail before it are
the reason for it. -/
def Justified (accepted : List Clause) (decided trail : List Literal) : Prop :=
  ∀ position l, trail[position]? = some l →
    l ∈ decided ∨ ∃ clause ∈ accepted, clause.Reason l (trail.take position)

namespace Justified

theorem mono (justified : Justified accepted decided trail) (clauses : accepted ⊆ more)
    (literals : decided ⊆ chosen) : Justified more chosen trail := by
  intro position l found
  rcases justified position l found with direct | ⟨clause, member, reason⟩
  · exact .inl (literals direct)
  · exact .inr ⟨clause, clauses member, reason⟩

theorem push (justified : Justified accepted decided trail)
    (cause : l ∈ decided ∨ ∃ clause ∈ accepted, clause.Reason l trail) :
    Justified accepted decided (trail ++ [l]) := by
  intro position other found
  by_cases old : position < trail.length
  · rw [List.getElem?_append_left old] at found
    rw [List.take_append_of_le_length (Nat.le_of_lt old)]
    exact justified position other found
  · have bound : position < (trail ++ [l]).length := (List.getElem?_eq_some_iff.mp found).1
    rw [List.length_append, List.length_singleton] at bound
    have last : position = trail.length := by omega
    rw [last, List.getElem?_concat_length] at found
    cases found
    rw [last, List.take_left]
    exact cause

/-- What holds of the decided literals, and passes from the negations of all other literals of
an accepted clause to the one left, holds of the whole trail. -/
theorem spread (justified : Justified accepted decided trail) {claim : Literal → Prop}
    (start : ∀ l ∈ decided, claim l)
    (follow : ∀ clause ∈ accepted, ∀ before l after, clause.literals = before ++ l :: after →
      (∀ other ∈ before ++ after, claim other.negate) → claim l) :
    ∀ l ∈ trail, claim l := by
  have each : ∀ (position : Nat) l, trail[position]? = some l → claim l := by
    intro position
    -- The reason for a literal lies before it, so the positions below are enough.
    induction position using Nat.strongRecOn with
    | ind position ih =>
        intro l found
        rcases justified position l found with direct | ⟨clause, member, reason⟩
        · exact start l direct
        · obtain ⟨before, after, split, _, others⟩ := reason
          apply follow clause member before l after split
          intro other occurs
          obtain ⟨place, bound, same⟩ := List.mem_take_iff_getElem.mp (others other occurs)
          apply ih place (by omega)
          rw [← same, List.getElem?_eq_getElem]
  intro l member
  obtain ⟨position, found⟩ := List.mem_iff_getElem?.mp member
  exact each position l found

theorem holds_of_settles {model : Assignment} (justified : Justified accepted decided trail)
    (settled : ∀ clause ∈ accepted, model.Settles clause.literals)
    (start : ∀ l ∈ decided, model.truth l = .holds) :
    ∀ l ∈ trail, model.truth l = .holds := by
  apply justified.spread start
  intro clause member before l after split others
  have left := settled clause member
  rw [split] at left
  apply Assignment.holds_of_settles left
  intro other occurs
  exact Assignment.negate_holds_iff.mp (others other occurs)

end Justified

/-- The state is what the accepted clauses, the decided literals and any amount of propagation
have made of it. -/
structure State.Ledger (state : State) (accepted : List Clause) (decided : List Literal) :
    Prop where
  valid : state.WellFormed
  distinct : state.trail.toList.Nodup
  merged : Merged (accepted.map Clause.literals) state.trail.toList
    (state.clauses.toList.map Clause.literals)
  justified : Justified accepted decided state.trail.toList
  present : ∀ l ∈ decided, l ∈ state.trail.toList
  counted : state.counters.propagations + decided.length = state.trail.size

namespace State

variable {state before after : State} {clause : Clause}

@[simp] theorem numVars_ofModel (count : Nat) : (ofModel (.blank count)).numVars = count := by
  simp [numVars, ofModel, Assignment.blank, Assignment.size]

theorem ledger_ofModel (count : Nat) : (ofModel (.blank count)).Ledger [] [] where
  valid := by
    refine ⟨by simp [ofModel, Database.toList, Database.empty], ?_⟩
    intro l
    have unknown : (Assignment.blank count).truth l = .unknown := by
      have stored : (Assignment.blank count).value l.var = .unknown := by
        simp only [Assignment.blank, Assignment.value, Array.getD_eq_getD_getElem?,
          Array.getElem?_replicate]
        split <;> rfl
      simp [Assignment.truth, stored, Truth.negate]
    simp [ofModel, unknown]
  distinct := List.nodup_nil
  merged := .empty
  justified := by
    intro position l found
    simp [ofModel] at found
  present := by simp
  counted := rfl

theorem Ledger.mem_database_iff (ledger : state.Ledger accepted decided) (literals : List Literal) :
    literals ∈ state.clauses.toList.map Clause.literals ↔
      (∃ clause ∈ accepted, clause.literals = literals) ∨
        ∃ l, state.model.truth l = .holds ∧ literals = [l] := by
  rw [ledger.merged.mem_iff]
  simp only [List.mem_map, ledger.valid.recorded]

theorem Ledger.settled (ledger : state.Ledger accepted decided) (settled : state.Settled)
    (member : clause ∈ accepted) : state.model.Settles clause.literals :=
  settled clause.literals ((ledger.mem_database_iff _).mpr (.inl ⟨clause, member, rfl⟩))

theorem Ledger.conflicted (ledger : state.Ledger accepted decided) (conflicted : state.Conflicted) :
    ∃ clause ∈ accepted, state.model.Falsifies clause.literals := by
  obtain ⟨literals, member, falsified⟩ := conflicted
  rcases (ledger.mem_database_iff literals).mp member with ⟨clause, inside, same⟩ | ⟨l, holds, same⟩
  · rw [← same] at falsified
    exact ⟨clause, inside, falsified⟩
  · have fails : state.model.truth l = .fails := falsified l (by simp [same])
    rw [holds] at fails
    cases fails

theorem Ledger.addClause (ledger : state.Ledger accepted decided)
    (inside : ∀ l ∈ clause.literals, l.var < state.numVars) :
    (state.addClause clause).Ledger (accepted ++ [clause]) decided where
  valid := ledger.valid.addClause inside
  distinct := ledger.distinct
  merged := by
    simp only [State.addClause, Database.toList_push, List.map_append, List.map_cons, List.map_nil]
    exact ledger.merged.clause clause.literals
  justified := ledger.justified.mono (List.subset_append_left _ _) (List.Subset.refl _)
  present := ledger.present
  counted := ledger.counted

theorem Ledger.extend (ledger : state.Ledger accepted decided) (inside : l.var < state.numVars)
    (unassigned : state.model.truth l = .unknown) (grown : decided ⊆ chosen)
    (cause : l ∈ chosen ∨ ∃ clause ∈ accepted, clause.Reason l state.trail.toList)
    (present : ∀ other ∈ chosen, other ∈ decided ∨ other = l) {counters : Counters}
    (counted : counters.propagations + chosen.length = state.trail.size + 1) :
    { state.extend l with counters := counters }.Ledger accepted chosen where
  valid := by
    have extended := ledger.valid.extend inside unassigned
    exact ⟨extended.inside, extended.recorded⟩
  distinct := by
    have fresh : l ∉ state.trail.toList := by
      rw [ledger.valid.recorded, unassigned]
      simp
    rw [extend_trail, Array.toList_push, List.nodup_append]
    refine ⟨ledger.distinct, by simp, ?_⟩
    intro old member new same equal
    rw [equal, List.mem_singleton.mp same] at member
    exact fresh member
  merged := by
    simp only [extend_clauses, extend_trail, Database.toList_push, List.map_append, List.map_cons,
      List.map_nil, Clause.ofLiterals_singleton, Array.toList_push]
    exact ledger.merged.unit l
  justified := by
    rw [extend_trail, Array.toList_push]
    exact (ledger.justified.mono (List.Subset.refl _) grown).push cause
  present := by
    intro other member
    rw [extend_trail, Array.toList_push, List.mem_append, List.mem_singleton]
    exact (present other member).imp (ledger.present other) id
  counted := by
    rw [extend_trail, Array.size_push]
    exact counted

theorem Ledger.decide (ledger : state.Ledger accepted decided) (inside : l.var < state.numVars)
    (unassigned : state.model.truth l = .unknown) :
    (state.extend l).Ledger accepted (decided ++ [l]) := by
  refine ledger.extend inside unassigned (List.subset_append_left _ _) (.inl (by simp)) ?_ ?_
  · intro other member
    simpa using member
  · have counted := ledger.counted
    simp only [List.length_append, List.length_singleton]
    omega

/-- What a clause of the database forces has an accepted clause as its reason: the other
clauses are of one literal that holds already. -/
theorem Ledger.reason {id : Nat} (ledger : state.Ledger accepted decided)
    (found : state.clauses.get? id = some clause)
    (forced : state.model.Forces clause.literals l) :
    ∃ clause ∈ accepted, clause.Reason l state.trail.toList := by
  have unknown := forced.unknown
  have member : clause.literals ∈ state.clauses.toList.map Clause.literals :=
    List.mem_map_of_mem (Database.mem_toList_iff.mpr ⟨id, found⟩)
  rcases (ledger.mem_database_iff _).mp member with ⟨origin, inside, same⟩ | ⟨unit, holds, same⟩
  · obtain ⟨before, after, split, _, others⟩ := forced
    refine ⟨origin, inside, before, after, by rw [same, split], ?_, ?_⟩
    · intro occurs
      rw [others l occurs] at unknown
      cases unknown
    · intro other occurs
      rw [ledger.valid.recorded, Assignment.negate_holds_iff]
      exact others other occurs
  · have only : l = unit := by
      have occurs := forced.mem
      rw [same] at occurs
      exact List.mem_singleton.mp occurs
    rw [only, holds] at unknown
    cases unknown

theorem Ledger.advance (ledger : before.Ledger accepted decided) (step : Advance before after) :
    after.Ledger accepted decided := by
  cases step with
  | watch id slot position =>
      have same := before.clauses.literals_watchPosition id slot position
      refine ⟨(Advance.watch before id slot position).wellFormed ledger.valid, ledger.distinct, ?_,
        ledger.justified, ledger.present, ledger.counted⟩
      rw [watchPosition_clauses, same]
      exact ledger.merged
  | deduce step =>
      cases step with
      | pass | visit | conflict =>
          exact ⟨⟨ledger.valid.inside, ledger.valid.recorded⟩, ledger.distinct, ledger.merged,
            ledger.justified, ledger.present, ledger.counted⟩
      | force found forced =>
          refine ledger.extend (ledger.valid.var_lt found forced.mem) forced.unknown
            (List.Subset.refl _) (.inr (ledger.reason found forced)) (fun _ => .inl) ?_
          have counted := ledger.counted
          change before.counters.propagations + 1 + decided.length = before.trail.size + 1
          omega

theorem Ledger.advances (ledger : before.Ledger accepted decided) (run : before.Advances after) :
    after.Ledger accepted decided := by
  induction run with
  | refl => exact ledger
  | tail _ step ih => exact ih.advance step

section

variable {other : State}

/-- Of two states with one past, the one in which nothing is left to do makes true whatever the
other does. -/
theorem Ledger.extends_of_settled (ledger : state.Ledger accepted decided)
    (otherLedger : other.Ledger accepted decided) (settled : other.Settled) :
    other.model.Extends state.model := by
  intro l holds
  refine ledger.justified.holds_of_settles (fun clause => otherLedger.settled settled) ?_ l ?_
  · intro chosen member
    exact (otherLedger.valid.recorded chosen).mp (otherLedger.present chosen member)
  · exact (ledger.valid.recorded l).mpr holds

theorem Ledger.not_settled_of_conflicted (ledger : state.Ledger accepted decided)
    (otherLedger : other.Ledger accepted decided) (conflicted : state.Conflicted) :
    ¬ other.Settled := by
  intro settled
  obtain ⟨clause, member, falsified⟩ := ledger.conflicted conflicted
  have extended := falsified.extend (ledger.extends_of_settled otherLedger settled)
  exact (otherLedger.settled settled member).1 extended

theorem Ledger.trail_perm (ledger : state.Ledger accepted decided)
    (otherLedger : other.Ledger more chosen) (same : state.model = other.model) :
    state.trail.toList.Perm other.trail.toList := by
  rw [List.perm_ext_iff_of_nodup ledger.distinct otherLedger.distinct]
  intro l
  rw [ledger.valid.recorded, otherLedger.valid.recorded, same]

/-- The unit clauses of the trail hold, so only accepted clauses are left under the model. -/
theorem Ledger.reduced_eq (ledger : state.Ledger accepted decided) :
    state.reduced = accepted.filterMap fun clause =>
      (clause.residue? state.model).map .ofLiterals := by
  -- What is left of a clause depends on its literals, not on its slots.
  let left (literals : List Literal) : Option Clause :=
    ((⟨literals, 0, 0⟩ : Clause).residue? state.model).map .ofLiterals
  have dropped : ∀ l ∈ state.trail.toList, left [l] = none := by
    intro l member
    have holds := (ledger.valid.recorded l).mp member
    simp [left, Clause.residue?, holds]
  have kept := ledger.merged.filterMap_eq left dropped
  rw [List.filterMap_map, List.filterMap_map] at kept
  exact kept

end

end State

end UnitPropagation
