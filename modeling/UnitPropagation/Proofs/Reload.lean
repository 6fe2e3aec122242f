import UnitPropagation.Proofs.Dimacs
import UnitPropagation.Proofs.Loading
import UnitPropagation.Proofs.Reachable
import UnitPropagation.Proofs.Rebase

namespace UnitPropagation

/-! What is left at a fixpoint leads back to it.

Each clause left has two open occurrences at least, so it forces nothing, and the unit clauses
force the model.  Written, read and propagated again, the clauses left therefore give the same
model and the same clauses. -/

namespace Assignment

variable {model : Assignment} {literals : List Literal}

theorem openCount_remainder (model : Assignment) (literals : List Literal) :
    model.openCount (model.remainder literals) = model.openCount literals := by
  rw [openCount, openCount, remainder, List.countP_filter]
  apply List.countP_congr
  intro l _
  cases model.truth l <;> simp

theorem Settles.remainder (settled : model.Settles literals) :
    model.Settles (model.remainder literals) := by
  constructor
  · intro falsified
    apply settled.1
    rw [← remainder_eq_nil_iff, List.eq_nil_iff_forall_not_mem]
    intro l member
    have possible := (List.mem_filter.mp member).2
    simp [falsified l member] at possible
  · intro unit
    rw [openCount_remainder] at unit
    apply settled.2
    refine ⟨fun satisfied => unit.1 ?_, unit.2⟩
    obtain ⟨l, member, holds⟩ := satisfied
    exact ⟨l, List.mem_filter.mpr ⟨member, by simp [holds]⟩, holds⟩

end Assignment

theorem Clause.residue?_of_unknown {clause : Clause} {model : Assignment}
    (occupied : clause.literals ≠ []) (unknown : ∀ l ∈ clause.literals, model.truth l = .unknown) :
    clause.residue? model = some clause.literals := by
  have whole : model.remainder clause.literals = clause.literals := by
    apply List.filter_eq_self.mpr
    intro l member
    simp [unknown l member]
  have leaves : model.Leaves clause.literals := by
    rw [Assignment.Leaves, ← Assignment.remainder_eq_nil_iff, whole]
    refine ⟨?_, occupied⟩
    intro satisfied
    obtain ⟨l, member, holds⟩ := satisfied
    rw [unknown l member] at holds
    cases holds
  rw [Clause.residue?_eq, if_pos leaves, whole]

namespace State

variable {state other : State}

theorem ofLiterals_rebased (state : State) :
    ∀ clause ∈ state.rebased, Clause.ofLiterals clause.literals = clause := by
  rw [forall_mem_rebased]
  exact ⟨fun _ _ _ => Clause.ofLiterals_sort _, fun _ _ => Clause.ofLiterals_sort _⟩

theorem map_ofLiterals_rebased (state : State) :
    (state.rebased.map Clause.literals).map Clause.ofLiterals = state.rebased := by
  rw [List.map_map]
  exact (List.map_congr_left state.ofLiterals_rebased).trans (List.map_id _)

theorem WellFormed.rebased_inside (valid : state.WellFormed) :
    ∀ clause ∈ state.rebased, ∀ l ∈ clause.literals, l.var < state.numVars := by
  rw [forall_mem_rebased]
  constructor
  · intro source listed _ l member
    rw [Clause.ofLiterals_literals, Literal.mem_sort] at member
    exact valid.inside source.literals (List.mem_map_of_mem listed) l (List.mem_filter.mp member).1
  · intro l holds other member
    rw [Clause.ofLiterals_singleton, List.mem_singleton] at member
    rw [member]
    exact Assignment.var_lt_of_holds holds

theorem Settled.rebased_settles (settled : state.Settled) :
    ∀ clause ∈ state.rebased, state.model.Settles clause.literals := by
  rw [forall_mem_rebased]
  constructor
  · intro source listed _
    have member := List.mem_map_of_mem (f := Clause.literals) listed
    exact (settled source.literals member).remainder.perm (Literal.sort_perm _).symm
  · intro l holds
    apply Assignment.Satisfies.settles
    exact ⟨l, by simp, holds⟩

/-- The clauses left at a fixpoint force nothing beyond its model. -/
theorem Ledger.extends_of_rebased (ledger : other.Ledger state.rebased [])
    (settled : state.Settled) : state.model.Extends other.model := by
  intro l holds
  exact ledger.justified.holds_of_settles settled.rebased_settles (by simp) l
    ((ledger.valid.recorded l).mpr holds)

theorem Ledger.not_conflicted_of_rebased (ledger : other.Ledger state.rebased [])
    (settled : state.Settled) : ¬ other.Conflicted := by
  intro conflicted
  obtain ⟨clause, member, falsified⟩ := ledger.conflicted conflicted
  exact (settled.rebased_settles clause member).1
    (falsified.extend (ledger.extends_of_rebased settled))

/-- Propagated to a fixpoint of their own, they force all of it. -/
theorem Ledger.model_of_rebased (ledger : other.Ledger state.rebased []) (settled : state.Settled)
    (sameVars : other.numVars = state.numVars) (otherSettled : other.Settled) :
    other.model = state.model := by
  apply Assignment.eq_of_extends sameVars _ (ledger.extends_of_rebased settled)
  intro l holds
  have unit : Clause.ofLiterals [l] ∈ state.rebased :=
    List.mem_append.mpr (.inr (List.mem_map_of_mem (Assignment.mem_literals_iff.mpr holds)))
  -- A clause of one literal is settled only where that literal holds.
  have alone : other.model.Settles ([] ++ l :: []) := ledger.settled otherSettled unit
  exact Assignment.holds_of_settles alone (by simp [Assignment.Falsifies])

theorem Ledger.rebased_of_rebased (ledger : other.Ledger state.rebased [])
    (same : other.model = state.model) : other.rebased = state.rebased := by
  have left : state.reduced.filterMap
      (fun clause => (clause.residue? state.model).map Clause.ofLiterals) = state.reduced := by
    apply (List.filterMap_congr _).trans List.filterMap_some
    intro clause member
    have listed : clause ∈ state.rebased := List.mem_append.mpr (.inl member)
    rw [Clause.residue?_of_unknown (state.rebased_occupied clause listed)
      (state.condenses.unassigned clause member), Option.map_some,
      state.ofLiterals_rebased clause listed]
  have units : state.units.filterMap
      (fun clause => (clause.residue? state.model).map Clause.ofLiterals) = [] := by
    rw [State.units, List.filterMap_map, List.filterMap_eq_nil_iff]
    intro l chosen
    have holds := Assignment.mem_literals_iff.mp chosen
    simp [Clause.residue?, holds]
  rw [rebased, ledger.reduced_eq, same, rebased, List.filterMap_append, left, units,
    List.append_nil, State.units, same]
  rfl

end State

namespace Solver

/-- A fresh solver takes all the clauses left at a fixpoint and is led back to it. -/
theorem reload_ends {state : State} (valid : state.WellFormed) (settled : state.Settled)
    (bound : state.numVars ≤ maxVariables) (kind : PropagatorKind) :
    ∃ reloaded again,
      ofClauses kind state.numVars (state.rebased.map Clause.literals) = .ok reloaded ∧
      reloaded.state.clauses.toList = state.rebased ∧ propagate reloaded = .ok true again ∧
      again.Sound ∧ again.state.model = state.model ∧ again.state.rebased = state.rebased := by
  have occupied : [] ∉ state.rebased.map Clause.literals := by
    intro listed
    obtain ⟨clause, member, empty⟩ := List.mem_map.mp listed
    exact state.rebased_occupied clause member empty
  have inside : ∀ literals ∈ state.rebased.map Clause.literals, ∀ l ∈ literals,
      l.var < state.numVars := by
    rw [List.forall_mem_map]
    exact valid.rebased_inside
  obtain ⟨reloaded, made, loaded, numVars⟩ := ofClauses_loaded kind bound occupied inside
  have ledger := loaded.ledger
  have database := loaded.database
  rw [state.map_ofLiterals_rebased] at ledger database
  obtain ⟨success, again, done, performed⟩ :=
    perform_ends reloaded loaded.sound (.propagate ()) (by nofun)
  have after : again.state.Ledger state.rebased [] := by
    simpa [Step.clause?, Step.literal?] using performed.effect.ledger ledger
  have succeeded : success = true := by
    cases success with
    | true => rfl
    | false =>
        exact absurd (performed.effect.conflicted_of_failed rfl rfl)
          (after.not_conflicted_of_rebased settled)
  have sameVars : again.state.numVars = state.numVars := performed.effect.numVars.trans numVars
  have model := after.model_of_rebased settled sameVars (performed.settled rfl succeeded)
  rw [succeeded] at done
  exact ⟨reloaded, again, made, database, done, performed.sound, model,
    after.rebased_of_rebased model⟩

/-- Whatever has been asked of a solver, after a propagation that succeeds the clauses left can be
written and read back, a fresh solver of either kind takes them all, and it is propagated to the
same model, with the same clauses left. -/
theorem rebased_reloads {count : Nat} (bound : count ≤ maxNumber) {kind : PropagatorKind}
    {start solver last : Solver} (created : create kind count = .ok start)
    {steps : List (Step Unit)} (reached : reach perform start steps = solver)
    (propagated : propagate solver = .ok true last) (otherKind : PropagatorKind) :
    ∃ clauses session, rebase last = .ok clauses session ∧
      (clauses.length ≤ Dimacs.maxClauses →
        ∃ text formula reloaded again final,
          Dimacs.write clauses = .ok text ∧
          Dimacs.read text.toUTF8.data.toList = .ok formula ∧
          ofClauses otherKind count formula.clauses = .ok reloaded ∧
          reloaded.state.clauses.toList = formula.clauses.map Clause.ofLiterals ∧
          propagate reloaded = .ok true again ∧
          again.state.model = last.state.model ∧
          rebase again = .ok clauses final) := by
  have before := intact_reach created steps
  rw [reached] at before
  obtain ⟨success, after, done, performed⟩ := before.propagate_ends
  rw [propagated] at done
  cases done
  have intact := before.perform performed
  have valid := intact.sound.valid
  have numVars := intact.numVars
  have below : maxNumber ≤ maxVariables := by decide
  obtain ⟨clauses, session, exported, rebased⟩ := rebase_ends last valid
  refine ⟨clauses, session, exported, ?_⟩
  intro few
  have numbered : ∀ clause ∈ clauses, ∀ l ∈ clause.literals, l.var < maxNumber := by
    intro clause member l occurs
    rw [rebased] at member
    have small := valid.rebased_inside clause member l occurs
    omega
  obtain ⟨text, written, read⟩ := Dimacs.read_write numbered few
  obtain ⟨reloaded, again, made, database, propagatedAgain, sound, model, left⟩ :=
    reload_ends valid (performed.settled rfl rfl) (by omega) otherKind
  obtain ⟨more, final, exportedAgain, rebasedAgain⟩ := rebase_ends again sound.valid
  rw [← rebased, numVars] at made
  have all : reloaded.state.clauses.toList =
      (clauses.map Clause.literals).map Clause.ofLiterals := by
    rw [database, rebased, last.state.map_ofLiterals_rebased]
  have equal : more = clauses := by rw [rebasedAgain, left, rebased]
  rw [equal] at exportedAgain
  exact ⟨text, _, reloaded, again, final, written, read, made, all, propagatedAgain, model,
    exportedAgain⟩

/-- A clause keeps three of its four occurrences, two of them of one literal, and one holds. -/
def halfDecided : List (Step Unit) :=
  [.add (.ofLiterals [⟨1, true⟩, ⟨0, false⟩]),
    .add (.ofLiterals [⟨3, true⟩, ⟨1, false⟩, ⟨2, false⟩, ⟨3, true⟩]),
    .add (.ofLiterals [⟨0, true⟩, ⟨3, true⟩]), .assign ⟨0, true⟩]

theorem half_decided_reloads :
    ∃ last clauses session formula reloaded again final,
      propagate (reach perform (fresh .watchedLiterals 4) halfDecided) = .ok true last ∧
      rebase last = .ok clauses session ∧
      Dimacs.write clauses = .ok "p cnf 4 3\n-3 4 4 0\n1 0\n2 0\n" ∧
      Dimacs.read "p cnf 4 3\n-3 4 4 0\n1 0\n2 0\n".toUTF8.data.toList = .ok formula ∧
      ofClauses .fullScan 4 formula.clauses = .ok reloaded ∧
      propagate reloaded = .ok true again ∧
      again.state.model = last.state.model ∧ rebase again = .ok clauses final := by
  let start := reach perform (fresh .watchedLiterals 4) halfDecided
  have succeeded : propagate.answer? start = some true := by decide +kernel
  have left : ((propagate >>= fun _ => rebase).answer? start).map (List.map Clause.literals) =
      some [[⟨2, false⟩, ⟨3, true⟩, ⟨3, true⟩], [⟨0, true⟩], [⟨1, true⟩]] := by
    decide +kernel
  obtain ⟨last, propagated⟩ := Work.answer?_eq_some_iff.mp succeeded
  obtain ⟨clauses, session, exported, back⟩ := rebased_reloads (by decide : 4 ≤ maxNumber)
    (create_eq .watchedLiterals (by decide)) rfl propagated .fullScan
  have both : (propagate >>= fun _ => rebase) start = .ok clauses session := by
    rw [Work.bind_apply, propagated]
    exact exported
  rw [Work.answer?_eq_some_iff.mpr ⟨session, both⟩, Option.map_some, Option.some.injEq] at left
  have few : clauses.length ≤ Dimacs.maxClauses := by
    rw [← List.length_map (f := Clause.literals), left]
    decide
  obtain ⟨text, formula, reloaded, again, final, written, read, made, _, propagatedAgain, model,
    exportedAgain⟩ := back few
  have shown : Dimacs.write clauses = .ok "p cnf 4 3\n-3 4 4 0\n1 0\n2 0\n" := by
    simp only [Dimacs.write, left]
    decide +kernel
  rw [shown] at written
  cases written
  exact ⟨last, clauses, session, formula, reloaded, again, final, propagated, exported, shown,
    read, made, propagatedAgain, model, exportedAgain⟩

end Solver

end UnitPropagation
