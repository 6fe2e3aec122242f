import UnitPropagation.CommandLine.Run
import UnitPropagation.Proofs.Dimacs
import UnitPropagation.Proofs.Loading
import UnitPropagation.Proofs.Rebase

namespace UnitPropagation

/-! What is exported after a formula was propagated under assumptions.

After a success it says what the formula and the assumptions say.  Without one these contradict
each other, but what is exported need not be contradictory: it has neither clauses with all their
literals false nor the assumption that was refused. -/

variable {valuation : Nat → Bool}

def Formula.TrueUnder (valuation : Nat → Bool) (formula : Formula) : Prop :=
  ∀ literals ∈ formula.clauses, ∃ l ∈ literals, l.TrueUnder valuation

theorem Formula.trueUnder_iff (formula : Formula) : formula.TrueUnder valuation ↔
    ∀ clause ∈ formula.clauses.map Clause.ofLiterals, clause.TrueUnder valuation := by
  simp [Formula.TrueUnder, Clause.TrueUnder]

namespace State.Ledger

variable {state : State} {accepted : List Clause} {chosen assumptions : List Literal}

/-- Once the assumptions hold, it does not matter which of them were decided and which were
forced. -/
theorem assumed_trueUnder_iff (ledger : state.Ledger accepted chosen)
    (within : chosen ⊆ assumptions) (held : ∀ l ∈ assumptions, state.model.truth l = .holds) :
    (∀ clause ∈ state.clauses.toList, clause.TrueUnder valuation) ↔
      (∀ clause ∈ accepted, clause.TrueUnder valuation) ∧
        ∀ l ∈ assumptions, l.TrueUnder valuation := by
  constructor
  · intro satisfied
    have agrees := Assignment.agrees_iff.mp (ledger.agrees satisfied)
    exact ⟨(ledger.database_trueUnder_iff.mp satisfied).1, fun l member => agrees l (held l member)⟩
  · intro both
    exact ledger.database_trueUnder_iff.mpr ⟨both.1, fun l member => both.2 l (within member)⟩

theorem refuted (ledger : state.Ledger accepted chosen) (within : chosen ⊆ assumptions)
    (failed : state.Conflicted ∨ ∃ l ∈ assumptions, state.model.truth l = .fails) :
    ¬ ∃ valuation, (∀ clause ∈ accepted, clause.TrueUnder valuation) ∧
      ∀ l ∈ assumptions, l.TrueUnder valuation := by
  intro satisfiable
  obtain ⟨valuation, satisfied, assumed⟩ := satisfiable
  have start : ∀ l ∈ chosen, l.TrueUnder valuation := fun l member => assumed l (within member)
  rcases failed with conflicted | ⟨l, member, fails⟩
  · exact ledger.unsatisfiable conflicted ⟨valuation, satisfied, start⟩
  · have agrees := ledger.agrees (ledger.database_trueUnder_iff.mpr ⟨satisfied, start⟩)
    exact agrees.not_trueUnder fails (assumed l member)

end State.Ledger

namespace CommandLine

theorem assumptionLiteral_var_lt {numVars : Nat} {number : Int} {l : Literal}
    (accepted : assumptionLiteral numVars number = .ok l) : l.var < numVars := by
  unfold assumptionLiteral at accepted
  split at accepted
  · rename_i named
    cases accepted
    simpa using (Option.filter_eq_some_iff.mp named).2
  · cases accepted

theorem assumptions_var_lt {numVars : Nat} {numbers : List Int} {assumptions : List Literal}
    (accepted : numbers.mapM (assumptionLiteral numVars) = .ok assumptions) :
    ∀ l ∈ assumptions, l.var < numVars := by
  induction numbers generalizing assumptions with
  | nil =>
      cases accepted
      simp
  | cons number rest ih =>
      rw [List.mapM_cons] at accepted
      cases first : assumptionLiteral numVars number with
      | error reason =>
          rw [first] at accepted
          cases accepted
      | ok l =>
          cases others : rest.mapM (assumptionLiteral numVars) with
          | error reason =>
              rw [first, others] at accepted
              cases accepted
          | ok later =>
              rw [first, others] at accepted
              cases accepted
              intro other member
              rcases List.mem_cons.mp member with same | member
              · rw [same]
                exact assumptionLiteral_var_lt first
              · exact ih others other member

/-- A formula that was read, propagated under assumptions that are literals of it: after a
success the export has the same satisfying valuations as the formula with the assumptions, and
without one these have none. -/
theorem run_exports_or_refutes {formula : Formula}
    (loaded : (∃ bytes, Dimacs.read bytes = .ok formula) ∨
      ∃ text, Dimacs.readText text = .ok formula)
    (occupied : [] ∉ formula.clauses) {numbers : List Int} {assumptions : List Literal}
    (accepted : numbers.mapM (assumptionLiteral formula.numVars) = .ok assumptions)
    (kind : PropagatorKind) :
    ∃ solver success after clauses last,
      Solver.ofClauses kind formula.numVars formula.clauses = .ok solver ∧
      Solver.run assumptions solver = .ok success after ∧
      Solver.rebase after = .ok clauses last ∧
      (success = true → ∀ valuation, (∀ clause ∈ clauses, clause.TrueUnder valuation) ↔
        formula.TrueUnder valuation ∧ ∀ l ∈ assumptions, l.TrueUnder valuation) ∧
      (success = false → ¬ ∃ valuation,
        formula.TrueUnder valuation ∧ ∀ l ∈ assumptions, l.TrueUnder valuation) := by
  have inRange : formula.InRange := by
    rcases loaded with ⟨bytes, read⟩ | ⟨text, read⟩
    · exact Dimacs.read_inRange read
    · exact Dimacs.readText_inRange read
  have bound : formula.numVars ≤ maxVariables := by
    have below : maxNumber ≤ maxVariables := by decide
    exact Nat.le_trans inRange.numVars below
  obtain ⟨solver, made, given, numVars⟩ :=
    Solver.ofClauses_loaded kind bound occupied inRange.inside
  have inside : ∀ l ∈ assumptions, l.var < solver.state.numVars := by
    rw [numVars]
    exact assumptions_var_lt accepted
  obtain ⟨success, after, ran, sound, _, ⟨chosen, within, ledger⟩, succeeded, failed⟩ :=
    Solver.run_ends assumptions solver given.sound given.ledger inside
  obtain ⟨clauses, last, exported, rebased⟩ := Solver.rebase_ends after sound.valid
  refine ⟨solver, success, after, clauses, last, made, ran, exported, ?_, ?_⟩
  · intro success valuation
    obtain ⟨settled, held⟩ := succeeded success
    rw [rebased, ledger.rebased_trueUnder_iff settled.not_conflicted,
      ledger.assumed_trueUnder_iff within held, formula.trueUnder_iff]
  · intro failure
    simp only [formula.trueUnder_iff]
    exact ledger.refuted within (failed failure)

/-- The answer of a run and what it exports. -/
def outcome? (kind : PropagatorKind) (formula : Formula) (assumptions : List Literal) :
    Option (Bool × List Clause) :=
  match Solver.ofClauses kind formula.numVars formula.clauses with
  | .error _ => none
  | .ok solver =>
      match Solver.run assumptions solver with
      | .error _ _ => none
      | .ok success after =>
          match Solver.rebase after with
          | .error _ _ => none
          | .ok clauses _ => some (success, clauses)

theorem outcome?_eq_some_iff {kind : PropagatorKind} {formula : Formula}
    {assumptions : List Literal} {success : Bool} {clauses : List Clause} :
    outcome? kind formula assumptions = some (success, clauses) ↔
      ∃ solver after last, Solver.ofClauses kind formula.numVars formula.clauses = .ok solver ∧
        Solver.run assumptions solver = .ok success after ∧
        Solver.rebase after = .ok clauses last := by
  unfold outcome?
  constructor
  · intro evaluated
    split at evaluated
    · cases evaluated
    · rename_i solver made
      split at evaluated
      · cases evaluated
      · rename_i success after ran
        split at evaluated
        · cases evaluated
        · rename_i clauses last exported
          cases evaluated
          exact ⟨solver, after, last, made, ran, exported⟩
  · intro steps
    obtain ⟨solver, after, last, made, ran, exported⟩ := steps
    simp only [made, ran, exported]

/-- One assumption forces two literals, and a clause is left with an occurrence written twice. -/
theorem chain_exports :
    ∃ formula assumptions clauses,
      Dimacs.readText "-1 2 0\n-2 3 0\n1 4 0\n5 -3 4 5 0".toList = .ok formula ∧
      [1].mapM (assumptionLiteral formula.numVars) = .ok assumptions ∧
      outcome? .watchedLiterals formula assumptions = some (true, clauses) ∧
      clauses.map Clause.literals =
        [[⟨3, true⟩, ⟨4, true⟩, ⟨4, true⟩], [⟨0, true⟩], [⟨1, true⟩], [⟨2, true⟩]] ∧
      ∀ valuation, (∀ clause ∈ clauses, clause.TrueUnder valuation) ↔
        formula.TrueUnder valuation ∧ ∀ l ∈ assumptions, l.TrueUnder valuation := by
  let formula : Formula := ⟨5, [[⟨0, false⟩, ⟨1, true⟩], [⟨1, false⟩, ⟨2, true⟩],
    [⟨0, true⟩, ⟨3, true⟩], [⟨4, true⟩, ⟨2, false⟩, ⟨3, true⟩, ⟨4, true⟩]]⟩
  have loaded : Dimacs.readText "-1 2 0\n-2 3 0\n1 4 0\n5 -3 4 5 0".toList = .ok formula := by
    decide +kernel
  have accepted : [1].mapM (assumptionLiteral formula.numVars) = .ok [⟨0, true⟩] := by
    decide +kernel
  obtain ⟨solver, success, after, clauses, last, made, ran, exported, equivalent, _⟩ :=
    run_exports_or_refutes (.inr ⟨_, loaded⟩) (by decide) accepted .watchedLiterals
  have evaluated : (outcome? .watchedLiterals formula [⟨0, true⟩]).map
      (Prod.map id (List.map Clause.literals)) = some (true,
        [[⟨3, true⟩, ⟨4, true⟩, ⟨4, true⟩], [⟨0, true⟩], [⟨1, true⟩], [⟨2, true⟩]]) := by
    decide +kernel
  have outcome := outcome?_eq_some_iff.mpr ⟨solver, after, last, made, ran, exported⟩
  rw [outcome, Option.map_some, Option.some.injEq, Prod.map_apply, Prod.mk.injEq] at evaluated
  obtain ⟨succeeded, literals⟩ := evaluated
  change success = true at succeeded
  rw [succeeded] at outcome
  exact ⟨formula, [⟨0, true⟩], clauses, loaded, accepted, outcome, literals, equivalent succeeded⟩

/-- The formula and the assumptions contradict each other, and what is exported does not. -/
def Misleads (kind : PropagatorKind) (text : String) (numbers : List Int) : Prop :=
  ∃ formula assumptions success clauses,
    Dimacs.readText text.toList = .ok formula ∧ [] ∉ formula.clauses ∧
    numbers.mapM (assumptionLiteral formula.numVars) = .ok assumptions ∧
    outcome? kind formula assumptions = some (success, clauses) ∧
    (∃ valuation, ∀ clause ∈ clauses, clause.TrueUnder valuation) ∧
    ¬ ∃ valuation, formula.TrueUnder valuation ∧ ∀ l ∈ assumptions, l.TrueUnder valuation

/-- Neither a clause that was found false nor an assumption that was refused is exported. -/
theorem conflict_and_refusal_mislead :
    Misleads .watchedLiterals "1 0\n-1 0" [] ∧ Misleads .fullScan "1 2 0" [1, -1] := by
  have satisfied : ∃ valuation, ∀ clause ∈ [Clause.ofLiterals [⟨0, true⟩]],
      clause.TrueUnder valuation :=
    ⟨fun _ => true, by simp [Clause.TrueUnder, Literal.TrueUnder]⟩
  constructor
  · refine ⟨⟨1, [[⟨0, true⟩], [⟨0, false⟩]]⟩, [], false, [.ofLiterals [⟨0, true⟩]],
      by decide +kernel, by decide, rfl, by decide +kernel, satisfied, ?_⟩
    intro satisfiable
    obtain ⟨valuation, clauses, _⟩ := satisfiable
    simp [Formula.TrueUnder, Literal.TrueUnder] at clauses
  · refine ⟨⟨2, [[⟨0, true⟩, ⟨1, true⟩]]⟩, [⟨0, true⟩, ⟨0, false⟩], false,
      [.ofLiterals [⟨0, true⟩]], by decide +kernel, by decide, by decide +kernel,
      by decide +kernel, satisfied, ?_⟩
    intro satisfiable
    obtain ⟨valuation, _, assumptions⟩ := satisfiable
    simp [Literal.TrueUnder] at assumptions

end CommandLine

end UnitPropagation
