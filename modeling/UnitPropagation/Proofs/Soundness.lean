import UnitPropagation.Proofs.SharedSession

namespace UnitPropagation

/-! Propagation deduces only what follows.

Nothing here depends on the memory of a propagator, so any number of them may share a session
and move each other's slots. -/

variable {valuation : Nat → Bool} {l : Literal} {clauses : List Clause}
  {chosen trail : List Literal}

/-- The literal is true when every variable has its value in `valuation`. -/
def Literal.TrueUnder (valuation : Nat → Bool) (l : Literal) : Prop :=
  valuation l.var = l.positive

def Clause.TrueUnder (valuation : Nat → Bool) (clause : Clause) : Prop :=
  ∃ l ∈ clause.literals, l.TrueUnder valuation

theorem Literal.TrueUnder.not_negate (holds : l.TrueUnder valuation) :
    ¬ l.negate.TrueUnder valuation := by
  intro opposite
  have same : l.positive = !l.positive := holds.symm.trans opposite
  cases positive : l.positive <;> simp [positive] at same

theorem Justified.entails (justified : Justified clauses chosen trail)
    (satisfied : ∀ clause ∈ clauses, clause.TrueUnder valuation)
    (start : ∀ l ∈ chosen, l.TrueUnder valuation) : ∀ l ∈ trail, l.TrueUnder valuation := by
  apply justified.spread start
  intro clause member before l after split others
  obtain ⟨witness, occurs, holds⟩ := satisfied clause member
  rw [split, List.perm_middle.mem_iff] at occurs
  rcases List.mem_cons.mp occurs with same | elsewhere
  · rw [← same]
    exact holds
  · exact absurd (others witness elsewhere) holds.not_negate

/-- No valuation satisfies the accepted clauses and the decided literals if the model falsifies
an accepted clause: all that it makes true follows from them. -/
theorem State.Ledger.unsatisfiable {state : State} (ledger : state.Ledger clauses chosen)
    (conflicted : state.Conflicted) :
    ¬ ∃ valuation, (∀ clause ∈ clauses, clause.TrueUnder valuation) ∧
      ∀ l ∈ chosen, l.TrueUnder valuation := by
  intro satisfiable
  obtain ⟨valuation, satisfied, start⟩ := satisfiable
  obtain ⟨clause, member, falsified⟩ := ledger.conflicted conflicted
  obtain ⟨l, occurs, holds⟩ := satisfied clause member
  have opposite : l.negate ∈ state.trail.toList := by
    rw [ledger.valid.recorded, Assignment.negate_holds_iff]
    exact falsified l occurs
  exact holds.not_negate (ledger.justified.entails satisfied start l.negate opposite)

namespace SharedSession

/-- In every run, whoever takes part in it, each trail literal that was not decided has an
accepted clause and earlier trail literals as its reason.  So the trail follows from the
accepted clauses and the decided literals, and a propagation that fails refutes them. -/
theorem deductions_sound {count : Nat} (bound : count ≤ maxVariables) (steps : List (Step Member))
    (inside : ∀ l ∈ steps.filterMap Step.literal?, l.var < count)
    (suited : ∀ member ∈ steps.filterMap Step.propagator?, member.Suits count) :
    ∃ history last, replay perform (create count) steps = .ok (history, last) ∧
      history.map Entry.step = steps ∧
      (∀ position l, last.state.trail.toList[position]? = some l → l ∉ decided state history →
        ∃ clause ∈ accepted history,
          clause.Reason l (last.state.trail.toList.take position)) ∧
      (∀ valuation, (∀ clause ∈ accepted history, clause.TrueUnder valuation) →
        (∀ l ∈ decided state history, l.TrueUnder valuation) →
        ∀ l ∈ last.state.trail.toList, l.TrueUnder valuation) ∧
      ((∃ entry ∈ history, entry.Failed) →
        ¬ ∃ valuation, (∀ clause ∈ accepted history, clause.TrueUnder valuation) ∧
          ∀ l ∈ decided state history, l.TrueUnder valuation) := by
  obtain ⟨history, last, done, same, records⟩ := replay_keeps bound steps inside suited
    (fun history shared => Records state history shared.state) (records_nil count)
    fun _ _ _ _ _ _ _ records performed => records.push performed.effect
  refine ⟨history, last, done, same, ?_, ?_, ?_⟩
  · intro position l found undecided
    exact (records.ledger.justified position l found).resolve_left undecided
  · intro valuation satisfied start
    exact records.ledger.justified.entails satisfied start
  · intro seen
    obtain ⟨entry, member, failed⟩ := seen
    exact records.ledger.unsatisfiable (records.failed entry member failed)

/-- Two members watch one clause and move its slots in turn. -/
def rivals : List (Step Member) :=
  let first : Member := ⟨.watchedLiterals, 4, 0⟩
  let second : Member := ⟨.watchedLiterals, 4, 1⟩
  [.add (.ofLiterals [⟨0, true⟩, ⟨1, true⟩, ⟨2, true⟩, ⟨3, true⟩]), .propagate first,
    .propagate second, .assign ⟨0, false⟩, .propagate first, .propagate second,
    .assign ⟨1, false⟩, .assign ⟨2, false⟩, .propagate first,
    .add (.ofLiterals [⟨3, false⟩]), .propagate second]

theorem rivals_sound :
    ∃ history last, replay perform (create 4) rivals = .ok (history, last) ∧
      (∃ clause ∈ accepted history,
        clause.Reason ⟨3, true⟩ [⟨0, false⟩, ⟨1, false⟩, ⟨2, false⟩]) ∧
      ¬ ∃ valuation, (∀ clause ∈ accepted history, clause.TrueUnder valuation) ∧
        ∀ l ∈ decided state history, l.TrueUnder valuation := by
  obtain ⟨history, last, done, _, reasons, _, refuted⟩ :=
    deductions_sound (by decide : 4 ≤ maxVariables) rivals (by decide) (by decide)
  have outcome : (replay perform (create 4) rivals).toOption.map (fun run =>
      (run.2.state.trail.toList, decided state run.1, run.1.any fun entry => entry.Failed)) =
        some ([⟨0, false⟩, ⟨1, false⟩, ⟨2, false⟩, ⟨3, true⟩],
          [⟨0, false⟩, ⟨1, false⟩, ⟨2, false⟩], true) := by decide +kernel
  rw [done] at outcome
  simp only [Except.toOption, Option.map_some, Option.some.injEq, Prod.mk.injEq] at outcome
  obtain ⟨trail, chosen, failed⟩ := outcome
  rw [trail, chosen] at reasons
  refine ⟨history, last, done, reasons 3 ⟨3, true⟩ rfl (by decide), refuted ?_⟩
  simpa using failed

end SharedSession

end UnitPropagation
