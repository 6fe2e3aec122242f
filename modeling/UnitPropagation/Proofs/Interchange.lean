import UnitPropagation.Proofs.Solver

namespace UnitPropagation

/-! Which propagator a solver has makes no difference to what it answers.

Two solvers that are driven by the same operations stay in step: as long as no propagation
fails, each finds out what the other does, though not in the same order. -/

theorem Step.Effect.model_unique {τ : Type} {step : Step τ}
    {left right afterLeft afterRight : State} {first second : Bool}
    (direct : step.propagator? = none) (same : left.model = right.model)
    (one : step.Effect left first afterLeft) (two : step.Effect right second afterRight) :
    first = second ∧ afterLeft.model = afterRight.model := by
  have rejection : ∀ clause, left.rejection? clause = right.rejection? clause :=
    State.rejection?_congr (congrArg Assignment.size same)
  cases one with
  | rejected unfit =>
      cases two with
      | rejected => exact ⟨rfl, same⟩
      | taken fit => exact absurd ((rejection _).trans fit) unfit
  | taken fit =>
      cases two with
      | rejected unfit => exact absurd ((rejection _).symm.trans fit) unfit
      | taken => exact ⟨rfl, same⟩
  | refused fails =>
      rw [same] at fails
      cases two with
      | refused => exact ⟨rfl, same⟩
      | confirmed holds => simp [holds] at fails
      | decided _ unassigned => simp [unassigned] at fails
  | confirmed holds =>
      rw [same] at holds
      cases two with
      | refused fails => simp [fails] at holds
      | confirmed => exact ⟨rfl, same⟩
      | decided _ unassigned => simp [unassigned] at holds
  | decided _ unassigned =>
      rw [same] at unassigned
      cases two with
      | refused fails => simp [fails] at unassigned
      | confirmed holds => simp [holds] at unassigned
      | decided => exact ⟨rfl, by rw [State.extend_model, State.extend_model, same]⟩
  | propagated => cases direct

namespace Solver

variable {left right afterLeft afterRight : Solver} {step : Step Unit} {first second : Bool}

/-- The two show the same to whoever asks them. -/
structure Agree (left right : Solver) : Prop where
  model : left.state.model = right.state.model
  trail : left.state.trail.toList.Perm right.state.trail.toList
  clauses : left.state.clauses.size = right.state.clauses.size
  propagations : left.state.counters.propagations = right.state.counters.propagations
  rebase : ∃ clauses afterLeft afterRight,
    rebase left = .ok clauses afterLeft ∧ rebase right = .ok clauses afterRight

/-- The two have one past and one model. -/
structure Matched (left right : Solver) : Prop where
  leftSound : left.Sound
  rightSound : right.Sound
  model : left.state.model = right.state.model
  past : ∃ clauses literals,
    left.state.Ledger clauses literals ∧ right.state.Ledger clauses literals

theorem Matched.agree (matched : Matched left right) : Agree left right := by
  have same := matched.model
  obtain ⟨clauses, literals, ledger, otherLedger⟩ := matched.past
  have trail := ledger.trail_perm otherLedger same
  have length := trail.length_eq
  refine ⟨same, trail, ?_, ?_, ?_⟩
  · have size := ledger.merged.length_eq
    have otherSize := otherLedger.merged.length_eq
    simp only [List.length_map, Database.toList, Array.length_toList] at size otherSize length
    simp only [Database.size]
    omega
  · have counted := ledger.counted
    have otherCounted := otherLedger.counted
    simp only [Array.length_toList] at length
    omega
  · obtain ⟨rebased, afterLeft, done, shown⟩ := rebase_ends left matched.leftSound.valid
    obtain ⟨otherRebased, afterRight, otherDone, otherShown⟩ :=
      rebase_ends right matched.rightSound.valid
    have equal : rebased = otherRebased := by
      rw [shown, otherShown, State.rebased, State.rebased, ledger.reduced_eq,
        otherLedger.reduced_eq, State.units, State.units, same]
    exact ⟨rebased, afterLeft, afterRight, done, by rw [equal, otherDone]⟩

theorem Matched.propagate {who : Unit} (matched : Matched left right)
    (one : Performed left (.propagate who) first afterLeft)
    (two : Performed right (.propagate who) second afterRight) :
    first = second ∧ (first = true → afterLeft.state.model = afterRight.state.model) := by
  obtain ⟨clauses, literals, leftLedger, rightLedger⟩ := matched.past
  have ledger : afterLeft.state.Ledger clauses literals := by
    simpa [Step.clause?, Step.literal?] using one.effect.ledger leftLedger
  have otherLedger : afterRight.state.Ledger clauses literals := by
    simpa [Step.clause?, Step.literal?] using two.effect.ledger rightLedger
  have failed := one.effect.conflicted_of_failed rfl
  have otherFailed := two.effect.conflicted_of_failed rfl
  have settled := one.settled rfl
  have otherSettled := two.settled rfl
  cases first with
  | false =>
      cases second with
      | false => exact ⟨rfl, by simp⟩
      | true =>
          exact absurd (otherSettled rfl)
            (ledger.not_settled_of_conflicted otherLedger (failed rfl))
  | true =>
      cases second with
      | false =>
          exact absurd (settled rfl)
            (otherLedger.not_settled_of_conflicted ledger (otherFailed rfl))
      | true =>
          have size : afterLeft.state.model.size = afterRight.state.model.size := by
            have sizes := congrArg Assignment.size matched.model
            exact one.effect.numVars.trans (sizes.trans two.effect.numVars.symm)
          refine ⟨rfl, fun _ => Assignment.eq_of_extends size ?_ ?_⟩
          · exact otherLedger.extends_of_settled ledger (settled rfl)
          · exact ledger.extends_of_settled otherLedger (otherSettled rfl)

/-- After one operation on both they have answered the same, and they match again unless it was
a propagation that failed. -/
theorem Matched.perform (matched : Matched left right)
    (one : Performed left step first afterLeft) (two : Performed right step second afterRight) :
    first = second ∧
      (¬ (step.propagator?.isSome ∧ first = false) → Matched afterLeft afterRight) := by
  have answers : first = second ∧ (¬ (step.propagator?.isSome ∧ first = false) →
      afterLeft.state.model = afterRight.state.model) := by
    cases step with
    | add clause =>
        obtain ⟨same, model⟩ := one.effect.model_unique rfl matched.model two.effect
        exact ⟨same, fun _ => model⟩
    | assign l =>
        obtain ⟨same, model⟩ := one.effect.model_unique rfl matched.model two.effect
        exact ⟨same, fun _ => model⟩
    | propagate who =>
        obtain ⟨same, model⟩ := matched.propagate one two
        refine ⟨same, fun going => model ?_⟩
        simpa [Step.propagator?] using going
  obtain ⟨same, model⟩ := answers
  refine ⟨same, fun going => ⟨one.sound, two.sound, model going, ?_⟩⟩
  obtain ⟨clauses, literals, ledger, otherLedger⟩ := matched.past
  have grown := one.effect.ledger ledger
  have otherGrown := two.effect.ledger otherLedger
  rw [← same, ← matched.model] at otherGrown
  exact ⟨_, _, grown, otherGrown⟩

/-- In conflict, with no propagation that succeeded since. -/
structure Doomed (history : List (Entry Solver Unit)) (solver : Solver) : Prop where
  conflicted : solver.state.Conflicted
  refused : ∀ entry ∈ history, entry.step = .propagate () → entry.answer = false

theorem Doomed.push {past : List (Entry Solver Unit)} {solver after : Solver} {answer : Bool}
    (doomed : Doomed past solver) (sound : solver.Sound)
    (performed : Performed solver step answer after) :
    Doomed (past ++ [⟨solver, step, answer, after⟩]) after := by
  have conflicted := performed.effect.conflicted sound.valid doomed.conflicted
  refine ⟨conflicted, ?_⟩
  intro entry member propagates
  rcases List.mem_append.mp member with old | new
  · exact doomed.refused entry old propagates
  · rw [List.mem_singleton.mp new] at propagates ⊢
    have asked : step.propagator? = some () := congrArg Step.propagator? propagates
    cases answer with
    | false => rfl
    | true =>
        have settled := performed.settled (by rw [asked]; rfl) rfl
        exact absurd conflicted settled.not_conflicted

/-- Two histories of one run of operations.  The answers are the same and the solvers agree
after each operation, up to the first propagation that fails; from there on no propagation
succeeds on either side. -/
def Alike : List (Entry Solver Unit) → List (Entry Solver Unit) → Prop
  | [], [] => True
  | one :: left, two :: right =>
      one.step = two.step ∧ one.answer = two.answer ∧
        if one.Failed then
          ∀ entry ∈ left ++ right, entry.step = .propagate () → entry.answer = false
        else Agree one.after two.after ∧ Alike left right
  | _, _ => False

theorem record_doomed {solver : Solver} {count : Nat} (steps : List (Step Unit))
    (inside : ∀ step ∈ steps, ∀ l, step.literal? = some l → l.var < count) (sound : solver.Sound)
    (numVars : solver.state.numVars = count) (conflicted : solver.state.Conflicted) :
    (record perform steps).Ends solver fun history _ =>
      (∀ entry ∈ history, entry.step = .propagate () → entry.answer = false) ∧
        history.map Entry.step = steps := by
  refine (record_keeps steps inside Doomed solver sound numVars ⟨conflicted, by simp⟩ ?_).mono ?_
  · intro past solver step answer after sound doomed performed
    exact doomed.push sound performed
  · intro history last ended
    exact ⟨ended.1.refused, ended.2.2⟩

theorem record_alike {count : Nat} (steps : List (Step Unit))
    (inside : ∀ step ∈ steps, ∀ l, step.literal? = some l → l.var < count)
    (matched : Matched left right) (numVars : left.state.numVars = count) :
    ∃ history last otherHistory otherLast,
      record perform steps left = .ok history last ∧
      record perform steps right = .ok otherHistory otherLast ∧
      history.map Entry.step = steps ∧ otherHistory.map Entry.step = steps ∧
      Alike history otherHistory := by
  induction steps generalizing left right with
  | nil => exact ⟨[], left, [], right, rfl, rfl, rfl, rfl, trivial⟩
  | cons step rest ih =>
      have leftInside := inside step (by simp)
      have restInside : ∀ step ∈ rest, ∀ l, step.literal? = some l → l.var < count :=
        fun other member => inside other (by simp [member])
      have rightNumVars : right.state.numVars = count := by
        rw [← numVars]
        exact congrArg Assignment.size matched.model.symm
      have rightInside := leftInside
      rw [← numVars] at leftInside
      rw [← rightNumVars] at rightInside
      obtain ⟨first, afterLeft, done, one⟩ := perform_ends left matched.leftSound step leftInside
      obtain ⟨second, afterRight, otherDone, two⟩ :=
        perform_ends right matched.rightSound step rightInside
      obtain ⟨same, onward⟩ := matched.perform one two
      -- After a failure both are in conflict for good; before it they go on in step.
      by_cases failed : Entry.Failed ⟨left, step, first, afterLeft⟩
      · have conflicted := one.effect.conflicted_of_failed failed.1 failed.2
        have otherConflicted :=
          two.effect.conflicted_of_failed failed.1 (same.symm.trans failed.2)
        obtain ⟨history, last, others, refused, steps⟩ := record_doomed rest restInside one.sound
          (one.effect.numVars.trans numVars) conflicted
        obtain ⟨otherHistory, otherLast, otherOthers, otherRefused, otherSteps⟩ :=
          record_doomed rest restInside two.sound (two.effect.numVars.trans rightNumVars)
            otherConflicted
        refine ⟨_, _, _, _, record_cons done others, record_cons otherDone otherOthers,
          by rw [List.map_cons, steps], by rw [List.map_cons, otherSteps], rfl, same, ?_⟩
        rw [if_pos failed]
        intro entry member
        rcases List.mem_append.mp member with inLeft | inRight
        · exact refused entry inLeft
        · exact otherRefused entry inRight
      · have later := onward failed
        obtain ⟨history, last, otherHistory, otherLast, others, otherOthers, steps, otherSteps,
          alike⟩ := ih restInside later (one.effect.numVars.trans numVars)
        refine ⟨_, _, _, _, record_cons done others, record_cons otherDone otherOthers,
          by rw [List.map_cons, steps], by rw [List.map_cons, otherSteps], rfl, same, ?_⟩
        rw [if_neg failed]
        exact ⟨later.agree, alike⟩

theorem matched_fresh (kind otherKind : PropagatorKind) (count : Nat) :
    Matched (fresh kind count) (fresh otherKind count) :=
  ⟨sound_fresh kind count, sound_fresh otherKind count, rfl,
    [], [], State.ledger_ofModel count, State.ledger_ofModel count⟩

/-- Solvers with any two propagators, driven by the same operations, are alike. -/
theorem propagators_interchangeable {count : Nat} (bound : count ≤ maxVariables)
    (steps : List (Step Unit)) (inside : ∀ l ∈ steps.filterMap Step.literal?, l.var < count)
    (kind otherKind : PropagatorKind) :
    ∃ history last otherHistory otherLast,
      replay perform (create kind count) steps = .ok (history, last) ∧
      replay perform (create otherKind count) steps = .ok (otherHistory, otherLast) ∧
      history.map Entry.step = steps ∧ otherHistory.map Entry.step = steps ∧
      Alike history otherHistory := by
  obtain ⟨history, last, otherHistory, otherLast, done, otherDone, rest⟩ :=
    record_alike steps (Step.forall_of_filterMap inside) (matched_fresh kind otherKind count)
      (numVars_fresh kind count)
  rw [create_eq kind bound, create_eq otherKind bound]
  exact ⟨history, last, otherHistory, otherLast, replay_of_record done,
    replay_of_record otherDone, rest⟩

/-- A scan meets the consequences of variable 0 in another order than watching does. -/
def consequences : List (Step Unit) :=
  [.add (.ofLiterals [⟨0, false⟩, ⟨1, true⟩]), .add (.ofLiterals [⟨1, false⟩, ⟨2, true⟩]),
    .add (.ofLiterals [⟨0, false⟩, ⟨3, true⟩]), .propagate (), .assign ⟨0, true⟩,
    .propagate (), .add (.ofLiterals [⟨2, false⟩, ⟨3, false⟩]), .propagate (),
    .assign ⟨1, false⟩, .propagate ()]

theorem consequences_interchangeable :
    ∃ history last otherHistory otherLast,
      replay perform (create .fullScan 4) consequences = .ok (history, last) ∧
      replay perform (create .watchedLiterals 4) consequences = .ok (otherHistory, otherLast) ∧
      last.state.trail.toList = [⟨0, true⟩, ⟨1, true⟩, ⟨2, true⟩, ⟨3, true⟩] ∧
      otherLast.state.trail.toList = [⟨0, true⟩, ⟨1, true⟩, ⟨3, true⟩, ⟨2, true⟩] ∧
      Alike history otherHistory := by
  obtain ⟨history, last, otherHistory, otherLast, done, otherDone, _, _, alike⟩ :=
    propagators_interchangeable (by decide : 4 ≤ maxVariables) consequences (by decide)
      .fullScan .watchedLiterals
  have scanned : (replay perform (create .fullScan 4) consequences).toOption.map (fun run =>
      run.2.state.trail.toList) = some [⟨0, true⟩, ⟨1, true⟩, ⟨2, true⟩, ⟨3, true⟩] := by
    decide +kernel
  have watched : (replay perform (create .watchedLiterals 4) consequences).toOption.map
      (fun run => run.2.state.trail.toList) =
        some [⟨0, true⟩, ⟨1, true⟩, ⟨3, true⟩, ⟨2, true⟩] := by
    decide +kernel
  rw [done] at scanned
  rw [otherDone] at watched
  exact ⟨history, last, otherHistory, otherLast, done, otherDone, Option.some.inj scanned,
    Option.some.inj watched, alike⟩

end Solver

end UnitPropagation
