import UnitPropagation.Proofs.SharedSession

namespace UnitPropagation

/-! Propagation stops at a fixpoint or at a conflict, and says which.

Any number of scanning propagators and one that watches may take turns on a session while
clauses arrive and literals are assigned. -/

/-- A propagation that succeeds leaves nothing to do, and one that does not succeed leaves a
clause with all its literals false. -/
def Entry.Exact (entry : Entry SharedSession Member) : Prop :=
  if entry.answer then entry.after.state.Settled else entry.after.state.Conflicted

namespace SharedSession

variable {shared after : SharedSession} {step : Step Member} {answer : Bool}

theorem Performed.exact {member : Member} (performed : Performed shared step answer after)
    (asked : step.propagator? = some member)
    (guards : (shared.memory member).Guards shared.state) :
    Entry.Exact ⟨shared, step, answer, after⟩ := by
  cases answer with
  | true => exact performed.settled member asked guards rfl
  | false => exact performed.effect.conflicted_of_failed (by rw [asked]; rfl) rfl

/-- The members in use will be right, and have been so far. -/
structure Trusted (used : Member → Prop) (history : List (Entry SharedSession Member))
    (shared : SharedSession) : Prop where
  guarded : shared.Guarded used
  exact : ∀ entry ∈ history, ∀ member, entry.step = .propagate member → entry.Exact

theorem Trusted.push {used : Member → Prop} {past : List (Entry SharedSession Member)}
    (trusted : Trusted used past shared) (roster : Roster used shared.state.numVars)
    (uses : ∀ member, step.propagator? = some member → used member)
    (performed : Performed shared step answer after) :
    Trusted used (past ++ [⟨shared, step, answer, after⟩]) after where
  guarded := performed.guarded used roster uses trusted.guarded
  exact := by
    intro entry entered member propagates
    rcases List.mem_append.mp entered with old | new
    · exact trusted.exact entry old member propagates
    · rw [List.mem_singleton.mp new] at propagates ⊢
      have asked : step.propagator? = some member := congrArg Step.propagator? propagates
      exact performed.exact asked (trusted.guarded member (uses member asked))

/-- In every run in which at most one of the propagators watches, each of their answers is
exact at the moment it is given. -/
theorem propagations_exact {count : Nat} (bound : count ≤ maxVariables)
    (steps : List (Step Member)) (inside : ∀ l ∈ steps.filterMap Step.literal?, l.var < count)
    (suited : ∀ member ∈ steps.filterMap Step.propagator?, member.Suits count)
    (alone : ∀ first ∈ steps.filterMap Step.propagator?,
      ∀ second ∈ steps.filterMap Step.propagator?,
        first.kind = .watchedLiterals → second.kind = .watchedLiterals → first = second) :
    ∃ history last, replay perform (create count) steps = .ok (history, last) ∧
      history.map Entry.step = steps ∧
      ∀ entry ∈ history, ∀ member, entry.step = .propagate member → entry.Exact := by
  let used (member : Member) : Prop := member ∈ steps.filterMap Step.propagator?
  have roster : Roster used count :=
    ⟨suited, fun first second firstUsed secondUsed => alone first firstUsed second secondUsed⟩
  have uses : ∀ step ∈ steps, ∀ member, step.propagator? = some member → used member :=
    Step.forall_of_filterMap fun _ named => named
  obtain ⟨history, last, done, same, trusted⟩ := replay_keeps bound steps inside suited
    (Trusted used) ⟨guarded_fresh count used, by simp⟩
    (by
      intro past shared step answer after member numVars trusted performed
      rw [← numVars] at roster
      exact trusted.push roster (uses step member) performed)
  exact ⟨history, last, done, same, trusted.exact⟩

/-- A clause is taken in before its first two literals fail, one of them noticed by a scan. -/
def turns : List (Step Member) :=
  let watching : Member := ⟨.watchedLiterals, 4, 0⟩
  let scanning : Member := ⟨.fullScan, 0, 0⟩
  [.add (.ofLiterals [⟨0, true⟩, ⟨1, true⟩, ⟨2, true⟩]), .propagate watching,
    .assign ⟨0, false⟩, .propagate scanning, .assign ⟨1, false⟩, .propagate watching,
    .add (.ofLiterals [⟨2, false⟩]), .propagate scanning, .propagate watching]

theorem turns_exact :
    ∃ history last, replay perform (create 3) turns = .ok (history, last) ∧
      history.map Entry.answer = [true, true, true, true, true, true, true, false, false] ∧
      ∀ entry ∈ history, ∀ member, entry.step = .propagate member → entry.Exact := by
  obtain ⟨history, last, done, _, exact⟩ :=
    propagations_exact (by decide : 3 ≤ maxVariables) turns (by decide) (by decide) (by decide)
  have answers : (replay perform (create 3) turns).toOption.map (fun run =>
      run.1.map Entry.answer) =
        some [true, true, true, true, true, true, true, false, false] := by decide +kernel
  rw [done] at answers
  exact ⟨history, last, done, Option.some.inj answers, exact⟩

end SharedSession

end UnitPropagation
