import UnitPropagation.Proofs.Continuity
import UnitPropagation.Proofs.Fixpoint

namespace UnitPropagation

/-! Several propagators that watch the clauses of one session.

Each has lists of its own, but the slots belong to the clauses.  A propagator whose clauses were
given other slots by somebody else finds nothing to do where it looks and does not look where it
should, so that it may stop before the fixpoint.  As long as its clauses are spared it does not
matter who else runs, when, or how often. -/

/-- The operation is a run of `member` itself, or the clauses that `member` has taken in have the
slots afterwards that they had before. -/
def Entry.Spares (entry : Entry SharedSession Member) (member : Member) : Prop :=
  entry.step = .propagate member ∨ ∀ id < (entry.before.memory member).taken,
    entry.after.state.clauses.get? id = entry.before.state.clauses.get? id

instance (entry : Entry SharedSession Member) (member : Member) :
    Decidable (entry.Spares member) :=
  inferInstanceAs (Decidable (_ ∨ ∀ id < _, _))

namespace SharedSession

variable {shared after : SharedSession} {step : Step Member} {answer : Bool} {member : Member}
  {count : Nat}

theorem guards_of_spares (equipped : shared.Equipped) (suits : member.Suits shared.state.numVars)
    (guards : (shared.memory member).Guards shared.state)
    (performed : Performed shared step answer after)
    (spared : Entry.Spares ⟨shared, step, answer, after⟩ member) :
    (after.memory member).Guards after.state := by
  by_cases own : step.propagator? = some member
  · -- Alone on the roster, a member keeps its own files in order.
    have roster : Roster (· = member) shared.state.numVars := by
      constructor
      · intro other same
        rw [same]
        exact suits
      · intro first second firstSame secondSame _ _
        rw [firstSame, secondSame]
    apply performed.guarded (· = member) roster _ _ member rfl
    · intro other asked
      exact Option.some.inj (asked.symm.trans own)
    · intro other same
      rw [same]
      exact guards
  · rw [performed.bystanders member own]
    have kept := spared.resolve_left fun run => own (congrArg Step.propagator? run)
    have valid := equipped.valid
    apply guards.keep (equipped.fits member suits) (performed.effect.extends_model valid) _ kept
      valid performed.equipped.valid
    exact ((Step.Leads.of_effect performed.effect).continues valid).trail

/-- Whoever was spared so far remembers enough, and whoever was spared before a run was right. -/
structure Undisturbed (count : Nat) (history : List (Entry SharedSession Member))
    (shared : SharedSession) : Prop where
  equipped : shared.Equipped
  guards : ∀ member : Member, member.Suits count → (∀ entry ∈ history, entry.Spares member) →
    (shared.memory member).Guards shared.state
  exact : ∀ past entry future member, history = past ++ entry :: future →
    entry.step = .propagate member → (∀ earlier ∈ past, earlier.Spares member) → entry.Exact

theorem undisturbed_fresh (count : Nat) : Undisturbed count [] (fresh count) where
  equipped := equipped_fresh count
  guards := fun member _ _ => Propagator.guards_create member.kind member.count
  exact := by simp

theorem Undisturbed.push {past : List (Entry SharedSession Member)}
    (undisturbed : Undisturbed count past shared) (numVars : shared.state.numVars = count)
    (suits : ∀ member, step.propagator? = some member → member.Suits count)
    (performed : Performed shared step answer after) :
    Undisturbed count (past ++ [⟨shared, step, answer, after⟩]) after where
  equipped := performed.equipped
  guards := by
    intro member memberSuits spared
    have earlier := undisturbed.guards member memberSuits fun entry old =>
      spared entry (List.mem_append_left _ old)
    rw [← numVars] at memberSuits
    exact guards_of_spares undisturbed.equipped memberSuits earlier performed
      (spared _ (by simp))
  exact := by
    intro before entry future member split propagates spared
    rcases List.eq_nil_or_concat future with none | ⟨between, last, more⟩
    · rw [none] at split
      obtain ⟨samePast, sameEntry⟩ := List.append_inj' split rfl
      rw [← samePast] at spared
      rw [← List.head_eq_of_cons_eq sameEntry] at propagates ⊢
      have asked : step.propagator? = some member := congrArg Step.propagator? propagates
      exact performed.exact asked (undisturbed.guards member (suits member asked) spared)
    · rw [more, List.concat_eq_append, ← List.cons_append, ← List.append_assoc] at split
      have samePast := (List.append_inj' split rfl).1
      exact undisturbed.exact before entry between member samePast propagates spared

/-- Any number of propagators may watch one session.  An answer is exact whenever the clauses that
its propagator had taken in were spared by everybody else until then. -/
theorem spared_propagations_exact (bound : count ≤ maxVariables) (steps : List (Step Member))
    (inside : ∀ l ∈ steps.filterMap Step.literal?, l.var < count)
    (suited : ∀ member ∈ steps.filterMap Step.propagator?, member.Suits count) :
    ∃ history last, replay perform (create count) steps = .ok (history, last) ∧
      history.map Entry.step = steps ∧
      ∀ past entry future member, history = past ++ entry :: future →
        entry.step = .propagate member → (∀ earlier ∈ past, earlier.Spares member) →
        entry.Exact := by
  have suits := Step.forall_of_filterMap suited
  obtain ⟨history, last, done, same, undisturbed⟩ := replay_keeps bound steps inside suited
    (Undisturbed count) (undisturbed_fresh count)
    fun past shared step answer after asked numVars undisturbed performed =>
      undisturbed.push numVars (suits step asked) performed
  exact ⟨history, last, done, same, undisturbed.exact⟩

/-- Two members take turns, and neither of them finds a slot that it has to move. -/
def companions : List (Step Member) :=
  let first : Member := ⟨.watchedLiterals, 3, 0⟩
  let second : Member := ⟨.watchedLiterals, 3, 1⟩
  [.add (.ofLiterals [⟨0, true⟩, ⟨1, true⟩, ⟨2, true⟩]), .propagate first, .propagate second,
    .assign ⟨2, false⟩, .propagate first, .propagate second, .assign ⟨0, false⟩,
    .propagate first, .propagate second]

theorem companions_exact :
    ∃ history last, replay perform (create 3) companions = .ok (history, last) ∧
      last.state.trail.toList = [⟨2, false⟩, ⟨0, false⟩, ⟨1, true⟩] ∧
      (∀ entry ∈ history, ∀ serial < 2, entry.Spares ⟨.watchedLiterals, 3, serial⟩) ∧
      ∀ entry ∈ history, ∀ serial < 2, entry.step = .propagate ⟨.watchedLiterals, 3, serial⟩ →
        entry.Exact := by
  obtain ⟨history, last, done, _, exact⟩ :=
    spared_propagations_exact (by decide : 3 ≤ maxVariables) companions (by decide) (by decide)
  have outcome : (replay perform (create 3) companions).toOption.map (fun run =>
      (run.2.state.trail.toList, decide (∀ entry ∈ run.1, ∀ serial < 2,
        entry.Spares ⟨.watchedLiterals, 3, serial⟩))) =
          some ([⟨2, false⟩, ⟨0, false⟩, ⟨1, true⟩], true) := by decide +kernel
  rw [done] at outcome
  simp only [Except.toOption, Option.map_some, Option.some.injEq, Prod.mk.injEq,
    decide_eq_true_eq] at outcome
  obtain ⟨trail, spared⟩ := outcome
  refine ⟨history, last, done, trail, spared, ?_⟩
  intro entry member serial small propagates
  obtain ⟨past, future, split⟩ := List.append_of_mem member
  apply exact past entry future _ split propagates
  intro earlier old
  exact spared earlier (by rw [split]; exact List.mem_append_left _ old) serial small

/-- The second member moves the slots away from the literal under which the first member has filed
the clause. -/
def displacement : List (Step Member) :=
  let first : Member := ⟨.watchedLiterals, 3, 0⟩
  let second : Member := ⟨.watchedLiterals, 3, 1⟩
  [.add (.ofLiterals [⟨0, true⟩, ⟨1, true⟩, ⟨2, true⟩]), .propagate first, .assign ⟨0, false⟩,
    .propagate second, .assign ⟨2, false⟩, .propagate first]

/-- The first member then succeeds although the clause has one open occurrence left and no true
literal. -/
theorem displaced_overlooks :
    ∃ history last, replay perform (create 3) displacement = .ok (history, last) ∧
      ∃ entry ∈ history, entry.step = .propagate ⟨.watchedLiterals, 3, 0⟩ ∧ entry.answer = true ∧
        ¬ entry.after.state.Settled := by
  have outcome : (replay perform (create 3) displacement).toOption.map (fun run =>
      run.1.any fun entry => entry.step = .propagate ⟨.watchedLiterals, 3, 0⟩ ∧
        entry.answer = true ∧ ¬ entry.after.state.Settled) = some true := by decide +kernel
  cases done : replay perform (create 3) displacement with
  | error fault => simp [done, Except.toOption] at outcome
  | ok run =>
      obtain ⟨history, last⟩ := run
      refine ⟨history, last, rfl, ?_⟩
      simpa [done, Except.toOption] using outcome

end SharedSession

end UnitPropagation
