import UnitPropagation.Proofs.Defences
import UnitPropagation.Proofs.Export
import UnitPropagation.Proofs.Reload

namespace UnitPropagation

/-! No fault is met.

The limits that a formula keeps are those of the model, of the propagators and of what is written,
so nothing that can be asked of a solver asks for an entry that is not there. -/

namespace Solver

/-- What can be asked of a solver. -/
inductive Call where
  | perform (step : Step Unit)
  | value (x : Nat)
  | truth (l : Literal)
  | rebase
deriving DecidableEq, Repr

inductive Reply where
  | answer (answer : Bool)
  | truth (truth : Truth)
  | clauses (clauses : List Clause)
deriving DecidableEq, Repr

/-- Whether the variables that are assigned or looked at are below `count`.  Those of a clause
may be any. -/
def Call.Inside (count : Nat) : Call → Prop
  | .perform step => ∀ l, step.literal? = some l → l.var < count
  | .value x => x < count
  | .truth l => l.var < count
  | .rebase => True

def reply (perform : Step Unit → Work Solver Bool) : Call → Work Solver Reply
  | .perform step => return .answer (← perform step)
  | .value x => return .truth (← onSession (Session.query (·.value x)))
  | .truth l => return .truth (← onSession (Session.query (·.truth l)))
  | .rebase => return .clauses (← rebase)

variable {solver : Solver}

/-- Work that only looks at the session leaves a solver in order. -/
theorem onSession_keeps {α : Type} {work : Work Session α} (sound : solver.Sound)
    (ends : work.Ends solver.session fun _ last => last.state = solver.state) :
    (onSession work).Ends solver fun _ after =>
      after.Sound ∧ after.state.numVars = solver.state.numVars := by
  obtain ⟨propagator, session⟩ := solver
  obtain ⟨result, last, done, same⟩ := ends
  have whole : onSession work ⟨propagator, session⟩ = .ok result ⟨propagator, last⟩ := by
    simp only [onSession, done]
  exact Work.ends_of_eq whole ⟨sound.of_same rfl same, congrArg State.numVars same⟩

theorem query_keeps {α : Type} {question : State → Except Fault α} {answer : α}
    (sound : solver.Sound) (answered : question solver.state = .ok answer) :
    (onSession (Session.query question)).Ends solver fun _ after =>
      after.Sound ∧ after.state.numVars = solver.state.numVars := by
  change question solver.session.state = .ok answer at answered
  have asked : Session.query question solver.session = .ok answer solver.session := by
    rw [Session.query_apply, answered]
  exact onSession_keeps sound (Work.ends_of_eq asked rfl)

theorem reply_ends (sound : solver.Sound) (call : Call)
    (inside : call.Inside solver.state.numVars) :
    (reply perform call).Ends solver fun _ after =>
      after.Sound ∧ after.state.numVars = solver.state.numVars := by
  cases call with
  | perform step =>
      refine (perform_ends solver sound step inside).bind ?_
      intro answer after performed
      exact Work.ends_pure.mpr ⟨performed.sound, performed.effect.numVars⟩
  | value x =>
      exact (query_keeps sound (State.value_ok inside)).bind fun _ _ kept => Work.ends_pure.mpr kept
  | truth l =>
      exact (query_keeps sound (State.truth_ok inside)).bind fun _ _ kept =>
        Work.ends_pure.mpr kept
  | rebase =>
      obtain ⟨clauses, last, done, _⟩ := Session.rebase_ends solver.session sound.valid
      have kept := onSession_keeps sound (Work.ends_of_eq done (Session.rebase_result done).2)
      exact kept.bind fun _ _ kept => Work.ends_pure.mpr kept

theorem reply_eq (defences : Defences) (sound : solver.Sound) (call : Call) :
    reply defences.perform call solver = reply perform call solver := by
  cases call with
  | perform step => simp only [reply, Work.bind_apply, defences.perform_eq solver sound step]
  | value x | truth l | rebase => simp only [reply]

theorem replies_end (calls : List Call) (solver : Solver) (sound : solver.Sound)
    (inside : ∀ call ∈ calls, call.Inside solver.state.numVars) :
    ∃ replies last, calls.mapM (reply perform) solver = .ok replies last ∧
      ∀ defences : Defences, calls.mapM (reply defences.perform) solver = .ok replies last := by
  induction calls generalizing solver with
  | nil => exact ⟨[], solver, rfl, fun _ => rfl⟩
  | cons call rest ih =>
      obtain ⟨first, middle, done, middleSound, numVars⟩ :=
        reply_ends sound call (inside call (by simp))
      have restInside : ∀ other ∈ rest, other.Inside middle.state.numVars := by
        intro other member
        rw [numVars]
        exact inside other (by simp [member])
      obtain ⟨replies, last, others, same⟩ := ih middle middleSound restInside
      refine ⟨first :: replies, last, ?_, ?_⟩
      · simp only [List.mapM_cons, Work.bind_apply, done, others, Work.pure_apply]
      · intro defences
        have first := (reply_eq defences sound call).trans done
        simp only [List.mapM_cons, Work.bind_apply, first, same defences, Work.pure_apply]

end Solver

namespace CommandLine

variable {formula : Formula} {assumptions : List Literal}

theorem run_writes (inRange : formula.InRange) (kind : PropagatorKind)
    (inside : ∀ l ∈ assumptions, l.var < formula.numVars) :
    ∃ solver success after clauses last text,
      Solver.ofClauses kind formula.numVars formula.clauses = .ok solver ∧
      Solver.run assumptions solver = .ok success after ∧
      Solver.rebase after = .ok clauses last ∧ Dimacs.write clauses = .ok text := by
  have below : maxNumber ≤ maxVariables := by decide
  obtain ⟨solver, made, loaded, numVars⟩ :=
    Solver.ofClauses_ends kind (Nat.le_trans inRange.numVars below) formula.clauses
  rw [← numVars] at inside
  obtain ⟨success, after, ran, sound, afterVars, _⟩ :=
    Solver.run_ends assumptions solver loaded.sound loaded.ledger inside
  obtain ⟨clauses, last, exported, rebased⟩ := Solver.rebase_ends after sound.valid
  have numbered : ∀ clause ∈ clauses, ∀ l ∈ clause.literals, l.var < maxNumber := by
    intro clause member l occurs
    rw [rebased] at member
    have bound := sound.valid.rebased_inside clause member l occurs
    rw [afterVars, numVars] at bound
    exact Nat.lt_of_lt_of_le bound inRange.numVars
  exact ⟨solver, success, after, clauses, last, _, made, ran, exported, Dimacs.write_eq numbered⟩

/-- A formula that was read is propagated under its own literals without giving up, whatever the
other options ask for. -/
theorem propagateFormula_ends (inRange : formula.InRange) {options : Options}
    (accepted : options.assumptions.mapM (assumptionLiteral formula.numVars) = .ok assumptions) :
    ∃ run, propagateFormula options formula = .ok run := by
  obtain ⟨solver, success, after, clauses, last, text, made, ran, exported, written⟩ :=
    run_writes inRange options.propagator (assumptions_var_lt accepted)
  simp only [propagateFormula, accepted, made, bind, Except.bind, Except.mapError, ran]
  split
  · simp only [exported, written]
    exact ⟨_, rfl⟩
  · exact ⟨_, rfl⟩

end CommandLine

namespace Solver

/-- Nothing that is asked of a solver over variables that it can have meets a fault or comes to a
branch that is left open in `Defences`, whatever clauses it is given and however it propagates.
Nor does a formula that was read, propagated under literals of it, exported and written. -/
theorem runs_faultless :
    Defences.standard.perform = perform ∧
    (∀ (kind : PropagatorKind) (count : Nat) (calls : List Call), count ≤ maxVariables →
      (∀ call ∈ calls, call.Inside count) →
      ∃ start replies last, create kind count = .ok start ∧
        calls.mapM (reply perform) start = .ok replies last ∧
        ∀ defences : Defences, calls.mapM (reply defences.perform) start = .ok replies last) ∧
    ∀ formula : Formula,
      ((∃ bytes, Dimacs.read bytes = .ok formula) ∨ ∃ text, Dimacs.readText text = .ok formula) →
      ∀ (numbers : List Int) (assumptions : List Literal),
      numbers.mapM (CommandLine.assumptionLiteral formula.numVars) = .ok assumptions →
      (∀ kind, ∃ solver success after clauses last text,
        ofClauses kind formula.numVars formula.clauses = .ok solver ∧
        run assumptions solver = .ok success after ∧
        rebase after = .ok clauses last ∧ Dimacs.write clauses = .ok text) ∧
      ∀ options : CommandLine.Options, options.assumptions = numbers →
        ∃ run, CommandLine.propagateFormula options formula = .ok run := by
  refine ⟨Defences.perform_standard, ?_, ?_⟩
  · intro kind count calls bound inside
    have within : ∀ call ∈ calls, call.Inside (fresh kind count).state.numVars := by
      rw [numVars_fresh]
      exact inside
    obtain ⟨replies, last, done, same⟩ :=
      replies_end calls (fresh kind count) (sound_fresh kind count) within
    exact ⟨fresh kind count, replies, last, create_eq kind bound, done, same⟩
  · intro formula loaded numbers assumptions accepted
    have inRange := Dimacs.loaded_inRange loaded
    constructor
    · intro kind
      exact CommandLine.run_writes inRange kind (CommandLine.assumptions_var_lt accepted)
    · intro options asked
      rw [← asked] at accepted
      exact CommandLine.propagateFormula_ends inRange accepted

/-- Clauses that are taken and clauses that are not, and every other kind of call. -/
def errands : List Call :=
  [.perform (.add (.ofLiterals [⟨2, true⟩, ⟨0, true⟩, ⟨1, true⟩])),
    .perform (.add (.ofLiterals [])),
    .perform (.add (.ofLiterals [⟨0, true⟩, ⟨2147483647, false⟩])), .perform (.propagate ()),
    .perform (.assign ⟨0, false⟩), .perform (.assign ⟨1, false⟩), .perform (.propagate ()),
    .value 2, .truth ⟨1, true⟩, .rebase]

def exporting : CommandLine.Options :=
  { CommandLine.Options.standard with assumptions := [2], printRebase := true }

theorem errands_faultless :
    (∃ start replies last, create .watchedLiterals 3 = .ok start ∧
      errands.mapM (reply perform) start = .ok replies last ∧
      replies = [.answer true, .answer false, .answer false, .answer true, .answer true,
        .answer true, .answer true, .truth .holds, .truth .fails,
        .clauses [.ofLiterals [⟨0, false⟩], .ofLiterals [⟨1, false⟩], .ofLiterals [⟨2, true⟩]]] ∧
      ∀ defences : Defences, errands.mapM (reply defences.perform) start = .ok replies last) ∧
    ∃ formula, Dimacs.read "p cnf 3 2\n1 -2 0\n0\n".toUTF8.data.toList = .ok formula ∧
      (∃ solver success after clauses last text,
        ofClauses .fullScan formula.numVars formula.clauses = .ok solver ∧
        run [⟨1, true⟩] solver = .ok success after ∧
        rebase after = .ok clauses last ∧ Dimacs.write clauses = .ok text) ∧
      ∃ run, CommandLine.propagateFormula exporting formula = .ok run ∧
        run.rebased = some "p cnf 2 2\n1 0\n2 0\n" := by
  obtain ⟨_, called, exported⟩ := runs_faultless
  constructor
  · have inside : ∀ call ∈ errands, call.Inside 3 := by
      simp [errands, Call.Inside, Step.literal?]
    obtain ⟨start, replies, last, created, done, same⟩ :=
      called .watchedLiterals 3 errands (by decide) inside
    have begun : start = fresh .watchedLiterals 3 :=
      Except.ok.inj (created.symm.trans (create_eq .watchedLiterals (by decide)))
    have evaluated : (errands.mapM (reply perform)).answer? (fresh .watchedLiterals 3) =
        some [.answer true, .answer false, .answer false, .answer true, .answer true,
          .answer true, .answer true, .truth .holds, .truth .fails,
          .clauses [.ofLiterals [⟨0, false⟩], .ofLiterals [⟨1, false⟩],
            .ofLiterals [⟨2, true⟩]]] := by
      decide +kernel
    obtain ⟨final, ended⟩ := Work.answer?_eq_some_iff.mp evaluated
    rw [← begun, done] at ended
    cases ended
    exact ⟨start, _, last, created, done, rfl, same⟩
  · let formula : Formula := ⟨3, [[⟨0, true⟩, ⟨1, false⟩], []]⟩
    have loaded : Dimacs.read "p cnf 3 2\n1 -2 0\n0\n".toUTF8.data.toList = .ok formula := by
      decide +kernel
    obtain ⟨runs, program⟩ :=
      exported formula (.inl ⟨_, loaded⟩) [2] [⟨1, true⟩] (by decide +kernel)
    obtain ⟨run, done⟩ := program exporting rfl
    have evaluated : (CommandLine.propagateFormula exporting formula).toOption.bind
        CommandLine.Run.rebased = some "p cnf 2 2\n1 0\n2 0\n" := by
      decide +kernel
    rw [done] at evaluated
    exact ⟨formula, loaded, runs .fullScan, run, done, evaluated⟩

end Solver

end UnitPropagation
