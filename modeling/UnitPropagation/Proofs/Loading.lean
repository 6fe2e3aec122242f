import UnitPropagation.Proofs.Clause
import UnitPropagation.Proofs.Solver

namespace UnitPropagation

/-! From a list of clauses to a propagated solver, under assumptions.

The clauses that fit are taken, in their order.  An assumption that is false already ends the
run, and so does a clause with all its literals false; either way the clauses and the assumptions
contradict each other. -/

/-- The clauses that are taken when they are offered. -/
def State.fitting (state : State) (clauses : List (List Literal)) : List (List Literal) :=
  clauses.filter fun literals => state.rejection? (.ofLiterals literals) = none

theorem State.fitting_congr {state later : State} (same : later.numVars = state.numVars) :
    later.fitting = state.fitting := by
  funext clauses
  simp only [fitting, rejection?_congr same]

theorem State.fitting_cons (state : State) (literals : List Literal) (rest : List (List Literal)) :
    state.fitting (literals :: rest) = state.fitting [literals] ++ state.fitting rest := by
  rw [← List.singleton_append, fitting, List.filter_append]
  rfl

theorem State.rejection?_ofLiterals {state : State} {literals : List Literal}
    (occupied : literals ≠ []) (inside : ∀ l ∈ literals, l.var < state.numVars) :
    state.rejection? (.ofLiterals literals) = none := by
  rw [State.rejection?_none_iff, Clause.ofLiterals_literals]
  constructor
  · intro empty
    have sorted := Literal.sort_perm literals
    rw [empty] at sorted
    exact occupied sorted.nil_eq.symm
  · intro l member
    exact inside l (Literal.mem_sort.mp member)

theorem State.fitting_eq_self {state : State} {clauses : List (List Literal)}
    (occupied : [] ∉ clauses)
    (inside : ∀ literals ∈ clauses, ∀ l ∈ literals, l.var < state.numVars) :
    state.fitting clauses = clauses := by
  refine List.filter_eq_self.mpr ?_
  intro literals member
  have nonempty : literals ≠ [] := by
    intro empty
    exact occupied (empty ▸ member)
  exact decide_eq_true (State.rejection?_ofLiterals nonempty (inside literals member))

theorem Step.Effect.gives {τ : Type} {literals : List Literal} {given : List (List Literal)}
    {before after : State} {answer : Bool}
    (effect : (Step.add (.ofLiterals literals) : Step τ).Effect before answer after)
    (ledger : before.Ledger (given.map .ofLiterals) [])
    (database : before.clauses.toList = given.map .ofLiterals) :
    after.Ledger ((given ++ before.fitting [literals]).map .ofLiterals) [] ∧
      after.clauses.toList = (given ++ before.fitting [literals]).map .ofLiterals := by
  cases effect with
  | rejected unfit =>
      have none : before.fitting [literals] = [] := by simp [State.fitting, unfit]
      rw [none, List.append_nil]
      exact ⟨ledger, database⟩
  | taken fit =>
      have all : before.fitting [literals] = [literals] := by simp [State.fitting, fit]
      rw [all, List.map_append, List.map_singleton]
      refine ⟨ledger.addClause (State.rejection?_none_iff.mp fit).2, ?_⟩
      rw [← database]
      exact Database.toList_push _ _

namespace Solver

variable {solver : Solver} {clauses given : List (List Literal)} {accepted : List Clause}
  {chosen : List Literal}

/-- The solver has taken these clauses, and nothing else has been done to it. -/
structure Loaded (solver : Solver) (clauses : List (List Literal)) : Prop where
  sound : solver.Sound
  ledger : solver.state.Ledger (clauses.map .ofLiterals) []
  database : solver.state.clauses.toList = clauses.map .ofLiterals

theorem Performed.loaded {literals : List Literal} {answer : Bool} {after : Solver}
    (performed : Performed solver (.add (.ofLiterals literals)) answer after)
    (loaded : solver.Loaded given) : after.Loaded (given ++ solver.state.fitting [literals]) := by
  obtain ⟨ledger, database⟩ := performed.effect.gives loaded.ledger loaded.database
  exact ⟨performed.sound, ledger, database⟩

theorem addAll_ends (clauses : List (List Literal)) (solver : Solver)
    (loaded : solver.Loaded given) (rejected : Nat) :
    (addAll clauses rejected).Ends solver fun _ after =>
      after.Loaded (given ++ solver.state.fitting clauses) ∧
        after.state.numVars = solver.state.numVars := by
  induction clauses generalizing solver given rejected with
  | nil =>
      rw [addAll, Work.ends_pure, State.fitting, List.filter_nil, List.append_nil]
      exact ⟨loaded, rfl⟩
  | cons literals rest ih =>
      rw [addAll, State.fitting_cons, ← List.append_assoc]
      refine (perform_ends solver loaded.sound (.add (.ofLiterals literals)) (by nofun)).bind ?_
      intro answer middle performed
      have numVars : middle.state.numVars = solver.state.numVars := performed.effect.numVars
      have others := fun total => ih middle (performed.loaded loaded) total
      -- What fits depends on the number of variables alone, so it is the same for the rest.
      rw [State.fitting_congr numVars, numVars] at others
      cases answer with
      | true => exact others rejected
      | false => exact others (rejected + 1)

theorem loaded_fresh (kind : PropagatorKind) (count : Nat) : (fresh kind count).Loaded [] :=
  ⟨sound_fresh kind count, State.ledger_ofModel count, rfl⟩

/-- Clauses that do not fit are passed over. -/
theorem ofClauses_ends (kind : PropagatorKind) {count : Nat} (bound : count ≤ maxVariables)
    (clauses : List (List Literal)) :
    ∃ solver, ofClauses kind count clauses = .ok solver ∧
      solver.Loaded ((fresh kind count).state.fitting clauses) ∧ solver.state.numVars = count := by
  have loading : (load clauses).Ends (fresh kind count) fun _ after =>
      after.Loaded ((fresh kind count).state.fitting clauses) ∧ after.state.numVars = count := by
    refine (addAll_ends clauses (fresh kind count) (loaded_fresh kind count) 0).bind ?_
    intro rejected after reached
    obtain ⟨loaded, numVars⟩ := reached
    rw [numVars_fresh] at numVars
    split
    · exact Work.ends_of_eq rfl ⟨⟨loaded.sound.of_same rfl rfl, loaded.ledger, loaded.database⟩,
        numVars⟩
    · exact Work.ends_of_eq rfl ⟨loaded, numVars⟩
  obtain ⟨_, solver, done, loaded, numVars⟩ := loading
  refine ⟨solver, ?_, loaded, numVars⟩
  simp only [ofClauses, create_eq kind bound, bind, Except.bind, done]
  rfl

/-- Clauses that are not empty and over the variables are all taken. -/
theorem ofClauses_loaded (kind : PropagatorKind) {count : Nat} (bound : count ≤ maxVariables)
    (occupied : [] ∉ clauses) (inside : ∀ literals ∈ clauses, ∀ l ∈ literals, l.var < count) :
    ∃ solver, ofClauses kind count clauses = .ok solver ∧ solver.Loaded clauses ∧
      solver.state.numVars = count := by
  have all : (fresh kind count).state.fitting clauses = clauses := by
    refine State.fitting_eq_self occupied ?_
    rw [numVars_fresh]
    exact inside
  have ends := ofClauses_ends kind bound clauses
  rwa [all] at ends

/-- What the assumptions made so far have come to: those that were still open were decided. -/
structure Assumed (before : Solver) (accepted : List Clause) (allowed : List Literal)
    (after : Solver) : Prop where
  sound : after.Sound
  numVars : after.state.numVars = before.state.numVars
  extended : after.state.model.Extends before.state.model
  ledger : ∃ chosen ⊆ allowed, after.state.Ledger accepted chosen

theorem assignAll_ends (assumptions : List Literal) {allowed : List Literal} (solver : Solver)
    (sound : solver.Sound) (ledger : solver.state.Ledger accepted chosen)
    (already : chosen ⊆ allowed) (listed : assumptions ⊆ allowed)
    (inside : ∀ l ∈ assumptions, l.var < solver.state.numVars) :
    (assignAll assumptions).Ends solver fun refused after =>
      Assumed solver accepted allowed after ∧
        match refused with
        | none => ∀ l ∈ assumptions, after.state.model.truth l = .holds
        | some l => l ∈ assumptions ∧ after.state.model.truth l = .fails := by
  induction assumptions generalizing solver chosen with
  | nil =>
      rw [assignAll, Work.ends_pure]
      exact ⟨⟨sound, rfl, .refl _, chosen, already, ledger⟩, by simp⟩
  | cons l rest ih =>
      have within : ∀ other, (Step.assign l : Step Unit).literal? = some other →
          other.var < solver.state.numVars := by
        intro other named
        cases named
        exact inside l (by simp)
      rw [assignAll]
      refine (perform_ends solver sound (.assign l) within).bind ?_
      intro answer middle performed
      have truth := performed.effect.truth_assigned
      have numVars : middle.state.numVars = solver.state.numVars := performed.effect.numVars
      have extended := performed.effect.extends_model sound.valid
      have continued := performed.effect.ledger ledger
      simp only [Step.clause?, ite_self, Option.toList_none, List.append_nil] at continued
      have still : chosen ++ ((Step.assign l : Step Unit).literal?.filter
          fun l => solver.state.model.truth l = .unknown).toList ⊆ allowed := by
        intro other member
        rcases List.mem_append.mp member with old | new
        · exact already old
        · have same := Option.filter_eq_some_iff.mp (Option.mem_toList.mp new)
          cases same.1
          exact listed (by simp)
      cases answer with
      | false =>
          rw [if_neg (by simp)]
          exact Work.ends_of_eq rfl ⟨⟨performed.sound, numVars, extended, _, still, continued⟩,
            by simp, truth⟩
      | true =>
          rw [if_pos rfl]
          have restInside : ∀ other ∈ rest, other.var < middle.state.numVars := by
            intro other member
            rw [numVars]
            exact inside other (by simp [member])
          refine (ih middle performed.sound continued still
            (fun other member => listed (by simp [member])) restInside).mono ?_
          intro refused after reached
          obtain ⟨assumed, outcome⟩ := reached
          refine ⟨⟨assumed.sound, assumed.numVars.trans numVars, assumed.extended.trans extended,
            assumed.ledger⟩, ?_⟩
          cases refused with
          | none =>
              intro other member
              rcases List.mem_cons.mp member with same | later
              · rw [same]
                exact assumed.extended l truth
              · exact outcome other later
          | some other => exact ⟨by simp [outcome.1], outcome.2⟩

/-- A run succeeds only with all assumptions true and nothing left to do, and fails only with an
assumption or a clause false. -/
theorem run_ends (assumptions : List Literal) (solver : Solver) (sound : solver.Sound)
    (ledger : solver.state.Ledger accepted [])
    (inside : ∀ l ∈ assumptions, l.var < solver.state.numVars) :
    (run assumptions).Ends solver fun success after =>
      after.Sound ∧ after.state.numVars = solver.state.numVars ∧
        (∃ chosen ⊆ assumptions, after.state.Ledger accepted chosen) ∧
        (success = true → after.state.Settled ∧
          ∀ l ∈ assumptions, after.state.model.truth l = .holds) ∧
        (success = false → after.state.Conflicted ∨
          ∃ l ∈ assumptions, after.state.model.truth l = .fails) := by
  rw [run]
  refine (assignAll_ends assumptions solver sound ledger (by simp) (List.Subset.refl _)
    inside).bind ?_
  intro refused middle reached
  obtain ⟨assumed, outcome⟩ := reached
  obtain ⟨chosen, within, kept⟩ := assumed.ledger
  cases refused with
  | some l =>
      exact Work.ends_of_eq rfl ⟨assumed.sound.of_same rfl rfl, assumed.numVars,
        ⟨chosen, within, kept⟩, by simp, fun _ => .inr ⟨l, outcome⟩⟩
  | none =>
      refine (perform_ends middle assumed.sound (.propagate ()) (by nofun)).mono ?_
      intro success after performed
      have continued := performed.effect.ledger kept
      simp only [Step.clause?, Step.literal?, ite_self, Option.filter_none, Option.toList_none,
        List.append_nil] at continued
      have extended := performed.effect.extends_model assumed.sound.valid
      refine ⟨performed.sound, performed.effect.numVars.trans assumed.numVars,
        ⟨chosen, within, continued⟩, ?_, ?_⟩
      · intro succeeded
        exact ⟨performed.settled rfl succeeded, fun l member => extended l (outcome l member)⟩
      · intro failed
        exact .inl (performed.effect.conflicted_of_failed rfl failed)

end Solver

end UnitPropagation
