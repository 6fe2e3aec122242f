import Mathlib.Logic.Function.Basic
import UnitPropagation.Proofs.History
import UnitPropagation.Proofs.Propagator

namespace UnitPropagation

/-! Sessions that several propagators work on.

Each of them has a memory of its own.  One that has not run yet has seen nothing, so it makes
no difference when it joined. -/

/-- A propagator that works on a shared session. -/
structure Member where
  kind : PropagatorKind
  /-- Number of variables that it was made for. -/
  count : Nat
  /-- Tells members of one kind and size apart. -/
  serial : Nat
deriving DecidableEq, Repr

/-- Only watching needs room for the variables. -/
def Member.Suits (member : Member) (count : Nat) : Prop :=
  member.kind = .watchedLiterals → count ≤ member.count

instance (member : Member) (count : Nat) : Decidable (member.Suits count) :=
  inferInstanceAs (Decidable (_ → _))

structure SharedSession where
  memory : Member → Propagator
  session : Session

namespace SharedSession

variable {shared before after : SharedSession} {member : Member} {step : Step Member}
  {answer : Bool}

def create (count : Nat) : Except Fault SharedSession :=
  (Session.create count).map fun session =>
    ⟨fun member => .create member.kind member.count, session⟩

def state (shared : SharedSession) : State := shared.session.state

def onSession {α : Type} (work : Work Session α) : Work SharedSession α
  | ⟨memory, session⟩ =>
      match work session with
      | .ok result changed => .ok result ⟨memory, changed⟩
      | .error fault changed => .error fault ⟨memory, changed⟩

/-- Lets a member run on the session. -/
def propagate (member : Member) : Work SharedSession Bool
  | ⟨memory, session⟩ =>
      match Solver.runPropagator ⟨memory member, session⟩ with
      | .ok success solver =>
          .ok success ⟨Function.update memory member solver.propagator, solver.session⟩
      | .error fault solver =>
          .error fault ⟨Function.update memory member solver.propagator, solver.session⟩

def perform : Step Member → Work SharedSession Bool
  | .add clause => onSession (Session.add clause)
  | .assign l => onSession (Session.assign l)
  | .propagate member => propagate member

/-- Every member has what it will ask for. -/
structure Equipped (shared : SharedSession) : Prop where
  valid : shared.state.WellFormed
  fits : ∀ member, member.Suits shared.state.numVars →
    (shared.memory member).Fits shared.state
  kinds : ∀ member, (shared.memory member).kind = member.kind

/-- Members that can be in use together without disturbing each other: at most one of them
watches. -/
structure Roster (used : Member → Prop) (count : Nat) : Prop where
  suits : ∀ member, used member → member.Suits count
  alone : ∀ first second, used first → used second → first.kind = .watchedLiterals →
    second.kind = .watchedLiterals → first = second

/-- The members in use remember enough for their answers to be right. -/
def Guarded (shared : SharedSession) (used : Member → Prop) : Prop :=
  ∀ member, used member → (shared.memory member).Guards shared.state

/-- What an operation does to a shared session. -/
structure Performed (before : SharedSession) (step : Step Member) (answer : Bool)
    (after : SharedSession) : Prop where
  effect : step.Effect before.state answer after.state
  equipped : after.Equipped
  guarded : ∀ used, Roster used before.state.numVars →
    (∀ member, step.propagator? = some member → used member) →
    before.Guarded used → after.Guarded used
  settled : ∀ member, step.propagator? = some member →
    (before.memory member).Guards before.state → answer = true → after.state.Settled
  /-- Who does not run remembers what it did before. -/
  bystanders : ∀ member, step.propagator? ≠ some member →
    after.memory member = before.memory member

/-- Nobody has run yet. -/
def fresh (count : Nat) : SharedSession :=
  ⟨fun member => .create member.kind member.count, .ofState (.ofModel (.blank count))⟩

theorem create_eq {count : Nat} (bound : count ≤ maxVariables) :
    create count = .ok (fresh count) := by
  rw [create, Session.create_eq bound]
  rfl

theorem eq_of_create {count : Nat} (created : create count = .ok shared) :
    shared = fresh count := by
  cases made : Session.create count with
  | error fault => simp [create, made, Except.map] at created
  | ok session =>
      rw [create, made, Session.eq_of_create made] at created
      exact (Except.ok.inj created).symm

theorem equipped_fresh (count : Nat) : (fresh count).Equipped where
  valid := (State.ledger_ofModel count).valid
  fits := fun member suits => Propagator.fits_create member.kind suits
  kinds := by
    intro member
    obtain ⟨kind, count, serial⟩ := member
    cases kind <;> rfl

theorem guarded_fresh (count : Nat) (used : Member → Prop) : (fresh count).Guarded used :=
  fun member _ => Propagator.guards_create member.kind member.count

theorem onSession_ends (shared : SharedSession) (equipped : shared.Equipped)
    (direct : step.propagator? = none) {work : Work Session Bool}
    (ends : work.Ends shared.session fun answer last =>
      step.Effect shared.state answer last.state) :
    (onSession work).Ends shared (Performed shared step) := by
  obtain ⟨memory, session⟩ := shared
  obtain ⟨answer, last, done, effect⟩ := ends
  have whole : onSession work ⟨memory, session⟩ = .ok answer ⟨memory, last⟩ := by
    simp only [onSession, done]
  have laterValid : last.state.WellFormed := effect.wellFormed equipped.valid
  have grows : session.state.Grows last.state := effect.grows direct
  have fits : ∀ member : Member, member.Suits last.state.numVars →
      (memory member).Fits last.state := by
    intro member suits
    rw [grows.numVars] at suits
    exact (equipped.fits member suits).grow grows
  refine Work.ends_of_eq whole ⟨effect, ⟨laterValid, fits, equipped.kinds⟩, ?_, ?_, fun _ _ => rfl⟩
  · intro used roster _ guarded member uses
    have fits := equipped.fits member (roster.suits member uses)
    exact (guarded member uses).grow fits grows equipped.valid laterValid
  · intro member asked
    rw [direct] at asked
    cases asked

theorem propagate_ends (shared : SharedSession) (equipped : shared.Equipped) (member : Member)
    (suits : member.Suits shared.state.numVars) :
    (propagate member).Ends shared (Performed shared (.propagate member)) := by
  obtain ⟨memory, session⟩ := shared
  have valid := equipped.valid
  obtain ⟨success, solver, done, propagated⟩ :=
    Solver.runPropagator_ends ⟨memory member, session⟩ valid (equipped.fits member suits)
  have run : session.state.Advances solver.session.state := propagated.run
  have laterValid := run.wellFormed valid
  have whole : propagate member ⟨memory, session⟩ =
      .ok success ⟨Function.update memory member solver.propagator, solver.session⟩ := by
    simp only [propagate, done]
  have fits : ∀ other : Member, other.Suits solver.session.state.numVars →
      (Function.update memory member solver.propagator other).Fits solver.session.state := by
    rw [run.numVars, Function.forall_update_iff memory fun other propagator =>
      other.Suits session.state.numVars → propagator.Fits solver.session.state]
    exact ⟨fun _ => propagated.fits,
      fun other _ otherSuits => (equipped.fits other otherSuits).advance run valid⟩
  have kinds : ∀ other : Member,
      (Function.update memory member solver.propagator other).kind = other.kind := by
    rw [Function.forall_update_iff memory fun other propagator => propagator.kind = other.kind]
    exact ⟨propagated.kind.trans (equipped.kinds member), fun other _ => equipped.kinds other⟩
  refine Work.ends_of_eq whole ⟨.propagated member run propagated.failed,
    ⟨laterValid, fits, kinds⟩, ?_, ?_, ?_⟩
  · intro used roster uses guarded
    have memberUsed := uses member rfl
    have others : ∀ other, other ≠ member → used other →
        (memory other).Guards solver.session.state := by
      intro other apart otherUsed
      cases kind : member.kind with
      | fullScan =>
          have grows := propagated.scanned ((equipped.kinds member).trans kind)
          have otherFits := equipped.fits other (roster.suits other otherUsed)
          exact (guarded other otherUsed).grow otherFits grows valid laterValid
      | watchedLiterals =>
          -- The slots were moved, but nobody else goes by them.
          apply Propagator.guards_of_kind
          have otherKind : (memory other).kind = other.kind := equipped.kinds other
          rw [otherKind]
          cases watches : other.kind with
          | fullScan => rfl
          | watchedLiterals =>
              exact absurd (roster.alone other member otherUsed memberUsed watches kind) apart
    exact (Function.forall_update_iff memory fun other propagator =>
      used other → propagator.Guards solver.session.state).mpr
        ⟨fun _ => propagated.guards (guarded member memberUsed), others⟩
  · intro other asked guards success
    cases asked
    exact propagated.settled guards success
  · intro other idle
    exact Function.update_of_ne (fun same => idle (by rw [same]; rfl)) _ _

theorem perform_ends (shared : SharedSession) (equipped : shared.Equipped) (step : Step Member)
    (inside : ∀ l, step.literal? = some l → l.var < shared.state.numVars)
    (suits : ∀ member, step.propagator? = some member → member.Suits shared.state.numVars) :
    (perform step).Ends shared (Performed shared step) := by
  cases step with
  | add clause => exact onSession_ends shared equipped rfl (Session.add_ends _ clause)
  | assign l => exact onSession_ends shared equipped rfl (Session.assign_ends _ (inside l rfl))
  | propagate member => exact propagate_ends shared equipped member (suits member rfl)

/-- What every operation keeps holds at the end of a run, and the run meets no fault. -/
theorem replay_keeps {count : Nat} (bound : count ≤ maxVariables) (steps : List (Step Member))
    (inside : ∀ l ∈ steps.filterMap Step.literal?, l.var < count)
    (suited : ∀ member ∈ steps.filterMap Step.propagator?, member.Suits count)
    (holds : List (Entry SharedSession Member) → SharedSession → Prop)
    (start : holds [] (fresh count))
    (each : ∀ past shared step answer after, step ∈ steps → shared.state.numVars = count →
      holds past shared → Performed shared step answer after →
      holds (past ++ [⟨shared, step, answer, after⟩]) after) :
    ∃ history last, replay perform (create count) steps = .ok (history, last) ∧
      history.map Entry.step = steps ∧ holds history last := by
  have kept : ∀ past shared step,
      (holds past shared ∧ shared.Equipped ∧ shared.state.numVars = count) → step ∈ steps →
      (perform step).Ends shared fun answer after =>
        holds (past ++ [⟨shared, step, answer, after⟩]) after ∧ after.Equipped ∧
          after.state.numVars = count := by
    intro past shared step held member
    obtain ⟨held, equipped, numVars⟩ := held
    have stepInside := Step.forall_of_filterMap inside step member
    have stepSuited := Step.forall_of_filterMap suited step member
    rw [← numVars] at stepInside stepSuited
    refine (perform_ends shared equipped step stepInside stepSuited).mono ?_
    intro answer after performed
    exact ⟨each past shared step answer after member numVars held performed, performed.equipped,
      performed.effect.numVars.trans numVars⟩
  obtain ⟨history, last, done, held, same⟩ := replay_ends kept steps (fun _ member => member)
    (fresh count) ⟨start, equipped_fresh count, State.numVars_ofModel count⟩
  rw [create_eq bound]
  exact ⟨history, last, done, same, held.1⟩

end SharedSession

end UnitPropagation
