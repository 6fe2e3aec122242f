import UnitPropagation.Propagator.FullScan
import UnitPropagation.Propagator.Watched
import UnitPropagation.Proofs.Work

namespace UnitPropagation

/-! What the parts of a propagator leave alone.

Only a round counts a pass.  Whatever else is done, and however it ends, the number of passes stays
as it was. -/

namespace Session

open Work

/-- Number of passes that were counted. -/
def passes (session : Session) : Nat := session.state.counters.passes

theorem keeps_change (step : State → State)
    (same : ∀ state, (step state).counters.passes = state.counters.passes) :
    Keeps passes (change step) := fun session => same session.state

theorem keeps_query {α : Type} (question : State → Except Fault α) :
    Keeps passes (query question) := by
  intro session
  rw [leave, query_apply]
  cases question session.state <;> rfl

theorem keeps_assign (l : Literal) : Keeps passes (assign l) := by
  intro session
  rw [leave, assign_apply]
  cases session.state.truth l with
  | error fault => rfl
  | ok truth => cases truth <;> rfl

theorem keeps_force (l : Literal) (id : Nat) (clause : Clause) :
    Keeps passes (force l id clause) := by
  have implied : Keeps passes (imply l id) := by
    apply (keeps_assign l).bind
    intro made
    cases made with
    | true => exact (keeps_change State.countPropagation fun _ => rfl).bind fun _ => fun _ => rfl
    | false => exact keeps_pure _
  apply implied.bind
  intro made
  cases made with
  | true => exact keeps_pure _
  | false => exact fun _ => rfl

theorem keeps_visitClause (id : Nat) : Keeps passes (visitClause id) :=
  (keeps_change State.countVisit fun _ => rfl).bind fun _ => keeps_query _

end Session

namespace FullScan

open Work

theorem keeps_scan (ids : List Nat) (soFar : Scan) : Keeps Session.passes (scan ids soFar) := by
  induction ids generalizing soFar with
  | nil => exact keeps_pure _
  | cons id rest ih =>
      apply (Session.keeps_visitClause id).bind
      intro clause
      apply keeps_get_bind
      intro session
      cases clause.status session.state.model with
      | satisfied | undecided => exact ih soFar
      | conflicting => exact fun _ => rfl
      | unit l =>
          apply (Session.keeps_force l id clause).bind
          intro made
          cases made with
          | true => exact ih .active
          | false => exact keeps_pure _

end FullScan

namespace Watching

open Work

def passes (watching : Watching) : Nat := watching.session.passes

theorem keeps_onSession {α : Type} {work : Work Session α} (kept : Keeps Session.passes work) :
    Keeps passes (onSession work) := by
  intro start
  obtain ⟨watched, session⟩ := start
  have same := kept session
  simp only [leave, onSession] at same ⊢
  cases done : work session with
  | ok result changed =>
      rw [done] at same
      exact same
  | error fault changed =>
      rw [done] at same
      exact same

theorem keeps_onTable {α : Type} (work : Work WatchTable α) : Keeps passes (onTable work) := by
  intro start
  obtain ⟨⟨table, indexed, head, conflict⟩, session⟩ := start
  unfold leave onTable
  dsimp only
  cases work table <;> rfl

theorem keeps_watchPosition (id : Nat) (slot : Slot) (position : Nat) :
    Keeps passes (onSession (Session.change (·.watchPosition id slot position))) :=
  keeps_onSession (Session.keeps_change _ fun _ => rfl)

theorem keeps_reportConflict (id : Nat) (clause : Clause) :
    Keeps passes (onSession (Session.reportConflict id clause)) := fun _ => rfl

theorem keeps_indexClause (id : Nat) : Keeps passes (indexClause id) := by
  apply (keeps_onSession (Session.keeps_visitClause id)).bind
  intro clause
  apply keeps_get_bind
  intro watching
  cases clause.intake watching.session.state.model with
  | idle => exact keeps_pure _
  | conflict => exact (keeps_reportConflict id clause).bind fun _ => keeps_pure _
  | force l => exact keeps_onSession (Session.keeps_force l id clause)
  | watch first firstLiteral second secondLiteral =>
      exact (keeps_watchPosition id .first first).bind fun _ =>
        (keeps_watchPosition id .second second).bind fun _ =>
          (keeps_onTable _).bind fun _ => (keeps_onTable _).bind fun _ => keeps_pure _

theorem keeps_indexClauses (steps : Nat) : Keeps passes (indexClauses steps) := by
  induction steps with
  | zero => exact keeps_throw _
  | succ steps ih =>
      apply keeps_get_bind
      intro watching
      apply keeps_get_bind
      intro current
      split
      · refine Keeps.bind (keeps_modify fun _ => rfl) ?_
        intro _
        apply (keeps_indexClause _).bind
        intro taken
        cases taken with
        | true => exact ih
        | false => exact fun _ => rfl
      · exact keeps_pure _

theorem keeps_visitWatchers (falseLiteral : Literal) (rest : List Nat) (kept : Array Nat) :
    Keeps passes (visitWatchers falseLiteral rest kept) := by
  induction rest generalizing kept with
  | nil => exact (keeps_onTable _).bind fun _ => keeps_pure _
  | cons id rest ih =>
      apply (keeps_onSession (Session.keeps_visitClause id)).bind
      intro clause
      apply keeps_get_bind
      intro watching
      cases clause.visit watching.session.state.model falseLiteral with
      | release => exact ih kept
      | keep => exact ih (kept.push id)
      | move slot position l =>
          exact (keeps_watchPosition id slot position).bind fun _ =>
            (keeps_onTable _).bind fun _ => ih kept
      | force other =>
          apply (keeps_onSession (Session.keeps_force other id clause)).bind
          intro made
          cases made with
          | true => exact ih (kept.push id)
          | false => exact (keeps_onTable _).bind fun _ => keeps_pure _
      | conflict =>
          exact (keeps_reportConflict id clause).bind fun _ =>
            (keeps_onTable _).bind fun _ => keeps_pure _

theorem keeps_visitTrail (steps : Nat) : Keeps passes (visitTrail steps) := by
  induction steps with
  | zero => exact keeps_throw _
  | succ steps ih =>
      apply keeps_get_bind
      intro watching
      apply keeps_get_bind
      intro current
      split
      · exact keeps_pure _
      · refine Keeps.bind (keeps_modify fun _ => rfl) ?_
        intro _
        apply Keeps.bind ((keeps_onTable _).bind fun _ => keeps_visitWatchers _ _ _)
        intro conflict
        cases conflict with
        | none => exact ih
        | some id => exact fun _ => rfl

end Watching

end UnitPropagation
