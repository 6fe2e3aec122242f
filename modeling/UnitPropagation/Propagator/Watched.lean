import UnitPropagation.Session
import UnitPropagation.WatchTable

namespace UnitPropagation

/-! Propagation with two watched literals.

A clause is looked at once when it is new, and from then on only when one of its two
watched literals has become false.  It then watches another literal that is not false,
or its other watched literal is forced, or it is a conflict.  Assignments are never
undone, so a clause that is satisfied when it is new is never looked at again, and a
conflict stays one. -/

structure Watched where
  table : WatchTable
  /-- Number of clauses that have been taken in. -/
  indexed : Nat
  /-- Number of trail literals whose watching clauses have been looked at. -/
  head : Nat
  /-- The clause found to be a conflict. -/
  conflict : Option Nat
deriving DecidableEq, Repr

/-- A propagator at work on a session. -/
structure Watching where
  watched : Watched
  session : Session
deriving DecidableEq, Repr

namespace Watched

/-- A propagator for states over `count` variables that has seen nothing yet. -/
def forVariables (count : Nat) : Watched := ⟨.forVariables count, 0, 0, none⟩

end Watched

namespace Watching

/-- Work on the session is work on both. -/
def onSession {α : Type} (work : Work Session α) : Work Watching α
  | ⟨watched, session⟩ =>
      match work session with
      | .ok result changed => .ok result ⟨watched, changed⟩
      | .error fault changed => .error fault ⟨watched, changed⟩

/-- Work on the watch table is work on both. -/
def onTable {α : Type} (work : Work WatchTable α) : Work Watching α
  | ⟨⟨table, indexed, head, conflict⟩, session⟩ =>
      match work table with
      | .ok result changed => .ok result ⟨⟨changed, indexed, head, conflict⟩, session⟩
      | .error fault changed => .error fault ⟨⟨changed, indexed, head, conflict⟩, session⟩

def stop (id : Nat) : Work Watching Unit :=
  modify fun watching => { watching with watched.conflict := some id }

/-- Takes in clause `id`; fails if it is a conflict. -/
def indexClause (id : Nat) : Work Watching Bool := do
  let clause ← onSession (Session.visitClause id)
  match clause.intake (← get).session.state.model with
  | .idle => return true
  | .conflict =>
      onSession (Session.reportConflict id clause)
      return false
  | .force l => onSession (Session.force l id clause)
  | .watch first firstLiteral second secondLiteral =>
      onSession (Session.change (·.watchPosition id .first first))
      onSession (Session.change (·.watchPosition id .second second))
      onTable (WatchTable.watch firstLiteral id)
      onTable (WatchTable.watch secondLiteral id)
      return true

/-- Takes in clauses until all have been; fails at the first conflict. -/
def indexClauses : Nat → Work Watching Bool
  | 0 => throw .unfinished
  | steps + 1 => do
      let id := (← get).watched.indexed
      if id < (← get).session.state.clauses.size then
        modify fun watching => { watching with watched.indexed := id + 1 }
        if ← indexClause id then
          indexClauses steps
        else
          stop id
          return false
      else
        return true

/-- Visits clauses that were filed under `falseLiteral`, which has become false.  `kept` are
those visited before that stay there.  Gives the first clause that is a conflict. -/
def visitWatchers (falseLiteral : Literal) : List Nat → Array Nat → Work Watching (Option Nat)
  | [], kept => do
      onTable (WatchTable.replace falseLiteral kept)
      return none
  | id :: rest, kept => do
      let clause ← onSession (Session.visitClause id)
      match clause.visit (← get).session.state.model falseLiteral with
      | .release => visitWatchers falseLiteral rest kept
      | .keep => visitWatchers falseLiteral rest (kept.push id)
      | .move slot position l =>
          onSession (Session.change (·.watchPosition id slot position))
          onTable (WatchTable.watch l id)
          visitWatchers falseLiteral rest kept
      | .force other =>
          if ← onSession (Session.force other id clause) then
            visitWatchers falseLiteral rest (kept.push id)
          else
            onTable (WatchTable.replace falseLiteral (kept.push id ++ rest.toArray))
            return some id
      | .conflict =>
          onSession (Session.reportConflict id clause)
          onTable (WatchTable.replace falseLiteral (kept.push id ++ rest.toArray))
          return some id

/-- Visits the clauses filed under the negation of `l`, now that `l` holds. -/
def visitLiteral (l : Literal) : Work Watching (Option Nat) := do
  let ids ← onTable (WatchTable.take l.negate)
  visitWatchers l.negate ids.toList #[]

/-- Visits trail literals until all have been; fails at the first conflict. -/
def visitTrail : Nat → Work Watching Bool
  | 0 => throw .unfinished
  | steps + 1 => do
      let head := (← get).watched.head
      match (← get).session.state.trail[head]? with
      | none => return true
      | some l =>
          modify fun watching => { watching with watched.head := head + 1 }
          match ← visitLiteral l with
          | none => visitTrail steps
          | some id =>
              stop id
              return false

/-- Takes in new clauses and visits new trail literals until there are none of either. -/
def rounds : Nat → Work Watching Bool
  | 0 => throw .unfinished
  | left + 1 => do
      onSession (Session.change (·.countPass))
      let state := (← get).session.state
      if ← indexClauses (state.clauses.size - (← get).watched.indexed + state.numVars + 1) then
        let state := (← get).session.state
        if ← visitTrail (state.trail.size - (← get).watched.head + state.numVars + 1) then
          let state := (← get).session.state
          if (← get).watched.indexed = state.clauses.size then
            onSession (Session.note (.fixpoint state.trail.size state.numVars))
            return true
          else
            rounds left
        else
          return false
      else
        return false

/-- Propagates until nothing is forced, or until a clause is found in which every literal
is false; only the former succeeds.  Once that clause is found it stays the answer.  Each
round but the last assigns a variable, and so does each step beyond the clauses and trail
literals that were waiting, which bounds the numbers of both. -/
def propagate : Work Watching Bool := do
  match (← get).watched.conflict with
  | some id =>
      onSession (Session.note (.conflictPersists id))
      return false
  | none => rounds ((← get).session.state.numVars + 1)

end Watching

end UnitPropagation
