import UnitPropagation.Literal
import UnitPropagation.Work

namespace UnitPropagation

/-! Watch tables: for every literal, the numbers of the clauses filed under it.

A table for `n` variables has a list for each of their `2 * n` literals, found by the
literal's code. -/

structure WatchTable where
  lists : Array (Array Nat)
deriving DecidableEq, Repr

namespace WatchTable

def forVariables (count : Nat) : WatchTable := ⟨Array.replicate (2 * count) #[]⟩

def size (table : WatchTable) : Nat := table.lists.size

/-- The clauses filed under `l`; none if the table has no list for it. -/
def list (table : WatchTable) (l : Literal) : Array Nat := table.lists.getD l.code #[]

def put (table : WatchTable) (l : Literal) (ids : Array Nat) : WatchTable :=
  ⟨table.lists.setIfInBounds l.code ids⟩

/-- Files clause `id` under `l`, after the clauses already there. -/
def push (table : WatchTable) (l : Literal) (id : Nat) : WatchTable :=
  ⟨table.lists.modify l.code (·.push id)⟩

/-- Number of filings in all lists together. -/
def total (table : WatchTable) : Nat :=
  table.lists.toList.foldl (fun total ids => total + ids.size) 0

def isEmpty (table : WatchTable) : Bool := table.lists.toList.all Array.isEmpty

/-- The non-empty lists, by the code of their literal. -/
def entries (table : WatchTable) : List (Nat × Array Nat) :=
  (table.lists.toList.zipIdx.map Prod.swap).filter fun entry => !entry.2.isEmpty

/-- Goes on only if the table has a list for `l`. -/
def requireList {σ : Type} (table : WatchTable) (l : Literal) : Work σ Unit :=
  Work.requireIndex table.size l.code

def watch (l : Literal) (id : Nat) : Work WatchTable Unit := do
  (← get).requireList l
  modify (·.push l id)

/-- Takes the list of `l` out and leaves it empty. -/
def take (l : Literal) : Work WatchTable (Array Nat) := do
  (← get).requireList l
  let ids := (← get).list l
  modify (·.put l #[])
  return ids

def replace (l : Literal) (ids : Array Nat) : Work WatchTable Unit := do
  (← get).requireList l
  modify (·.put l ids)

def read (l : Literal) : Work WatchTable (Array Nat) := do
  (← get).requireList l
  return (← get).list l

end WatchTable

end UnitPropagation
