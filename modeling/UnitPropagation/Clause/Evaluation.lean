import UnitPropagation.Assignment
import UnitPropagation.Clause

namespace UnitPropagation

/-! What a clause says under a partial assignment.

Four questions are asked of a clause.  `Clause.status` evaluates it from scratch,
`Clause.intake` finds two positions to watch, `Clause.visit` reacts to a watched
literal that has become false, and `Clause.residue?` drops what is already decided.
Every occurrence of a literal counts, so a clause of one open literal written twice
has two open occurrences. -/

inductive Status where
  /-- A literal holds, and at most one open occurrence stands before it. -/
  | satisfied
  /-- Every literal fails. -/
  | conflicting
  /-- One occurrence is open, every other one fails. -/
  | unit (l : Literal)
  /-- Two occurrences are open and no literal before the second of them holds. -/
  | undecided
deriving DecidableEq, Repr

/-- The status of a clause of which `literals` are left to look at, after at most one
open occurrence `seen`. -/
def Assignment.statusFrom (model : Assignment) : Option Literal → List Literal → Status
  | none, [] => .conflicting
  | some l, [] => .unit l
  | seen, l :: rest =>
      match model.truth l with
      | .holds => .satisfied
      | .fails => model.statusFrom seen rest
      | .unknown =>
          match seen with
          | none => model.statusFrom (some l) rest
          | some _ => .undecided

def Clause.status (clause : Clause) (model : Assignment) : Status :=
  model.statusFrom none clause.literals

/-- What taking a clause into a watch table calls for. -/
inductive Intake where
  /-- A literal holds: the clause needs no watching. -/
  | idle
  /-- Every literal fails. -/
  | conflict
  /-- The only open occurrence is forced. -/
  | force (l : Literal)
  /-- The first two open positions, with their literals, are to be watched. -/
  | watch (first : Nat) (firstLiteral : Literal) (second : Nat) (secondLiteral : Literal)
deriving DecidableEq, Repr

/-- The intake of a clause of which `literals` from `position` on are left to look at,
after at most one open position `seen`. -/
def Assignment.intakeFrom (model : Assignment) :
    Nat → Option (Nat × Literal) → List Literal → Intake
  | _, none, [] => .conflict
  | _, some (_, l), [] => .force l
  | position, seen, l :: rest =>
      match model.truth l with
      | .holds => .idle
      | .fails => model.intakeFrom (position + 1) seen rest
      | .unknown =>
          match seen with
          | none => model.intakeFrom (position + 1) (some (position, l)) rest
          | some (first, firstLiteral) => .watch first firstLiteral position l

def Clause.intake (clause : Clause) (model : Assignment) : Intake :=
  model.intakeFrom 0 none clause.literals

/-- What a clause calls for once a literal it was filed under has become false. -/
inductive Visit where
  /-- No slot watches the literal, or the other slot watches nothing. -/
  | release
  /-- The other watched literal holds. -/
  | keep
  /-- The slot that watched the literal moves to another position. -/
  | move (slot : Slot) (position : Nat) (l : Literal)
  /-- The other watched literal is the only one left. -/
  | force (l : Literal)
  /-- Every literal fails. -/
  | conflict
deriving DecidableEq, Repr

/-- The first position other than `taken` whose literal does not fail. -/
def Clause.replacement? (clause : Clause) (model : Assignment) (taken : Nat) :
    Option (Literal × Nat) :=
  clause.literals.zipIdx.find? fun (l, position) =>
    position != taken && model.truth l != .fails

def Clause.visit (clause : Clause) (model : Assignment) (falseLiteral : Literal) : Visit :=
  match clause.slotOf? falseLiteral with
  | none => .release
  | some slot =>
      match clause.watcher? slot.other with
      | none => .release
      | some other =>
          if model.truth other = .holds then .keep
          else
            match clause.replacement? model (clause.position slot.other) with
            | some (l, position) => .move slot position l
            | none => if model.truth other = .fails then .conflict else .force other

/-- The literals that do not fail, unless one holds or none is left. -/
def Clause.residue? (clause : Clause) (model : Assignment) : Option (List Literal) :=
  if clause.literals.any (model.truth · = .holds) then none
  else
    match clause.literals.filter (model.truth · ≠ .fails) with
    | [] => none
    | left => some left

end UnitPropagation
