import UnitPropagation.Proofs.Clause
import UnitPropagation.Proofs.Watched.Filing

namespace UnitPropagation

/-! Slots that are pointed elsewhere.

Whatever is asked of a clause, its literals stay as they were listed when it was made, and each
slot stays on one of them.  Watching follows the slots without another look at their bounds. -/

/-- A call for another position of a slot. -/
inductive Retarget where
  /-- That of the first occurrence of `l`. -/
  | literal (slot : Slot) (l : Literal)
  | position (slot : Slot) (position : Nat)
deriving DecidableEq, Repr

namespace Clause

variable {clause changed : Clause} {slot : Slot} {position : Nat} {l : Literal}
  {literals others : List Literal}

def retarget? (clause : Clause) : Retarget → Option Clause
  | .literal slot l => clause.watchLiteral? slot l
  | .position slot position => clause.watchPosition? slot position

/-- Whether a call succeeds, and the clause that it leaves. -/
def retarget (clause : Clause) (call : Retarget) : Bool × Clause :=
  ((clause.retarget? call).isSome, (clause.retarget? call).getD clause)

def retargeted (clause : Clause) (calls : List Retarget) : Clause :=
  calls.foldl (fun current call => (current.retarget call).2) clause

/-- The first occurrence of `l` is at `position`. -/
def FirstAt (clause : Clause) (l : Literal) (position : Nat) : Prop :=
  clause.literals[position]? = some l ∧ ∀ earlier < position, clause.literals[earlier]? ≠ some l

/-- In `changed` the slot is at `position`, and nothing else is different. -/
structure Points (clause : Clause) (slot : Slot) (position : Nat) (changed : Clause) : Prop where
  literals : changed.literals = clause.literals
  position : changed.position slot = position
  other : changed.position slot.other = clause.position slot.other

theorem points_point (clause : Clause) (slot : Slot) (position : Nat) :
    clause.Points slot position (clause.point slot position) :=
  ⟨clause.point_literals slot position, clause.position_point_self slot position,
    clause.position_point_other slot position⟩

theorem idxOf?_eq_some_iff_firstAt :
    clause.literals.idxOf? l = some position ↔ clause.FirstAt l position := by
  rw [List.idxOf?_eq_some_iff]
  constructor
  · intro found
    obtain ⟨bound, same, before⟩ := found
    refine ⟨List.getElem?_eq_some_iff.mpr ⟨bound, same⟩, ?_⟩
    intro earlier less again
    exact before earlier less (List.getElem?_eq_some_iff.mp again).2
  · intro first
    obtain ⟨bound, same⟩ := List.getElem?_eq_some_iff.mp first.1
    refine ⟨bound, same, ?_⟩
    intro earlier less again
    exact first.2 earlier less (List.getElem?_eq_some_iff.mpr ⟨Nat.lt_trans less bound, again⟩)

theorem watchLiteral?_eq_some_iff : clause.watchLiteral? slot l = some changed ↔
    ∃ position, clause.FirstAt l position ∧ clause.point slot position = changed := by
  simp only [watchLiteral?, Option.map_eq_some_iff, idxOf?_eq_some_iff_firstAt]

theorem watchLiteral?_isSome : (clause.watchLiteral? slot l).isSome ↔ l ∈ clause.literals := by
  rw [watchLiteral?, Option.isSome_map, List.isSome_idxOf?]

theorem watchPosition?_eq_some_iff : clause.watchPosition? slot position = some changed ↔
    position < clause.size ∧ clause.point slot position = changed := by
  unfold watchPosition?
  split <;> simp_all

theorem retarget_of_some {call : Retarget} (made : clause.retarget? call = some changed) :
    clause.retarget call = (true, changed) := by
  simp only [retarget, made, Option.isSome_some, Option.getD_some]

theorem retarget_of_none {call : Retarget} (failed : clause.retarget? call = none) :
    clause.retarget call = (false, clause) := by
  simp only [retarget, failed, Option.isSome_none, Option.getD_none]

/-- A call that succeeds points a slot at a position of the clause. -/
theorem point_of_retarget? {call : Retarget} (made : clause.retarget? call = some changed) :
    ∃ slot position, position < clause.size ∧ clause.point slot position = changed := by
  cases call with
  | literal slot l =>
      obtain ⟨position, first, pointed⟩ := watchLiteral?_eq_some_iff.mp made
      exact ⟨slot, position, (List.getElem?_eq_some_iff.mp first.1).1, pointed⟩
  | position slot position => exact ⟨slot, position, watchPosition?_eq_some_iff.mp made⟩

/-- The clause is as it was made from `literals`, but for its slots. -/
structure Lists (clause : Clause) (literals : List Literal) : Prop where
  perm : clause.literals.Perm literals
  ascending : clause.literals.Pairwise fun left right => left ≤ right
  placed : literals ≠ [] → ∀ slot, clause.position slot < clause.size
  empty : literals = [] → ∀ slot, clause.position slot = 0

theorem Lists.size (lists : clause.Lists literals) : clause.size = literals.length :=
  lists.perm.length_eq

theorem lists_ofLiterals (literals : List Literal) : (ofLiterals literals).Lists literals where
  perm := Literal.sort_perm literals
  ascending := Literal.sort_ascending literals
  placed := by
    intro some slot
    have positive := List.length_pos_iff.mpr some
    have size : (ofLiterals literals).size = literals.length :=
      (Literal.sort_perm literals).length_eq
    rw [size]
    cases slot with
    | first => exact positive
    | second =>
        simp only [ofLiterals, position]
        split <;> omega
  empty := by
    intro none slot
    subst none
    cases slot <;> rfl

theorem Lists.point (lists : clause.Lists literals) (slot : Slot)
    (inside : position < clause.size) : (clause.point slot position).Lists literals where
  perm := by
    rw [point_literals]
    exact lists.perm
  ascending := by
    rw [point_literals]
    exact lists.ascending
  placed := by
    intro some other
    have sameSize : (clause.point slot position).size = clause.size :=
      congrArg List.length (clause.point_literals slot position)
    rw [sameSize]
    rcases slot.eq_or_eq_other other with same | same
    · rw [same, position_point_self]
      exact inside
    · rw [same, position_point_other]
      exact lists.placed some slot.other
  empty := by
    intro none
    rw [lists.size, none] at inside
    cases inside

theorem Lists.retarget (lists : clause.Lists literals) (call : Retarget) :
    (clause.retarget call).2.Lists literals := by
  cases made : clause.retarget? call with
  | none =>
      rw [retarget_of_none made]
      exact lists
  | some changed =>
      obtain ⟨slot, position, inside, pointed⟩ := point_of_retarget? made
      rw [retarget_of_some made, ← pointed]
      exact lists.point slot inside

theorem Lists.retargeted (lists : clause.Lists literals) (calls : List Retarget) :
    (clause.retargeted calls).Lists literals := by
  induction calls generalizing clause with
  | nil => exact lists
  | cons call rest ih => exact ih (lists.retarget call)

/-- There is one ascending order of the same literals. -/
theorem Lists.sameLiterals_iff {other : Clause} (lists : clause.Lists literals)
    (otherLists : other.Lists others) :
    clause.sameLiterals other = true ↔ literals.Perm others := by
  rw [sameLiterals, beq_iff_eq]
  constructor
  · intro same
    have perm := lists.perm.symm
    rw [same] at perm
    exact perm.trans otherLists.perm
  · intro perm
    apply List.Perm.eq_of_pairwise _ lists.ascending otherLists.ascending
      (lists.perm.trans (perm.trans otherLists.perm.symm))
    intro left right _ _ below above
    exact Literal.code_inj.mp (Nat.le_antisymm below above)

theorem slotOf?_isSome_iff : (clause.slotOf? l).isSome ↔ ∃ slot, clause.watcher? slot = some l := by
  constructor
  · intro some
    obtain ⟨slot, found⟩ := Option.isSome_iff_exists.mp some
    exact ⟨slot, watcher?_of_slotOf? found⟩
  · intro watched
    obtain ⟨slot, watching⟩ := watched
    exact Option.isSome_iff_ne_none.mpr (slotOf?_of_watches (watches_ne_zero watching))

/-- Whether a call succeeds, and what it leaves, is read off the clause that it makes. -/
theorem retarget_ends {call : Retarget} {possible : Prop} {reached : Clause → Prop}
    (succeeds : (clause.retarget? call).isSome ↔ possible)
    (made : ∀ changed, clause.retarget? call = some changed → reached changed) :
    ∃ success after, clause.retarget call = (success, after) ∧ (success = true ↔ possible) ∧
      (success = true → reached after) ∧ (success = false → after = clause) := by
  cases result : clause.retarget? call with
  | none =>
      rw [result] at succeeds
      exact ⟨false, clause, retarget_of_none result, succeeds, by simp, fun _ => rfl⟩
  | some changed =>
      rw [result] at succeeds
      exact ⟨true, changed, retarget_of_some result, succeeds, fun _ => made changed result,
        by simp⟩

theorem Lists.retarget_literal (lists : clause.Lists literals) (slot : Slot) (l : Literal) :
    ∃ success after, clause.retarget (.literal slot l) = (success, after) ∧
      (success = true ↔ l ∈ literals) ∧
      (success = true → ∃ position, clause.FirstAt l position ∧
        clause.Points slot position after) ∧
      (success = false → after = clause) := by
  have occurs : (clause.retarget? (.literal slot l)).isSome ↔ l ∈ literals := by
    rw [← lists.perm.mem_iff]
    exact watchLiteral?_isSome
  apply retarget_ends occurs
  intro changed made
  obtain ⟨position, first, rfl⟩ := watchLiteral?_eq_some_iff.mp made
  exact ⟨position, first, clause.points_point slot position⟩

theorem Lists.retarget_position (lists : clause.Lists literals) (slot : Slot) (position : Nat) :
    ∃ success after, clause.retarget (.position slot position) = (success, after) ∧
      (success = true ↔ position < literals.length) ∧
      (success = true → clause.Points slot position after) ∧
      (success = false → after = clause) := by
  have inRange : (clause.retarget? (.position slot position)).isSome ↔
      position < literals.length := by
    rw [← lists.size, Option.isSome_iff_exists]
    simp only [retarget?, watchPosition?_eq_some_iff, exists_and_left, exists_eq', and_true]
  apply retarget_ends inRange
  intro changed made
  obtain ⟨_, rfl⟩ := watchPosition?_eq_some_iff.mp made
  exact clause.points_point slot position

/-- After any calls a clause lists what it was made from in ascending order, with both slots on
one of its literals, unless there is none.  The next call succeeds exactly if there is what it
names, and then moves its slot there and nothing else; if it fails it changes nothing.  A slot is
found for a literal exactly if one watches it, and it is one that does.  Two such clauses have the
same literals exactly if they were made from the same ones in any order. -/
theorem retargeting_keeps_order (literals : List Literal) (calls : List Retarget) :
    ∃ clause, (ofLiterals literals).retargeted calls = clause ∧
      clause.literals.Perm literals ∧
      clause.literals.Pairwise (fun left right => left ≤ right) ∧
      (literals ≠ [] → ∀ slot, clause.position slot < clause.size) ∧
      (literals = [] → ∀ slot, clause.position slot = 0) ∧
      (∀ slot l, ∃ success after, clause.retarget (.literal slot l) = (success, after) ∧
        (success = true ↔ l ∈ literals) ∧
        (success = true → ∃ position, clause.FirstAt l position ∧
          clause.Points slot position after) ∧
        (success = false → after = clause)) ∧
      (∀ slot position, ∃ success after,
        clause.retarget (.position slot position) = (success, after) ∧
        (success = true ↔ position < literals.length) ∧
        (success = true → clause.Points slot position after) ∧
        (success = false → after = clause)) ∧
      (∀ l, ((clause.slotOf? l).isSome ↔ ∃ slot, clause.watcher? slot = some l) ∧
        ∀ slot, clause.slotOf? l = some slot → clause.watcher? slot = some l) ∧
      ∀ others otherCalls,
        clause.sameLiterals ((ofLiterals others).retargeted otherCalls) = true ↔
          literals.Perm others := by
  have lists := (lists_ofLiterals literals).retargeted calls
  refine ⟨_, rfl, lists.perm, lists.ascending, lists.placed, lists.empty, lists.retarget_literal,
    lists.retarget_position, ?_, ?_⟩
  · intro l
    exact ⟨slotOf?_isSome_iff, fun slot found => watcher?_of_slotOf? found⟩
  · intro others otherCalls
    exact lists.sameLiterals_iff ((lists_ofLiterals others).retargeted otherCalls)

/-- The slots are pointed at two occurrences of one literal, then both at the first of them.  There
is no position for the last call. -/
def meeting : List Retarget :=
  [.position .first 1, .position .second 2, .literal .second ⟨1, true⟩, .position .first 3]

theorem meeting_keeps_order :
    ∃ clause, (ofLiterals [⟨1, true⟩, ⟨0, false⟩, ⟨1, true⟩]).retargeted meeting = clause ∧
      clause.first = 1 ∧ clause.second = 1 ∧ clause.slotOf? ⟨0, false⟩ = none ∧
      (∃ after, clause.retarget (.literal .first ⟨0, true⟩) = (false, after) ∧ after = clause) ∧
      clause.sameLiterals (ofLiterals [⟨1, true⟩, ⟨1, true⟩, ⟨0, false⟩]) = true := by
  obtain ⟨clause, reached, _, _, _, _, literal, _, _, same⟩ :=
    retargeting_keeps_order [⟨1, true⟩, ⟨0, false⟩, ⟨1, true⟩] meeting
  obtain ⟨success, after, called, occurs, _, unchanged⟩ := literal .first ⟨0, true⟩
  have failed : success = false := by
    rw [← Bool.not_eq_true, occurs]
    decide
  rw [failed] at called
  refine ⟨clause, reached, ?_, ?_, ?_, ⟨after, called, unchanged failed⟩,
    (same [⟨1, true⟩, ⟨1, true⟩, ⟨0, false⟩] []).mpr (by decide)⟩
  · rw [← reached]
    decide
  · rw [← reached]
    decide
  · rw [← reached]
    decide

end Clause

end UnitPropagation
