import Mathlib.Data.List.Sort
import UnitPropagation.Clause

namespace UnitPropagation

/-! A clause lists the literals it is made from, each as often as it was given, in ascending
order. -/

namespace Literal

instance : Std.Total fun left right : Literal => left ≤ right :=
  ⟨fun left right => Nat.le_total left.code right.code⟩

instance : IsTrans Literal fun left right => left ≤ right :=
  ⟨fun _ _ _ => Nat.le_trans⟩

theorem insert_eq_orderedInsert (l : Literal) (literals : List Literal) :
    insert l literals = literals.orderedInsert (fun left right => left ≤ right) l := by
  induction literals with
  | nil => rfl
  | cons head rest ih => rw [insert, List.orderedInsert_cons, ih]

theorem sort_eq_insertionSort (literals : List Literal) :
    sort literals = literals.insertionSort fun left right => left ≤ right := by
  induction literals with
  | nil => rfl
  | cons l rest ih =>
      rw [List.insertionSort_cons, ← ih, ← insert_eq_orderedInsert]
      rfl

theorem sort_perm (literals : List Literal) : (sort literals).Perm literals := by
  rw [sort_eq_insertionSort]
  exact List.perm_insertionSort _ literals

@[simp] theorem mem_sort {l : Literal} {literals : List Literal} :
    l ∈ sort literals ↔ l ∈ literals := (sort_perm literals).mem_iff

@[simp] theorem sort_singleton (l : Literal) : sort [l] = [l] := rfl

theorem sort_ascending (literals : List Literal) :
    (sort literals).Pairwise fun left right => left ≤ right := by
  rw [sort_eq_insertionSort]
  exact List.pairwise_insertionSort _ literals

theorem sort_of_ascending {literals : List Literal}
    (ascending : literals.Pairwise fun left right => left ≤ right) : sort literals = literals := by
  rw [sort_eq_insertionSort]
  exact ascending.insertionSort_eq

end Literal

namespace Clause

@[simp] theorem ofLiterals_literals (literals : List Literal) :
    (ofLiterals literals).literals = Literal.sort literals := rfl

theorem ofLiterals_sort (literals : List Literal) :
    ofLiterals (Literal.sort literals) = ofLiterals literals := by
  have sorted := Literal.sort_of_ascending (Literal.sort_ascending literals)
  have length := (Literal.sort_perm literals).length_eq
  simp only [ofLiterals, sorted, length]

end Clause

end UnitPropagation
