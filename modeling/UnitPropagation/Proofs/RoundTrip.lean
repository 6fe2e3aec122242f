import UnitPropagation.Proofs.Clause
import UnitPropagation.Proofs.Dimacs

namespace UnitPropagation

/-! Reading undoes writing, and what was read is written with each clause in order.

A written formula declares exactly the variables that it mentions.  A formula that was read may
declare more, so reading it again after writing it can only make their number smaller. -/

/-- The formula has the variables that its clauses mention and no more: one more than the largest
of them, or none without literals. -/
structure Formula.Tight (formula : Formula) : Prop where
  inside : ∀ literals ∈ formula.clauses, ∀ l ∈ literals, l.var < formula.numVars
  reached : formula.numVars = 0 ∨
    ∃ literals ∈ formula.clauses, ∃ l ∈ literals, formula.numVars = l.var + 1

/-- `sorted` has the same literals equally often, by ascending code. -/
def Literal.Sorts (sorted literals : List Literal) : Prop :=
  sorted.Perm literals ∧ sorted.Pairwise fun left right => left.code ≤ right.code

theorem Literal.sorts_sort (literals : List Literal) : Sorts (sort literals) literals :=
  ⟨sort_perm literals, sort_ascending literals⟩

theorem variableBound_reached (literals : List Literal) :
    variableBound literals = 0 ∨ ∃ l ∈ literals, variableBound literals = l.var + 1 := by
  induction literals with
  | nil => exact .inl rfl
  | cons head rest ih =>
      have step : variableBound (head :: rest) = max (head.var + 1) (variableBound rest) := rfl
      right
      by_cases larger : variableBound rest ≤ head.var + 1
      · exact ⟨head, by simp, by omega⟩
      · rcases ih with none | ⟨l, member, bound⟩
        · omega
        · exact ⟨l, by simp [member], by omega⟩

theorem Formula.tight_variableBound (clauses : List (List Literal)) :
    Formula.Tight ⟨variableBound clauses.flatten, clauses⟩ where
  inside := variableBound_flatten_le_iff.mp (Nat.le_refl _)
  reached := by
    rcases variableBound_reached clauses.flatten with none | ⟨l, member, bound⟩
    · exact .inl none
    · obtain ⟨literals, listed, occurs⟩ := List.mem_flatten.mp member
      exact .inr ⟨literals, listed, l, occurs, bound⟩

namespace Dimacs

/-- Clauses whose literals all have a number are written and read back as they were, over the
variables that they mention.  A formula that was read, with or without a header, is written and
read back with each clause in ascending order, over no more variables than before. -/
theorem reading_undoes_writing :
    (∀ clauses : List Clause, clauses.length ≤ maxClauses →
      (∀ clause ∈ clauses, ∀ l ∈ clause.literals, l.var < maxNumber) →
      ∃ text formula, write clauses = .ok text ∧ read text.toUTF8.data.toList = .ok formula ∧
        formula.clauses = clauses.map Clause.literals ∧ formula.Tight) ∧
    ∀ formula : Formula,
      ((∃ bytes, read bytes = .ok formula) ∨ ∃ text, readText text = .ok formula) →
      formula.clauses.length ≤ maxClauses →
      ∃ text again, write (formula.clauses.map Clause.ofLiterals) = .ok text ∧
        read text.toUTF8.data.toList = .ok again ∧
        List.Forall₂ Literal.Sorts again.clauses formula.clauses ∧
        again.numVars ≤ formula.numVars := by
  constructor
  · intro clauses few numbered
    obtain ⟨text, written, back⟩ := read_write numbered few
    exact ⟨text, _, written, back, rfl, Formula.tight_variableBound _⟩
  · intro formula loaded few
    have inRange := loaded_inRange loaded
    have inside : ∀ clause ∈ formula.clauses.map Clause.ofLiterals, ∀ l ∈ clause.literals,
        l.var < formula.numVars := by
      rw [List.forall_mem_map]
      intro literals listed l member
      exact inRange.inside literals listed l (Literal.mem_sort.mp member)
    obtain ⟨text, written, back⟩ := read_write
      (fun clause listed l occurs => Nat.lt_of_lt_of_le (inside clause listed l occurs)
        inRange.numVars)
      (by rw [List.length_map]; exact few)
    refine ⟨text, _, written, back, ?_, ?_⟩
    · rw [List.map_map, List.forall₂_map_left_iff, List.forall₂_same]
      intro literals _
      exact Literal.sorts_sort literals
    · apply variableBound_le
      intro l member
      obtain ⟨_, listed, occurs⟩ := List.mem_flatten.mp member
      obtain ⟨clause, given, rfl⟩ := List.mem_map.mp listed
      exact inside clause given l occurs

/-- The largest variable that has a number, twice in one clause, beside an empty clause; and a
formula with more variables than it mentions, text after a final zero and an empty line. -/
theorem limits_read_back :
    (∃ formula, write [.ofLiterals [⟨2147483646, false⟩, ⟨0, true⟩, ⟨2147483646, false⟩],
        .ofLiterals [], .ofLiterals [⟨1, true⟩]] =
          .ok "p cnf 2147483647 3\n1 -2147483647 -2147483647 0\n0\n2 0\n" ∧
      read "p cnf 2147483647 3\n1 -2147483647 -2147483647 0\n0\n2 0\n".toUTF8.data.toList =
        .ok formula ∧
      formula.clauses = [[⟨0, true⟩, ⟨2147483646, false⟩, ⟨2147483646, false⟩], [], [⟨1, true⟩]] ∧
      formula.Tight) ∧
    ∃ formula again, read "c\np cnf 9 2\n3 -1 +3 0 5\n\n".toUTF8.data.toList = .ok formula ∧
      write (formula.clauses.map Clause.ofLiterals) = .ok "p cnf 3 2\n-1 3 3 0\n0\n" ∧
      read "p cnf 3 2\n-1 3 3 0\n0\n".toUTF8.data.toList = .ok again ∧
      List.Forall₂ Literal.Sorts again.clauses formula.clauses ∧
      again.numVars ≤ formula.numVars := by
  constructor
  · obtain ⟨text, formula, written, back, same, tight⟩ := reading_undoes_writing.1
      [.ofLiterals [⟨2147483646, false⟩, ⟨0, true⟩, ⟨2147483646, false⟩], .ofLiterals [],
        .ofLiterals [⟨1, true⟩]] (by decide) (by decide)
    have shown : text = "p cnf 2147483647 3\n1 -2147483647 -2147483647 0\n0\n2 0\n" :=
      Except.ok.inj (written.symm.trans (by decide +kernel))
    rw [shown] at written back
    exact ⟨formula, written, back, same, tight⟩
  · let formula : Formula := ⟨9, [[⟨2, true⟩, ⟨0, false⟩, ⟨2, true⟩], []]⟩
    have loaded : read "c\np cnf 9 2\n3 -1 +3 0 5\n\n".toUTF8.data.toList = .ok formula := by
      decide +kernel
    obtain ⟨text, again, written, back, sorted, fewer⟩ :=
      reading_undoes_writing.2 formula (.inl ⟨_, loaded⟩) (by decide)
    have shown : text = "p cnf 3 2\n-1 3 3 0\n0\n" :=
      Except.ok.inj (written.symm.trans (by decide +kernel))
    rw [shown] at written back
    exact ⟨formula, again, loaded, written, back, sorted, fewer⟩

end Dimacs

end UnitPropagation
