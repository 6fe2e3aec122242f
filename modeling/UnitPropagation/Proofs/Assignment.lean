import UnitPropagation.Assignment

namespace UnitPropagation

/-! How an assignment changes when an open literal is made true.

Nothing is ever taken back, so assignments are compared by `Extends`: the later one
makes every literal true that the earlier one makes true. -/

namespace Literal

@[simp] theorem negate_var (l : Literal) : l.negate.var = l.var := rfl

theorem negate_ne (l : Literal) : l.negate ≠ l := by
  intro same
  simpa [negate] using congrArg positive same

theorem eq_or_eq_negate {left right : Literal} (sameVar : left.var = right.var) :
    left = right ∨ left = right.negate := by
  obtain ⟨var, positive⟩ := left
  obtain ⟨otherVar, otherPositive⟩ := right
  cases sameVar
  cases positive <;> cases otherPositive <;> simp [negate]

theorem code_inj {left right : Literal} : left.code = right.code ↔ left = right := by
  constructor
  · intro same
    simpa using congrArg ofCode same
  · intro same
    rw [same]

theorem code_lt {l : Literal} {count : Nat} (inside : l.var < count) : l.code < 2 * count := by
  have sign : l.positive.toNat ≤ 1 := Bool.toNat_le l.positive
  unfold code
  omega

end Literal

theorem Truth.negate_eq_holds {truth : Truth} : truth.negate = .holds ↔ truth = .fails := by
  cases truth <;> simp [negate]

theorem Truth.negate_eq_fails {truth : Truth} : truth.negate = .fails ↔ truth = .holds := by
  cases truth <;> simp [negate]

theorem Truth.negate_eq_unknown {truth : Truth} : truth.negate = .unknown ↔ truth = .unknown := by
  cases truth <;> simp [negate]

namespace Assignment

variable {model later last : Assignment} {l other : Literal}

theorem truth_negate (model : Assignment) (l : Literal) :
    model.truth l.negate = (model.truth l).negate := by
  obtain ⟨var, positive⟩ := l
  cases positive
  · cases stored : model.value var <;> simp [truth, Literal.negate, stored, Truth.negate]
  · simp [truth, Literal.negate]

theorem negate_holds_iff : model.truth l.negate = .holds ↔ model.truth l = .fails := by
  rw [truth_negate, Truth.negate_eq_holds]

theorem negate_fails_iff : model.truth l.negate = .fails ↔ model.truth l = .holds := by
  rw [truth_negate, Truth.negate_eq_fails]

theorem negate_unknown_iff : model.truth l.negate = .unknown ↔ model.truth l = .unknown := by
  rw [truth_negate, Truth.negate_eq_unknown]

theorem var_lt_of_assigned (assigned : model.truth l ≠ .unknown) : l.var < model.size := by
  apply Nat.lt_of_not_le
  intro outside
  have absent : model.value l.var = .unknown := by
    simp only [value, Array.getD_eq_getD_getElem?]
    rw [Array.getElem?_eq_none (by simpa [size] using outside)]
    rfl
  apply assigned
  simp [truth, absent, Truth.negate]

theorem var_lt_of_holds (holds : model.truth l = .holds) : l.var < model.size :=
  var_lt_of_assigned (by rw [holds]; decide)

theorem negate_var_lt (holds : model.truth l = .holds) : l.negate.var < model.size := by
  rw [Literal.negate_var]
  exact var_lt_of_holds holds

@[simp] theorem size_set (model : Assignment) (l : Literal) : (model.set l).size = model.size := by
  simp [set, put, size]

theorem truth_set_self (inside : l.var < model.size) : (model.set l).truth l = .holds := by
  have stored : (model.set l).value l.var = .ofBool l.positive := by
    have bound : l.var < model.values.size := inside
    simp [set, put, value, bound]
  simp only [truth, stored]
  cases l.positive <;> rfl

theorem truth_set_of_ne (apart : other.var ≠ l.var) :
    (model.set l).truth other = model.truth other := by
  have kept : (model.set l).value other.var = model.value other.var := by
    simp only [set, put, value, Array.getD_eq_getD_getElem?]
    rw [Array.getElem?_setIfInBounds_ne (Ne.symm apart)]
  simp only [truth, kept]

theorem truth_set_holds_iff (inside : l.var < model.size) (unassigned : model.truth l = .unknown) :
    (model.set l).truth other = .holds ↔ model.truth other = .holds ∨ other = l := by
  by_cases sameVar : other.var = l.var
  · rcases Literal.eq_or_eq_negate sameVar with same | opposite
    · subst other
      simp [truth_set_self inside]
    · subst other
      have before : model.truth l.negate = .unknown := negate_unknown_iff.mpr unassigned
      have after : (model.set l).truth l.negate = .fails :=
        negate_fails_iff.mpr (truth_set_self inside)
      simp [before, after, l.negate_ne]
  · have apart : other ≠ l := fun same => sameVar (by rw [same])
    simp [truth_set_of_ne sameVar, apart]

/-- Every literal that `model` makes true is true in `later` as well. -/
def Extends (later model : Assignment) : Prop :=
  ∀ l, model.truth l = .holds → later.truth l = .holds

theorem Extends.refl (model : Assignment) : model.Extends model := fun _ holds => holds

theorem Extends.trans (second : last.Extends later) (first : later.Extends model) :
    last.Extends model := fun l holds => second l (first l holds)

theorem Extends.fails (extension : later.Extends model) (fails : model.truth l = .fails) :
    later.truth l = .fails :=
  negate_holds_iff.mp (extension l.negate (negate_holds_iff.mpr fails))

theorem extends_set (inside : l.var < model.size) (unassigned : model.truth l = .unknown) :
    (model.set l).Extends model :=
  fun _ holds => (truth_set_holds_iff inside unassigned).mpr (.inl holds)

theorem eq_of_extends (sameSize : later.size = model.size) (forth : later.Extends model)
    (back : model.Extends later) : later = model := by
  have sameValue : ∀ x, later.value x = model.value x := by
    intro x
    have agree : later.truth ⟨x, true⟩ = model.truth ⟨x, true⟩ := by
      cases stored : model.truth ⟨x, true⟩ with
      | holds => exact forth _ stored
      | fails => exact forth.fails stored
      | unknown =>
          cases laterStored : later.truth ⟨x, true⟩ with
          | holds => simpa [stored] using back _ laterStored
          | fails => simpa [stored] using back.fails laterStored
          | unknown => rfl
    simpa [truth] using agree
  obtain ⟨laterValues⟩ := later
  obtain ⟨values⟩ := model
  congr 1
  apply Array.ext sameSize
  intro x laterBound bound
  simpa [value, laterBound, bound] using sameValue x

theorem numAssigned_le_size (model : Assignment) : model.numAssigned ≤ model.size :=
  Array.countP_le_size

/-- Making an open literal true leaves one open variable less. -/
theorem numOpen_set (inside : l.var < model.size) (unassigned : model.truth l = .unknown) :
    (model.set l).numOpen + 1 = model.numOpen := by
  have bound : l.var < model.values.size := inside
  have before : model.values[l.var] = .unknown := by
    have stored : model.value l.var = .unknown := by
      cases positive : l.positive <;> simp only [truth, positive] at unassigned
      · exact Truth.negate_eq_unknown.mp (by simpa using unassigned)
      · simpa using unassigned
    simpa [value, bound] using stored
  have assigned : (Truth.ofBool l.positive).isAssigned = true := by
    cases l.positive <;> rfl
  have counted : (model.set l).numAssigned = model.numAssigned + 1 := by
    simp only [set, put, numAssigned]
    rw [Array.setIfInBounds_def, dif_pos bound, Array.countP_set, before, assigned]
    simp [Truth.isAssigned]
  have room := (model.set l).numAssigned_le_size
  rw [size_set] at room
  simp only [numOpen, size_set, counted]
  omega

end Assignment

end UnitPropagation
