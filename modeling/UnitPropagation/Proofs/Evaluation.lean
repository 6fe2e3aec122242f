import UnitPropagation.Clause.Evaluation
import UnitPropagation.Proofs.Assignment

namespace UnitPropagation

/-! What the evaluators of a clause answer, in terms of the truth values of its literals.

Occurrences are counted, not literals: a clause is forced to make `l` true only if `l` stands
at one position and every other position fails.  `Settles` is the condition that propagation
aims at, and it does not depend on the order of the literals. -/

namespace Assignment

variable {model later : Assignment} {l : Literal} {literals done rest : List Literal}

/-- Some literal holds. -/
def Satisfies (model : Assignment) (literals : List Literal) : Prop :=
  ∃ l ∈ literals, model.truth l = .holds

/-- Every literal fails. -/
def Falsifies (model : Assignment) (literals : List Literal) : Prop :=
  ∀ l ∈ literals, model.truth l = .fails

/-- Number of open occurrences. -/
def openCount (model : Assignment) (literals : List Literal) : Nat :=
  literals.countP fun l => model.truth l = .unknown

/-- Nothing is left to do: not every literal fails, and it is not the case that no literal
holds and exactly one occurrence is open. -/
def Settles (model : Assignment) (literals : List Literal) : Prop :=
  ¬ model.Falsifies literals ∧ ¬ (¬ model.Satisfies literals ∧ model.openCount literals = 1)

/-- The occurrence of `l` is open and every other one fails. -/
def Forces (model : Assignment) (literals : List Literal) (l : Literal) : Prop :=
  ∃ before after, literals = before ++ l :: after ∧ model.truth l = .unknown ∧
    model.Falsifies (before ++ after)

instance (model : Assignment) (literals : List Literal) : Decidable (model.Satisfies literals) :=
  inferInstanceAs (Decidable (∃ l ∈ literals, _))

instance (model : Assignment) (literals : List Literal) : Decidable (model.Falsifies literals) :=
  inferInstanceAs (Decidable (∀ l ∈ literals, _))

instance (model : Assignment) (literals : List Literal) : Decidable (model.Settles literals) :=
  inferInstanceAs (Decidable (¬ _ ∧ ¬ (¬ _ ∧ _)))

theorem Satisfies.extend (satisfied : model.Satisfies literals) (extension : later.Extends model) :
    later.Satisfies literals := by
  obtain ⟨l, member, holds⟩ := satisfied
  exact ⟨l, member, extension l holds⟩

theorem Falsifies.extend (falsified : model.Falsifies literals)
    (extension : later.Extends model) : later.Falsifies literals :=
  fun l member => extension.fails (falsified l member)

theorem Falsifies.perm {other : List Literal} (falsified : model.Falsifies literals)
    (same : literals.Perm other) : model.Falsifies other :=
  fun l member => falsified l (same.mem_iff.mpr member)

theorem Falsifies.not_satisfies (falsified : model.Falsifies literals) :
    ¬ model.Satisfies literals := by
  intro satisfied
  obtain ⟨l, member, holds⟩ := satisfied
  rw [falsified l member] at holds
  cases holds

theorem Settles.perm {other : List Literal} (settled : model.Settles literals)
    (same : literals.Perm other) : model.Settles other := by
  refine ⟨fun falsified => settled.1 (falsified.perm same.symm), ?_⟩
  intro unit
  obtain ⟨unsatisfied, single⟩ := unit
  apply settled.2
  refine ⟨fun satisfied => unsatisfied ?_, ?_⟩
  · obtain ⟨l, member, holds⟩ := satisfied
    exact ⟨l, same.mem_iff.mp member, holds⟩
  · rw [openCount, same.countP_eq]
    exact single

theorem settles_of_two_open (twice : 2 ≤ model.openCount literals) : model.Settles literals := by
  constructor
  · intro falsified
    have none : model.openCount literals = 0 := by
      apply List.countP_eq_zero.mpr
      intro l member
      simp [falsified l member]
    omega
  · intro unit
    obtain ⟨_, single⟩ := unit
    omega

theorem Satisfies.settles (satisfied : model.Satisfies literals) : model.Settles literals :=
  ⟨fun falsified => falsified.not_satisfies satisfied, fun unsatisfied => unsatisfied.1 satisfied⟩

theorem holds_of_settles {before after : List Literal}
    (settled : model.Settles (before ++ l :: after))
    (others : model.Falsifies (before ++ after)) : model.truth l = .holds := by
  have member : ∀ other ∈ before ++ l :: after, other = l ∨ model.truth other = .fails := by
    intro other occurs
    rcases List.mem_append.mp occurs with left | right
    · exact .inr (others other (List.mem_append.mpr (.inl left)))
    · rcases List.mem_cons.mp right with same | right
      · exact .inl same
      · exact .inr (others other (List.mem_append.mpr (.inr right)))
  cases truth : model.truth l with
  | holds => rfl
  | fails =>
      exfalso
      apply settled.1
      intro other occurs
      rcases member other occurs with same | fails
      · rw [same, truth]
      · exact fails
  | unknown =>
      exfalso
      apply settled.2
      constructor
      · intro satisfied
        obtain ⟨other, occurs, holds⟩ := satisfied
        rcases member other occurs with same | fails
        · rw [same, truth] at holds
          cases holds
        · rw [fails] at holds
          cases holds
      · have none : model.openCount (before ++ after) = 0 := by
          apply List.countP_eq_zero.mpr
          intro other occurs
          simp [others other occurs]
        have both : model.openCount before = 0 ∧ model.openCount after = 0 := by
          simpa [openCount, List.countP_append] using none
        simp only [openCount] at both
        simp [openCount, List.countP_append, truth, both]

theorem Forces.mem (forced : model.Forces literals l) : l ∈ literals := by
  obtain ⟨before, after, rfl, _⟩ := forced
  simp

theorem Forces.unknown (forced : model.Forces literals l) : model.truth l = .unknown := by
  obtain ⟨_, _, _, unknown, _⟩ := forced
  exact unknown

/-- The state of a left-to-right look at a clause whose positions `done` have been seen. -/
def Looked (model : Assignment) (done : List Literal) : Option Literal → Prop
  | none => model.Falsifies done
  | some l => model.Forces done l

theorem Looked.fail {seen : Option Literal} (looked : model.Looked done seen)
    (fails : model.truth l = .fails) : model.Looked (done ++ [l]) seen := by
  cases seen with
  | none =>
      intro other occurs
      rcases List.mem_append.mp occurs with earlier | last
      · exact looked other earlier
      · rw [List.mem_singleton.mp last, fails]
  | some unit =>
      obtain ⟨before, after, rfl, unknown, others⟩ := looked
      refine ⟨before, after ++ [l], by simp, unknown, ?_⟩
      intro other occurs
      rw [← List.append_assoc] at occurs
      rcases List.mem_append.mp occurs with earlier | last
      · exact others other earlier
      · rw [List.mem_singleton.mp last, fails]

theorem Looked.meet (looked : model.Looked done none) (unknown : model.truth l = .unknown) :
    model.Looked (done ++ [l]) (some l) :=
  ⟨done, [], rfl, unknown, by rw [List.append_nil]; exact looked⟩

theorem Looked.two_open {unit : Literal} (looked : model.Looked done (some unit))
    (unknown : model.truth l = .unknown) : 2 ≤ model.openCount (done ++ l :: rest) := by
  obtain ⟨before, after, rfl, unitUnknown, _⟩ := looked
  simp only [openCount, List.countP_append, List.countP_cons, unknown, unitUnknown, decide_true,
    ↓reduceIte]
  omega

end Assignment

/-- What a status says about the literals of a clause. -/
def Status.Describes (status : Status) (model : Assignment) (literals : List Literal) : Prop :=
  match status with
  | .satisfied => model.Satisfies literals
  | .conflicting => model.Falsifies literals
  | .unit l => model.Forces literals l
  | .undecided => 2 ≤ model.openCount literals

theorem Assignment.statusFrom_cons (model : Assignment) (seen : Option Literal) (l : Literal)
    (rest : List Literal) :
    model.statusFrom seen (l :: rest) =
      match model.truth l with
      | .holds => .satisfied
      | .fails => model.statusFrom seen rest
      | .unknown =>
          match seen with
          | none => model.statusFrom (some l) rest
          | some _ => .undecided := by
  cases seen <;> rfl

theorem Assignment.statusFrom_describes {model : Assignment} {seen : Option Literal}
    {done rest : List Literal} (looked : model.Looked done seen) :
    (model.statusFrom seen rest).Describes model (done ++ rest) := by
  induction rest generalizing seen done with
  | nil => cases seen <;> simpa [statusFrom, Status.Describes, Looked] using looked
  | cons l rest ih =>
      rw [statusFrom_cons]
      cases truth : model.truth l with
      | holds => exact ⟨l, by simp, truth⟩
      | fails => simpa using ih (looked.fail truth)
      | unknown =>
          cases seen with
          | none => simpa using ih (looked.meet truth)
          | some unit => exact looked.two_open truth

theorem Clause.status_describes (clause : Clause) (model : Assignment) :
    (clause.status model).Describes model clause.literals := by
  have start : model.Looked [] none := by
    intro l member
    cases member
  exact Assignment.statusFrom_describes start

/-- The status that an intake goes with. -/
def Intake.status : Intake → Status
  | .idle => .satisfied
  | .conflict => .conflicting
  | .force l => .unit l
  | .watch _ _ _ _ => .undecided

theorem Assignment.intakeFrom_cons (model : Assignment) (position : Nat)
    (seen : Option (Nat × Literal)) (l : Literal) (rest : List Literal) :
    model.intakeFrom position seen (l :: rest) =
      match model.truth l with
      | .holds => .idle
      | .fails => model.intakeFrom (position + 1) seen rest
      | .unknown =>
          match seen with
          | none => model.intakeFrom (position + 1) (some (position, l)) rest
          | some (first, firstLiteral) => .watch first firstLiteral position l := by
  rcases seen with _ | ⟨_, _⟩ <;> rfl

theorem Assignment.intakeFrom_status (model : Assignment) (position : Nat)
    (seen : Option (Nat × Literal)) (rest : List Literal) :
    (model.intakeFrom position seen rest).status = model.statusFrom (seen.map Prod.snd) rest := by
  induction rest generalizing position seen with
  | nil => rcases seen with _ | ⟨_, _⟩ <;> rfl
  | cons l rest ih =>
      rw [intakeFrom_cons, statusFrom_cons]
      cases model.truth l with
      | holds => rfl
      | fails => exact ih _ _
      | unknown =>
          rcases seen with _ | ⟨first, firstLiteral⟩
          · exact ih _ _
          · rfl

theorem Clause.intake_status (clause : Clause) (model : Assignment) :
    (clause.intake model).status = clause.status model :=
  model.intakeFrom_status 0 none clause.literals

theorem Clause.intake_describes (clause : Clause) (model : Assignment) :
    (clause.intake model).status.Describes model clause.literals := by
  rw [clause.intake_status model]
  exact clause.status_describes model

theorem Assignment.intakeFrom_watch {model : Assignment} {seen : Option (Nat × Literal)}
    {done rest : List Literal} {first second : Nat} {firstLiteral secondLiteral : Literal}
    (remembered : ∀ position l, seen = some (position, l) →
      done[position]? = some l ∧ model.truth l = .unknown)
    (watched : model.intakeFrom done.length seen rest =
      .watch first firstLiteral second secondLiteral) :
    first < second ∧ (done ++ rest)[first]? = some firstLiteral ∧
      (done ++ rest)[second]? = some secondLiteral ∧
      model.truth firstLiteral = .unknown ∧ model.truth secondLiteral = .unknown := by
  induction rest generalizing seen done with
  | nil => rcases seen with _ | ⟨_, _⟩ <;> simp [intakeFrom] at watched
  | cons l rest ih =>
      have further : done.length + 1 = (done ++ [l]).length := by simp
      rw [intakeFrom_cons, further] at watched
      cases truth : model.truth l with
      | holds => simp [truth] at watched
      | fails =>
          rw [truth] at watched
          have kept : ∀ position unit, seen = some (position, unit) →
              (done ++ [l])[position]? = some unit ∧ model.truth unit = .unknown := by
            intro position unit same
            obtain ⟨found, unknown⟩ := remembered position unit same
            have bound : position < done.length := (List.getElem?_eq_some_iff.mp found).1
            exact ⟨by rw [List.getElem?_append_left bound, found], unknown⟩
          simpa using ih kept watched
      | unknown =>
          rcases seen with _ | ⟨position, unit⟩
          · rw [truth] at watched
            have kept : ∀ position unit, some (done.length, l) = some (position, unit) →
                (done ++ [l])[position]? = some unit ∧ model.truth unit = .unknown := by
              intro position unit same
              cases same
              exact ⟨by simp, truth⟩
            simpa using ih kept watched
          · simp only [truth, Intake.watch.injEq] at watched
            obtain ⟨rfl, rfl, rfl, rfl⟩ := watched
            obtain ⟨found, unknown⟩ := remembered position unit rfl
            have bound : position < done.length := (List.getElem?_eq_some_iff.mp found).1
            exact ⟨bound, by rw [List.getElem?_append_left bound, found], by simp, unknown, truth⟩

theorem Clause.intake_watch {clause : Clause} {model : Assignment} {first second : Nat}
    {firstLiteral secondLiteral : Literal}
    (watched : clause.intake model = .watch first firstLiteral second secondLiteral) :
    first < second ∧ clause.literals[first]? = some firstLiteral ∧
      clause.literals[second]? = some secondLiteral ∧
      model.truth firstLiteral = .unknown ∧ model.truth secondLiteral = .unknown := by
  have start : ∀ position l, (none : Option (Nat × Literal)) = some (position, l) →
      ([] : List Literal)[position]? = some l ∧ model.truth l = .unknown := by
    intro position l same
    cases same
  exact Assignment.intakeFrom_watch start watched

theorem Assignment.falsifies_around {model : Assignment} {literals : List Literal} {taken : Nat}
    {l : Literal} (found : literals[taken]? = some l)
    (elsewhere : ∀ position other, literals[position]? = some other → position ≠ taken →
      model.truth other = .fails) :
    ∃ before after, literals = before ++ l :: after ∧ model.Falsifies (before ++ after) := by
  obtain ⟨bound, same⟩ := List.getElem?_eq_some_iff.mp found
  refine ⟨literals.take taken, literals.drop (taken + 1), ?_, ?_⟩
  · rw [← same, ← List.drop_eq_getElem_cons bound, List.take_append_drop]
  · intro other occurs
    rcases List.mem_append.mp occurs with before | after
    · obtain ⟨position, near, rfl⟩ := List.mem_take_iff_getElem.mp before
      exact elsewhere position _ (List.getElem?_eq_getElem (by omega)) (by omega)
    · obtain ⟨offset, near, rfl⟩ := List.mem_drop_iff_getElem.mp after
      exact elsewhere (taken + 1 + offset) _ (List.getElem?_eq_getElem (by omega)) (by omega)

namespace Clause

variable {clause : Clause} {model : Assignment} {l falseLiteral : Literal} {slot : Slot}
  {position taken : Nat}

theorem watcher?_of_slotOf? (found : clause.slotOf? l = some slot) :
    clause.watcher? slot = some l := by
  unfold slotOf? at found
  split at found
  · cases found
    assumption
  · split at found
    · cases found
      assumption
    · cases found

theorem replacement?_some (found : clause.replacement? model taken = some (l, position)) :
    clause.literals[position]? = some l ∧ position ≠ taken ∧ model.truth l ≠ .fails := by
  have member := List.mem_of_find?_eq_some found
  have chosen := List.find?_some found
  simp only [Bool.and_eq_true, bne_iff_ne] at chosen
  exact ⟨List.mem_zipIdx_iff_getElem?.mp member, chosen⟩

theorem replacement?_none (missing : clause.replacement? model taken = none) :
    ∀ position other, clause.literals[position]? = some other → position ≠ taken →
      model.truth other = .fails := by
  intro position other found apart
  have refused := List.find?_eq_none.mp missing (other, position)
    (List.mem_zipIdx_iff_getElem?.mpr found)
  simpa [apart] using refused

end Clause

/-- What the answer to a visit says about the clause. -/
def Visit.Describes (visit : Visit) (clause : Clause) (model : Assignment)
    (falseLiteral : Literal) : Prop :=
  match visit with
  | .release =>
      clause.slotOf? falseLiteral = none ∨
        ∃ slot : Slot, clause.watcher? slot = some falseLiteral ∧ clause.watcher? slot.other = none
  | .keep => model.Satisfies clause.literals
  | .move slot position l =>
      clause.watcher? slot = some falseLiteral ∧ clause.literals[position]? = some l ∧
        position ≠ clause.position slot.other ∧ model.truth l ≠ .fails
  | .force l => model.Forces clause.literals l
  | .conflict => model.Falsifies clause.literals

/-- No slot need be where it should be for the answers that change the model: they look at
every position but that of the other slot. -/
theorem Clause.visit_describes (clause : Clause) (model : Assignment) (falseLiteral : Literal) :
    (clause.visit model falseLiteral).Describes clause model falseLiteral := by
  cases found : clause.slotOf? falseLiteral with
  | none =>
      simp only [visit, found]
      exact .inl found
  | some slot =>
      have watching := watcher?_of_slotOf? found
      cases other : clause.watcher? slot.other with
      | none =>
          simp only [visit, found, other]
          exact .inr ⟨slot, watching, other⟩
      | some otherLiteral =>
          have place : clause.literals[clause.position slot.other]? = some otherLiteral := other
          by_cases holds : model.truth otherLiteral = .holds
          · simp only [visit, found, other, holds, ↓reduceIte]
            exact ⟨otherLiteral, List.mem_of_getElem? place, holds⟩
          · cases chosen : clause.replacement? model (clause.position slot.other) with
            | some choice =>
                obtain ⟨l, position⟩ := choice
                simp only [visit, found, other, holds, chosen, ↓reduceIte]
                exact ⟨watching, replacement?_some chosen⟩
            | none =>
                obtain ⟨before, after, split, others⟩ :=
                  Assignment.falsifies_around place (replacement?_none chosen)
                by_cases fails : model.truth otherLiteral = .fails
                · simp only [visit, found, other, chosen, fails, ↓reduceIte]
                  intro l occurs
                  rw [split, List.perm_middle.mem_iff] at occurs
                  rcases List.mem_cons.mp occurs with same | occurs
                  · rw [same, fails]
                  · exact others l occurs
                · simp only [visit, found, other, holds, chosen, fails, ↓reduceIte]
                  have unknown : model.truth otherLiteral = .unknown := by
                    cases truth : model.truth otherLiteral <;> simp_all
                  exact ⟨before, after, split, unknown, others⟩

end UnitPropagation
