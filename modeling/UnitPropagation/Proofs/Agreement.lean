import UnitPropagation.Proofs.OpenSession
import UnitPropagation.Proofs.Rebase

namespace UnitPropagation

/-! The evaluators of a clause agree.

Its status, its intake and what is left of it under a model are worked out apart from each other,
and they stop at different literals: only the last looks for a true literal behind two open
occurrences.  `Watching.Takes` says what each status means for the intake. -/

namespace Assignment

variable {model : Assignment} {literals : List Literal} {l : Literal}

def openOccurrences (model : Assignment) (literals : List Literal) : List Literal :=
  literals.filter fun l => model.truth l = .unknown

/-- The open occurrences with their positions, if the first literal has position `start`. -/
def openPlaces (model : Assignment) (start : Nat) (literals : List Literal) :
    List (Literal × Nat) :=
  (literals.zipIdx start).filter fun place => model.truth place.1 = .unknown

theorem openCount_eq_length (model : Assignment) (literals : List Literal) :
    model.openCount literals = (model.openOccurrences literals).length :=
  List.countP_eq_length_filter

theorem Falsifies.openOccurrences (falsified : model.Falsifies literals) :
    model.openOccurrences literals = [] := by
  apply List.filter_eq_nil_iff.mpr
  intro l member
  simp [falsified l member]

theorem Forces.openOccurrences (forced : model.Forces literals l) :
    model.openOccurrences literals = [l] := by
  obtain ⟨before, after, rfl, unknown, others⟩ := forced
  have none := others.openOccurrences
  simp only [Assignment.openOccurrences, List.filter_append, List.append_eq_nil_iff] at none
  simp [Assignment.openOccurrences, List.filter_append, none, unknown]

theorem Forces.not_satisfies (forced : model.Forces literals l) : ¬ model.Satisfies literals := by
  obtain ⟨before, after, rfl, unknown, others⟩ := forced
  intro satisfied
  obtain ⟨other, member, holds⟩ := satisfied
  rw [List.perm_middle.mem_iff] at member
  rcases List.mem_cons.mp member with same | member
  · rw [same, unknown] at holds
    cases holds
  · rw [others other member] at holds
    cases holds

theorem remainder_of_not_satisfies (unsatisfied : ¬ model.Satisfies literals) :
    model.remainder literals = model.openOccurrences literals := by
  apply List.filter_congr
  intro l member
  cases truth : model.truth l with
  | holds => exact absurd ⟨l, member, truth⟩ unsatisfied
  | fails => rfl
  | unknown => rfl

theorem mem_of_mem_openPlaces {start : Nat} {place : Literal × Nat}
    (member : place ∈ model.openPlaces start literals) : place.1 ∈ literals :=
  List.fst_mem_of_mem_zipIdx (List.mem_filter.mp member).1

theorem mem_of_openPlaces {start : Nat} {first second : Literal × Nat}
    (places : [first, second] <+: model.openPlaces start literals) :
    first.1 ∈ literals ∧ second.1 ∈ literals :=
  ⟨mem_of_mem_openPlaces (places.subset (by simp)),
    mem_of_mem_openPlaces (places.subset (by simp))⟩

theorem openPlaces_cons (model : Assignment) (start : Nat) (l : Literal) (rest : List Literal) :
    model.openPlaces start (l :: rest) =
      if model.truth l = .unknown then (l, start) :: model.openPlaces (start + 1) rest
      else model.openPlaces (start + 1) rest := by
  simp only [openPlaces, List.zipIdx_cons, List.filter_cons, decide_eq_true_eq]

/-- Nothing open is passed over: the place seen before and the next open one are watched. -/
theorem intakeFrom_watch_places {position first second : Nat} {seen : Option (Nat × Literal)}
    {rest : List Literal} {firstLiteral secondLiteral : Literal}
    (watched : model.intakeFrom position seen rest =
      .watch first firstLiteral second secondLiteral) :
    [(firstLiteral, first), (secondLiteral, second)] <+:
      (seen.map Prod.swap).toList ++ model.openPlaces position rest := by
  induction rest generalizing position seen with
  | nil => rcases seen with _ | ⟨_, _⟩ <;> simp [intakeFrom] at watched
  | cons l rest ih =>
      rw [intakeFrom_cons] at watched
      rw [openPlaces_cons]
      cases truth : model.truth l with
      | holds => simp [truth] at watched
      | fails =>
          rw [truth] at watched
          simpa using ih watched
      | unknown =>
          rcases seen with _ | ⟨place, unit⟩
          · rw [truth] at watched
            simpa using ih watched
          · simp only [truth, Intake.watch.injEq] at watched
            obtain ⟨rfl, rfl, rfl, rfl⟩ := watched
            exact ⟨model.openPlaces (position + 1) rest, rfl⟩

end Assignment

namespace Clause

variable {clause : Clause} {model : Assignment} {l : Literal}

theorem status_conflicting_iff :
    clause.status model = .conflicting ↔ model.Falsifies clause.literals := by
  have described := clause.status_describes model
  constructor
  · intro status
    rw [status] at described
    exact described
  · intro falsified
    cases status : clause.status model with
    | conflicting => rfl
    | satisfied =>
        rw [status] at described
        exact absurd described falsified.not_satisfies
    | unit l =>
        rw [status] at described
        exact absurd ((falsified l described.mem).symm.trans described.unknown) (by decide)
    | undecided =>
        rw [status] at described
        exact absurd falsified (Assignment.settles_of_two_open described).1

theorem status_unit_iff : clause.status model = .unit l ↔
    ¬ model.Satisfies clause.literals ∧ model.openOccurrences clause.literals = [l] := by
  have described := clause.status_describes model
  constructor
  · intro status
    rw [status] at described
    exact ⟨described.not_satisfies, described.openOccurrences⟩
  · intro single
    obtain ⟨unsatisfied, only⟩ := single
    cases status : clause.status model with
    | satisfied =>
        rw [status] at described
        exact absurd described unsatisfied
    | conflicting =>
        rw [status] at described
        have none := Assignment.Falsifies.openOccurrences described
        rw [only] at none
        cases none
    | unit other =>
        rw [status] at described
        have same := described.openOccurrences
        rw [only, List.singleton_inj] at same
        rw [same]
    | undecided =>
        rw [status] at described
        change 2 ≤ model.openCount clause.literals at described
        rw [Assignment.openCount_eq_length, only] at described
        simp at described

/-- What the clauses left under a model have of this one. -/
def share (clause : Clause) (model : Assignment) : List Clause :=
  ((clause.residue? model).map ofLiterals).toList

theorem share_of_not_leaves (decided : ¬ model.Leaves clause.literals) :
    clause.share model = [] := by
  rw [share, residue?_eq, if_neg decided]
  rfl

theorem share_of_leaves (leaves : model.Leaves clause.literals) :
    clause.share model = [ofLiterals (model.openOccurrences clause.literals)] := by
  rw [share, residue?_eq, if_pos leaves, Assignment.remainder_of_not_satisfies leaves.1]
  rfl

theorem share_of_decided
    (decided : model.Satisfies clause.literals ∨ clause.status model = .conflicting) :
    clause.share model = [] := by
  apply share_of_not_leaves
  intro leaves
  rcases decided with satisfied | conflicting
  · exact leaves.1 satisfied
  · exact leaves.2 (status_conflicting_iff.mp conflicting)

theorem share_of_unit (unit : clause.status model = .unit l) :
    clause.share model = [ofLiterals [l]] := by
  obtain ⟨unsatisfied, only⟩ := status_unit_iff.mp unit
  have leaves : model.Leaves clause.literals := by
    refine ⟨unsatisfied, ?_⟩
    intro falsified
    have none := falsified.openOccurrences
    rw [only] at none
    cases none
  rw [share_of_leaves leaves, only]

theorem share_of_undecided (unsatisfied : ¬ model.Satisfies clause.literals)
    (possible : clause.status model ≠ .conflicting) (several : ∀ l, clause.status model ≠ .unit l) :
    clause.share model = [ofLiterals (model.openOccurrences clause.literals)] ∧
      2 ≤ (model.openOccurrences clause.literals).length := by
  refine ⟨share_of_leaves ⟨unsatisfied, fun falsified =>
    possible (status_conflicting_iff.mpr falsified)⟩, ?_⟩
  rw [← Assignment.openCount_eq_length]
  have described := clause.status_describes model
  cases status : clause.status model with
  | satisfied =>
      rw [status] at described
      exact absurd described unsatisfied
  | conflicting => exact absurd status possible
  | unit l => exact absurd status (several l)
  | undecided =>
      rw [status] at described
      exact described

end Clause

namespace State

variable {state : State} {id : Nat} {clause : Clause}

theorem status_ok (valid : state.WellFormed) (found : state.clauses.get? id = some clause) :
    state.status id = .ok (clause.status state.model) := by
  rw [status, clauseAt_ok valid found]
  rfl

theorem reduced_eq_flatMap (state : State) :
    state.reduced = state.clauses.toList.flatMap (·.share state.model) :=
  List.filterMap_eq_flatMap_toList _ _

end State

namespace Watching

variable {start after : Watching} {id : Nat} {clause : Clause} {status other : Status}
  {success : Bool} {l : Literal}

/-- What it means to take in clause `id` as one of the given status.  A visit is counted in any
case, and nothing else is different for a satisfied clause. -/
def Takes (start : Watching) (id : Nat) (clause : Clause) (status : Status) (success : Bool)
    (after : Watching) : Prop :=
  let state := start.session.state.countVisit
  let journal := start.session.journal
  match status with
  | .satisfied => success = true ∧ after = ⟨start.watched, ⟨state, journal⟩⟩
  | .conflicting =>
      success = false ∧
        after = ⟨start.watched, ⟨state.countConflict, journal.push (.conflict id clause)⟩⟩
  | .unit l =>
      success = true ∧ after = ⟨start.watched,
        ⟨(state.extend l).countPropagation, (journal.push (.assigned l)).push (.forced id l)⟩⟩
  | .undecided =>
      success = true ∧ ∃ first firstLiteral second secondLiteral,
        [(firstLiteral, first), (secondLiteral, second)] <+:
          state.model.openPlaces 0 clause.literals ∧
        after = ⟨{ start.watched with
          table := (start.watched.table.push firstLiteral id).push secondLiteral id },
          ⟨(state.watchPosition id .first first).watchPosition id .second second, journal⟩⟩

theorem indexClause_takes (start : Watching) (valid : start.session.state.WellFormed)
    (known : start.session.state.clauses.get? id = some clause)
    (room : 2 * start.session.state.numVars ≤ start.watched.table.size) :
    (indexClause id).Ends start
      (Takes start id clause (clause.status start.session.state.model)) := by
  have countedValid := (Deduction.visit start.session.state).wellFormed valid
  have found : start.session.state.countVisit.clauses.get? id = some clause := known
  have listed : ∀ l ∈ clause.literals, l.code < start.watched.table.size := by
    intro l member
    exact Nat.lt_of_lt_of_le (Literal.code_lt (valid.var_lt known member)) room
  have same : start.session.state.model = start.session.state.countVisit.model := rfl
  have described := clause.intake_describes start.session.state.countVisit.model
  rw [indexClause, same, ← clause.intake_status]
  refine ends_onSession (Session.visitClause_apply start.session valid known) ?_
  rw [Work.ends_get_bind]
  dsimp only
  cases answer : clause.intake start.session.state.countVisit.model with
  | idle => exact Work.ends_of_eq rfl ⟨rfl, rfl⟩
  | conflict =>
      refine ends_onSession (Session.reportConflict_apply _ _ _) ?_
      exact Work.ends_of_eq rfl ⟨rfl, rfl⟩
  | force l =>
      rw [answer] at described
      have inside := countedValid.var_lt found described.mem
      exact Work.ends_of_eq (onSession_of_eq (Session.force_apply
        ⟨start.session.state.countVisit, start.session.journal⟩ inside described.unknown))
        ⟨rfl, rfl⟩
  | watch first firstLiteral second secondLiteral =>
      have places := Assignment.intakeFrom_watch_places answer
      obtain ⟨firstOccurs, secondOccurs⟩ := Assignment.mem_of_openPlaces places
      have firstBound := listed firstLiteral firstOccurs
      have secondBound := listed secondLiteral secondOccurs
      refine ends_onSession (Session.change_apply _ _) ?_
      refine ends_onSession (Session.change_apply _ _) ?_
      refine ends_onTable (WatchTable.watch_apply firstBound id) ?_
      refine ends_onTable (WatchTable.watch_apply (by simpa using secondBound) id) ?_
      exact Work.ends_of_eq rfl ⟨rfl, first, firstLiteral, second, secondLiteral, places, rfl⟩

namespace Takes

theorem fails_iff (takes : Takes start id clause status success after) :
    success = false ↔ status = .conflicting := by
  cases status with
  | satisfied => simp [takes.1]
  | conflicting => simp [takes.1]
  | unit l => simp [takes.1]
  | undecided => simp [takes.1]

theorem forces_iff (takes : Takes start id clause status success after) (l : Literal) :
    after.session.state.trail = start.session.state.trail.push l ↔ status = .unit l := by
  have longer : start.session.state.trail ≠ start.session.state.trail.push l := by
    intro same
    simpa using congrArg Array.size same
  cases status with
  | satisfied | conflicting =>
      obtain ⟨_, rfl⟩ := takes
      exact iff_of_false longer (by simp)
  | undecided =>
      obtain ⟨_, _, _, _, _, _, rfl⟩ := takes
      exact iff_of_false longer (by simp)
  | unit other =>
      obtain ⟨_, rfl⟩ := takes
      have pushed : start.session.state.trail.push other = start.session.state.trail.push l ↔
          other = l := Array.push_inj_right
      exact pushed.trans (by simp)

/-- Only a clause that is to be watched is filed. -/
theorem files_iff (takes : Takes start id clause status success after)
    (listed : ∀ l ∈ clause.literals, l.code < start.watched.table.size) :
    after.watched.table ≠ start.watched.table ↔ status = .undecided := by
  cases status with
  | satisfied | conflicting | unit =>
      obtain ⟨_, rfl⟩ := takes
      simp
  | undecided =>
      obtain ⟨_, first, firstLiteral, second, secondLiteral, places, rfl⟩ := takes
      simp only [iff_true]
      intro same
      obtain ⟨firstOccurs, secondOccurs⟩ := Assignment.mem_of_openPlaces places
      have firstBound := listed firstLiteral firstOccurs
      have secondBound := listed secondLiteral secondOccurs
      have filed := congrArg (fun table : WatchTable => table.filings firstLiteral id) same
      rw [WatchTable.filings_push (by simpa using secondBound),
        WatchTable.filings_push firstBound] at filed
      simp only [and_self, ↓reduceIte] at filed
      omega

/-- What was done tells for which status. -/
theorem unique (takes : Takes start id clause status success after)
    (otherTakes : Takes start id clause other success after)
    (listed : ∀ l ∈ clause.literals, l.code < start.watched.table.size) : other = status := by
  cases status with
  | conflicting => exact otherTakes.fails_iff.mp (takes.fails_iff.mpr rfl)
  | unit l => exact (otherTakes.forces_iff l).mp ((takes.forces_iff l).mpr rfl)
  | undecided => exact (otherTakes.files_iff listed).mp ((takes.files_iff listed).mpr rfl)
  | satisfied =>
      cases other with
      | satisfied => rfl
      | conflicting => exact (takes.fails_iff.mp (otherTakes.fails_iff.mpr rfl)).symm
      | unit l => exact ((takes.forces_iff l).mp ((otherTakes.forces_iff l).mpr rfl)).symm
      | undecided =>
          exact ((takes.files_iff listed).mp ((otherTakes.files_iff listed).mpr rfl)).symm

end Takes

end Watching

namespace Session

/-- Whatever has been asked of a session, and whoever propagated on it, the evaluators agree on each
of its clauses.  A propagator with room for the variables does with the clause what its status
says, and nothing that another status says.  The clauses left under the model take from each clause
nothing, its only open occurrence or all its open occurrences, of which there are two at least. -/
theorem evaluators_agree {count : Nat} {start last : Session} (created : create count = .ok start)
    {steps : List (Step Propagator)} (reached : reach perform start steps = last)
    {id : Nat} {clause : Clause} (found : last.state.clauses.get? id = some clause)
    {watched : Watched} (room : 2 * count ≤ watched.table.size) :
    ∃ status, last.state.status id = .ok status ∧
      (status = .conflicting ↔ last.state.model.Falsifies clause.literals) ∧
      (∀ l, status = .unit l ↔ ¬ last.state.model.Satisfies clause.literals ∧
        last.state.model.openOccurrences clause.literals = [l]) ∧
      (∃ success after, Watching.indexClause id ⟨watched, last⟩ = .ok success after ∧
        ∀ other, Watching.Takes ⟨watched, last⟩ id clause other success after ↔
          other = status) ∧
      (∃ clauses session, rebase last = .ok clauses session ∧
        clauses = last.state.clauses.toList.flatMap (·.share last.state.model) ++
          last.state.units) ∧
      (last.state.model.Satisfies clause.literals ∨ status = .conflicting →
        clause.share last.state.model = []) ∧
      (∀ l, status = .unit l → clause.share last.state.model = [.ofLiterals [l]]) ∧
      (¬ last.state.model.Satisfies clause.literals → status ≠ .conflicting →
        (∀ l, status ≠ .unit l) →
        clause.share last.state.model =
            [.ofLiterals (last.state.model.openOccurrences clause.literals)] ∧
          2 ≤ (last.state.model.openOccurrences clause.literals).length) := by
  have kept := kept_attempt created steps
  rw [attempt_reaches, reached] at kept
  have valid := kept.ledger.valid
  rw [← kept.numVars] at room
  have listed : ∀ l ∈ clause.literals, l.code < watched.table.size := by
    intro l member
    exact Nat.lt_of_lt_of_le (Literal.code_lt (valid.var_lt found member)) room
  obtain ⟨success, after, taken, takes⟩ :=
    Watching.indexClause_takes ⟨watched, last⟩ valid found room
  obtain ⟨clauses, session, exported, rebased⟩ := rebase_ends last valid
  refine ⟨_, State.status_ok valid found, Clause.status_conflicting_iff,
    fun l => Clause.status_unit_iff, ⟨success, after, taken, ?_⟩, ⟨clauses, session, exported, ?_⟩,
    Clause.share_of_decided, fun l => Clause.share_of_unit, Clause.share_of_undecided⟩
  · intro other
    constructor
    · intro otherTakes
      exact takes.unique otherTakes listed
    · intro same
      rw [same]
      exact takes
  · rw [rebased, State.rebased, State.reduced_eq_flatMap]

/-- The clause is satisfied behind two open occurrences. -/
def hidden : List (Step Propagator) :=
  [.add (.ofLiterals [⟨0, true⟩, ⟨1, true⟩, ⟨2, true⟩, ⟨3, true⟩]), .assign ⟨0, false⟩,
    .assign ⟨3, true⟩]

theorem hidden_agreed :
    ∃ last clause, reach perform (.ofState (.ofModel (.blank 4))) hidden = last ∧
      last.state.clauses.get? 0 = some clause ∧ last.state.status 0 = .ok .undecided ∧
      (∃ success after,
        Watching.indexClause 0 ⟨.forVariables 4, last⟩ = .ok success after ∧
        Watching.Takes ⟨.forVariables 4, last⟩ 0 clause .undecided success after) ∧
      clause.share last.state.model = [] := by
  let clause : Clause := ⟨[⟨0, true⟩, ⟨1, true⟩, ⟨2, true⟩, ⟨3, true⟩], 0, 1⟩
  have stored : (reach perform (.ofState (.ofModel (.blank 4))) hidden).state.clauses.get? 0 =
      some clause := by decide +kernel
  obtain ⟨status, asked, _, _, ⟨success, after, taken, takes⟩, _, decided, _⟩ :=
    evaluators_agree (create_eq (by decide : 4 ≤ maxVariables))
      (rfl : reach perform _ hidden = _) stored
      (by decide : 2 * 4 ≤ (Watched.forVariables 4).table.size)
  have evaluated : (reach perform (.ofState (.ofModel (.blank 4))) hidden).state.status 0 =
      .ok .undecided := rfl
  have same : Status.undecided = status := Except.ok.inj (evaluated.symm.trans asked)
  refine ⟨_, clause, rfl, stored, evaluated, ⟨success, after, taken, (takes _).mpr same⟩, ?_⟩
  exact decided (.inl (by decide +kernel))

end Session

end UnitPropagation
