import UnitPropagation.Proofs.Frame
import UnitPropagation.Proofs.Session
import UnitPropagation.Proofs.Watched.Memory

namespace UnitPropagation.Watching

/-! Watching ends, meets no fault, and answers rightly if it has the slots for itself.

Each part of the work is followed once.  What it does to the state and to the memory is stated
without a condition, and what it does for the files under the condition `ready` that they were
in order at its start. -/

variable {watching start middle after : Watching} {ready laterReady : Prop} {success : Bool}
  {id : Nat} {falseLiteral : Literal} {rest : List Nat} {kept : Array Nat} {clause : Clause}

theorem onSession_of_eq {α : Type} {work : Work Session α} {result : α} {session : Session}
    (done : work watching.session = .ok result session) :
    onSession work watching = .ok result ⟨watching.watched, session⟩ := by
  obtain ⟨watched, before⟩ := watching
  simp only [onSession, done]

theorem ends_onSession {α β : Type} {work : Work Session α} {next : α → Work Watching β}
    {goal : β → Watching → Prop} {result : α} {session : Session}
    (done : work watching.session = .ok result session)
    (continued : (next result).Ends ⟨watching.watched, session⟩ goal) :
    (onSession work >>= next).Ends watching goal :=
  (Work.ends_bind_of_eq (onSession_of_eq done)).mpr continued

theorem onTable_of_eq {α : Type} {work : Work WatchTable α} {result : α} {table : WatchTable}
    (done : work watching.watched.table = .ok result table) :
    onTable work watching =
      .ok result ⟨{ watching.watched with table := table }, watching.session⟩ := by
  obtain ⟨⟨before, indexed, head, conflict⟩, session⟩ := watching
  simp only [onTable, done]

theorem ends_onTable {α β : Type} {work : Work WatchTable α} {next : α → Work Watching β}
    {goal : β → Watching → Prop} {result : α} {table : WatchTable}
    (done : work watching.watched.table = .ok result table)
    (continued : (next result).Ends ⟨{ watching.watched with table := table }, watching.session⟩
      goal) : (onTable work >>= next).Ends watching goal :=
  (Work.ends_bind_of_eq (onTable_of_eq done)).mpr continued

/-- How taking in one clause, or visiting one list, ends. -/
structure Outcome (start : Watching) (ready : Prop) (success : Bool) (after : Watching) : Prop where
  run : start.session.state.Advances after.session.state
  fits : after.watched.Fits after.session.state
  indexed : after.watched.indexed = start.watched.indexed
  head : after.watched.head = start.watched.head
  conflict : after.watched.conflict = start.watched.conflict
  failed : success = false → after.session.state.Conflicted
  consistent : ready → Consistent after.session.state.clauses after.watched.table.filings
    after.watched.indexed
  alert : ready → success = true → Alert after.session.state after.watched.table.filings
    after.watched.indexed (after.session.state.Pending after.watched.head)

theorem Outcome.after_step (outcome : Outcome middle laterReady success after)
    (first : start.session.state.Advances middle.session.state)
    (indexed : middle.watched.indexed = start.watched.indexed)
    (head : middle.watched.head = start.watched.head)
    (conflict : middle.watched.conflict = start.watched.conflict)
    (carries : ready → laterReady) : Outcome start ready success after where
  run := first.trans outcome.run
  fits := outcome.fits
  indexed := outcome.indexed.trans indexed
  head := outcome.head.trans head
  conflict := outcome.conflict.trans conflict
  failed := outcome.failed
  consistent := fun held => outcome.consistent (carries held)
  alert := fun held => outcome.alert (carries held)

theorem visitWatchers_ends (start : Watching) (falseLiteral : Literal) (rest : List Nat)
    (kept : Array Nat)
    (underway : Underway falseLiteral rest kept start.watched start.session.state) :
    (visitWatchers falseLiteral rest kept).Ends start fun found after =>
      Outcome start (Visiting falseLiteral rest kept start.watched start.session.state)
        found.isNone after := by
  induction rest generalizing start kept with
  | nil =>
      have bound := underway.code_lt
      rw [visitWatchers]
      refine ends_onTable (WatchTable.replace_apply bound kept) ?_
      refine Work.ends_of_eq rfl ⟨.refl, underway.fits.put underway.inside underway.keptKnown,
        rfl, rfl, rfl, by simp, ?_, ?_⟩
      · intro visiting
        exact (visiting.finish bound).1
      · intro visiting _
        exact (visiting.finish bound).2
  | cons id rest ih =>
      obtain ⟨clause, known⟩ := Database.get?_of_lt (underway.restKnown id (by simp))
      have counting := Deduction.visit start.session.state
      have counted : start.session.state.Advances start.session.state.countVisit :=
        .single (.deduce counting)
      have going := underway.advance counted
      have found : start.session.state.countVisit.clauses.get? id = some clause := known
      have carried : Visiting falseLiteral (id :: rest) kept start.watched start.session.state →
          Visiting falseLiteral (id :: rest) kept start.watched start.session.state.countVisit :=
        fun visiting => visiting.deduce underway counting
      have described := clause.visit_describes start.session.state.countVisit.model falseLiteral
      rw [visitWatchers]
      refine ends_onSession (Session.visitClause_apply start.session underway.valid known) ?_
      rw [Work.ends_get_bind]
      dsimp only
      cases answer : clause.visit start.session.state.countVisit.model falseLiteral with
      | release =>
          -- With the files in order no slot is off its list, so this is not reached.
          refine (ih ⟨start.watched, ⟨start.session.state.countVisit, _⟩⟩ kept going.skip).mono ?_
          intro result after outcome
          refine outcome.after_step counted rfl rfl rfl ?_
          intro visiting
          exact absurd answer ((carried visiting).visit_ne_release found)
      | keep =>
          rw [answer] at described
          refine (ih ⟨start.watched, ⟨start.session.state.countVisit, _⟩⟩ (kept.push id)
            going.keep).mono ?_
          intro result after outcome
          refine outcome.after_step counted rfl rfl rfl ?_
          intro visiting
          exact (carried visiting).keep found described
      | move slot position l =>
          rw [answer] at described
          obtain ⟨watched, place, apart, possible⟩ := described
          have inside := going.valid.var_lt found (List.mem_of_getElem? place)
          have bound := going.fits.code_lt inside
          have moved := counted.tail (.watch _ id slot position)
          refine ends_onSession (Session.change_apply _ _) ?_
          refine ends_onTable (WatchTable.watch_apply bound id) ?_
          refine (ih ⟨{ start.watched with table := start.watched.table.push l id },
            ⟨start.session.state.countVisit.watchPosition id slot position, _⟩⟩ kept
            (going.move slot found place)).mono ?_
          intro result after outcome
          refine outcome.after_step moved rfl rfl rfl ?_
          intro visiting
          exact (carried visiting).move found bound watched place apart possible
      | force other =>
          rw [answer] at described
          have forcing : Deduction start.session.state.countVisit
              (start.session.state.countVisit.extend other).countPropagation :=
            .force found described
          have forced := counted.tail (.deduce forcing)
          have inside := going.valid.var_lt found described.mem
          refine ends_onSession (Session.force_apply
            ⟨start.session.state.countVisit, start.session.journal⟩ inside described.unknown) ?_
          refine (ih ⟨start.watched,
            ⟨(start.session.state.countVisit.extend other).countPropagation, _⟩⟩ (kept.push id)
            (going.force found described)).mono ?_
          intro result after outcome
          refine outcome.after_step forced rfl rfl rfl ?_
          intro visiting
          exact (carried visiting).force going found described
      | conflict =>
          rw [answer] at described
          have reporting := Deduction.conflict start.session.state.countVisit
          have reported := counted.tail (.deduce reporting)
          have stopped := underway.advance reported
          have bounds : ∀ other ∈ (kept.push id ++ rest.toArray).toList,
              other < start.session.state.countVisit.countConflict.clauses.size := by
            intro other member
            rw [Array.toList_append, List.mem_append] at member
            rcases member with visited | left
            · exact stopped.keep.keptKnown other visited
            · exact stopped.skip.restKnown other left
          have conflicted : start.session.state.countVisit.countConflict.Conflicted :=
            State.conflicted_of_get? found described
          refine ends_onSession (Session.reportConflict_apply _ _ _) ?_
          refine ends_onTable (WatchTable.replace_apply stopped.code_lt _) ?_
          refine Work.ends_of_eq rfl ⟨reported, stopped.fits.put stopped.inside bounds,
            rfl, rfl, rfl, fun _ => conflicted, ?_, by simp⟩
          intro visiting
          exact ((carried visiting).deduce going reporting).breakOff stopped.code_lt

theorem visitLiteral_ends (start : Watching) {l : Literal} (valid : start.session.state.WellFormed)
    (fits : start.watched.Fits start.session.state)
    (holds : start.session.state.model.truth l = .holds) :
    (visitLiteral l).Ends start fun found after =>
      Outcome start (Visiting l.negate (start.watched.table.list l.negate).toList #[]
        { start.watched with table := start.watched.table.put l.negate #[] } start.session.state)
        found.isNone after := by
  have inside : l.negate.var < start.session.state.numVars := Assignment.negate_var_lt holds
  rw [visitLiteral]
  refine ends_onTable (WatchTable.take_apply (fits.code_lt inside)) ?_
  refine (visitWatchers_ends ⟨{ start.watched with table := start.watched.table.put l.negate #[] },
    start.session⟩ l.negate _ #[] (.start valid fits inside)).mono ?_
  intro found after outcome
  exact outcome.after_step .refl rfl rfl rfl id

/-- Clause `id` is the next one to be taken in, and is already counted as such. -/
theorem indexClause_ends (start : Watching) (valid : start.session.state.WellFormed)
    (fits : start.watched.Fits start.session.state)
    (known : start.session.state.clauses.get? id = some clause)
    (next : start.watched.indexed = id + 1) :
    (indexClause id).Ends start fun success after =>
      Outcome start
        (Consistent start.session.state.clauses start.watched.table.filings id ∧
          Alert start.session.state start.watched.table.filings id
            (start.session.state.Pending start.watched.head))
        success after := by
  have counting := Deduction.visit start.session.state
  have countedValid := counting.wellFormed valid
  have counted : start.session.state.Advances start.session.state.countVisit :=
    .single (.deduce counting)
  have countedFits := fits.advance counted valid
  have found : start.session.state.countVisit.clauses.get? id = some clause := known
  have described := clause.intake_describes start.session.state.countVisit.model
  have further : id ≤ start.watched.indexed := by omega
  rw [indexClause]
  refine ends_onSession (Session.visitClause_apply start.session valid known) ?_
  rw [Work.ends_get_bind]
  dsimp only
  cases answer : clause.intake start.session.state.countVisit.model with
  | idle =>
      rw [answer] at described
      refine Work.ends_of_eq rfl ⟨counted, countedFits, rfl, rfl, rfl, by simp, ?_, ?_⟩
      · intro ready
        obtain ⟨consistent, _⟩ := ready
        exact consistent.grow (List.prefix_refl _) further
      · intro ready _
        obtain ⟨_, alert⟩ := ready
        rw [next]
        exact alert.takeSatisfied found described
  | conflict =>
      rw [answer] at described
      have reported := counted.tail (.deduce (.conflict _))
      refine ends_onSession (Session.reportConflict_apply _ _ _) ?_
      refine Work.ends_of_eq rfl ⟨reported, fits.advance reported valid, rfl, rfl, rfl,
        fun _ => State.conflicted_of_get? found described, ?_, by simp⟩
      intro ready
      obtain ⟨consistent, _⟩ := ready
      exact consistent.grow (List.prefix_refl _) further
  | force l =>
      rw [answer] at described
      have inside := countedValid.var_lt found described.mem
      have forcing : Deduction start.session.state.countVisit
          (start.session.state.countVisit.extend l).countPropagation := .force found described
      have forced := counted.tail (.deduce forcing)
      have forcedValid := forcing.wellFormed countedValid
      have grows := (counting.grows valid).trans (forcing.grows countedValid)
      have satisfied : (start.session.state.countVisit.extend l).countPropagation.model.Satisfies
          clause.literals := ⟨l, described.mem, Assignment.truth_set_self inside⟩
      refine Work.ends_of_eq (onSession_of_eq (Session.force_apply
        ⟨start.session.state.countVisit, start.session.journal⟩ inside described.unknown))
        ⟨forced, fits.advance forced valid, rfl, rfl, rfl, by simp, ?_, ?_⟩
      · intro ready
        obtain ⟨consistent, _⟩ := ready
        exact consistent.grow grows.clauses further
      · intro ready _
        obtain ⟨_, alert⟩ := ready
        rw [next]
        refine Alert.takeSatisfied ?_ (grows.get? known) satisfied
        refine alert.grow grows (by have := fits.indexed; omega)
          (fun l pending => pending.grow grows) ?_
        intro l fails before
        exact State.pending_of_new grows valid forcedValid fits.head fails before
  | watch first firstLiteral second secondLiteral =>
      obtain ⟨apart, firstPlace, secondPlace, firstOpen, secondOpen⟩ := Clause.intake_watch answer
      have firstInside := countedValid.var_lt found (List.mem_of_getElem? firstPlace)
      have secondInside := countedValid.var_lt found (List.mem_of_getElem? secondPlace)
      have firstBound := countedFits.code_lt firstInside
      have secondBound := countedFits.code_lt secondInside
      have moved := (counted.tail (.watch _ id .first first)).tail (.watch _ id .second second)
      have bound : id < ((start.session.state.countVisit.watchPosition id .first
          first).watchPosition id .second second).clauses.size := by
        simpa using Database.get?_lt found
      refine ends_onSession (Session.change_apply _ _) ?_
      refine ends_onSession (Session.change_apply _ _) ?_
      refine ends_onTable (WatchTable.watch_apply firstBound id) ?_
      refine ends_onTable (WatchTable.watch_apply (by simpa using secondBound) id) ?_
      refine Work.ends_of_eq rfl ⟨moved,
        ((fits.advance moved valid).push firstInside bound).push secondInside bound,
        rfl, rfl, rfl, by simp, ?_, ?_⟩
      · intro ready
        obtain ⟨consistent, alert⟩ := ready
        rw [next]
        exact (takeWatched consistent alert known apart firstPlace secondPlace firstOpen secondOpen
          firstBound secondBound).1
      · intro ready _
        obtain ⟨consistent, alert⟩ := ready
        rw [next]
        exact (takeWatched consistent alert known apart firstPlace secondPlace firstOpen secondOpen
          firstBound secondBound).2

/-- What any part of the work leaves behind. -/
structure Course (start after : Watching) : Prop where
  run : start.session.state.Advances after.session.state
  fits : after.watched.Fits after.session.state
  guards : start.watched.Guards start.session.state → after.watched.Guards after.session.state

theorem Course.trans (first : Course start middle) (second : Course middle after) :
    Course start after :=
  ⟨first.run.trans second.run, second.fits, fun guards => second.guards (first.guards guards)⟩

theorem Course.pass (valid : start.session.state.WellFormed)
    (fits : start.watched.Fits start.session.state) :
    Course start ⟨start.watched, ⟨start.session.state.countPass, start.session.journal⟩⟩ := by
  have counting := Deduction.pass start.session.state
  have counted : start.session.state.Advances start.session.state.countPass :=
    .single (.deduce counting)
  exact ⟨counted, fits.advance counted valid, fun guards =>
    guards.grow fits (counting.grows valid) valid (counting.wellFormed valid)⟩

theorem Outcome.stop (outcome : Outcome middle ready false after) (id : Nat)
    (first : start.session.state.Advances middle.session.state)
    (prepared : start.watched.Guards start.session.state → ready) :
    Course start { after with watched.conflict := some id } where
  run := first.trans outcome.run
  fits := { outcome.fits with stored := fun _ => outcome.failed rfl }
  guards := fun guards => ⟨outcome.consistent (prepared guards), by simp⟩

theorem Outcome.course (outcome : Outcome middle ready true after)
    (first : start.session.state.Advances middle.session.state)
    (prepared : start.watched.Guards start.session.state → ready) : Course start after where
  run := first.trans outcome.run
  fits := outcome.fits
  guards := fun guards => ⟨outcome.consistent (prepared guards), fun _ =>
    outcome.alert (prepared guards) rfl⟩

theorem indexClauses_ends {steps : Nat} (start : Watching)
    (valid : start.session.state.WellFormed) (fits : start.watched.Fits start.session.state)
    (going : start.watched.conflict = none)
    (enough : start.session.state.clauses.size - start.watched.indexed +
      start.session.state.model.numOpen < steps) :
    (indexClauses steps).Ends start fun success after =>
      Course start after ∧
        (success = true → after.watched.indexed = after.session.state.clauses.size ∧
          after.watched.conflict = none) ∧
        (success = false → after.session.state.Conflicted) := by
  induction steps generalizing start with
  | zero => omega
  | succ steps ih =>
      rw [indexClauses, Work.ends_get_bind, Work.ends_get_bind]
      by_cases more : start.watched.indexed < start.session.state.clauses.size
      · obtain ⟨clause, found⟩ := Database.get?_of_lt more
        have counted : { start.watched with indexed := start.watched.indexed + 1 }.Fits
            start.session.state := { fits with indexed := more }
        rw [if_pos more, Work.ends_modify_bind]
        refine (indexClause_ends { start with watched.indexed := start.watched.indexed + 1 } valid
          counted found rfl).bind ?_
        intro success middle outcome
        have prepared : start.watched.Guards start.session.state →
            Consistent start.session.state.clauses start.watched.table.filings
              start.watched.indexed ∧
            Alert start.session.state start.watched.table.filings start.watched.indexed
              (start.session.state.Pending start.watched.head) :=
          fun guards => ⟨guards.consistent, guards.alert going⟩
        cases success with
        | true =>
            -- Each clause that was added has taken a variable from the open ones.
            have balance := (outcome.run.sizes valid).1
            have next : middle.watched.indexed = start.watched.indexed + 1 := outcome.indexed
            have taken := outcome.fits.indexed
            have first : Course start middle := outcome.course .refl prepared
            dsimp only at balance
            refine (ih middle (outcome.run.wellFormed valid) outcome.fits
              (outcome.conflict.trans going) (by omega)).mono ?_
            intro success after reached
            obtain ⟨course, ends⟩ := reached
            exact ⟨first.trans course, ends⟩
        | false =>
            have stopped : Course start
                { middle with watched.conflict := some start.watched.indexed } :=
              outcome.stop _ .refl prepared
            exact Work.ends_of_eq rfl ⟨stopped, by simp, fun _ => outcome.failed rfl⟩
      · have all := fits.indexed
        rw [if_neg more]
        exact Work.ends_of_eq rfl ⟨⟨.refl, fits, fun guards => guards⟩,
          fun _ => ⟨by omega, going⟩, by simp⟩

theorem visitTrail_ends {steps : Nat} (start : Watching)
    (valid : start.session.state.WellFormed) (fits : start.watched.Fits start.session.state)
    (going : start.watched.conflict = none)
    (enough : start.session.state.trail.size - start.watched.head +
      start.session.state.model.numOpen < steps) :
    (visitTrail steps).Ends start fun success after =>
      Course start after ∧
        (success = true → after.watched.head = after.session.state.trail.size ∧
          after.watched.indexed = start.watched.indexed ∧ after.watched.conflict = none) ∧
        (success = false → after.session.state.Conflicted) := by
  induction steps generalizing start with
  | zero => omega
  | succ steps ih =>
      rw [visitTrail, Work.ends_get_bind, Work.ends_get_bind]
      cases found : start.session.state.trail[start.watched.head]? with
      | none =>
          have all := fits.head
          have done := Array.getElem?_eq_none_iff.mp found
          exact Work.ends_of_eq rfl ⟨⟨.refl, fits, fun guards => guards⟩,
            fun _ => ⟨by omega, rfl, going⟩, by simp⟩
      | some l =>
          have more := (Array.getElem?_eq_some_iff.mp found).1
          have holds := valid.holds_of_trail found
          have inside : l.negate.var < start.session.state.numVars :=
            Assignment.negate_var_lt holds
          have counted : { start.watched with head := start.watched.head + 1 }.Fits
              start.session.state := { fits with head := more }
          dsimp only
          rw [Work.ends_modify_bind]
          refine (visitLiteral_ends { start with watched.head := start.watched.head + 1 } valid
            counted holds).bind ?_
          intro conflict middle outcome
          have prepared : start.watched.Guards start.session.state →
              Visiting l.negate (start.watched.table.list l.negate).toList #[]
                { start.watched with
                  table := start.watched.table.put l.negate #[], head := start.watched.head + 1 }
                start.session.state :=
            fun guards => .start guards going valid found (fits.code_lt inside)
          cases conflict with
          | none =>
              have balance := (outcome.run.sizes valid).2
              have next : middle.watched.head = start.watched.head + 1 := outcome.head
              have visited := outcome.fits.head
              have first : Course start middle := outcome.course .refl prepared
              dsimp only at balance
              refine (ih middle (outcome.run.wellFormed valid) outcome.fits
                (outcome.conflict.trans going) (by omega)).mono ?_
              intro success after reached
              obtain ⟨course, ended, failed⟩ := reached
              refine ⟨first.trans course, fun succeeded => ?_, failed⟩
              obtain ⟨head, indexed, conflict⟩ := ended succeeded
              exact ⟨head, indexed.trans outcome.indexed, conflict⟩
          | some id =>
              have stopped : Course start { middle with watched.conflict := some id } :=
                outcome.stop _ .refl prepared
              exact Work.ends_of_eq rfl ⟨stopped, by simp, fun _ => outcome.failed rfl⟩

/-- How a round ends that is not the last one: the visits have made literals true, and their unit
clauses are left to be taken in. -/
structure Unfinished (start after : Watching) : Prop where
  course : Course start after
  going : after.watched.conflict = none
  visited : after.watched.head = after.session.state.trail.size
  made : after.session.state.TrueUnitsFrom after.watched.indexed
  fewer : after.session.state.model.numOpen < start.session.state.model.numOpen

theorem round_ends {left : Nat} {goal : Bool → Watching → Prop} (start : Watching)
    (valid : start.session.state.WellFormed) (fits : start.watched.Fits start.session.state)
    (going : start.watched.conflict = none)
    (last : ∀ success after, Course start after → after.passes = start.passes + 1 →
      (success = false → after.session.state.Conflicted) →
      (success = true → after.watched.AtRest after.session.state) → goal success after)
    (another : ∀ after, Unfinished start after → after.passes = start.passes + 1 →
      (rounds left).Ends after goal) :
    (rounds (left + 1)).Ends start goal := by
  have countedValid := (Deduction.pass start.session.state).wellFormed valid
  have begun := Course.pass valid fits
  have fewer : start.session.state.countPass.model.numOpen ≤
      start.session.state.countPass.numVars := Nat.sub_le _ _
  rw [rounds]
  refine ends_onSession (Session.change_apply _ _) ?_
  rw [Work.ends_get_bind, Work.ends_get_bind]
  refine ((indexClauses_ends ⟨start.watched, ⟨start.session.state.countPass, _⟩⟩ countedValid
    begun.fits going (by dsimp only; omega)).keeping (keeps_indexClauses _)).bind ?_
  intro taken indexed reached
  obtain ⟨⟨indexing, taking, takingFailed⟩, indexedKept⟩ := reached
  have indexedPasses : indexed.passes = start.passes + 1 := indexedKept
  have indexedValid := indexing.run.wellFormed countedValid
  cases taken with
  | false =>
      exact Work.ends_pure.mpr (last false indexed (begun.trans indexing) indexedPasses
        (fun _ => takingFailed rfl) (by simp))
  | true =>
      obtain ⟨allTaken, indexedGoing⟩ := taking rfl
      have stillFewer : indexed.session.state.model.numOpen ≤ indexed.session.state.numVars :=
        Nat.sub_le _ _
      simp only [↓reduceIte]
      rw [Work.ends_get_bind, Work.ends_get_bind]
      refine ((visitTrail_ends indexed indexedValid indexing.fits indexedGoing
        (by omega)).keeping (keeps_visitTrail _)).bind ?_
      intro visited after reached
      obtain ⟨⟨visiting, visits, visitsFailed⟩, kept⟩ := reached
      have course := (begun.trans indexing).trans visiting
      have passes : after.passes = start.passes + 1 := kept.trans indexedPasses
      cases visited with
      | false =>
          exact Work.ends_pure.mpr (last false after course passes (fun _ => visitsFailed rfl)
            (by simp))
      | true =>
          obtain ⟨allVisited, sameIndexed, afterGoing⟩ := visits rfl
          simp only [↓reduceIte]
          rw [Work.ends_get_bind, Work.ends_get_bind]
          by_cases complete : after.watched.indexed = after.session.state.clauses.size
          · rw [if_pos complete]
            refine ends_onSession (Session.note_apply _ _) ?_
            exact Work.ends_pure.mpr (last true ⟨after.watched, _⟩
              ⟨course.run, course.fits, course.guards⟩ passes (by simp)
              fun _ => ⟨afterGoing, complete, allVisited⟩)
          · have made : after.session.state.TrueUnitsFrom after.watched.indexed := by
              rw [sameIndexed, allTaken]
              exact visiting.run.trueUnitsFrom indexedValid (State.trueUnitsFrom_size _)
            -- A clause is left to take in, so the visits have made a literal true.
            have balance := (visiting.run.sizes indexedValid).1
            have within := visiting.fits.indexed
            have earlier : indexed.session.state.model.numOpen ≤
                start.session.state.model.numOpen := indexing.run.numOpen_le countedValid
            rw [if_neg complete]
            exact another after ⟨course, afterGoing, allVisited, made, by omega⟩ passes

/-- Every round but the last makes a literal true, so there are enough rounds. -/
theorem rounds_ends {left : Nat} (start : Watching) (valid : start.session.state.WellFormed)
    (fits : start.watched.Fits start.session.state) (going : start.watched.conflict = none)
    (enough : start.session.state.model.numOpen < left) :
    (rounds left).Ends start fun success after =>
      Course start after ∧ (success = false → after.session.state.Conflicted) ∧
        (success = true → after.watched.AtRest after.session.state) := by
  induction left generalizing start with
  | zero => omega
  | succ left ih =>
      apply round_ends start valid fits going
      · intro success after course _ failed rest
        exact ⟨course, failed, rest⟩
      · intro middle unfinished _
        have fewer := unfinished.fewer
        refine (ih middle (unfinished.course.run.wellFormed valid) unfinished.course.fits
          unfinished.going (by omega)).mono ?_
        intro success after reached
        obtain ⟨further, outcome⟩ := reached
        exact ⟨unfinished.course.trans further, outcome⟩

theorem propagate_stored {watched : Watched} (session : Session)
    (stored : watched.conflict = some id) :
    propagate ⟨watched, session⟩ =
      .ok false ⟨watched, ⟨session.state, session.journal.push (.conflictPersists id)⟩⟩ := by
  simp only [propagate, Work.get_bind_apply, stored]
  rfl

theorem propagate_ends (start : Watching) (valid : start.session.state.WellFormed)
    (fits : start.watched.Fits start.session.state) :
    propagate.Ends start fun success after =>
      Course start after ∧ (success = false → after.session.state.Conflicted) ∧
        (success = true → after.watched.AtRest after.session.state) := by
  rw [propagate, Work.ends_get_bind]
  cases stored : start.watched.conflict with
  | some id =>
      have conflicted := fits.stored (by simp [stored])
      refine ends_onSession (Session.note_apply _ _) ?_
      exact Work.ends_of_eq rfl ⟨⟨.refl, fits, fun guards => guards⟩, fun _ => conflicted,
        by simp⟩
  | none =>
      dsimp only
      rw [Work.ends_get_bind]
      apply rounds_ends start valid fits stored
      have fewer : start.session.state.model.numOpen ≤ start.session.state.numVars :=
        Nat.sub_le _ _
      exact Nat.lt_succ_of_le fewer

end UnitPropagation.Watching
