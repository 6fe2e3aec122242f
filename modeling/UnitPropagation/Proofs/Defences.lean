import UnitPropagation.Proofs.Solver

namespace UnitPropagation

/-! Branches that no run takes.

The propagators are ready for what their own work rules out: that a forced literal is false
already, that a slot is to be pointed where its clause has no position, and that a clause is on
the list of a literal that it does not watch.  Here these branches are left open.  Filled with
what the propagators have there, they give the propagators again (`perform_standard`); filled with
anything else, be it a fault, they give the same runs (`perform_eq`). -/

/-- What is done in the branches that no run takes. -/
structure Defences where
  /-- Clause `id` is to force a literal that is false already. -/
  refused : Literal → Nat → Clause → Work Session Bool
  /-- A slot is to be pointed where clause `id` has no position, or there is no such clause. -/
  misplaced : Nat → Slot → Nat → Work Session Unit
  /-- Clause `id` is on the list of a literal that it does not watch, or its other slot watches
  nothing. -/
  released : Literal → Nat → Work Watching Unit

namespace Defences

/-- What the propagators do. -/
def standard : Defences where
  refused _ id clause := do
    Session.reportConflict id clause
    return false
  misplaced _ _ _ := pure ()
  released _ _ := pure ()

section

variable (defences : Defences)

def force (l : Literal) (id : Nat) (clause : Clause) : Work Session Bool := do
  if ← Session.imply l id then
    return true
  else
    defences.refused l id clause

def point (id : Nat) (slot : Slot) (position : Nat) : Work Session Unit := do
  if ((← get).state.clauses.get? id).any (position < ·.size) then
    Session.change (·.watchPosition id slot position)
  else
    defences.misplaced id slot position

def scan : List Nat → FullScan.Scan → Work Session FullScan.Scan
  | [], soFar => return soFar
  | id :: rest, soFar => do
      let clause ← Session.visitClause id
      match clause.status (← get).state.model with
      | .satisfied => scan rest soFar
      | .undecided => scan rest soFar
      | .conflicting =>
          Session.reportConflict id clause
          return .conflict
      | .unit l =>
          if ← defences.force l id clause then scan rest .active else return .conflict

def scanRounds : Nat → Work Session Bool
  | 0 => throw .unfinished
  | rounds + 1 => do
      Session.change (·.countPass)
      match ← defences.scan ((← get).state.clauses.idsFrom 0) .quiet with
      | .quiet => return true
      | .active => scanRounds rounds
      | .conflict => return false

def propagateScanning : Work Session Bool := do
  defences.scanRounds ((← get).state.numVars + 1)

def indexClause (id : Nat) : Work Watching Bool := do
  let clause ← Watching.onSession (Session.visitClause id)
  match clause.intake (← get).session.state.model with
  | .idle => return true
  | .conflict =>
      Watching.onSession (Session.reportConflict id clause)
      return false
  | .force l => Watching.onSession (defences.force l id clause)
  | .watch first firstLiteral second secondLiteral =>
      Watching.onSession (defences.point id .first first)
      Watching.onSession (defences.point id .second second)
      Watching.onTable (WatchTable.watch firstLiteral id)
      Watching.onTable (WatchTable.watch secondLiteral id)
      return true

def indexClauses : Nat → Work Watching Bool
  | 0 => throw .unfinished
  | steps + 1 => do
      let id := (← get).watched.indexed
      if id < (← get).session.state.clauses.size then
        modify fun watching => { watching with watched.indexed := id + 1 }
        if ← defences.indexClause id then
          indexClauses steps
        else
          Watching.stop id
          return false
      else
        return true

def visitWatchers (falseLiteral : Literal) : List Nat → Array Nat → Work Watching (Option Nat)
  | [], kept => do
      Watching.onTable (WatchTable.replace falseLiteral kept)
      return none
  | id :: rest, kept => do
      let clause ← Watching.onSession (Session.visitClause id)
      match clause.visit (← get).session.state.model falseLiteral with
      | .release =>
          defences.released falseLiteral id
          visitWatchers falseLiteral rest kept
      | .keep => visitWatchers falseLiteral rest (kept.push id)
      | .move slot position l =>
          Watching.onSession (defences.point id slot position)
          Watching.onTable (WatchTable.watch l id)
          visitWatchers falseLiteral rest kept
      | .force other =>
          if ← Watching.onSession (defences.force other id clause) then
            visitWatchers falseLiteral rest (kept.push id)
          else
            Watching.onTable (WatchTable.replace falseLiteral (kept.push id ++ rest.toArray))
            return some id
      | .conflict =>
          Watching.onSession (Session.reportConflict id clause)
          Watching.onTable (WatchTable.replace falseLiteral (kept.push id ++ rest.toArray))
          return some id

def visitLiteral (l : Literal) : Work Watching (Option Nat) := do
  let ids ← Watching.onTable (WatchTable.take l.negate)
  defences.visitWatchers l.negate ids.toList #[]

def visitTrail : Nat → Work Watching Bool
  | 0 => throw .unfinished
  | steps + 1 => do
      let head := (← get).watched.head
      match (← get).session.state.trail[head]? with
      | none => return true
      | some l =>
          modify fun watching => { watching with watched.head := head + 1 }
          match ← defences.visitLiteral l with
          | none => visitTrail steps
          | some id =>
              Watching.stop id
              return false

def rounds : Nat → Work Watching Bool
  | 0 => throw .unfinished
  | left + 1 => do
      Watching.onSession (Session.change (·.countPass))
      let state := (← get).session.state
      if ← defences.indexClauses
          (state.clauses.size - (← get).watched.indexed + state.numVars + 1) then
        let state := (← get).session.state
        if ← defences.visitTrail
            (state.trail.size - (← get).watched.head + state.numVars + 1) then
          let state := (← get).session.state
          if (← get).watched.indexed = state.clauses.size then
            Watching.onSession (Session.note (.fixpoint state.trail.size state.numVars))
            return true
          else
            rounds left
        else
          return false
      else
        return false

def propagateWatching : Work Watching Bool := do
  match (← get).watched.conflict with
  | some id =>
      Watching.onSession (Session.note (.conflictPersists id))
      return false
  | none => defences.rounds ((← get).session.state.numVars + 1)

def runPropagator : Work Solver Bool
  | ⟨.fullScan, session⟩ => Solver.onSession defences.propagateScanning ⟨.fullScan, session⟩
  | ⟨.watchedLiterals watched, session⟩ =>
      match defences.propagateWatching ⟨watched, session⟩ with
      | .ok success watching => .ok success ⟨.watchedLiterals watching.watched, watching.session⟩
      | .error fault watching =>
          .error fault ⟨.watchedLiterals watching.watched, watching.session⟩

def propagate : Work Solver Bool := do
  let success ← defences.runPropagator
  let solver ← get
  Solver.onSession (Session.note (.propagated solver.propagator.kind.name success
    solver.state.trail.size solver.state.numVars))
  return success

def perform : Step Unit → Work Solver Bool
  | .add clause => Solver.add clause
  | .assign l => Solver.assign l
  | .propagate () => defences.propagate

end

theorem force_standard : standard.force = Session.force := rfl

theorem point_standard (id : Nat) (slot : Slot) (position : Nat) :
    standard.point id slot position = Session.change (·.watchPosition id slot position) := by
  funext session
  rw [point, Work.get_bind_apply, Session.change_apply]
  split
  · rfl
  · rename_i absent
    have unmoved :
        session.state.clauses.watchPosition id slot position = session.state.clauses := by
      apply Database.watchPosition_of_absent
      intro clause found
      simpa [found] using absent
    rw [State.watchPosition, unmoved]
    rfl

theorem scan_standard (ids : List Nat) (soFar : FullScan.Scan) :
    standard.scan ids soFar = FullScan.scan ids soFar := by
  induction ids generalizing soFar with
  | nil => rfl
  | cons id rest ih =>
      simp only [scan, force_standard, ih]
      rfl

theorem scanRounds_standard (rounds : Nat) :
    standard.scanRounds rounds = FullScan.scanRounds rounds := by
  induction rounds with
  | zero => rfl
  | succ rounds ih =>
      simp only [scanRounds, scan_standard, ih]
      rfl

theorem indexClause_standard (id : Nat) : standard.indexClause id = Watching.indexClause id := by
  simp only [indexClause, force_standard, point_standard]
  rfl

theorem indexClauses_standard (steps : Nat) :
    standard.indexClauses steps = Watching.indexClauses steps := by
  induction steps with
  | zero => rfl
  | succ steps ih =>
      simp only [indexClauses, indexClause_standard, ih]
      rfl

theorem visitWatchers_standard (falseLiteral : Literal) (ids : List Nat) (kept : Array Nat) :
    standard.visitWatchers falseLiteral ids kept =
      Watching.visitWatchers falseLiteral ids kept := by
  induction ids generalizing kept with
  | nil => rfl
  | cons id rest ih =>
      have passed : standard.released falseLiteral id = pure () := rfl
      simp only [visitWatchers, force_standard, point_standard, passed, pure_bind, ih]
      rfl

theorem visitTrail_standard (steps : Nat) :
    standard.visitTrail steps = Watching.visitTrail steps := by
  induction steps with
  | zero => rfl
  | succ steps ih =>
      simp only [visitTrail, visitLiteral, visitWatchers_standard, ih]
      rfl

theorem rounds_standard (left : Nat) : standard.rounds left = Watching.rounds left := by
  induction left with
  | zero => rfl
  | succ left ih =>
      simp only [rounds, indexClauses_standard, visitTrail_standard, ih]
      rfl

theorem propagate_standard : standard.propagate = Solver.propagate := by
  have scanning : standard.propagateScanning = FullScan.propagate := by
    simp only [propagateScanning, scanRounds_standard]
    rfl
  have watching : standard.propagateWatching = Watching.propagate := by
    simp only [propagateWatching, rounds_standard]
    rfl
  have running : standard.runPropagator = Solver.runPropagator := by
    funext solver
    obtain ⟨propagator, session⟩ := solver
    cases propagator with
    | fullScan => rw [runPropagator, Solver.runPropagator, scanning]
    | watchedLiterals watched =>
        rw [runPropagator, watching]
        rfl
  rw [propagate, Solver.propagate, running]

theorem perform_standard : standard.perform = Solver.perform := by
  funext step
  cases step with
  | add clause | assign l => rfl
  | propagate who => exact propagate_standard

section

-- The parts agree where the propagators start them, so each step also needs what the step before
-- it leaves; those facts are the ones that show that the work ends.
variable (defences : Defences) {l : Literal} {id : Nat} {clause : Clause}

theorem force_eq (session : Session) (inside : l.var < session.state.numVars)
    (unassigned : session.state.model.truth l = .unknown) :
    defences.force l id clause session = Session.force l id clause session := by
  rw [Session.force_apply session inside unassigned]
  simp only [force, Session.imply, Work.bind_apply, Session.assign_apply, State.truth_ok inside,
    unassigned, Session.change_apply, Session.note_apply, ↓reduceIte]
  rfl

theorem point_eq (session : Session) {position : Nat} (slot : Slot)
    (found : session.state.clauses.get? id = some clause) (bound : position < clause.size) :
    defences.point id slot position session =
      Session.change (·.watchPosition id slot position) session := by
  simp [point, Work.get_bind_apply, found, bound]

theorem scan_eq {ids : List Nat} (soFar : FullScan.Scan) (session : Session)
    (valid : session.state.WellFormed) (known : ∀ id ∈ ids, id < session.state.clauses.size) :
    defences.scan ids soFar session = FullScan.scan ids soFar session := by
  induction ids generalizing session soFar with
  | nil => rfl
  | cons id rest ih =>
      obtain ⟨clause, found⟩ := Database.get?_of_lt (known id (by simp))
      have restKnown : ∀ other ∈ rest, other < session.state.clauses.size :=
        fun other member => known other (by simp [member])
      have counted := (Deduction.visit session.state).wellFormed valid
      have described := clause.status_describes session.state.countVisit.model
      rw [scan, FullScan.scan]
      refine Work.bind_eq_of_eq (Session.visitClause_apply session valid found) rfl ?_
      rw [Work.get_bind_apply, Work.get_bind_apply]
      dsimp only
      cases evaluated : clause.status session.state.countVisit.model with
      | satisfied | undecided => exact ih soFar _ counted restKnown
      | conflicting => rfl
      | unit l =>
          rw [evaluated] at described
          -- A literal that a clause forces is open, so it is not refused.
          have inside := counted.var_lt found described.mem
          have forcing : Deduction session.state.countVisit
              (session.state.countVisit.extend l).countPropagation := .force found described
          refine Work.bind_eq_of_eq (Session.force_apply _ inside described.unknown)
            (defences.force_eq _ inside described.unknown) ?_
          refine ih .active _ (forcing.wellFormed counted) ?_
          intro other member
          exact Nat.lt_of_lt_of_le (restKnown other member) (forcing.grows counted).size_le

theorem scanRounds_eq (rounds : Nat) (session : Session) (valid : session.state.WellFormed) :
    defences.scanRounds rounds session = FullScan.scanRounds rounds session := by
  induction rounds generalizing session with
  | zero => rfl
  | succ rounds ih =>
      have counted := (Deduction.pass session.state).wellFormed valid
      have known : ∀ id ∈ session.state.countPass.clauses.idsFrom 0,
          id < session.state.countPass.clauses.size := fun _ => Database.lt_of_mem_idsFrom
      rw [scanRounds, FullScan.scanRounds]
      refine Work.bind_eq_of_eq (Session.change_apply _ _) rfl ?_
      rw [Work.get_bind_apply, Work.get_bind_apply]
      refine (FullScan.scan_ends ⟨session.state.countPass, session.journal⟩ counted (by simp)
        known).bind_eq (defences.scan_eq .quiet _ counted known) ?_
      intro result after reached
      cases result with
      | quiet | conflict => rfl
      | active => exact ih after (reached.1.wellFormed counted)

theorem onSession_eq {α : Type} {work same : Work Session α} {watching : Watching}
    (equal : same watching.session = work watching.session) :
    Watching.onSession same watching = Watching.onSession work watching := by
  obtain ⟨watched, session⟩ := watching
  simp only [Watching.onSession, equal]

theorem indexClause_eq (start : Watching) (valid : start.session.state.WellFormed)
    (known : start.session.state.clauses.get? id = some clause) :
    defences.indexClause id start = Watching.indexClause id start := by
  have counted := (Deduction.visit start.session.state).wellFormed valid
  have found : start.session.state.countVisit.clauses.get? id = some clause := known
  have described := clause.intake_describes start.session.state.countVisit.model
  rw [indexClause, Watching.indexClause]
  refine Work.bind_eq_of_eq
    (Watching.onSession_of_eq (Session.visitClause_apply start.session valid known)) rfl ?_
  rw [Work.get_bind_apply, Work.get_bind_apply]
  dsimp only
  cases answer : clause.intake start.session.state.countVisit.model with
  | idle | conflict => rfl
  | force l =>
      rw [answer] at described
      exact onSession_eq (defences.force_eq _ (counted.var_lt found described.mem)
        described.unknown)
  | watch first firstLiteral second secondLiteral =>
      obtain ⟨_, firstPlace, secondPlace, _, _⟩ := Clause.intake_watch answer
      have firstBound : first < clause.size := (List.getElem?_eq_some_iff.mp firstPlace).1
      have secondBound : second < clause.size := (List.getElem?_eq_some_iff.mp secondPlace).1
      have movedFound : (start.session.state.countVisit.watchPosition id .first
          first).clauses.get? id = some (clause.point .first first) := by
        simp [Database.get?_watchPosition, found, Clause.watchPosition?, firstBound]
      refine Work.bind_eq_of_eq (Watching.onSession_of_eq (Session.change_apply _ _))
        (onSession_eq (defences.point_eq _ .first found firstBound)) ?_
      exact Work.bind_eq_of_eq (Watching.onSession_of_eq (Session.change_apply _ _))
        (onSession_eq (defences.point_eq _ .second movedFound secondBound)) rfl

theorem indexClauses_eq (steps : Nat) (start : Watching) (valid : start.session.state.WellFormed)
    (fits : start.watched.Fits start.session.state) :
    defences.indexClauses steps start = Watching.indexClauses steps start := by
  induction steps generalizing start with
  | zero => rfl
  | succ steps ih =>
      rw [indexClauses, Watching.indexClauses, Work.get_bind_apply, Work.get_bind_apply,
        Work.get_bind_apply, Work.get_bind_apply]
      by_cases more : start.watched.indexed < start.session.state.clauses.size
      · obtain ⟨clause, found⟩ := Database.get?_of_lt more
        have counted : { start.watched with indexed := start.watched.indexed + 1 }.Fits
            start.session.state := { fits with indexed := more }
        rw [if_pos more, if_pos more]
        refine Work.bind_eq_of_eq (Work.modify_apply _ _) rfl ?_
        refine (Watching.indexClause_ends
          { start with watched.indexed := start.watched.indexed + 1 } valid counted found
          rfl).bind_eq (defences.indexClause_eq _ valid found) ?_
        intro success middle outcome
        cases success with
        | true => exact ih middle (outcome.run.wellFormed valid) outcome.fits
        | false => rfl
      · rw [if_neg more, if_neg more]

theorem visitWatchers_eq (start : Watching) (falseLiteral : Literal) (rest : List Nat)
    (kept : Array Nat)
    (underway : Underway falseLiteral rest kept start.watched start.session.state)
    (visiting : Visiting falseLiteral rest kept start.watched start.session.state) :
    defences.visitWatchers falseLiteral rest kept start =
      Watching.visitWatchers falseLiteral rest kept start := by
  induction rest generalizing start kept with
  | nil => rfl
  | cons id rest ih =>
      obtain ⟨clause, known⟩ := Database.get?_of_lt (underway.restKnown id (by simp))
      have counting := Deduction.visit start.session.state
      have going := underway.advance (.single (.deduce counting))
      have carried := visiting.deduce underway counting
      have found : start.session.state.countVisit.clauses.get? id = some clause := known
      have described := clause.visit_describes start.session.state.countVisit.model falseLiteral
      rw [visitWatchers, Watching.visitWatchers]
      refine Work.bind_eq_of_eq (Watching.onSession_of_eq
        (Session.visitClause_apply start.session underway.valid known)) rfl ?_
      rw [Work.get_bind_apply, Work.get_bind_apply]
      dsimp only
      cases answer : clause.visit start.session.state.countVisit.model falseLiteral with
      | release =>
          -- With the files in order a clause on this list watches its literal.
          exact absurd answer (carried.visit_ne_release found)
      | keep =>
          rw [answer] at described
          exact ih ⟨start.watched, ⟨start.session.state.countVisit, _⟩⟩ (kept.push id) going.keep
            (carried.keep found described)
      | move slot position l =>
          rw [answer] at described
          obtain ⟨watched, place, apart, possible⟩ := described
          have inside := going.valid.var_lt found (List.mem_of_getElem? place)
          have bound := going.fits.code_lt inside
          refine Work.bind_eq_of_eq (Watching.onSession_of_eq (Session.change_apply _ _))
            (onSession_eq (defences.point_eq _ slot found (List.getElem?_eq_some_iff.mp place).1))
            ?_
          refine Work.bind_eq_of_eq (Watching.onTable_of_eq (WatchTable.watch_apply bound id))
            rfl ?_
          exact ih ⟨{ start.watched with table := start.watched.table.push l id },
            ⟨start.session.state.countVisit.watchPosition id slot position, _⟩⟩ kept
            (going.move slot found place) (carried.move found bound watched place apart possible)
      | force other =>
          rw [answer] at described
          have inside := going.valid.var_lt found described.mem
          refine Work.bind_eq_of_eq
            (Watching.onSession_of_eq (Session.force_apply _ inside described.unknown))
            (onSession_eq (defences.force_eq _ inside described.unknown)) ?_
          exact ih ⟨start.watched,
            ⟨(start.session.state.countVisit.extend other).countPropagation, _⟩⟩ (kept.push id)
            (going.force found described) (carried.force going found described)
      | conflict => rfl

theorem visitTrail_eq (steps : Nat) (start : Watching) (valid : start.session.state.WellFormed)
    (fits : start.watched.Fits start.session.state)
    (guards : start.watched.Guards start.session.state) (going : start.watched.conflict = none) :
    defences.visitTrail steps start = Watching.visitTrail steps start := by
  induction steps generalizing start with
  | zero => rfl
  | succ steps ih =>
      rw [visitTrail, Watching.visitTrail, Work.get_bind_apply, Work.get_bind_apply,
        Work.get_bind_apply, Work.get_bind_apply]
      cases found : start.session.state.trail[start.watched.head]? with
      | none => rfl
      | some l =>
          have more := (Array.getElem?_eq_some_iff.mp found).1
          have holds := valid.holds_of_trail found
          have inside : l.negate.var < start.session.state.numVars :=
            Assignment.negate_var_lt holds
          have counted : { start.watched with head := start.watched.head + 1 }.Fits
              start.session.state := { fits with head := more }
          have visiting := Visiting.start guards going valid found (fits.code_lt inside)
          have visited : defences.visitLiteral l
              { start with watched.head := start.watched.head + 1 } =
                Watching.visitLiteral l { start with watched.head := start.watched.head + 1 } := by
            rw [visitLiteral, Watching.visitLiteral]
            refine Work.bind_eq_of_eq
              (Watching.onTable_of_eq (WatchTable.take_apply (fits.code_lt inside))) rfl ?_
            exact defences.visitWatchers_eq _ _ _ _ (.start valid counted inside) visiting
          dsimp only
          refine Work.bind_eq_of_eq (Work.modify_apply _ _) rfl ?_
          refine (Watching.visitLiteral_ends { start with watched.head := start.watched.head + 1 }
            valid counted holds).bind_eq visited ?_
          intro conflict middle outcome
          cases conflict with
          | none =>
              have course : Watching.Course start middle := outcome.course .refl fun _ => visiting
              exact ih middle (outcome.run.wellFormed valid) outcome.fits (course.guards guards)
                (outcome.conflict.trans going)
          | some id => rfl

theorem rounds_eq (left : Nat) (start : Watching) (valid : start.session.state.WellFormed)
    (fits : start.watched.Fits start.session.state)
    (guards : start.watched.Guards start.session.state) (going : start.watched.conflict = none) :
    defences.rounds left start = Watching.rounds left start := by
  induction left generalizing start with
  | zero => rfl
  | succ left ih =>
      have countedValid := (Deduction.pass start.session.state).wellFormed valid
      have begun := Watching.Course.pass valid fits
      have fewer : start.session.state.countPass.model.numOpen ≤
          start.session.state.countPass.numVars := Nat.sub_le _ _
      rw [rounds, Watching.rounds]
      refine Work.bind_eq_of_eq (Watching.onSession_of_eq (Session.change_apply _ _)) rfl ?_
      rw [Work.get_bind_apply, Work.get_bind_apply, Work.get_bind_apply, Work.get_bind_apply]
      refine (Watching.indexClauses_ends ⟨start.watched, ⟨start.session.state.countPass, _⟩⟩
        countedValid begun.fits going (by dsimp only; omega)).bind_eq
        (defences.indexClauses_eq _ _ countedValid begun.fits) ?_
      intro taken indexed reached
      obtain ⟨indexing, taking, _⟩ := reached
      cases taken with
      | false => simp only [Bool.false_eq_true, ↓reduceIte]
      | true =>
          have indexedValid := indexing.run.wellFormed countedValid
          have indexedGuards := indexing.guards (begun.guards guards)
          obtain ⟨_, indexedGoing⟩ := taking rfl
          have stillFewer : indexed.session.state.model.numOpen ≤ indexed.session.state.numVars :=
            Nat.sub_le _ _
          simp only [↓reduceIte]
          rw [Work.get_bind_apply, Work.get_bind_apply, Work.get_bind_apply, Work.get_bind_apply]
          refine (Watching.visitTrail_ends indexed indexedValid indexing.fits indexedGoing
            (by omega)).bind_eq
            (defences.visitTrail_eq _ _ indexedValid indexing.fits indexedGuards indexedGoing) ?_
          intro visited last reached
          obtain ⟨visiting, visits, _⟩ := reached
          cases visited with
          | false => simp only [Bool.false_eq_true, ↓reduceIte]
          | true =>
              obtain ⟨_, _, lastGoing⟩ := visits rfl
              simp only [↓reduceIte]
              rw [Work.get_bind_apply, Work.get_bind_apply, Work.get_bind_apply,
                Work.get_bind_apply]
              split
              · rfl
              · exact ih last (visiting.run.wellFormed indexedValid) visiting.fits
                  (visiting.guards indexedGuards) lastGoing

theorem propagateWatching_eq (start : Watching) (valid : start.session.state.WellFormed)
    (fits : start.watched.Fits start.session.state)
    (guards : start.watched.Guards start.session.state) :
    defences.propagateWatching start = Watching.propagate start := by
  rw [propagateWatching, Watching.propagate, Work.get_bind_apply, Work.get_bind_apply]
  cases stored : start.watched.conflict with
  | some id => rfl
  | none =>
      dsimp only
      rw [Work.get_bind_apply, Work.get_bind_apply]
      exact defences.rounds_eq _ start valid fits guards stored

theorem runPropagator_eq (solver : Solver) (sound : solver.Sound) :
    defences.runPropagator solver = Solver.runPropagator solver := by
  obtain ⟨propagator, session⟩ := solver
  cases propagator with
  | fullScan =>
      have scanned : defences.propagateScanning session = FullScan.propagate session :=
        defences.scanRounds_eq _ session sound.valid
      simp only [runPropagator, Solver.runPropagator, Solver.onSession, scanned]
  | watchedLiterals watched =>
      have watching := defences.propagateWatching_eq ⟨watched, session⟩ sound.valid sound.fits
        sound.guards
      rw [runPropagator, watching]
      rfl

theorem propagate_eq (solver : Solver) (sound : solver.Sound) :
    defences.propagate solver = Solver.propagate solver := by
  rw [propagate, Solver.propagate]
  refine (Solver.runPropagator_ends solver sound.valid sound.fits).bind_eq
    (defences.runPropagator_eq solver sound) ?_
  intro success after propagated
  rfl

/-- Whatever is done in the branches that are left open, nothing that is asked of a solver in
order comes to them. -/
theorem perform_eq (solver : Solver) (sound : solver.Sound) (step : Step Unit) :
    defences.perform step solver = Solver.perform step solver := by
  cases step with
  | add clause | assign l => rfl
  | propagate who => exact defences.propagate_eq solver sound

end

end Defences

end UnitPropagation
