import UnitPropagation.Proofs.State
import UnitPropagation.Proofs.WatchTable

namespace UnitPropagation

/-! Where watched clauses are filed, and why a clause that is not visited needs no visit.

`Consistent` is the state of the files: a clause is filed nowhere, or exactly where its two
slots point.  `Alert` is their use: a clause that was taken in is satisfied, or it is filed and
each of its watched literals that has become false is due for a visit.  Both speak of filings
as numbers, so that they also cover a list that is taken out of the table and half visited. -/

theorem Slot.eq_or_eq_other (slot other : Slot) : other = slot ∨ other = slot.other := by
  cases slot <;> cases other <;> simp [other]

namespace Clause

variable {clause : Clause} {slot other : Slot} {position : Nat} {l old new : Literal}

@[simp] theorem position_point_self (clause : Clause) (slot : Slot) (position : Nat) :
    (clause.point slot position).position slot = position := by
  cases slot <;> rfl

@[simp] theorem position_point_other (clause : Clause) (slot : Slot) (position : Nat) :
    (clause.point slot position).position slot.other = clause.position slot.other := by
  cases slot <;> rfl

theorem watcher?_point_self (found : clause.literals[position]? = some l) :
    (clause.point slot position).watcher? slot = some l := by
  simp only [watcher?, point_literals, position_point_self, found]

theorem watcher?_point_other (clause : Clause) (slot : Slot) (position : Nat) :
    (clause.point slot position).watcher? slot.other = clause.watcher? slot.other := by
  simp only [watcher?, point_literals, position_point_other]

/-- How many slots watch `l`. -/
def watches (clause : Clause) (l : Literal) : Nat :=
  (if clause.watcher? .first = some l then 1 else 0) +
    if clause.watcher? .second = some l then 1 else 0

theorem watches_eq (clause : Clause) (slot : Slot) (l : Literal) :
    clause.watches l = (if clause.watcher? slot = some l then 1 else 0) +
      if clause.watcher? slot.other = some l then 1 else 0 := by
  cases slot with
  | first => rfl
  | second => exact Nat.add_comm _ _

theorem watches_ne_zero (watching : clause.watcher? slot = some l) : clause.watches l ≠ 0 := by
  rw [clause.watches_eq slot, if_pos watching]
  omega

theorem slotOf?_of_watches (watched : clause.watches l ≠ 0) : clause.slotOf? l ≠ none := by
  unfold watches at watched
  unfold slotOf?
  split
  · simp
  · split
    · simp
    · simp_all

theorem watches_point (watching : clause.watcher? slot = some old)
    (found : clause.literals[position]? = some new) (l : Literal) :
    ((clause.point slot position).watches l + if l = old then 1 else 0) =
      clause.watches l + if l = new then 1 else 0 := by
  rw [(clause.point slot position).watches_eq slot, clause.watches_eq slot,
    watcher?_point_self found, watcher?_point_other, watching]
  simp only [Option.some.injEq, eq_comm]
  omega

end Clause

/-- Clause `id` is filed exactly where its slots point, which are at two different positions. -/
def Filed (clauses : Database) (filings : Literal → Nat → Nat) (id : Nat) : Prop :=
  ∃ clause, clauses.get? id = some clause ∧ clause.first ≠ clause.second ∧
    (∀ slot, clause.watcher? slot ≠ none) ∧ ∀ l, filings l id = clause.watches l

/-- Each clause is filed nowhere, or it has been taken in and is filed where its slots point. -/
def Consistent (clauses : Database) (filings : Literal → Nat → Nat) (indexed : Nat) : Prop :=
  ∀ id, (∀ l, filings l id = 0) ∨ (id < indexed ∧ Filed clauses filings id)

/-- Each clause that was taken in is satisfied, or it is filed and its watched literals that
fail are due for a visit. -/
def Alert (state : State) (filings : Literal → Nat → Nat) (indexed : Nat)
    (due : Literal → Prop) : Prop :=
  ∀ id clause, id < indexed → state.clauses.get? id = some clause →
    state.model.Satisfies clause.literals ∨
      (Filed state.clauses filings id ∧
        ∀ slot l, clause.watcher? slot = some l → state.model.truth l = .fails → due l)

variable {clauses later : Database} {state after : State} {filings changed : Literal → Nat → Nat}
  {indexed more id : Nat} {clause : Clause} {due laterDue : Literal → Prop} {l : Literal}

theorem Filed.of_same (filed : Filed clauses filings id) (same : later.get? id = clauses.get? id)
    (sameFilings : ∀ l, changed l id = filings l id) : Filed later changed id := by
  obtain ⟨clause, found, apart, placed, counts⟩ := filed
  refine ⟨clause, same.trans found, apart, placed, ?_⟩
  intro l
  rw [sameFilings, counts]

theorem Filed.grow (filed : Filed clauses filings id) (longer : clauses.toList <+: later.toList) :
    Filed later filings id := by
  obtain ⟨clause, found, rest⟩ := filed
  exact ⟨clause, Database.get?_of_isPrefix longer found, rest⟩

theorem Consistent.grow (consistent : Consistent clauses filings indexed)
    (longer : clauses.toList <+: later.toList) (further : indexed ≤ more) :
    Consistent later filings more := by
  intro id
  rcases consistent id with none | ⟨taken, filed⟩
  · exact .inl none
  · exact .inr ⟨Nat.lt_of_lt_of_le taken further, filed.grow longer⟩

/-- Files stay in order while the slots of the clauses that were taken in stay where they are. -/
theorem Consistent.keep (consistent : Consistent clauses filings indexed)
    (kept : ∀ id < indexed, later.get? id = clauses.get? id) :
    Consistent later filings indexed := by
  intro id
  rcases consistent id with none | ⟨taken, filed⟩
  · exact .inl none
  · exact .inr ⟨taken, filed.of_same (kept id taken) fun _ => rfl⟩

theorem Consistent.refile (consistent : Consistent clauses filings indexed)
    (others : ∀ other, other ≠ id → later.get? other = clauses.get? other)
    (otherFilings : ∀ l other, other ≠ id → changed l other = filings l other)
    (further : indexed ≤ more) (taken : id < more) (filed : Filed later changed id) :
    Consistent later changed more := by
  intro other
  by_cases same : other = id
  · rw [same]
    exact .inr ⟨taken, filed⟩
  · rcases consistent other with none | ⟨otherTaken, otherFiled⟩
    · exact .inl fun l => by rw [otherFilings l other same, none l]
    · exact .inr ⟨Nat.lt_of_lt_of_le otherTaken further,
        otherFiled.of_same (others other same) fun l => otherFilings l other same⟩

theorem Consistent.filed_of_ne_zero (consistent : Consistent clauses filings indexed)
    (present : filings l id ≠ 0) : id < indexed ∧ Filed clauses filings id := by
  rcases consistent id with none | taken
  · exact absurd (none l) present
  · exact taken

theorem Alert.keep (alert : Alert state filings indexed due)
    (extension : after.model.Extends state.model)
    (kept : ∀ id < indexed, after.clauses.get? id = state.clauses.get? id)
    (weaker : ∀ l, due l → laterDue l)
    (fresh : ∀ l, after.model.truth l = .fails → state.model.truth l ≠ .fails → laterDue l) :
    Alert after filings indexed laterDue := by
  intro id clause taken found
  rw [kept id taken] at found
  rcases alert id clause taken found with satisfied | ⟨filed, watched⟩
  · exact .inl (satisfied.extend extension)
  · right
    constructor
    · exact filed.of_same (kept id taken) fun _ => rfl
    · intro slot l watching fails
      by_cases before : state.model.truth l = .fails
      · exact weaker l (watched slot l watching before)
      · exact fresh l fails before

theorem Alert.grow (alert : Alert state filings indexed due) (grows : state.Grows after)
    (bound : indexed ≤ state.clauses.size) (weaker : ∀ l, due l → laterDue l)
    (fresh : ∀ l, after.model.truth l = .fails → state.model.truth l ≠ .fails → laterDue l) :
    Alert after filings indexed laterDue :=
  alert.keep grows.model (fun _ taken => grows.get?_eq (Nat.lt_of_lt_of_le taken bound)) weaker
    fresh

theorem Alert.takeSatisfied (alert : Alert state filings indexed due)
    (found : state.clauses.get? indexed = some clause)
    (satisfied : state.model.Satisfies clause.literals) :
    Alert state filings (indexed + 1) due := by
  intro other otherClause taken otherFound
  by_cases same : other = indexed
  · rw [same, found] at otherFound
    cases otherFound
    exact .inl satisfied
  · exact alert other otherClause (by omega) otherFound

theorem Alert.refile (alert : Alert state filings indexed due)
    (sameModel : after.model = state.model)
    (others : ∀ other, other ≠ id → after.clauses.get? other = state.clauses.get? other)
    (otherFilings : ∀ l other, other ≠ id → changed l other = filings l other)
    (further : ∀ other, other < more → other ≠ id → other < indexed)
    (filed : Filed after.clauses changed id)
    (found : after.clauses.get? id = some clause)
    (guarded : state.model.Satisfies clause.literals ∨
      ∀ slot l, clause.watcher? slot = some l → state.model.truth l = .fails → due l) :
    Alert after changed more due := by
  intro other otherClause taken otherFound
  rw [sameModel]
  by_cases same : other = id
  · rw [same, found] at otherFound
    cases otherFound
    rw [same]
    exact guarded.imp_right fun watched => ⟨filed, watched⟩
  · rw [others other same] at otherFound
    rcases alert other otherClause (further other taken same) otherFound with
      satisfied | ⟨otherFiled, otherWatched⟩
    · exact .inl satisfied
    · exact .inr ⟨otherFiled.of_same (others other same) fun l => otherFilings l other same,
        otherWatched⟩

theorem Alert.finish (alert : Alert state filings indexed fun other => other = l ∨ due other)
    (visited : ∀ id clause, filings l id ≠ 0 → state.clauses.get? id = some clause →
      state.model.Satisfies clause.literals) : Alert state filings indexed due := by
  intro id clause taken found
  rcases alert id clause taken found with satisfied | ⟨filed, watched⟩
  · exact .inl satisfied
  · by_cases satisfied : state.model.Satisfies clause.literals
    · exact .inl satisfied
    · refine .inr ⟨filed, ?_⟩
      intro slot other watching fails
      rcases watched slot other watching fails with same | pending
      · exfalso
        subst other
        -- A clause that still watches `l` is filed under it, and so it was visited.
        obtain ⟨same, sameFound, _, _, counts⟩ := filed
        rw [found] at sameFound
        cases sameFound
        apply satisfied
        apply visited id clause _ found
        rw [counts]
        exact Clause.watches_ne_zero watching
      · exact pending

theorem Assignment.two_open_of_lt {model : Assignment} {literals : List Literal}
    {first second : Nat} {left right : Literal} (less : first < second)
    (firstFound : literals[first]? = some left) (secondFound : literals[second]? = some right)
    (leftOpen : model.truth left = .unknown) (rightOpen : model.truth right = .unknown) :
    2 ≤ model.openCount literals := by
  obtain ⟨firstBound, rfl⟩ := List.getElem?_eq_some_iff.mp firstFound
  obtain ⟨secondBound, rfl⟩ := List.getElem?_eq_some_iff.mp secondFound
  have later : literals[second] ∈ literals.drop (first + 1) := by
    apply List.mem_drop_iff_getElem.mpr
    refine ⟨second - (first + 1), by omega, ?_⟩
    congr 1
    omega
  have positive : 0 < (literals.drop (first + 1)).countP fun l => model.truth l = .unknown :=
    List.countP_pos_iff.mpr ⟨_, later, by simp [rightOpen]⟩
  have split : literals = literals.take first ++ literals[first] :: literals.drop (first + 1) := by
    rw [← List.drop_eq_getElem_cons firstBound, List.take_append_drop]
  rw [openCount, split, List.countP_append, List.countP_cons, leftOpen]
  simp only [decide_true, ↓reduceIte]
  omega

theorem Assignment.two_open_of_ne {model : Assignment} {literals : List Literal}
    {first second : Nat} {left right : Literal} (apart : first ≠ second)
    (firstFound : literals[first]? = some left) (secondFound : literals[second]? = some right)
    (leftOpen : model.truth left = .unknown) (rightOpen : model.truth right = .unknown) :
    2 ≤ model.openCount literals := by
  rcases Nat.lt_or_gt_of_ne apart with less | greater
  · exact two_open_of_lt less firstFound secondFound leftOpen rightOpen
  · exact two_open_of_lt greater secondFound firstFound rightOpen leftOpen

/-- When nothing is due, a clause that was taken in is satisfied or watches two open literals. -/
theorem Alert.satisfies_or_open (alert : Alert state filings indexed due) (nothing : ∀ l, ¬ due l)
    (taken : id < indexed) (found : state.clauses.get? id = some clause) :
    state.model.Satisfies clause.literals ∨
      (Filed state.clauses filings id ∧
        ∀ slot, ∃ l, clause.watcher? slot = some l ∧ state.model.truth l = .unknown) := by
  by_cases satisfied : state.model.Satisfies clause.literals
  · exact .inl satisfied
  · rcases alert id clause taken found with holds | ⟨filed, watched⟩
    · exact .inl holds
    · right
      constructor
      · exact filed
      · intro slot
        obtain ⟨same, sameFound, _, placed, _⟩ := filed
        rw [found] at sameFound
        cases sameFound
        obtain ⟨l, watching⟩ := Option.ne_none_iff_exists'.mp (placed slot)
        -- A watched literal that failed would be due, and one that held would satisfy the clause.
        cases truth : state.model.truth l with
        | unknown => exact ⟨l, watching, truth⟩
        | fails => exact absurd (watched slot l watching truth) (nothing l)
        | holds => exact absurd ⟨l, List.mem_of_getElem? watching, truth⟩ satisfied

theorem Alert.settles (alert : Alert state filings indexed due) (nothing : ∀ l, ¬ due l)
    (taken : id < indexed) (found : state.clauses.get? id = some clause) :
    state.model.Settles clause.literals := by
  rcases alert.satisfies_or_open nothing taken found with satisfied | ⟨filed, unassigned⟩
  · exact satisfied.settles
  · obtain ⟨same, sameFound, apart, _⟩ := filed
    rw [found] at sameFound
    cases sameFound
    obtain ⟨left, leftFound, leftOpen⟩ := unassigned .first
    obtain ⟨right, rightFound, rightOpen⟩ := unassigned .second
    exact Assignment.settles_of_two_open
      (Assignment.two_open_of_ne apart leftFound rightFound leftOpen rightOpen)

theorem takeWatched {table : WatchTable} {first second : Nat}
    {firstLiteral secondLiteral : Literal}
    (consistent : Consistent state.clauses table.filings id)
    (alert : Alert state table.filings id due)
    (found : state.clauses.get? id = some clause) (apart : first < second)
    (firstPlace : clause.literals[first]? = some firstLiteral)
    (secondPlace : clause.literals[second]? = some secondLiteral)
    (firstOpen : state.model.truth firstLiteral = .unknown)
    (secondOpen : state.model.truth secondLiteral = .unknown)
    (firstBound : firstLiteral.code < table.size) (secondBound : secondLiteral.code < table.size) :
    Consistent ((state.watchPosition id .first first).watchPosition id .second second).clauses
        ((table.push firstLiteral id).push secondLiteral id).filings (id + 1) ∧
      Alert ((state.watchPosition id .first first).watchPosition id .second second)
        ((table.push firstLiteral id).push secondLiteral id).filings (id + 1) due := by
  have firstInside : first < clause.size := (List.getElem?_eq_some_iff.mp firstPlace).1
  have secondInside : second < clause.size := (List.getElem?_eq_some_iff.mp secondPlace).1
  have pushed : ∀ l filed, ((table.push firstLiteral id).push secondLiteral id).filings l filed =
      table.filings l filed + (if l = firstLiteral ∧ id = filed then 1 else 0) +
        if l = secondLiteral ∧ id = filed then 1 else 0 := by
    intro l filed
    rw [WatchTable.filings_push (by simpa using secondBound), WatchTable.filings_push firstBound]
  have movedFound : ((state.watchPosition id .first first).watchPosition id .second
      second).clauses.get? id = some ((clause.point .first first).point .second second) := by
    have stillInside : second < (clause.point .first first).size := secondInside
    simp [Database.get?_watchPosition, found, Clause.watchPosition?, firstInside, stillInside]
  have others : ∀ other, other ≠ id → ((state.watchPosition id .first first).watchPosition id
      .second second).clauses.get? other = state.clauses.get? other := by
    intro other different
    simp [Database.get?_watchPosition, Ne.symm different]
  have otherFilings : ∀ l other, other ≠ id →
      ((table.push firstLiteral id).push secondLiteral id).filings l other =
        table.filings l other := by
    intro l other different
    simp [pushed, Ne.symm different]
  have firstWatched : ((clause.point .first first).point .second second).watcher? .first =
      some firstLiteral := firstPlace
  have secondWatched : ((clause.point .first first).point .second second).watcher? .second =
      some secondLiteral := secondPlace
  have filed : Filed ((state.watchPosition id .first first).watchPosition id .second
      second).clauses ((table.push firstLiteral id).push secondLiteral id).filings id := by
    refine ⟨_, movedFound, Nat.ne_of_lt apart, ?_, ?_⟩
    · intro slot
      cases slot
      · simp [firstWatched]
      · simp [secondWatched]
    · intro l
      have fresh : table.filings l id = 0 := by
        rcases consistent id with none | ⟨taken, _⟩
        · exact none l
        · exact absurd taken (Nat.lt_irrefl _)
      rw [pushed, fresh, Clause.watches, firstWatched, secondWatched]
      simp only [and_true, Option.some.injEq, eq_comm, Nat.zero_add]
  refine ⟨consistent.refile others otherFilings (Nat.le_succ _) (Nat.lt_succ_self _) filed, ?_⟩
  refine alert.refile rfl others otherFilings (fun other taken different => by omega) filed
    movedFound (.inr ?_)
  intro slot l watching fails
  exfalso
  cases slot
  · rw [firstWatched] at watching
    cases watching
    rw [firstOpen] at fails
    cases fails
  · rw [secondWatched] at watching
    cases watching
    rw [secondOpen] at fails
    cases fails

end UnitPropagation
