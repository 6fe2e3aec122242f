import UnitPropagation.Propagator.Watched
import UnitPropagation.Proofs.Watched.Filing

namespace UnitPropagation

/-! What a watching propagator remembers about the state it works on.

`Watched.Fits` is enough for its work to meet no fault, whoever else moves slots meanwhile.
`Watched.Guards` is what makes its answers right, and it needs the slots for itself. -/

variable {state after : State} {watched : Watched} {l falseLiteral : Literal} {id head : Nat}
  {ids rest : List Nat} {kept : Array Nat} {clause : Clause}

/-- The negation of `l` stands on the trail from `head` on. -/
def State.Pending (state : State) (head : Nat) (l : Literal) : Prop :=
  l.negate ∈ state.trail.toList.drop head

theorem State.Pending.mono (pending : state.Pending head l)
    (longer : state.trail.toList <+: after.trail.toList) : after.Pending head l := by
  obtain ⟨added, whole⟩ := longer
  rw [Pending, ← whole, List.drop_append]
  exact List.mem_append.mpr (.inl pending)

theorem State.Pending.grow (pending : state.Pending head l) (grows : state.Grows after) :
    after.Pending head l := pending.mono grows.trail

theorem State.pending_of_added (longer : state.trail.toList <+: after.trail.toList)
    (valid : state.WellFormed) (laterValid : after.WellFormed) (bound : head ≤ state.trail.size)
    (fails : after.model.truth l = .fails) (before : state.model.truth l ≠ .fails) :
    after.Pending head l := by
  obtain ⟨added, whole⟩ := longer
  have onTrail : l.negate ∈ state.trail.toList ++ added := by
    rw [whole, laterValid.recorded, Assignment.negate_holds_iff]
    exact fails
  rcases List.mem_append.mp onTrail with old | new
  · rw [valid.recorded, Assignment.negate_holds_iff] at old
    exact absurd old before
  · have none : head - state.trail.toList.length = 0 := by
      rw [Array.length_toList]
      omega
    rw [Pending, ← whole, List.drop_append, none, List.drop_zero]
    exact List.mem_append.mpr (.inr new)

theorem State.pending_of_new (grows : state.Grows after) (valid : state.WellFormed)
    (laterValid : after.WellFormed) (bound : head ≤ state.trail.size)
    (fails : after.model.truth l = .fails) (before : state.model.truth l ≠ .fails) :
    after.Pending head l :=
  pending_of_added grows.trail valid laterValid bound fails before

theorem State.pending_head_or {first : Literal} (found : state.trail[head]? = some first)
    (pending : state.Pending head l) : l = first.negate ∨ state.Pending (head + 1) l := by
  rw [← Array.getElem?_toList] at found
  obtain ⟨bound, same⟩ := List.getElem?_eq_some_iff.mp found
  rw [Pending, List.drop_eq_getElem_cons bound, same] at pending
  rcases List.mem_cons.mp pending with equal | later
  · exact .inl (by rw [← equal, Literal.negate_negate])
  · exact .inr later

theorem State.not_pending_of_end (done : state.trail.size ≤ head) : ¬ state.Pending head l := by
  rw [Pending, List.drop_eq_nil_of_le (by simpa using done)]
  simp

namespace Watched

/-- Every list and every clause that the work will ask for is there, and a stored conflict
is one. -/
structure Fits (watched : Watched) (state : State) : Prop where
  room : 2 * state.numVars ≤ watched.table.size
  known : ∀ l id, watched.table.filings l id ≠ 0 → id < state.clauses.size
  indexed : watched.indexed ≤ state.clauses.size
  head : watched.head ≤ state.trail.size
  stored : watched.conflict ≠ none → state.Conflicted

/-- Files are in order, and clauses that were taken in need no visit but those that are due. -/
structure Guards (watched : Watched) (state : State) : Prop where
  consistent : Consistent state.clauses watched.table.filings watched.indexed
  alert : watched.conflict = none →
    Alert state watched.table.filings watched.indexed (state.Pending watched.head)

theorem fits_forVariables {count : Nat} (enough : state.numVars ≤ count) :
    (forVariables count).Fits state where
  room := by
    rw [forVariables, WatchTable.size_forVariables]
    omega
  known := by
    intro l id present
    exact absurd (WatchTable.filings_forVariables count l id) present
  indexed := Nat.zero_le _
  head := Nat.zero_le _
  stored := by
    intro stored
    exact absurd rfl stored

theorem guards_forVariables (count : Nat) : (forVariables count).Guards state where
  consistent := fun id => .inl fun l => WatchTable.filings_forVariables count l id
  alert := by
    intro _ id clause taken
    cases taken

theorem Fits.code_lt (fits : watched.Fits state) (inside : l.var < state.numVars) :
    l.code < watched.table.size :=
  Nat.lt_of_lt_of_le (Literal.code_lt inside) fits.room

theorem Fits.advance (fits : watched.Fits state) (run : state.Advances after)
    (valid : state.WellFormed) : watched.Fits after := by
  have fewer := run.numOpen_le valid
  obtain ⟨clauses, trail⟩ := run.sizes valid
  refine ⟨?_, ?_, ?_, ?_, ?_⟩
  · rw [run.numVars]
    exact fits.room
  · intro l id present
    have := fits.known l id present
    omega
  · have := fits.indexed
    omega
  · have := fits.head
    omega
  · intro stored
    exact (fits.stored stored).advances run valid

theorem Fits.grow (fits : watched.Fits state) (grows : state.Grows after) : watched.Fits after where
  room := by
    rw [grows.numVars]
    exact fits.room
  known := fun l id present => Nat.lt_of_lt_of_le (fits.known l id present) grows.size_le
  indexed := Nat.le_trans fits.indexed grows.size_le
  head := Nat.le_trans fits.head (by simpa using grows.trail.length_le)
  stored := fun stored => (fits.stored stored).grows grows

theorem Fits.push (fits : watched.Fits state) (inside : l.var < state.numVars)
    (bound : id < state.clauses.size) :
    { watched with table := watched.table.push l id }.Fits state where
  room := by
    rw [WatchTable.size_push]
    exact fits.room
  known := by
    intro other filed present
    rw [WatchTable.filings_push (fits.code_lt inside)] at present
    by_cases new : other = l ∧ id = filed
    · exact new.2 ▸ bound
    · rw [if_neg new] at present
      exact fits.known other filed present
  indexed := fits.indexed
  head := fits.head
  stored := fits.stored

theorem Fits.put (fits : watched.Fits state) (inside : l.var < state.numVars)
    (bounds : ∀ id ∈ kept.toList, id < state.clauses.size) :
    { watched with table := watched.table.put l kept }.Fits state where
  room := by
    rw [WatchTable.size_put]
    exact fits.room
  known := by
    intro other filed present
    rw [WatchTable.filings_put (fits.code_lt inside)] at present
    split at present
    · exact bounds filed (List.count_pos_iff.mp (Nat.pos_of_ne_zero present))
    · exact fits.known other filed present
  indexed := fits.indexed
  head := fits.head
  stored := fits.stored

/-- Other work on the state may make literals true and add clauses, but not move the slots of the
clauses that were taken in. -/
theorem Guards.keep (guards : watched.Guards state) (fits : watched.Fits state)
    (extension : after.model.Extends state.model)
    (longer : state.trail.toList <+: after.trail.toList)
    (kept : ∀ id < watched.indexed, after.clauses.get? id = state.clauses.get? id)
    (valid : state.WellFormed) (laterValid : after.WellFormed) : watched.Guards after where
  consistent := guards.consistent.keep kept
  alert := by
    intro going
    apply (guards.alert going).keep extension kept
    · intro l pending
      exact pending.mono longer
    · intro l fails before
      exact State.pending_of_added longer valid laterValid fits.head fails before

theorem Guards.grow (guards : watched.Guards state) (fits : watched.Fits state)
    (grows : state.Grows after) (valid : state.WellFormed) (laterValid : after.WellFormed) :
    watched.Guards after :=
  guards.keep fits grows.model grows.trail
    (fun _ taken => grows.get?_eq (Nat.lt_of_lt_of_le taken fits.indexed)) valid laterValid

/-- Nothing is waiting: every clause has been taken in, every trail literal has been visited, and
no conflict was found. -/
structure AtRest (watched : Watched) (state : State) : Prop where
  going : watched.conflict = none
  taken : watched.indexed = state.clauses.size
  visited : watched.head = state.trail.size

theorem AtRest.not_pending (rest : watched.AtRest state) : ¬ state.Pending watched.head l :=
  State.not_pending_of_end (Nat.le_of_eq rest.visited.symm)

theorem AtRest.taken_of_get? (rest : watched.AtRest state)
    (found : state.clauses.get? id = some clause) : id < watched.indexed := by
  rw [rest.taken]
  exact Database.get?_lt found

theorem Guards.settled (guards : watched.Guards state) (rest : watched.AtRest state) :
    state.Settled := by
  apply State.settled_of_get?
  intro id clause found
  exact (guards.alert rest.going).settles (fun _ => rest.not_pending) (rest.taken_of_get? found)
    found

end Watched

/-- The list of `falseLiteral` is out of the table, and every clause of it is there: `rest` is
still to be visited, and `kept` goes back. -/
structure Underway (falseLiteral : Literal) (rest : List Nat) (kept : Array Nat)
    (watched : Watched) (state : State) : Prop where
  valid : state.WellFormed
  fits : watched.Fits state
  inside : falseLiteral.var < state.numVars
  keptKnown : ∀ id ∈ kept.toList, id < state.clauses.size
  restKnown : ∀ id ∈ rest, id < state.clauses.size

namespace Underway

theorem start (valid : state.WellFormed) (fits : watched.Fits state)
    (inside : falseLiteral.var < state.numVars) :
    Underway falseLiteral (watched.table.list falseLiteral).toList #[]
      { watched with table := watched.table.put falseLiteral #[] } state where
  valid := valid
  fits := fits.put inside (by simp)
  inside := inside
  keptKnown := by simp
  restKnown := by
    intro id member
    exact fits.known falseLiteral id (Nat.ne_of_gt (List.count_pos_iff.mpr member))

theorem advance (underway : Underway falseLiteral rest kept watched state)
    (run : state.Advances after) : Underway falseLiteral rest kept watched after := by
  have fewer := run.numOpen_le underway.valid
  have sizes := (run.sizes underway.valid).1
  refine ⟨run.wellFormed underway.valid, underway.fits.advance run underway.valid, ?_, ?_, ?_⟩
  · rw [run.numVars]
    exact underway.inside
  · intro id member
    have := underway.keptKnown id member
    omega
  · intro id member
    have := underway.restKnown id member
    omega

theorem skip (underway : Underway falseLiteral (id :: rest) kept watched state) :
    Underway falseLiteral rest kept watched state :=
  { underway with restKnown := fun other member => underway.restKnown other (by simp [member]) }

theorem keep (underway : Underway falseLiteral (id :: rest) kept watched state) :
    Underway falseLiteral rest (kept.push id) watched state := by
  refine { underway.skip with keptKnown := ?_ }
  intro other member
  rw [Array.toList_push] at member
  rcases List.mem_append.mp member with old | new
  · exact underway.keptKnown other old
  · rw [List.mem_singleton.mp new]
    exact underway.restKnown id (by simp)

theorem push (underway : Underway falseLiteral rest kept watched state)
    (inside : l.var < state.numVars) (bound : id < state.clauses.size) :
    Underway falseLiteral rest kept { watched with table := watched.table.push l id } state :=
  { underway with fits := underway.fits.push inside bound }

theorem code_lt (underway : Underway falseLiteral rest kept watched state) :
    falseLiteral.code < watched.table.size := underway.fits.code_lt underway.inside

theorem move {position : Nat} (underway : Underway falseLiteral (id :: rest) kept watched state)
    (slot : Slot) (found : state.clauses.get? id = some clause)
    (place : clause.literals[position]? = some l) :
    Underway falseLiteral rest kept { watched with table := watched.table.push l id }
      (state.watchPosition id slot position) := by
  have inside := underway.valid.var_lt found (List.mem_of_getElem? place)
  have bound : id < (state.watchPosition id slot position).clauses.size := by
    simpa using Database.get?_lt found
  exact (underway.advance (.single (.watch _ id slot position))).skip.push inside bound

theorem force (underway : Underway falseLiteral (id :: rest) kept watched state)
    (found : state.clauses.get? id = some clause)
    (forced : state.model.Forces clause.literals l) :
    Underway falseLiteral rest (kept.push id) watched (state.extend l).countPropagation :=
  (underway.advance (.single (.deduce (.force found forced)))).keep

end Underway

/-- The filings of a table with the list of `falseLiteral` taken out and held as `ids`. -/
def WatchTable.inHand (table : WatchTable) (falseLiteral : Literal) (ids : List Nat)
    (l : Literal) (id : Nat) : Nat :=
  table.filings l id + if l = falseLiteral then ids.count id else 0

/-- The list of `falseLiteral` is out of the table and the files are in order but for it: the
clauses in `kept` have been found satisfied. -/
structure Visiting (falseLiteral : Literal) (rest : List Nat) (kept : Array Nat)
    (watched : Watched) (state : State) : Prop where
  taken : watched.table.list falseLiteral = #[]
  fails : state.model.truth falseLiteral = .fails
  consistent : Consistent state.clauses
    (watched.table.inHand falseLiteral (kept.toList ++ rest)) watched.indexed
  alert : Alert state (watched.table.inHand falseLiteral (kept.toList ++ rest)) watched.indexed
    fun l => l = falseLiteral ∨ state.Pending watched.head l
  visited : ∀ id ∈ kept.toList, ∀ clause, state.clauses.get? id = some clause →
    state.model.Satisfies clause.literals

theorem WatchTable.inHand_put {table : WatchTable} (bound : falseLiteral.code < table.size)
    (taken : table.list falseLiteral = #[]) (ids : Array Nat) :
    (table.put falseLiteral ids).filings = table.inHand falseLiteral ids.toList := by
  funext l id
  rw [filings_put bound, inHand]
  by_cases same : l = falseLiteral
  · simp [same, filings, taken]
  · simp [same]

theorem WatchTable.inHand_take {table : WatchTable} (bound : falseLiteral.code < table.size) :
    (table.put falseLiteral #[]).inHand falseLiteral (table.list falseLiteral).toList =
      table.filings := by
  funext l id
  rw [inHand, filings_put bound]
  by_cases same : l = falseLiteral
  · simp [same, filings]
  · simp [same]

namespace Visiting

theorem filed (visiting : Visiting falseLiteral (id :: rest) kept watched state) :
    id < watched.indexed ∧
      Filed state.clauses (watched.table.inHand falseLiteral (kept.toList ++ id :: rest)) id := by
  have present :
      watched.table.inHand falseLiteral (kept.toList ++ id :: rest) falseLiteral id ≠ 0 := by
    simp [WatchTable.inHand, List.count_append]
  exact visiting.consistent.filed_of_ne_zero present

theorem visit_ne_release (visiting : Visiting falseLiteral (id :: rest) kept watched state)
    (found : state.clauses.get? id = some clause) :
    clause.visit state.model falseLiteral ≠ .release := by
  obtain ⟨_, same, sameFound, _, placed, counts⟩ := visiting.filed
  rw [found] at sameFound
  cases sameFound
  have watched : clause.watches falseLiteral ≠ 0 := by
    rw [← counts]
    simp [WatchTable.inHand, List.count_append]
  intro released
  have described := clause.visit_describes state.model falseLiteral
  rw [released] at described
  rcases described with unwatched | ⟨slot, _, missing⟩
  · exact Clause.slotOf?_of_watches watched unwatched
  · exact placed slot.other missing

theorem keep (visiting : Visiting falseLiteral (id :: rest) kept watched state)
    (found : state.clauses.get? id = some clause)
    (satisfied : state.model.Satisfies clause.literals) :
    Visiting falseLiteral rest (kept.push id) watched state := by
  have same : (kept.push id).toList ++ rest = kept.toList ++ id :: rest := by simp
  refine ⟨visiting.taken, visiting.fails, ?_, ?_, ?_⟩
  · rw [same]
    exact visiting.consistent
  · rw [same]
    exact visiting.alert
  · intro other member otherClause otherFound
    rw [Array.toList_push] at member
    rcases List.mem_append.mp member with old | new
    · exact visiting.visited other old otherClause otherFound
    · rw [List.mem_singleton.mp new, found] at otherFound
      cases otherFound
      exact satisfied

theorem deduce (visiting : Visiting falseLiteral rest kept watched state)
    (underway : Underway falseLiteral rest kept watched state) (step : Deduction state after) :
    Visiting falseLiteral rest kept watched after := by
  have grows := step.grows underway.valid
  have laterValid := step.wellFormed underway.valid
  refine ⟨visiting.taken, grows.model.fails visiting.fails,
    visiting.consistent.grow grows.clauses (Nat.le_refl _), ?_, ?_⟩
  · refine visiting.alert.grow grows underway.fits.indexed ?_ ?_
    · intro l due
      exact due.imp_right fun pending => pending.grow grows
    · intro l fails before
      exact .inr (State.pending_of_new grows underway.valid laterValid underway.fits.head
        fails before)
  · intro id member clause found
    obtain ⟨old, oldFound⟩ := Database.get?_of_lt (underway.keptKnown id member)
    have same := grows.get? oldFound
    rw [found] at same
    cases same
    exact (visiting.visited id member clause oldFound).extend grows.model

/-- A slot moves to a literal that does not fail: the clause is filed there instead. -/
theorem move {slot : Slot} {position : Nat}
    (visiting : Visiting falseLiteral (id :: rest) kept watched state)
    (found : state.clauses.get? id = some clause) (bound : l.code < watched.table.size)
    (watching : clause.watcher? slot = some falseLiteral)
    (place : clause.literals[position]? = some l)
    (apart : position ≠ clause.position slot.other) (possible : state.model.truth l ≠ .fails) :
    Visiting falseLiteral rest kept { watched with table := watched.table.push l id }
      (state.watchPosition id slot position) := by
  have inside : position < clause.size := (List.getElem?_eq_some_iff.mp place).1
  have movedFound : (state.watchPosition id slot position).clauses.get? id =
      some (clause.point slot position) := by
    simp [Database.get?_watchPosition, found, Clause.watchPosition?, inside]
  have others : ∀ other, other ≠ id →
      (state.watchPosition id slot position).clauses.get? other = state.clauses.get? other := by
    intro other different
    simp [Database.get?_watchPosition, Ne.symm different]
  -- The new literal does not fail, so the list in hand is not its list.
  have otherLiteral : l ≠ falseLiteral := by
    intro same
    rw [same] at possible
    exact possible visiting.fails
  have otherFilings : ∀ other filed, filed ≠ id →
      (watched.table.push l id).inHand falseLiteral (kept.toList ++ rest) other filed =
        watched.table.inHand falseLiteral (kept.toList ++ id :: rest) other filed := by
    intro other filed different
    simp [WatchTable.inHand, WatchTable.filings_push bound, List.count_append,
      Ne.symm different]
  have filed : Filed (state.watchPosition id slot position).clauses
      ((watched.table.push l id).inHand falseLiteral (kept.toList ++ rest)) id := by
    obtain ⟨_, same, sameFound, distinct, placed, counts⟩ := visiting.filed
    rw [found] at sameFound
    cases sameFound
    refine ⟨_, movedFound, ?_, ?_, ?_⟩
    · cases slot
      · exact apart
      · exact fun equal => apart equal.symm
    · intro other
      rcases slot.eq_or_eq_other other with equal | equal
      · rw [equal, Clause.watcher?_point_self place]
        simp
      · rw [equal, Clause.watcher?_point_other]
        exact placed slot.other
    · intro other
      have before := counts other
      have moved := Clause.watches_point watching place other
      simp only [WatchTable.inHand, WatchTable.filings_push bound, List.count_append,
        List.count_cons_self] at before ⊢
      -- One filing goes from the false literal to `l`, as one slot does.
      by_cases old : other = falseLiteral
      · subst other
        simp only [↓reduceIte, Ne.symm otherLiteral, false_and] at before moved ⊢
        omega
      · simp only [old, ↓reduceIte, and_true] at before moved ⊢
        omega
  have taken : id < watched.indexed := visiting.filed.1
  refine ⟨?_, visiting.fails, ?_, ?_, ?_⟩
  · rw [WatchTable.list_push bound, if_neg (Ne.symm otherLiteral)]
    exact visiting.taken
  · exact visiting.consistent.refile others otherFilings (Nat.le_refl _) taken filed
  · refine visiting.alert.refile rfl others otherFilings (fun _ below _ => below) filed
      movedFound ?_
    rw [Clause.point_literals]
    refine (visiting.alert id clause taken found).imp_right ?_
    intro held other otherWatched holder fails
    obtain ⟨_, watchedBefore⟩ := held
    -- The moved slot is on no false literal, and what the other one watches was due before.
    rcases slot.eq_or_eq_other other with equal | equal
    · rw [equal, Clause.watcher?_point_self place] at holder
      cases holder
      exact absurd fails possible
    · rw [equal, Clause.watcher?_point_other] at holder
      exact watchedBefore slot.other otherWatched holder fails
  · intro other member otherClause otherFound
    by_cases same : other = id
    · rw [same, movedFound] at otherFound
      cases otherFound
      rw [Clause.point_literals]
      exact visiting.visited id (same ▸ member) clause found
    · rw [others other same] at otherFound
      exact visiting.visited other member otherClause otherFound

/-- A clause that forces a literal stays on its list: what it forced satisfies it for good. -/
theorem force (visiting : Visiting falseLiteral (id :: rest) kept watched state)
    (underway : Underway falseLiteral (id :: rest) kept watched state)
    (found : state.clauses.get? id = some clause)
    (forced : state.model.Forces clause.literals l) :
    Visiting falseLiteral rest (kept.push id) watched (state.extend l).countPropagation := by
  have forcing : Deduction state (state.extend l).countPropagation := .force found forced
  have inside := underway.valid.var_lt found forced.mem
  have satisfied : (state.extend l).countPropagation.model.Satisfies clause.literals :=
    ⟨l, forced.mem, Assignment.truth_set_self inside⟩
  exact (visiting.deduce underway forcing).keep ((forcing.grows underway.valid).get? found)
    satisfied

theorem finish (visiting : Visiting falseLiteral [] kept watched state)
    (bound : falseLiteral.code < watched.table.size) :
    Consistent state.clauses (watched.table.put falseLiteral kept).filings watched.indexed ∧
      Alert state (watched.table.put falseLiteral kept).filings watched.indexed
        (state.Pending watched.head) := by
  have same := WatchTable.inHand_put bound visiting.taken kept
  rw [← List.append_nil kept.toList] at same
  rw [same]
  refine ⟨visiting.consistent, visiting.alert.finish ?_⟩
  intro id clause present found
  apply visiting.visited id _ clause found
  apply List.count_pos_iff.mp
  apply Nat.pos_of_ne_zero
  simpa [WatchTable.inHand, WatchTable.filings, visiting.taken] using present

theorem breakOff (visiting : Visiting falseLiteral (id :: rest) kept watched state)
    (bound : falseLiteral.code < watched.table.size) :
    Consistent state.clauses
      (watched.table.put falseLiteral (kept.push id ++ rest.toArray)).filings watched.indexed := by
  have all : (kept.push id ++ rest.toArray).toList = kept.toList ++ id :: rest := by simp
  rw [WatchTable.inHand_put bound visiting.taken, all]
  exact visiting.consistent

theorem start {first : Literal} (guards : watched.Guards state) (going : watched.conflict = none)
    (valid : state.WellFormed) (found : state.trail[watched.head]? = some first)
    (bound : first.negate.code < watched.table.size) :
    Visiting first.negate (watched.table.list first.negate).toList #[]
      { watched with table := watched.table.put first.negate #[], head := watched.head + 1 }
      state where
  taken := by rw [WatchTable.list_put bound, if_pos rfl]
  fails := by
    rw [Assignment.negate_fails_iff]
    exact valid.holds_of_trail found
  consistent := by
    rw [List.nil_append, WatchTable.inHand_take bound]
    exact guards.consistent
  alert := by
    rw [List.nil_append, WatchTable.inHand_take bound]
    intro id clause taken clauseFound
    refine (guards.alert going id clause taken clauseFound).imp_right ?_
    intro held
    obtain ⟨filed, watchedBefore⟩ := held
    exact ⟨filed, fun slot l watching fails =>
      State.pending_head_or found (watchedBefore slot l watching fails)⟩
  visited := by
    intro id member
    cases member

end Visiting

end UnitPropagation
