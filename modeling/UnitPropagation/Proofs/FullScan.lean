import UnitPropagation.Proofs.Frame
import UnitPropagation.Proofs.Session

namespace UnitPropagation.FullScan

/-! Scanning every clause reaches a settled state or a clause with all its literals false. -/

variable {ids : List Nat} {soFar : Scan}

/-- What the end of a scan over the clauses `ids` says. -/
def Scan.Explains (result soFar : Scan) (ids : List Nat) (before after : State) : Prop :=
  match result with
  | .quiet =>
      soFar = .quiet ∧ after.model = before.model ∧ after.clauses = before.clauses ∧
        ∀ id ∈ ids, ∀ clause, before.clauses.get? id = some clause →
          before.model.Settles clause.literals
  | .active => soFar = .active ∨ after.model.numOpen < before.model.numOpen
  | .conflict => after.Conflicted

theorem Scan.Explains.passed {result : Scan} {id : Nat} {clause : Clause} {before after : State}
    (explained : result.Explains soFar ids before.countVisit after)
    (found : before.clauses.get? id = some clause)
    (settled : before.model.Settles clause.literals) :
    result.Explains soFar (id :: ids) before after := by
  cases result with
  | quiet =>
      obtain ⟨quiet, model, clauses, each⟩ := explained
      refine ⟨quiet, model, clauses, ?_⟩
      intro other member otherClause otherFound
      rcases List.mem_cons.mp member with same | member
      · rw [same, found] at otherFound
        cases otherFound
        exact settled
      · exact each other member otherClause otherFound
  | active => exact explained
  | conflict => exact explained

theorem scan_ends (session : Session) (valid : session.state.WellFormed) (going : soFar ≠ .conflict)
    (known : ∀ id ∈ ids, id < session.state.clauses.size) :
    (scan ids soFar).Ends session fun result after =>
      session.state.Deduces after.state ∧
        result.Explains soFar ids session.state after.state := by
  induction ids generalizing session soFar with
  | nil =>
      refine Work.ends_of_eq rfl ⟨.refl, ?_⟩
      cases soFar with
      | quiet => exact ⟨rfl, rfl, rfl, by simp⟩
      | active => exact .inl rfl
      | conflict => exact absurd rfl going
  | cons id rest ih =>
      obtain ⟨clause, found⟩ := Database.get?_of_lt (known id (by simp))
      have restKnown : ∀ other ∈ rest, other < session.state.clauses.size :=
        fun other member => known other (by simp [member])
      have counted := (Deduction.visit session.state).wellFormed valid
      have described := clause.status_describes session.state.model
      rw [scan, Work.ends_bind_of_eq (Session.visitClause_apply session valid found),
        Work.ends_get_bind]
      have same : session.state.countVisit.model = session.state.model := rfl
      rw [same]
      cases evaluated : clause.status session.state.model with
      | satisfied =>
          rw [evaluated] at described
          refine (ih ⟨session.state.countVisit, session.journal⟩ counted going restKnown).mono ?_
          intro result after reached
          obtain ⟨run, explained⟩ := reached
          exact ⟨.head (.visit _) run, explained.passed found described.settles⟩
      | undecided =>
          rw [evaluated] at described
          refine (ih ⟨session.state.countVisit, session.journal⟩ counted going restKnown).mono ?_
          intro result after reached
          obtain ⟨run, explained⟩ := reached
          exact ⟨.head (.visit _) run,
            explained.passed found (Assignment.settles_of_two_open described)⟩
      | conflicting =>
          rw [evaluated] at described
          refine Work.ends_of_eq rfl ⟨.tail (.single (.visit _)) (.conflict _), ?_⟩
          exact State.conflicted_of_get? found described
      | unit l =>
          rw [evaluated] at described
          have inside := valid.var_lt found described.mem
          have forcing : Deduction session.state.countVisit
              (session.state.countVisit.extend l).countPropagation := .force found described
          have forced := forcing.wellFormed counted
          have stillKnown : ∀ other ∈ rest,
              other < (session.state.countVisit.extend l).countPropagation.clauses.size :=
            fun other member =>
              Nat.lt_of_lt_of_le (restKnown other member) (forcing.grows counted).size_le
          change (Session.force l id clause >>= fun made =>
            if made then scan rest .active else pure .conflict).Ends _ _
          rw [Work.ends_bind_of_eq (Session.force_apply ⟨session.state.countVisit, session.journal⟩
            inside described.unknown)]
          refine (ih ⟨(session.state.countVisit.extend l).countPropagation, _⟩ forced (by simp)
            stillKnown).mono ?_
          intro result after reached
          obtain ⟨run, explained⟩ := reached
          refine ⟨.head (.visit _) (.head forcing run), ?_⟩
          cases result with
          | quiet => exact absurd explained.1 (by simp)
          | active =>
              have fewer := Assignment.numOpen_set inside described.unknown
              have rest := run.advances.numOpen_le forced
              refine .inr (Nat.lt_of_le_of_lt rest ?_)
              change (session.state.model.set l).numOpen < session.state.model.numOpen
              omega
          | conflict => exact explained

/-- A round is the last one, or it has taken a variable from the open ones. -/
theorem scanRound_ends {rounds : Nat} {goal : Bool → Session → Prop} (session : Session)
    (valid : session.state.WellFormed)
    (last : ∀ success after, session.state.Deduces after.state → after.passes = session.passes + 1 →
      (success = true → after.state.Settled) → (success = false → after.state.Conflicted) →
      goal success after)
    (another : ∀ after, session.state.Deduces after.state → after.passes = session.passes + 1 →
      after.state.model.numOpen < session.state.model.numOpen →
      (scanRounds rounds).Ends after goal) :
    (scanRounds (rounds + 1)).Ends session goal := by
  have counted := (Deduction.pass session.state).wellFormed valid
  have known : ∀ id ∈ session.state.countPass.clauses.idsFrom 0,
      id < session.state.countPass.clauses.size := fun _ => Database.lt_of_mem_idsFrom
  rw [scanRounds, Work.ends_bind_of_eq (Session.change_apply _ _), Work.ends_get_bind]
  refine ((scan_ends ⟨session.state.countPass, session.journal⟩ counted (by simp)
    known).keeping (keeps_scan _ _)).bind ?_
  intro result after reached
  obtain ⟨⟨run, explained⟩, passes⟩ := reached
  have path : session.state.Deduces after.state := .head (.pass _) run
  cases result with
  | quiet =>
      obtain ⟨_, model, clauses, each⟩ := explained
      refine Work.ends_pure.mpr (last true after path passes (fun _ => ?_) (by simp))
      apply State.settled_of_get?
      intro id clause found
      rw [model]
      rw [clauses] at found
      refine each id ?_ clause found
      simpa [Database.idsFrom, List.mem_range'_1] using Database.get?_lt found
  | active =>
      rcases explained with active | fewer
      · cases active
      · exact another after path passes fewer
  | conflict => exact Work.ends_pure.mpr (last false after path passes (by simp) fun _ => explained)

/-- Enough rounds for the open variables, and one more, are never used up. -/
theorem scanRounds_ends {rounds : Nat} (session : Session) (valid : session.state.WellFormed)
    (enough : session.state.model.numOpen < rounds) :
    (scanRounds rounds).Ends session fun success after =>
      session.state.Deduces after.state ∧ (success = true → after.state.Settled) ∧
        (success = false → after.state.Conflicted) := by
  induction rounds generalizing session with
  | zero => omega
  | succ rounds ih =>
      apply scanRound_ends session valid
      · intro success after run _ settled failed
        exact ⟨run, settled, failed⟩
      · intro middle run _ fewer
        refine (ih middle (run.wellFormed valid) (by omega)).mono ?_
        intro success after reached
        obtain ⟨rest, outcome⟩ := reached
        exact ⟨run.trans rest, outcome⟩

theorem propagate_ends (session : Session) (valid : session.state.WellFormed) :
    propagate.Ends session fun success after =>
      session.state.Deduces after.state ∧ (success = true → after.state.Settled) ∧
        (success = false → after.state.Conflicted) := by
  rw [propagate, Work.ends_get_bind]
  apply scanRounds_ends session valid
  have fewer : session.state.model.numOpen ≤ session.state.model.size := Nat.sub_le _ _
  exact Nat.lt_succ_of_le fewer

end UnitPropagation.FullScan
