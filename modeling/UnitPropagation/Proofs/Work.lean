import UnitPropagation.Work

namespace UnitPropagation.Work

/-! How work ends.

`Ends` states at once that a piece of work meets no fault and what holds of its result and of
the value it leaves.  The equations let a proof follow the work from part to part.  `EndsOr` also
says what a fault leaves behind, and `Keeps` what is the same afterwards in any case. -/

variable {σ τ α β : Type} {work : Work σ α} {next : α → Work σ β} {start : σ} {view : σ → τ}
  {goal : β → σ → Prop} {middle weaker : α → σ → Prop} {stop : σ → Prop}

/-- Started from `start`, the work meets no fault and ends in `goal`. -/
def Ends (work : Work σ α) (start : σ) (goal : α → σ → Prop) : Prop :=
  ∃ result after, work start = .ok result after ∧ goal result after

theorem Ends.mono (ends : work.Ends start middle)
    (weaken : ∀ result after, middle result after → weaker result after) :
    work.Ends start weaker := by
  obtain ⟨result, after, done, reached⟩ := ends
  exact ⟨result, after, done, weaken result after reached⟩

theorem Ends.bind (ends : work.Ends start middle)
    (continued : ∀ result after, middle result after → (next result).Ends after goal) :
    (work >>= next).Ends start goal := by
  obtain ⟨result, after, done, reached⟩ := ends
  obtain ⟨last, final, rest, achieved⟩ := continued result after reached
  refine ⟨last, final, ?_, achieved⟩
  rw [bind_apply, done]
  exact rest

theorem ends_of_eq {result : α} {after : σ} (done : work start = .ok result after)
    (reached : middle result after) : work.Ends start middle :=
  ⟨result, after, done, reached⟩

theorem Ends.of_eq {result : α} {after : σ} (ends : work.Ends start middle)
    (done : work start = .ok result after) : middle result after := by
  obtain ⟨_, _, again, reached⟩ := ends
  rw [done] at again
  cases again
  exact reached

theorem ends_bind_of_eq {result : α} {after : σ} (done : work start = .ok result after) :
    (work >>= next).Ends start goal ↔ (next result).Ends after goal := by
  simp only [Ends, bind_apply, done]

@[simp] theorem ends_pure {result : α} :
    (pure result : Work σ α).Ends start middle ↔ middle result start := by
  constructor
  · intro ended
    obtain ⟨_, _, done, reached⟩ := ended
    cases done
    exact reached
  · exact ends_of_eq rfl

@[simp] theorem ends_get_bind {next : σ → Work σ β} :
    (get >>= next).Ends start goal ↔ (next start).Ends start goal :=
  ends_bind_of_eq rfl

@[simp] theorem ends_modify_bind {step : σ → σ} {next : Unit → Work σ β} :
    (modify step >>= next).Ends start goal ↔ (next ()).Ends (step start) goal :=
  ends_bind_of_eq rfl

theorem get_bind_apply {next : σ → Work σ β} : (get >>= next) start = next start start := rfl

theorem bind_eq_of_eq {same : Work σ α} {other : α → Work σ β} {result : α} {after : σ}
    (done : work start = .ok result after) (first : same start = work start)
    (continued : other result after = next result after) :
    (same >>= other) start = (work >>= next) start := by
  rw [bind_apply, bind_apply, first, done]
  exact continued

theorem Ends.bind_eq {same : Work σ α} {other : α → Work σ β} (ends : work.Ends start middle)
    (first : same start = work start)
    (continued : ∀ result after, middle result after → other result after = next result after) :
    (same >>= other) start = (work >>= next) start := by
  obtain ⟨result, after, done, reached⟩ := ends
  exact bind_eq_of_eq done first (continued result after reached)

/-- What the work gives, unless it meets a fault. -/
def answer? (work : Work σ α) (start : σ) : Option α :=
  match work start with
  | .ok result _ => some result
  | .error _ _ => none

theorem answer?_eq_some_iff {result : α} :
    work.answer? start = some result ↔ ∃ after, work start = .ok result after := by
  unfold answer?
  cases work start with
  | ok result after => simp
  | error fault after => simp

/-- Started from `start`, the work ends in `goal`, or a fault leaves it in `stop`. -/
def EndsOr (work : Work σ α) (start : σ) (goal : α → σ → Prop) (stop : σ → Prop) : Prop :=
  match work start with
  | .ok result after => goal result after
  | .error _ after => stop after

/-- What the work leaves, whether it ends or meets a fault. -/
def leave (work : Work σ α) (start : σ) : σ :=
  match work start with
  | .ok _ after => after
  | .error _ after => after

theorem EndsOr.bind (first : work.EndsOr start middle stop)
    (continued : ∀ result after, middle result after → (next result).EndsOr after goal stop) :
    (work >>= next).EndsOr start goal stop := by
  unfold EndsOr at first ⊢
  rw [bind_apply]
  cases done : work start with
  | ok result after =>
      rw [done] at first
      exact continued result after first
  | error fault after =>
      rw [done] at first
      exact first

theorem EndsOr.mono {weaker : α → σ → Prop} {laterStop : σ → Prop}
    (ends : work.EndsOr start middle stop)
    (weaken : ∀ result after, middle result after → weaker result after)
    (stopped : ∀ after, stop after → laterStop after) : work.EndsOr start weaker laterStop := by
  unfold EndsOr at ends ⊢
  cases done : work start with
  | ok result after =>
      rw [done] at ends
      exact weaken result after ends
  | error fault after =>
      rw [done] at ends
      exact stopped after ends

theorem EndsOr.leave (reached : σ → Prop) (ends : work.EndsOr start (fun _ => reached) reached) :
    reached (work.leave start) := by
  unfold EndsOr at ends
  unfold Work.leave
  cases done : work start with
  | ok result after =>
      rw [done] at ends
      exact ends
  | error fault after =>
      rw [done] at ends
      exact ends

theorem endsOr_get_bind {next : σ → Work σ β} :
    (get >>= next).EndsOr start goal stop ↔ (next start).EndsOr start goal stop := Iff.rfl

theorem Ends.leave (reached : σ → Prop) (ends : work.Ends start fun _ => reached) :
    reached (work.leave start) := by
  obtain ⟨result, after, done, held⟩ := ends
  unfold Work.leave
  rw [done]
  exact held

theorem Ends.endsOr (ends : work.Ends start middle) : work.EndsOr start middle stop := by
  obtain ⟨result, after, done, reached⟩ := ends
  unfold EndsOr
  rw [done]
  exact reached

/-- However it ends, the work leaves what `view` shows. -/
def Keeps (view : σ → τ) (work : Work σ α) : Prop :=
  ∀ start, view (work.leave start) = view start

theorem Keeps.bind (first : Keeps view work) (continued : ∀ result, Keeps view (next result)) :
    Keeps view (work >>= next) := by
  intro start
  have kept := first start
  unfold leave at kept ⊢
  rw [bind_apply]
  cases done : work start with
  | ok result after =>
      rw [done] at kept
      exact (continued result after).trans kept
  | error fault after =>
      rw [done] at kept
      exact kept

theorem keeps_pure (result : α) : Keeps view (pure result : Work σ α) := fun _ => rfl

theorem keeps_throw (fault : Fault) : Keeps view (throw fault : Work σ α) := fun _ => rfl

theorem keeps_get_bind {next : σ → Work σ β} (continued : ∀ current, Keeps view (next current)) :
    Keeps view (get >>= next) := fun start => continued start start

theorem keeps_modify {step : σ → σ} (same : ∀ current, view (step current) = view current) :
    Keeps view (modify step) := same

theorem Ends.keeping (ends : work.Ends start middle) (keeps : Keeps view work) :
    work.Ends start fun result after => middle result after ∧ view after = view start := by
  obtain ⟨result, after, done, reached⟩ := ends
  have kept := keeps start
  unfold Work.leave at kept
  rw [done] at kept
  exact ⟨result, after, done, reached, kept⟩

end UnitPropagation.Work
