import RootSeeker.TaskRuntime.AtMostOnce

/-!
# No task is lost

Two runtimes may take the same task, and the records that they write may overwrite
each other.
-/

namespace RootSeeker.TaskRuntime

open Python Contracts Transition

variable {ι : Type*} [DecidableEq ι] {system next : TaskSystem ι} {label : TaskStep ι}
  {store : TaskStore} {queue : ι → List PyStr} {trace : Trace (TaskSystem ι) (TaskStep ι)}
  {taskId : PyStr}

/-- The task that a step brings in. -/
def TaskStep.submitted? : TaskStep ι → Option PyStr
  | .submit _ taskId _ _ _ _ => some taskId.val
  | _ => none

/-- The step is no exception that the executor lets pass. -/
def TaskStep.ends : TaskStep ι → Bool
  | .finish _ .exited => false
  | _ => true

/-- The task waits, is done, or belongs to a runtime that will write it back. -/
def TaskSystem.Accounts (system : TaskSystem ι) (taskId : PyStr) (status : TaskStatus) : Prop :=
  status = .pending ∨ status.Done ∨ ∃ runtime, taskId ∈ (system.phase runtime).task?

structure Accounted (system : TaskSystem ι) : Prop where
  tasks : ∀ taskId status, system.store.statusOf taskId = some status →
    system.Accounts taskId status
  settled : ∀ runtime task, system.phase runtime = .executed task → task.status.Done

/-- What a step does to the store, where its runtime goes on in this phase. -/
inductive Turn (system next : TaskSystem ι) (label : TaskStep ι) (runtime : ι)
    (phase : RuntimePhase) : Prop
  | kept (hstore : next.store = system.store) (hnone : label.submitted? = none)
      (howned : ∀ taskId ∈ (system.phase runtime).task?, taskId ∈ phase.task?)
  | saved {task : TaskRecord} (hstore : next.store = system.store.save task)
      (hsubmitted : ∀ taskId ∈ label.submitted?, taskId = task.taskId.val)
      (howned : ∀ taskId ∈ (system.phase runtime).task?, taskId = task.taskId.val)
      (hstands : task.status = .pending ∨ task.status.Done ∨ task.taskId.val ∈ phase.task?)

/-- A runtime moves on, and keeps its task until it has written it back. -/
structure Moved (system next : TaskSystem ι) (label : TaskStep ι) (runtime : ι)
    (phase : RuntimePhase) : Prop where
  moves : next.phase = Function.update system.phase runtime phase
  turn : Turn system next label runtime phase
  settled : ∀ task, phase = .executed task → task.status.Done

theorem moved_of_proceed {runtime : ι} (haccounted : Accounted system)
    (hstep : system.proceed runtime = some next) :
    ∃ phase, Moved system next (.proceed runtime) runtime phase := by
  rw [TaskSystem.proceed] at hstep
  split at hstep
  · next hphase =>
    cases hstep
    exact ⟨_, rfl, .kept rfl rfl (by simp [hphase, RuntimePhase.task?]), by simp⟩
  · next hphase =>
    split at hstep
    · cases hstep
      exact ⟨_, rfl, .kept rfl rfl (by simp [hphase, RuntimePhase.task?]), by simp⟩
    · cases hstep
      exact ⟨_, rfl, .kept rfl rfl (by simp [hphase, RuntimePhase.task?]), by simp⟩
  · next hphase =>
    cases hstep
    exact ⟨_, rfl, .saved rfl (by simp [TaskStep.submitted?])
      (by simp [hphase, RuntimePhase.task?]) (.inr (.inr rfl)), by simp⟩
  · next hphase =>
    cases hstep
    exact ⟨_, rfl, .kept rfl rfl (by simp [hphase, RuntimePhase.task?]), by simp⟩
  · next task hphase =>
    cases hstep
    exact ⟨_, rfl, .saved rfl (by simp [TaskStep.submitted?])
      (by simp [hphase, RuntimePhase.task?])
      (.inr (.inl (haccounted.settled runtime task hphase))), by simp⟩
  · cases hstep
  · cases hstep

theorem moved_of_step (haccounted : Accounted system) (hends : label.ends = true)
    (hstep : system.step label = some next) :
    ∃ runtime phase, Moved system next label runtime phase := by
  cases label with
  | submit runtime taskId kind payload caseId createdAt =>
    rw [TaskSystem.step] at hstep
    split at hstep
    · next hphase _ =>
      cases hstep
      exact ⟨runtime, _, rfl, .saved rfl (by simp [TaskStep.submitted?, createTaskRecord])
        (by simp [hphase, RuntimePhase.task?]) (.inl rfl), by simp⟩
    · cases hstep
  | pop runtime =>
    rw [TaskSystem.step] at hstep
    split at hstep
    · next hphase _ =>
      cases hstep
      exact ⟨runtime, _, rfl, .kept rfl rfl (by simp [hphase, RuntimePhase.task?]), by simp⟩
    · cases hstep
  | scan runtime taskId =>
    rw [TaskSystem.step] at hstep
    split at hstep
    · next hphase _ =>
      split at hstep
      · cases hstep
        exact ⟨runtime, _, rfl, .kept rfl rfl (by simp [hphase, RuntimePhase.task?]), by simp⟩
      · cases hstep
    · cases hstep
  | proceed runtime => exact ⟨runtime, moved_of_proceed haccounted hstep⟩
  | finish runtime outcome =>
    rw [TaskSystem.step] at hstep
    split at hstep
    · next task hphase =>
      split at hstep
      · split at hstep
        · next settled hsettle =>
          cases hstep
          obtain ⟨hid, hdone⟩ := settle_spec hsettle
          refine ⟨runtime, _, rfl, .kept rfl rfl ?_, ?_⟩
          · simp [hphase, RuntimePhase.task?, hid]
          · rintro task ⟨⟩
            exact hdone
        · next hsettle =>
          cases outcome with
          | exited => cases hends
          | _ => cases hsettle
      · cases hstep
    · cases hstep

theorem Accounted.step (haccounted : Accounted system) (hends : label.ends = true)
    (hstep : system.step label = some next) : Accounted next := by
  obtain ⟨runtime, phase, hphase, hturn, hsettled⟩ := moved_of_step haccounted hends hstep
  have hother : ∀ {other}, other ≠ runtime → next.phase other = system.phase other := by
    intro other hne
    rw [hphase, Function.update_of_ne hne]
  have hself : next.phase runtime = phase := by rw [hphase, Function.update_self]
  refine ⟨?_, ?_⟩
  · intro taskId status hstatus
    have hkeep : (∀ taskId' ∈ (system.phase runtime).task?, taskId' = taskId →
        taskId ∈ phase.task?) → system.Accounts taskId status → next.Accounts taskId status := by
      rintro hnamed (hpending | hdone | ⟨owner, howner⟩)
      · exact .inl hpending
      · exact .inr (.inl hdone)
      · by_cases hsame : owner = runtime
        · exact .inr (.inr ⟨runtime, hself ▸ hnamed taskId (hsame ▸ howner) rfl⟩)
        · exact .inr (.inr ⟨owner, (hother hsame).symm ▸ howner⟩)
    cases hturn with
    | kept hstore hnone howned =>
      rw [hstore] at hstatus
      refine hkeep ?_ (haccounted.tasks taskId status hstatus)
      rintro _ htask rfl
      exact howned _ htask
    | @saved task hstore hsubmitted howned hstands =>
      rw [hstore] at hstatus
      by_cases hsame : taskId = task.taskId.val
      · subst hsame
        rw [TaskStore.statusOf_save_self] at hstatus
        obtain rfl := Option.some.inj hstatus
        exact hstands.imp_right (.imp_right fun howned => ⟨runtime, hself ▸ howned⟩)
      · rw [TaskStore.statusOf_save_of_ne _ hsame] at hstatus
        refine hkeep ?_ (haccounted.tasks taskId status hstatus)
        rintro _ htask rfl
        exact absurd (howned _ htask) hsame
  · intro other task hexecuted
    by_cases hsame : other = runtime
    · exact hsettled task (hself ▸ hsame ▸ hexecuted)
    · exact haccounted.settled other task (hother hsame ▸ hexecuted)

/-- No step takes a record away. -/
theorem known_of_step (haccounted : Accounted system) (hends : label.ends = true)
    (hstep : system.step label = some next)
    (hknown : system.store.statusOf taskId ≠ none ∨ label.submitted? = some taskId) :
    next.store.statusOf taskId ≠ none := by
  obtain ⟨runtime, phase, _, hturn, _⟩ := moved_of_step haccounted hends hstep
  cases hturn with
  | kept hstore hnone _ =>
    rw [hstore]
    exact hknown.resolve_right (by simp [hnone])
  | @saved task hstore hsubmitted _ _ =>
    rw [hstore]
    by_cases hsame : taskId = task.taskId.val
    · rw [hsame, TaskStore.statusOf_save_self]
      exact Option.some_ne_none _
    · rw [TaskStore.statusOf_save_of_ne _ hsame]
      exact hknown.resolve_right fun hlabel => hsame (hsubmitted taskId hlabel)

theorem accounts_last (hruns : TaskRuns system trace) (haccounted : Accounted system)
    (hends : ∀ entry ∈ trace, entry.1.ends = true) (hknown : system.store.statusOf taskId ≠ none ∨
      ∃ entry ∈ trace, entry.1.submitted? = some taskId) :
    ∃ status, (last system trace).store.statusOf taskId = some status ∧
      (last system trace).Accounts taskId status := by
  induction trace generalizing system with
  | nil =>
    obtain ⟨status, hstatus⟩ := Option.ne_none_iff_exists'.mp (hknown.resolve_right (by simp))
    exact ⟨status, hstatus, haccounted.tasks taskId status hstatus⟩
  | cons entry rest ih =>
    obtain ⟨hend, hrest⟩ := List.forall_mem_cons.mp hends
    apply ih hruns.2 (haccounted.step hend hruns.1) hrest
    simp only [List.exists_mem_cons_iff, ← or_assoc] at hknown
    exact hknown.imp_left (known_of_step haccounted hend hruns.1)

/-- Every task that was stored or submitted is still stored: it is pending, done, or with a
runtime that will write it back. -/
theorem no_task_lost (hruns : TaskRuns (.start store queue) trace)
    (hstore : ∀ taskId, store.statusOf taskId ≠ some .running ∧
      store.statusOf taskId ≠ some .cancelled) (hends : ∀ entry ∈ trace, entry.1.ends = true)
    (hknown : store.statusOf taskId ≠ none ∨
      ∃ entry ∈ trace, entry.1.submitted? = some taskId) :
    ∃ status, (last (.start store queue) trace).store.statusOf taskId = some status ∧
      (last (.start store queue) trace).Accounts taskId status := by
  refine accounts_last hruns ⟨?_, ?_⟩ hends hknown
  · intro taskId status hstatus
    have hnot := hstore taskId
    simp only [TaskSystem.start] at hstatus
    rw [hstatus] at hnot
    cases status with
    | pending => exact .inl rfl
    | completed => exact .inr (.inl (.inl rfl))
    | failed => exact .inr (.inl (.inr rfl))
    | running => exact absurd rfl hnot.1
    | cancelled => exact absurd rfl hnot.2
  · intro runtime task hexecuted
    cases hexecuted

/-- Both runtimes take the task. -/
theorem runByBoth_loses_nothing :
    ∃ status,
      (last (.start .empty fun _ => []) (taskTrace runByBoth)).store.statusOf demoTask.val =
          some status ∧
        (last (.start .empty fun _ => []) (taskTrace runByBoth)).Accounts demoTask.val status := by
  have hrecord : record TaskSystem.step (.start .empty fun _ => []) runByBoth =
      some (taskTrace runByBoth) := rfl
  exact no_task_lost (follows_of_record hrecord) (fun taskId => ⟨nofun, nofun⟩) (by decide)
    (.inr ⟨_, List.mem_cons_self, rfl⟩)

end RootSeeker.TaskRuntime
