import RootSeeker.Core.Transition
import RootSeeker.Cron.TickIsolation

/-!
# Crashed runs

A process that dies inside a run leaves the record of the job marked as
running, with the run counted.  The count is taken back when the record is
found stale, which looks at the status alone, so an operation that changes the
status of a record with a counted run makes the count permanent.
-/

namespace RootSeeker.Cron

open Python Contracts Transition

/-- How a run ends: by itself, or with a crash of the process before or after the
record was marked as running. -/
inductive RunEnding where
  | ended (outcome : ExecutorOutcome)
  | crashedBeforeStart
  | crashedRunning

/-- The record of a job after a run. -/
def recordAfterRun (std : CronStdlib) (job : CronJobSpec) (now : Instant)
    (loaded state : CronJobState) (ending : RunEnding) : CronJobState :=
  match ending with
  | .crashedBeforeStart => loaded
  | .crashedRunning => startedRecord state now
  | .ended outcome =>
    match finishRun std (fun _ => outcome) job state now with
    | .error _ => startedRecord state now
    | .ok (_, finished) => finished

/-- The record of a job after the visit of a tick. -/
def recordAfterVisit (std : CronStdlib) (job : CronJobSpec) (now : Instant)
    (stored : Option CronJobState) (ending : RunEnding) : Option CronJobState :=
  match loadedState std job now stored with
  | .error _ => stored
  | .ok loaded =>
    let (considered, starts) := consider job loaded now
    if starts then some (recordAfterRun std job now loaded considered ending)
    else some considered

/-- `_mark_job_due`. -/
def markJobDue (job : CronJobSpec) (now : Instant) (stored : Option CronJobState) :
    CronJobState :=
  let state := stored.getD (CronJobState.new job.jobId now)
  { state with
    status := if state.status = .running then .running else .idle
    nextRunAt := some now
    updatedAt := now }

/-- The configuration and the stored record of one job. -/
structure JobWorld where
  enabled : Bool
  stored : Option CronJobState

inductive JobEvent where
  | tick (now : Instant) (ending : RunEnding)
  | setEnabled (enabled : Bool)
  | markDue (now : Instant)

/-- The job as it is configured at the moment. -/
def JobWorld.spec (world : JobWorld) (job : CronJobSpec) : CronJobSpec :=
  { job with enabled := world.enabled }

def JobWorld.step (std : CronStdlib) (job : CronJobSpec) (world : JobWorld)
    (event : JobEvent) : JobWorld :=
  match event with
  | .tick now ending =>
    { world with stored := recordAfterVisit std (world.spec job) now world.stored ending }
  | .setEnabled enabled => { world with enabled := enabled }
  | .markDue now => { world with stored := some (markJobDue job now world.stored) }

/-- The runs of the scheduler, as far as the job is concerned. -/
abbrev JobRuns (std : CronStdlib) (job : CronJobSpec) (start : JobWorld)
    (trace : Trace JobWorld JobEvent) : Prop :=
  Follows (fun world event next => next = JobWorld.step std job world event) start trace

section Visit

variable {std : CronStdlib} {executor : CronExecutor} {job : CronJobSpec} {now : Instant}
  {store : CronStore}

/-- A visit that no crash cuts short leaves this record behind. -/
theorem getState_visit :
    (visit std executor job now store).2.getState job.jobId.val =
      recordAfterVisit std job now (store.getState job.jobId.val)
        (.ended (executor job)) := by
  unfold recordAfterVisit
  cases hload : loadedState std job now (store.getState job.jobId.val) with
  | error raised => rw [visit_of_error hload]
  | ok loaded =>
    obtain ⟨hjobId, ready, hready, _⟩ := stateFor_of_ok hload
    have hconsidered : (consider job loaded now).1.jobId.val = job.jobId.val := by
      rw [consider_jobId, hjobId]
    have hfinish : finishRun std (fun _ => executor job) job (consider job loaded now).1
        now = finishRun std executor job (consider job loaded now).1 now := rfl
    unfold visit
    rw [hready]
    simp only [recordAfterRun, hfinish]
    split
    · cases hrun : finishRun std executor job (consider job loaded now).1 now with
      | error raised =>
        rw [runJob_of_failure hrun, ← hconsidered]
        exact CronStore.getState_saveState_self _ (startedRecord _ now)
      | ok run =>
        obtain ⟨result, finished⟩ := run
        rw [runJob_of_completed hrun, ← hconsidered, ← (finishRun_spec hrun).1]
        exact CronStore.getState_saveState_self _ _
    · rw [← hconsidered]
      exact CronStore.getState_saveState_self _ _

end Visit

/-! ## Which events keep the count and the status in step -/

/-- A counted run is marked as running since some time. -/
def RunningMarked (stored : Option CronJobState) : Prop :=
  ∀ state ∈ stored, 0 < state.runningCount →
    state.status = .running ∧ state.lastStartedAt ≠ none

/-- A disabled job has no run left to count, and a run that completes was the only one
counted. -/
def KeepsCount (std : CronStdlib) (job : CronJobSpec) (world : JobWorld) :
    JobEvent → Prop
  | .tick now ending =>
    if world.enabled then
      ∀ state, startsFrom std (world.spec job) now world.stored = some state →
        ∀ outcome, ending = .ended outcome →
          RunCompletes std (fun _ => outcome) (world.spec job) state →
            state.runningCount = 0
    else
      ∀ state, loadedState std (world.spec job) now world.stored = .ok state →
        (recoverStaleRunning (world.spec job) state now).runningCount = 0
  | .setEnabled _ => True
  | .markDue _ => True

/-- In every state of the run counted runs are marked, and a due job that is enabled
starts once its last run is stale. -/
def NeverWedged (std : CronStdlib) (job : CronJobSpec) (trace : Trace JobWorld JobEvent) :
    Prop :=
  ∀ entry ∈ trace, RunningMarked entry.2.stored ∧
    ∀ state now, entry.2.enabled = true → entry.2.stored = some state →
      isDue state now = true →
        (∀ started ∈ state.lastStartedAt, started + job.staleAfter ≤ now) →
          startsFrom std (entry.2.spec job) now entry.2.stored ≠ none

section Steps

variable {std : CronStdlib} {job : CronJobSpec} {world : JobWorld} {now : Instant}
  {state : CronJobState}

theorem runningMarked_recover (hmarked : RunningMarked (some state)) :
    RunningMarked (some (recoverStaleRunning job state now)) := by
  unfold recoverStaleRunning
  split
  · rintro recovered hrecovered hcount
    obtain rfl := Option.some.inj hrecovered
    exact absurd hcount (lt_irrefl 0)
  · exact hmarked

theorem runningMarked_loaded (hmarked : RunningMarked world.stored)
    (hload : loadedState std job now world.stored = .ok state) : RunningMarked (some state) := by
  unfold loadedState at hload
  cases hstored : world.stored with
  | some stored =>
    rw [hstored] at hload hmarked
    obtain rfl := Except.ok.inj hload
    exact hmarked
  | none =>
    rw [hstored] at hload
    obtain ⟨next, _, hinitial⟩ := Loops.exists_of_bind_eq_ok hload
    obtain rfl := Except.ok.inj hinitial
    intro initial hinitial hcount
    obtain rfl := Option.some.inj hinitial
    exact absurd hcount (lt_irrefl 0)

theorem runningMarked_markJobDue (hmarked : RunningMarked world.stored) :
    RunningMarked (some (markJobDue job now world.stored)) := by
  intro marked hstate hcount
  obtain rfl := Option.some.inj hstate
  cases hstored : world.stored with
  | none =>
    rw [hstored] at hcount
    exact absurd hcount (lt_irrefl 0)
  | some stored =>
    rw [hstored] at hmarked hcount
    obtain ⟨hrunning, hstarted⟩ := hmarked stored rfl hcount
    exact ⟨if_pos hrunning, hstarted⟩

/-- A record that is not marked as running may not count a run. -/
theorem runningMarked_iff_of_not_running (hstatus : state.status ≠ .running) :
    RunningMarked (some state) ↔ state.runningCount = 0 := by
  constructor
  · intro hmarked
    by_contra hcount
    exact hstatus (hmarked state rfl (Nat.pos_of_ne_zero hcount)).1
  · intro hcount other hother hpos
    obtain rfl := Option.some.inj hother
    omega

theorem runningMarked_startedRecord : RunningMarked (some (startedRecord state now)) := by
  intro started hstarted _
  obtain rfl := Option.some.inj hstarted
  exact ⟨rfl, by simp [startedRecord, markStarted]⟩

/-- A completed run takes back the one that it counted. -/
theorem runningCount_of_finishRun {executor : CronExecutor} {result : JobRunResult}
    {finished : CronJobState}
    (hfinish : finishRun std executor job state now = .ok (result, finished)) :
    finished.runningCount = state.runningCount := by
  obtain ⟨other, _, hfinish⟩ := Loops.exists_of_bind_eq_ok hfinish
  obtain ⟨record, hrecord, hfinish⟩ := Loops.exists_of_bind_eq_ok hfinish
  obtain ⟨rfl, rfl⟩ := Prod.mk.inj (Except.ok.inj hfinish)
  obtain ⟨next, _, hrecord⟩ := Loops.exists_of_bind_eq_ok hrecord
  rw [← Except.ok.inj hrecord]
  simp only [closedRecord]
  split <;> exact Nat.add_sub_cancel _ 1

theorem consider_of_disabled (hdisabled : job.enabled = false) :
    consider job state now =
      ({ recoverStaleRunning job state now with status := .disabled }, false) := by
  rw [consider, hdisabled]
  rfl

theorem consider_of_enabled (henabled : job.enabled = true) :
    consider job state now =
      (recoverStaleRunning job state now,
        isDue (recoverStaleRunning job state now) now &&
          canStart job (recoverStaleRunning job state now)) := by
  rw [consider, henabled]
  rfl

theorem startsFrom_of_loaded {stored : Option CronJobState}
    (hload : loadedState std job now stored = .ok state) :
    startsFrom std job now stored =
      if (consider job state now).2 then some (consider job state now).1 else none := by
  rw [startsFrom, hload]

/-- A run keeps the count marked unless it completes beside another counted run. -/
theorem runningMarked_recordAfterRun_iff {loaded : CronJobState} {ending : RunEnding}
    (hloaded : RunningMarked (some loaded)) :
    RunningMarked (some (recordAfterRun std job now loaded state ending)) ↔
      ∀ outcome, ending = .ended outcome → RunCompletes std (fun _ => outcome) job state →
        state.runningCount = 0 := by
  cases ending with
  | crashedBeforeStart => exact iff_of_true hloaded (by simp)
  | crashedRunning => exact iff_of_true runningMarked_startedRecord (by simp)
  | ended outcome =>
    simp only [recordAfterRun]
    cases hfinish : finishRun std (fun _ => outcome) job state now with
    | error raised =>
      refine iff_of_true runningMarked_startedRecord ?_
      intro other hother hcompletes
      obtain rfl := RunEnding.ended.inj hother
      obtain ⟨run, hrun⟩ := (exists_finishRun_iff now).mpr hcompletes
      exact absurd (hfinish.symm.trans hrun) (by simp)
    | ok run =>
      obtain ⟨result, finished⟩ := run
      simp only
      rw [runningMarked_iff_of_not_running (finishRun_spec hfinish).2.2,
        runningCount_of_finishRun hfinish]
      constructor
      · exact fun hcount _ _ _ => hcount
      · exact fun hkeeps => hkeeps outcome rfl ((exists_finishRun_iff now).mp ⟨_, hfinish⟩)

theorem runningMarked_step_iff (hmarked : RunningMarked world.stored) (event : JobEvent) :
    RunningMarked (world.step std job event).stored ↔ KeepsCount std job world event := by
  cases event with
  | setEnabled enabled => exact iff_of_true hmarked trivial
  | markDue now => exact iff_of_true (runningMarked_markJobDue hmarked) trivial
  | tick now ending =>
    simp only [JobWorld.step, recordAfterVisit, KeepsCount]
    cases hload : loadedState std (world.spec job) now world.stored with
    | error raised =>
      have hnone : startsFrom std (world.spec job) now world.stored = none := by
        rw [startsFrom, hload]
      rw [hnone]
      exact iff_of_true hmarked (by simp)
    | ok loaded =>
      have hloaded := runningMarked_loaded hmarked hload
      have hrecovered : RunningMarked
          (some (recoverStaleRunning (world.spec job) loaded now)) :=
        runningMarked_recover hloaded
      simp only
      rw [startsFrom_of_loaded hload]
      cases henabled : world.enabled with
      | false =>
        rw [consider_of_disabled henabled]
        simp only [Bool.false_eq_true, if_false]
        rw [runningMarked_iff_of_not_running (by simp)]
        simp only [Except.ok.injEq, forall_eq']
      | true =>
        rw [consider_of_enabled henabled]
        simp only [if_true]
        split
        · rw [runningMarked_recordAfterRun_iff hloaded]
          simp only [Option.some.injEq, forall_eq']
        · exact iff_of_true hrecovered (by simp)

/-- A due job with its counted runs marked starts once they are stale. -/
theorem startsFrom_of_stale (henabled : world.enabled = true) (hmarked : RunningMarked world.stored)
    (hstored : world.stored = some state) (hdue : isDue state now = true)
    (hstale : ∀ started ∈ state.lastStartedAt, started + job.staleAfter ≤ now) :
    startsFrom std (world.spec job) now world.stored ≠ none := by
  have hload : loadedState std (world.spec job) now world.stored = .ok state := by
    rw [hstored]
    rfl
  have hstill : isDue (recoverStaleRunning (world.spec job) state now) now = true := by
    unfold recoverStaleRunning
    split
    · exact hdue
    · exact hdue
  have hcount : (recoverStaleRunning (world.spec job) state now).runningCount = 0 := by
    by_contra hne
    have hpos : 0 < state.runningCount := by
      apply Nat.pos_of_ne_zero
      intro hzero
      apply hne
      unfold recoverStaleRunning
      split
      · rfl
      · exact hzero
    obtain ⟨hrunning, hsome⟩ := hmarked state hstored hpos
    obtain ⟨started, hstarted⟩ := Option.ne_none_iff_exists'.mp hsome
    apply hne
    unfold recoverStaleRunning isStale
    have hle : started + (world.spec job).staleAfter ≤ now := hstale started hstarted
    simp [hstarted, hrunning, hle]
  have hcan : canStart (world.spec job)
      (recoverStaleRunning (world.spec job) state now) = true := by
    unfold canStart
    rw [hcount]
    exact decide_eq_true job.maxConcurrentRuns_pos
  rw [startsFrom_of_loaded hload, consider_of_enabled henabled, hstill, hcan]
  simp

end Steps

/-- The trace of events on a job that was never seen. -/
def minutelyTrace (events : List JobEvent) : Trace JobWorld JobEvent :=
  history (JobWorld.step utcStdlib minutelyJob) { enabled := true, stored := none } events

def succeeded : RunEnding :=
  .ended (succeedingExecutor minutelyJob)

/-- The process dies inside a run; when that is stale the job runs again. -/
def crashThenRecover : List JobEvent :=
  [.markDue 0, .tick 0 .crashedRunning, .tick 900000000 succeeded]

/-- The process dies inside a run and the job is disabled before that is stale. -/
def crashThenDisable : List JobEvent :=
  [.markDue 0, .tick 0 .crashedRunning, .setEnabled false, .tick 1 succeeded,
    .setEnabled true, .markDue 900000000]

end RootSeeker.Cron
