import RootSeeker.Cron.Schedule

/-!
# The scheduler

A tick visits the jobs in order.  A visit loads or creates the state of the
job, recovers a stale run, and starts the job if it is enabled, due and below
its limit.  Only what the executor raises is caught.
-/

namespace RootSeeker.Cron

open Python Contracts

/-! ## One record -/

/-- `ConcurrencyGuard.can_start`. -/
def canStart (job : CronJobSpec) (state : CronJobState) : Bool :=
  state.runningCount < job.maxConcurrentRuns

def markStarted (state : CronJobState) : CronJobState :=
  { state with runningCount := state.runningCount + 1 }

def markFinished (state : CronJobState) : CronJobState :=
  { state with runningCount := state.runningCount - 1 }

/-- A run that counts as running although its time is up. -/
def isStale (job : CronJobSpec) (state : CronJobState) (now : Instant) : Bool :=
  match state.lastStartedAt with
  | none => false
  | some started => state.status = .running ∧ started + job.staleAfter ≤ now

def recoverStaleRunning (job : CronJobSpec) (state : CronJobState) (now : Instant) :
    CronJobState :=
  if isStale job state now then
    { state with
      status := .failed
      runningCount := 0
      lastError := some (py "stale running state recovered")
      consecutiveFailures := state.consecutiveFailures + 1
      updatedAt := now }
  else state

def isDue (state : CronJobState) (now : Instant) : Bool :=
  match state.nextRunAt with
  | none => false
  | some next => next ≤ now

/-- What a visit makes of the record, and whether it starts the job. -/
def consider (job : CronJobSpec) (state : CronJobState) (now : Instant) :
    CronJobState × Bool :=
  let recovered := recoverStaleRunning job state now
  if !job.enabled then ({ recovered with status := .disabled }, false)
  else (recovered, isDue recovered now && canStart job recovered)

/-- The record that is saved when a run starts. -/
def startedRecord (state : CronJobState) (startedAt : Instant) : CronJobState :=
  markStarted
    { state with
      status := .running
      lastStartedAt := some startedAt
      updatedAt := startedAt }

def canRetry (job : CronJobSpec) (state : CronJobState) : Bool :=
  state.consecutiveFailures < job.retryPolicy.maxAttempts

def nextRetryAt (job : CronJobSpec) (state : CronJobState) (failedAt : Instant) :
    Except PyError Instant := do
  let delay ← job.retryPolicy.delay (max 1 state.consecutiveFailures)
  pure (failedAt + delay)

def countFailure (state : CronJobState) : CronJobState :=
  { state with consecutiveFailures := state.consecutiveFailures + 1 }

/-- When the job runs next: a failed run may be retried. -/
def nextRun (std : CronStdlib) (job : CronJobSpec) (state : CronJobState)
    (result : JobRunResult) : Except PyError Instant :=
  if result.status = .failed ∧ canRetry job (countFailure state) then
    nextRetryAt job (countFailure state) result.finishedAt
  else scheduleNextRun std job result.finishedAt

/-- The outcome of a run in the record of the job. -/
def closedRecord (state : CronJobState) (result : JobRunResult) (next : Instant) :
    CronJobState :=
  let closed :=
    { markFinished state with
      lastFinishedAt := some result.finishedAt
      runCount := state.runCount + 1
      nextRunAt := some next
      updatedAt := result.finishedAt }
  match result.status with
  | .succeeded =>
    { closed with
      status := .succeeded
      lastSuccessAt := some result.finishedAt
      lastError := none
      consecutiveFailures := 0 }
  | .failed => { countFailure closed with status := .failed, lastError := some result.message }
  | .skipped => { closed with status := .idle }

/-- The record that is saved when a run has finished. -/
def finishedRecord (std : CronStdlib) (job : CronJobSpec) (state : CronJobState)
    (result : JobRunResult) : Except PyError CronJobState := do
  let next ← nextRun std job state result
  pure (closedRecord state result next)

/-- How a call of the executor ends; `exited` is an exception that is no `Exception`. -/
inductive ExecutorOutcome where
  | returned (result : JobRunResult)
  | raised (message : PyStr) (now : Instant)
  | exited

abbrev CronExecutor := CronJobSpec → ExecutorOutcome

/-- The result of a run: an exception becomes a failed result, whose text is checked. -/
def runResult (job : CronJobSpec) (state : CronJobState) (startedAt : Instant) :
    ExecutorOutcome → Except PyError JobRunResult
  | .returned result => .ok result
  | .raised message now => do
    let message ← validateText message
    pure
      { jobId := job.jobId.val
        status := .failed
        startedAt := startedAt
        finishedAt := now
        attempt := state.consecutiveFailures + 1
        message := message }
  | .exited => .error .systemExit

/-! ## The store -/

/-- States are stored under the identifier of their job. -/
structure CronStore where
  states : Dict PyStr CronJobState
  runs : List JobRunResult
  keyed : ∀ entry ∈ states, entry.2.jobId.val = entry.1

namespace CronStore

def getState (store : CronStore) (jobId : PyStr) : Option CronJobState :=
  store.states.get? jobId

def saveState (store : CronStore) (state : CronJobState) : CronStore where
  states := store.states.set state.jobId.val state
  runs := store.runs
  keyed :=
    Dict.forall_mem_set (fun entry : PyStr × CronJobState => entry.2.jobId.val = entry.1)
      store.keyed rfl

def appendRun (store : CronStore) (result : JobRunResult) : CronStore where
  states := store.states
  runs := store.runs ++ [result]
  keyed := store.keyed

@[simp]
theorem runs_saveState (store : CronStore) (state : CronJobState) :
    (store.saveState state).runs = store.runs := rfl

@[simp]
theorem runs_appendRun (store : CronStore) (result : JobRunResult) :
    (store.appendRun result).runs = store.runs ++ [result] := rfl

@[simp]
theorem getState_appendRun (store : CronStore) (result : JobRunResult) (jobId : PyStr) :
    (store.appendRun result).getState jobId = store.getState jobId := rfl

theorem getState_saveState_self (store : CronStore) (state : CronJobState) :
    (store.saveState state).getState state.jobId.val = some state :=
  Dict.get?_set_self _ _ _

theorem getState_saveState_of_ne (store : CronStore) {state : CronJobState}
    {jobId : PyStr} (hne : jobId ≠ state.jobId.val) :
    (store.saveState state).getState jobId = store.getState jobId :=
  Dict.get?_set_of_ne _ _ hne

theorem jobId_of_getState {store : CronStore} {jobId : PyStr} {state : CronJobState}
    (hget : store.getState jobId = some state) : state.jobId.val = jobId :=
  store.keyed _ (Dict.mem_of_get? hget)

end CronStore

/-- The state with which a job is seen for the first time. -/
def initialState (std : CronStdlib) (job : CronJobSpec) (now : Instant) :
    Except PyError CronJobState := do
  let next ← scheduleNextRun std job now
  pure { CronJobState.new job.jobId now with nextRunAt := some next }

def stateFor (std : CronStdlib) (job : CronJobSpec) (now : Instant) (store : CronStore) :
    Except PyError (CronJobState × CronStore) :=
  match store.getState job.jobId.val with
  | some state => .ok (state, store)
  | none => do
    let state ← initialState std job now
    pure (state, store.saveState state)

/-! ## A tick -/

section Tick

variable (std : CronStdlib) (executor : CronExecutor)

/-- The run of a job from the record that its visit considered. -/
def finishRun (job : CronJobSpec) (state : CronJobState) (startedAt : Instant) :
    Except PyError (JobRunResult × CronJobState) := do
  let result ← runResult job (startedRecord state startedAt) startedAt (executor job)
  let finished ← finishedRecord std job (startedRecord state startedAt) result
  pure (result, finished)

/-- `_run_job`: the store is left as it was when the run started where the rest
raises. -/
def runJob (job : CronJobSpec) (state : CronJobState) (startedAt : Instant)
    (store : CronStore) : Except PyError JobRunResult × CronStore :=
  let started := store.saveState (startedRecord state startedAt)
  match finishRun std executor job state startedAt with
  | .error raised => (.error raised, started)
  | .ok (result, finished) => (.ok result, (started.saveState finished).appendRun result)

/-- The part of the tick that is about one job. -/
def visit (job : CronJobSpec) (now : Instant) (store : CronStore) :
    Except PyError (Option JobRunResult) × CronStore :=
  match stateFor std job now store with
  | .error raised => (.error raised, store)
  | .ok (state, store) =>
    let (considered, starts) := consider job state now
    if starts then
      let (outcome, store) := runJob std executor job considered now store
      (outcome.map some, store)
    else (.ok none, store.saveState considered)

def tickJobs (now : Instant) :
    List CronJobSpec → CronStore → Except PyError (List JobRunResult) × CronStore
  | [], store => (.ok [], store)
  | job :: rest, store =>
    match visit std executor job now store with
    | (.error raised, store) => (.error raised, store)
    | (.ok result, store) =>
      let (outcome, store) := tickJobs now rest store
      (outcome.map (result.toList ++ ·), store)

/-- The jobs by their identifiers: a later job takes the place of an earlier one. -/
def jobsById (jobs : List CronJobSpec) : Dict PyStr CronJobSpec :=
  Dict.update [] (jobs.map fun job => (job.jobId.val, job))

/-- `CronScheduler(jobs=jobs, executor=executor, state_store=store).tick(now)`. -/
def tick (jobs : List CronJobSpec) (now : Instant) (store : CronStore) :
    Except PyError (List JobRunResult) × CronStore :=
  tickJobs std executor now ((jobsById jobs).map Prod.snd) store

end Tick

end RootSeeker.Cron
