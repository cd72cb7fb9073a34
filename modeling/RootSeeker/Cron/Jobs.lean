import RootSeeker.Contracts.Numbers

/-!
# Cron jobs

The contract of a job, its stored state and the result of a run.  Instants and
durations are counted in microseconds.
-/

namespace RootSeeker.Cron

open Python Contracts

abbrev Instant := ℤ

inductive CronJobStatus where
  | idle
  | running
  | succeeded
  | failed
  | disabled
  deriving DecidableEq

inductive JobRunStatus where
  | succeeded
  | failed
  | skipped
  deriving DecidableEq

structure RetryPolicy where
  maxAttempts : ℕ
  /-- What the floats of the policy make of a number of failures: the delay, or the
  exception they raise. -/
  delay : ℕ → Except PyError ℤ

/-- The fields of `CronJobSpec` that the scheduler reads. -/
structure CronJobSpec where
  jobId : RequiredStr
  schedule : RequiredStr
  timezone : PyStr
  enabled : Bool
  maxConcurrentRuns : ℕ
  maxConcurrentRuns_pos : 1 ≤ maxConcurrentRuns
  retryPolicy : RetryPolicy
  staleAfter : ℤ
  staleAfter_pos : 0 < staleAfter
  metadata : Mapping

structure JobRunResult where
  jobId : PyStr
  status : JobRunStatus
  startedAt : Instant
  finishedAt : Instant
  attempt : ℕ
  message : PyStr

structure CronJobState where
  jobId : RequiredStr
  status : CronJobStatus
  nextRunAt : Option Instant
  lastStartedAt : Option Instant
  lastFinishedAt : Option Instant
  lastSuccessAt : Option Instant
  lastError : Option PyStr
  consecutiveFailures : ℕ
  runningCount : ℕ
  runCount : ℕ
  updatedAt : Instant

/-- `CronJobState(job_id=job_id)`. -/
def CronJobState.new (jobId : RequiredStr) (now : Instant) : CronJobState where
  jobId := jobId
  status := .idle
  nextRunAt := none
  lastStartedAt := none
  lastFinishedAt := none
  lastSuccessAt := none
  lastError := none
  consecutiveFailures := 0
  runningCount := 0
  runCount := 0
  updatedAt := now

end RootSeeker.Cron
