import RootSeeker.Cron.CrashedRuns

/-!
# The attempts of an occurrence

A failed run of a regular occurrence is retried as long as the job has attempts
left.  The attempts are counted by the failures since the last success, which
reach back over earlier occurrences and over crashed runs.
-/

namespace RootSeeker.Cron

open Python Contracts Transition

/-! ## The policy -/

/-- The arithmetic of floats. -/
structure FloatStdlib (F : Type) where
  mul : F → F → F
  /-- `base ** exponent`; a result that is too large is an `OverflowError`. -/
  pow : F → ℕ → Except PyError F
  lt : F → F → Bool
  /-- `timedelta(seconds=value)`. -/
  timedelta : F → Except PyError ℤ

/-- `RetryPolicy`. -/
structure BackoffPolicy (F : Type) where
  maxAttempts : ℕ
  maxAttempts_pos : 1 ≤ maxAttempts
  baseDelaySeconds : F
  maxDelaySeconds : F
  backoffMultiplier : F

section Policy

variable {F : Type}

/-- The delay after a number of failures. -/
def BackoffPolicy.delay (floats : FloatStdlib F) (policy : BackoffPolicy F)
    (failures : ℕ) : Except PyError ℤ := do
  let power ← floats.pow policy.backoffMultiplier (failures - 1)
  let delay := floats.mul policy.baseDelaySeconds power
  floats.timedelta (if floats.lt policy.maxDelaySeconds delay then policy.maxDelaySeconds
    else delay)

/-- The job under a policy. -/
def CronJobSpec.withPolicy (job : CronJobSpec) (floats : FloatStdlib F)
    (policy : BackoffPolicy F) : CronJobSpec :=
  { job with
    retryPolicy := { maxAttempts := policy.maxAttempts, delay := policy.delay floats } }

end Policy

/-! ## Occurrences -/

/-- The record of a job, and how many failed runs its current occurrence has had. -/
structure OccurrenceWorld where
  stored : Option CronJobState
  failedRuns : ℕ

/-- A tick, and how the run ends that it may start. -/
structure OccurrenceTick where
  now : Instant
  ending : RunEnding

/-- How and when a run ended; `none` if the process went down with it. -/
def RunEnding.finish : RunEnding → Option (JobRunStatus × Instant)
  | .ended (.returned result) => some (result.status, result.finishedAt)
  | .ended (.raised _ finishedAt) => some (.failed, finishedAt)
  | .ended .exited => none
  | .crashedBeforeStart => none
  | .crashedRunning => none

/-- What a run adds to the failed runs: one for a failed run that is retried, and the
occurrence is over after any other. -/
def failedRunsAfter (job : CronJobSpec) (state : CronJobState) (failedRuns : ℕ)
    (ending : RunEnding) : ℕ :=
  match ending.finish with
  | none => failedRuns
  | some (status, _) =>
    if status = .failed ∧ canRetry job (countFailure state) then failedRuns + 1 else 0

def OccurrenceWorld.step (std : CronStdlib) (job : CronJobSpec) (world : OccurrenceWorld)
    (tick : OccurrenceTick) : OccurrenceWorld where
  stored := recordAfterVisit std job tick.now world.stored tick.ending
  failedRuns :=
    match startsFrom std job tick.now world.stored with
    | none => world.failedRuns
    | some state => failedRunsAfter job state world.failedRuns tick.ending

/-- A job that was never seen. -/
def OccurrenceWorld.unseen : OccurrenceWorld where
  stored := none
  failedRuns := 0

/-- The history of a job over a sequence of ticks. -/
abbrev occurrences (std : CronStdlib) (job : CronJobSpec) (ticks : List OccurrenceTick) :
    Trace OccurrenceWorld OccurrenceTick :=
  history (OccurrenceWorld.step std job) OccurrenceWorld.unseen ticks

/-! ## The law of the retries -/

/-- The status of a job after a run. -/
def statusAfter : JobRunStatus → CronJobStatus
  | .succeeded => .succeeded
  | .failed => .failed
  | .skipped => .idle

/-- When a job runs next after a run of an occurrence that has had these failed runs
before. -/
def runsNext (std : CronStdlib) (job : CronJobSpec) (failedRuns : ℕ)
    (status : JobRunStatus) (finishedAt : Instant) : Except PyError Instant :=
  if status = .failed ∧ failedRuns + 1 < job.retryPolicy.maxAttempts then do
    let delay ← job.retryPolicy.delay (failedRuns + 1)
    pure (finishedAt + delay)
  else scheduleNextRun std job finishedAt

/-- A run that ends is recorded with its status and the time of the next run, and an
occurrence that is given up has had all its attempts. -/
def KeepsBudget (std : CronStdlib) (job : CronJobSpec) (world : OccurrenceWorld)
    (tick : OccurrenceTick) (next : OccurrenceWorld) : Prop :=
  startsFrom std job tick.now world.stored ≠ none →
    ∀ status finishedAt, tick.ending.finish = some (status, finishedAt) →
      (∃ record nextRunAt, next.stored = some record ∧
        record.status = statusAfter status ∧ record.nextRunAt = some nextRunAt ∧
          runsNext std job world.failedRuns status finishedAt = .ok nextRunAt) ∧
      (status = .failed → next.failedRuns = 0 →
        world.failedRuns + 1 = job.retryPolicy.maxAttempts)

/-- The text of an exception can be recorded. -/
def RunEnding.Reportable : RunEnding → Prop
  | .ended (.raised message _) => Encodable message
  | _ => True

/-- The counted failures lead to the same retry as the failed runs of the occurrence. -/
structure SameRetry (job : CronJobSpec) (counted failedRuns : ℕ) : Prop where
  attempts : counted + 1 < job.retryPolicy.maxAttempts
  delay : ∃ delay, job.retryPolicy.delay (counted + 1) = .ok delay ∧
    job.retryPolicy.delay (failedRuns + 1) = .ok delay

/-- At a failed run that leaves the occurrence attempts, the counted failures are as good
as its own. -/
def CountsOccurrence (std : CronStdlib) (job : CronJobSpec) (world : OccurrenceWorld)
    (tick : OccurrenceTick) : Prop :=
  ∀ state, startsFrom std job tick.now world.stored = some state →
    tick.ending.Reportable ∧
      ∀ finishedAt, tick.ending.finish = some (.failed, finishedAt) →
        world.failedRuns + 1 < job.retryPolicy.maxAttempts →
          SameRetry job state.consecutiveFailures world.failedRuns

/-- The job can be scheduled, and the counted failures are at least those of the
occurrence, which has attempts left. -/
structure OccurrenceInv (std : CronStdlib) (job : CronJobSpec) (world : OccurrenceWorld) :
    Prop where
  attempts : world.failedRuns < job.retryPolicy.maxAttempts
  unseen : world.stored = none → world.failedRuns = 0
  schedulable : ∀ state, world.stored = some state → Schedulable std job
  counted : ∀ state, world.stored = some state →
    world.failedRuns ≤ state.consecutiveFailures

/-! ## One tick -/

variable {status : JobRunStatus} {finishedAt : Instant}

section Steps

variable {std : CronStdlib} {job : CronJobSpec} {now : Instant} {state : CronJobState}

theorem consecutiveFailures_le_consider :
    state.consecutiveFailures ≤ (consider job state now).1.consecutiveFailures := by
  unfold consider recoverStaleRunning
  cases hstale : isStale job state now with
  | false => cases henabled : job.enabled <;> simp
  | true => cases henabled : job.enabled <;> simp

/-- The code counts the failures since the last success. -/
theorem nextRun_eq (std : CronStdlib) (job : CronJobSpec) (state : CronJobState)
    (result : JobRunResult) :
    nextRun std job state result =
      runsNext std job state.consecutiveFailures result.status result.finishedAt := by
  have hretry : (result.status = .failed ∧ canRetry job (countFailure state) = true) ↔
      (result.status = .failed ∧ state.consecutiveFailures + 1 < job.retryPolicy.maxAttempts) :=
    and_congr_right fun _ => decide_eq_true_iff
  unfold nextRun runsNext
  simp only [hretry]
  simp only [nextRetryAt, countFailure, Nat.max_eq_right (Nat.le_add_left 1 _)]

theorem closedRecord_spec (state : CronJobState) (result : JobRunResult) (next : Instant) :
    (closedRecord state result next).status = statusAfter result.status ∧
      (closedRecord state result next).nextRunAt = some next ∧
      (result.status = .failed →
        (closedRecord state result next).consecutiveFailures = state.consecutiveFailures + 1) := by
  cases hstatus : result.status with
  | succeeded => simp [closedRecord, hstatus, statusAfter]
  | failed => simp [closedRecord, hstatus, statusAfter, countFailure, markFinished]
  | skipped => simp [closedRecord, hstatus, statusAfter]

variable {ending : RunEnding}

/-- What the scheduler takes for the result of a run that ended. -/
theorem exists_runResult (job : CronJobSpec) (state : CronJobState) (now : Instant)
    (hfinish : ending.finish = some (status, finishedAt)) :
    ∃ outcome, ending = .ended outcome ∧
      (ending.Reportable →
        ∃ result, runResult job state now outcome = .ok result ∧ result.status = status ∧
          result.finishedAt = finishedAt) ∧
      (¬ending.Reportable → ∃ raised, runResult job state now outcome = .error raised) := by
  cases ending with
  | crashedBeforeStart => simp [RunEnding.finish] at hfinish
  | crashedRunning => simp [RunEnding.finish] at hfinish
  | ended outcome =>
    refine ⟨outcome, rfl, ?_⟩
    cases outcome with
    | exited => simp [RunEnding.finish] at hfinish
    | returned result =>
      obtain ⟨rfl, rfl⟩ := Prod.mk.inj (Option.some.inj hfinish)
      exact ⟨fun _ => ⟨result, rfl, rfl, rfl⟩, fun hnot => absurd trivial hnot⟩
    | raised message at' =>
      obtain ⟨rfl, rfl⟩ := Prod.mk.inj (Option.some.inj hfinish)
      constructor
      · intro hencodable
        have htext : validateText message = .ok (trim message) := if_pos hencodable
        rw [runResult, htext]
        exact ⟨_, rfl, rfl, rfl⟩
      · intro hnot
        have htext : validateText message = .error .validationError := if_neg hnot
        rw [runResult, htext]
        exact ⟨_, rfl⟩

/-- A run that ends is closed, unless its message cannot be recorded or the time of the
next run cannot be computed. -/
theorem recordAfterRun_of_finish (std : CronStdlib) (job : CronJobSpec) (now : Instant)
    (loaded state : CronJobState) (hfinish : ending.finish = some (status, finishedAt)) :
    (∃ result next, ending.Reportable ∧ result.status = status ∧
        runsNext std job state.consecutiveFailures status finishedAt = .ok next ∧
        recordAfterRun std job now loaded state ending =
          closedRecord (startedRecord state now) result next) ∨
      ((ending.Reportable →
          ∀ next, runsNext std job state.consecutiveFailures status finishedAt ≠ .ok next) ∧
        recordAfterRun std job now loaded state ending = startedRecord state now) := by
  obtain ⟨outcome, rfl, hreported, hraised⟩ :=
    exists_runResult job (startedRecord state now) now hfinish
  by_cases hreportable : (RunEnding.ended outcome).Reportable
  · obtain ⟨result, hresult, rfl, rfl⟩ := hreported hreportable
    have hnext : nextRun std job (startedRecord state now) result =
        runsNext std job state.consecutiveFailures result.status result.finishedAt :=
      nextRun_eq std job (startedRecord state now) result
    have hrun : finishRun std (fun _ => outcome) job state now =
        (runsNext std job state.consecutiveFailures result.status result.finishedAt).map
          fun next => (result, closedRecord (startedRecord state now) result next) := by
      rw [finishRun, hresult, ← hnext]
      simp only [finishedRecord, bind, Except.bind]
      cases nextRun std job (startedRecord state now) result <;> rfl
    rw [recordAfterRun, hrun]
    cases hruns : runsNext std job state.consecutiveFailures result.status
        result.finishedAt with
    | ok next => exact .inl ⟨result, next, hreportable, rfl, rfl, rfl⟩
    | error raised => exact .inr ⟨fun _ _ => by simp, rfl⟩
  · obtain ⟨raised, hresult⟩ := hraised hreportable
    have hrun : finishRun std (fun _ => outcome) job state now = .error raised := by
      rw [finishRun, hresult]
      rfl
    refine .inr ⟨fun hother => absurd hother hreportable, ?_⟩
    rw [recordAfterRun, hrun]

theorem status_startedRecord_ne (state : CronJobState) (now : Instant)
    (status : JobRunStatus) : (startedRecord state now).status ≠ statusAfter status := by
  cases status <;> simp [startedRecord, markStarted, statusAfter]

/-- A run is recorded as its occurrence has it exactly when its message can be recorded
and both counts lead to the same next run. -/
theorem recorded_iff (std : CronStdlib) (job : CronJobSpec) (now : Instant)
    (loaded state : CronJobState) (failedRuns : ℕ)
    (hfinish : ending.finish = some (status, finishedAt)) :
    (∃ record nextRunAt,
        some (recordAfterRun std job now loaded state ending) = some record ∧
        record.status = statusAfter status ∧ record.nextRunAt = some nextRunAt ∧
          runsNext std job failedRuns status finishedAt = .ok nextRunAt) ↔
      ending.Reportable ∧ ∃ next,
        runsNext std job state.consecutiveFailures status finishedAt = .ok next ∧
          runsNext std job failedRuns status finishedAt = .ok next := by
  rcases recordAfterRun_of_finish std job now loaded state hfinish with
    ⟨result, next, hreportable, rfl, hnext, hrecord⟩ | ⟨hnone, hrecord⟩
  · rw [hrecord, hnext]
    obtain ⟨hstatus, hnextRunAt, _⟩ := closedRecord_spec (startedRecord state now) result next
    constructor
    · intro ⟨record, at', hsaved, _, hat, hlaw⟩
      obtain rfl := Option.some.inj hsaved
      obtain rfl := Option.some.inj (hnextRunAt.symm.trans hat)
      exact ⟨hreportable, next, rfl, hlaw⟩
    · rintro ⟨_, other, hother, hlaw⟩
      obtain rfl := Except.ok.inj hother
      exact ⟨_, next, rfl, hstatus, hnextRunAt, hlaw⟩
  · rw [hrecord]
    constructor
    · intro ⟨record, at', hsaved, hstatus, _⟩
      obtain rfl := Option.some.inj hsaved
      exact absurd hstatus (status_startedRecord_ne state now status)
    · rintro ⟨hreportable, next, hnext, _⟩
      exact absurd hnext (hnone hreportable next)

/-- Two counts lead to the same next run of a job that can be scheduled where they lead to
the same retry, or to none. -/
theorem exists_runsNext_iff (hschedulable : Schedulable std job) {counted failedRuns : ℕ}
    (hcounted : failedRuns ≤ counted) (status : JobRunStatus) (finishedAt : Instant) :
    ((∃ next, runsNext std job counted status finishedAt = .ok next ∧
        runsNext std job failedRuns status finishedAt = .ok next) ∧
      (status = .failed → failedRuns + 1 < job.retryPolicy.maxAttempts →
        counted + 1 < job.retryPolicy.maxAttempts)) ↔
      (status = .failed → failedRuns + 1 < job.retryPolicy.maxAttempts →
        SameRetry job counted failedRuns) := by
  obtain ⟨regular, hregular⟩ := (exists_scheduleNextRun_iff finishedAt).mpr hschedulable
  by_cases hleft : status = .failed ∧ failedRuns + 1 < job.retryPolicy.maxAttempts
  · by_cases hattempts : counted + 1 < job.retryPolicy.maxAttempts
    · have hcountedLeft : status = .failed ∧
          counted + 1 < job.retryPolicy.maxAttempts := ⟨hleft.1, hattempts⟩
      simp only [runsNext, if_pos hleft, if_pos hcountedLeft]
      constructor
      · rintro ⟨⟨next, hnext, hlaw⟩, _⟩ _ _
        obtain ⟨delay, hdelay, hnext⟩ := Loops.exists_of_bind_eq_ok hnext
        obtain ⟨other, hother, hlaw⟩ := Loops.exists_of_bind_eq_ok hlaw
        have hsame : finishedAt + other = finishedAt + delay :=
          (Except.ok.inj hlaw).trans (Except.ok.inj hnext).symm
        obtain rfl := add_left_cancel hsame
        exact ⟨hattempts, other, hdelay, hother⟩
      · intro hretry
        obtain ⟨delay, hdelay, hother⟩ := (hretry hleft.1 hleft.2).delay
        rw [hdelay, hother]
        exact ⟨⟨finishedAt + delay, rfl, rfl⟩, fun _ _ => hattempts⟩
    · constructor
      · exact fun hboth => absurd (hboth.2 hleft.1 hleft.2) hattempts
      · exact fun hretry => absurd (hretry hleft.1 hleft.2).attempts hattempts
  · have hcountedOver : ¬(status = .failed ∧ counted + 1 < job.retryPolicy.maxAttempts) :=
      fun hboth => hleft ⟨hboth.1, by omega⟩
    simp only [runsNext, if_neg hleft, if_neg hcountedOver, hregular]
    refine iff_of_true ⟨⟨regular, rfl, rfl⟩, ?_⟩ ?_
    · exact fun hfailed hattempts => absurd ⟨hfailed, hattempts⟩ hleft
    · exact fun hfailed hattempts => absurd ⟨hfailed, hattempts⟩ hleft

/-- A visit that starts the job leaves the record of its run. -/
theorem exists_loaded_of_startsFrom {stored : Option CronJobState}
    (hstart : startsFrom std job now stored = some state) (ending : RunEnding) :
    ∃ loaded, loadedState std job now stored = .ok loaded ∧
      loaded.consecutiveFailures ≤ state.consecutiveFailures ∧
      recordAfterVisit std job now stored ending =
        some (recordAfterRun std job now loaded state ending) := by
  unfold startsFrom at hstart
  unfold recordAfterVisit
  cases hload : loadedState std job now stored with
  | error raised =>
    rw [hload] at hstart
    exact absurd hstart (by simp)
  | ok loaded =>
    rw [hload] at hstart
    simp only at hstart
    cases hstarts : (consider job loaded now).2 with
    | false =>
      rw [hstarts] at hstart
      exact absurd hstart (by simp)
    | true =>
      rw [hstarts] at hstart
      obtain rfl := Option.some.inj hstart
      refine ⟨loaded, rfl, consecutiveFailures_le_consider, ?_⟩
      simp only [hstarts, if_true]

/-- The record of a job that is not started. -/
theorem recordAfterVisit_of_idle {stored : Option CronJobState}
    (hidle : startsFrom std job now stored = none) (ending : RunEnding) :
    (recordAfterVisit std job now stored ending = stored) ∨
      ∃ loaded, loadedState std job now stored = .ok loaded ∧
        recordAfterVisit std job now stored ending = some (consider job loaded now).1 := by
  unfold startsFrom at hidle
  unfold recordAfterVisit
  cases hload : loadedState std job now stored with
  | error raised => exact .inl rfl
  | ok loaded =>
    rw [hload] at hidle
    simp only at hidle
    cases hstarts : (consider job loaded now).2 with
    | true =>
      rw [hstarts] at hidle
      exact absurd hidle (by simp)
    | false =>
      refine .inr ⟨loaded, rfl, ?_⟩
      simp only [hstarts, Bool.false_eq_true, if_false]

theorem reportable_of_finish_none (hnone : ending.finish = none) : ending.Reportable := by
  cases ending with
  | crashedBeforeStart => trivial
  | crashedRunning => trivial
  | ended outcome =>
    cases outcome with
    | returned result => trivial
    | exited => trivial
    | raised message at' => simp [RunEnding.finish] at hnone

end Steps

/-! ## All ticks -/

section Ticks

variable {std : CronStdlib} {job : CronJobSpec} {world : OccurrenceWorld}
  {tick : OccurrenceTick}

/-- The record with which a visit begins is that of a job that can be scheduled. -/
theorem OccurrenceInv.of_loaded (hinv : OccurrenceInv std job world) {now : Instant}
    {loaded : CronJobState} (hload : loadedState std job now world.stored = .ok loaded) :
    Schedulable std job ∧ world.failedRuns ≤ loaded.consecutiveFailures := by
  cases hstored : world.stored with
  | some stored =>
    rw [hstored] at hload
    obtain rfl := Except.ok.inj hload
    exact ⟨hinv.schedulable stored hstored, hinv.counted stored hstored⟩
  | none =>
    rw [hinv.unseen hstored]
    rw [hstored] at hload
    have hfirst := (exists_loadedState_iff std job now none).mp ⟨loaded, hload⟩
    exact ⟨hfirst rfl, Nat.zero_le _⟩

theorem failedRuns_step {state : CronJobState}
    (hstart : startsFrom std job tick.now world.stored = some state)
    (hfinish : tick.ending.finish = some (status, finishedAt)) :
    (world.step std job tick).failedRuns =
      if status = .failed ∧ state.consecutiveFailures + 1 < job.retryPolicy.maxAttempts then
        world.failedRuns + 1
      else 0 := by
  have hretry : canRetry job (countFailure state) = true ↔
      state.consecutiveFailures + 1 < job.retryPolicy.maxAttempts := decide_eq_true_iff
  simp only [OccurrenceWorld.step, hstart, failedRunsAfter, hfinish, hretry]

theorem keepsBudget_iff (hinv : OccurrenceInv std job world) :
    KeepsBudget std job world tick (world.step std job tick) ↔
      CountsOccurrence std job world tick := by
  unfold KeepsBudget CountsOccurrence
  cases hstart : startsFrom std job tick.now world.stored with
  | none => simp
  | some state =>
    obtain ⟨loaded, hload, hle, hvisit⟩ := exists_loaded_of_startsFrom hstart tick.ending
    obtain ⟨hschedulable, hcounted⟩ := hinv.of_loaded hload
    cases hfinish : tick.ending.finish with
    | none =>
      have hreportable := reportable_of_finish_none hfinish
      simp [hreportable]
    | some run =>
      obtain ⟨status, finishedAt⟩ := run
      have hrecorded :=
        recorded_iff std job tick.now loaded state world.failedRuns hfinish
      have hnext :=
        exists_runsNext_iff hschedulable (hcounted.trans hle) status finishedAt
      have hover : (status = .failed → (world.step std job tick).failedRuns = 0 →
            world.failedRuns + 1 = job.retryPolicy.maxAttempts) ↔
          (status = .failed → world.failedRuns + 1 < job.retryPolicy.maxAttempts →
            state.consecutiveFailures + 1 < job.retryPolicy.maxAttempts) := by
        have hattempts := hinv.attempts
        rw [failedRuns_step hstart hfinish]
        refine imp_congr_right fun hfailed => ?_
        simp only [hfailed, true_and]
        split <;> omega
      have hstored : (world.step std job tick).stored =
          some (recordAfterRun std job tick.now loaded state tick.ending) := hvisit
      constructor
      · intro hkeeps other hother
        obtain rfl := Option.some.inj hother
        obtain ⟨hrecord, hgiven⟩ := hkeeps (by simp) status finishedAt rfl
        rw [hstored, hrecorded] at hrecord
        refine ⟨hrecord.1, ?_⟩
        intro other hother
        obtain ⟨rfl, rfl⟩ := Prod.mk.inj (Option.some.inj hother)
        exact hnext.mp ⟨hrecord.2, hover.mp hgiven⟩ rfl
      · intro hcounts _ other at' hother
        obtain ⟨rfl, rfl⟩ := Prod.mk.inj (Option.some.inj hother)
        obtain ⟨hreportable, hretry⟩ := hcounts state rfl
        obtain ⟨hboth, hattempts⟩ := hnext.mpr fun hfailed =>
          hretry finishedAt (by rw [hfailed])
        rw [hstored, hrecorded]
        exact ⟨⟨hreportable, hboth⟩, hover.mpr hattempts⟩

/-- The failed runs of an occurrence stay below its attempts and the counted failures. -/
theorem failedRuns_bounded {loaded state : CronJobState}
    (hattempts : world.failedRuns < job.retryPolicy.maxAttempts)
    (hloaded : world.failedRuns ≤ loaded.consecutiveFailures)
    (hcounted : world.failedRuns ≤ state.consecutiveFailures)
    (hstart : startsFrom std job tick.now world.stored = some state)
    (hstored : (world.step std job tick).stored =
      some (recordAfterRun std job tick.now loaded state tick.ending))
    (hkeeps : KeepsBudget std job world tick (world.step std job tick)) :
    (world.step std job tick).failedRuns < job.retryPolicy.maxAttempts ∧
      (world.step std job tick).failedRuns ≤
        (recordAfterRun std job tick.now loaded state tick.ending).consecutiveFailures := by
  cases hfinish : tick.ending.finish with
  | none =>
    have hsame : (world.step std job tick).failedRuns = world.failedRuns := by
      simp only [OccurrenceWorld.step, hstart, failedRunsAfter, hfinish]
    rw [hsame]
    refine ⟨hattempts, ?_⟩
    cases hending : tick.ending with
    | crashedBeforeStart => exact hloaded
    | crashedRunning => exact hcounted
    | ended outcome =>
      rw [hending] at hfinish
      cases outcome with
      | exited => exact hcounted
      | returned result => exact absurd hfinish (by simp [RunEnding.finish])
      | raised message at' => exact absurd hfinish (by simp [RunEnding.finish])
  | some run =>
    obtain ⟨status, finishedAt⟩ := run
    have hstarted : startsFrom std job tick.now world.stored ≠ none := by simp [hstart]
    obtain ⟨⟨record, at', hsaved, hstatus, _⟩, _⟩ := hkeeps hstarted status finishedAt hfinish
    obtain rfl := Option.some.inj (hstored.symm.trans hsaved)
    rw [failedRuns_step hstart hfinish]
    rcases recordAfterRun_of_finish std job tick.now loaded state hfinish with
      ⟨result, next, _, rfl, _, hrecord⟩ | ⟨_, hrecord⟩
    · have hcount := (closedRecord_spec (startedRecord state tick.now) result next).2.2
      rw [hrecord]
      split
      · rename_i hretried
        have hfailures := hcount hretried.1
        have hsame : (startedRecord state tick.now).consecutiveFailures =
            state.consecutiveFailures := rfl
        omega
      · exact ⟨by omega, Nat.zero_le _⟩
    · rw [hrecord] at hstatus
      exact absurd hstatus (status_startedRecord_ne state tick.now status)

theorem occurrenceInv_step (hinv : OccurrenceInv std job world)
    (hkeeps : KeepsBudget std job world tick (world.step std job tick)) :
    OccurrenceInv std job (world.step std job tick) := by
  cases hstart : startsFrom std job tick.now world.stored with
  | none =>
    have hsame : (world.step std job tick).failedRuns = world.failedRuns := by
      simp only [OccurrenceWorld.step, hstart]
    rcases recordAfterVisit_of_idle hstart tick.ending with hstored | ⟨loaded, hload, hvisit⟩
    · have hworld : world.step std job tick = world := by
        cases world
        simp only [OccurrenceWorld.step, OccurrenceWorld.mk.injEq] at hstored hsame ⊢
        exact ⟨hstored, hsame⟩
      rw [hworld]
      exact hinv
    · obtain ⟨hschedulable, hcounted⟩ := hinv.of_loaded hload
      have hstored : (world.step std job tick).stored =
          some (consider job loaded tick.now).1 := hvisit
      refine ⟨hsame ▸ hinv.attempts, ?_, fun _ _ => hschedulable, ?_⟩
      · exact fun hnone => absurd (hstored.symm.trans hnone) (by simp)
      · intro state hstate
        obtain rfl := Option.some.inj (hstored.symm.trans hstate)
        rw [hsame]
        exact hcounted.trans consecutiveFailures_le_consider
  | some state =>
    obtain ⟨loaded, hload, hle, hvisit⟩ := exists_loaded_of_startsFrom hstart tick.ending
    obtain ⟨hschedulable, hcounted⟩ := hinv.of_loaded hload
    have hstored : (world.step std job tick).stored =
        some (recordAfterRun std job tick.now loaded state tick.ending) := hvisit
    have hbounded := failedRuns_bounded hinv.attempts hcounted (hcounted.trans hle) hstart
      hstored hkeeps
    refine ⟨hbounded.1, ?_, fun _ _ => hschedulable, ?_⟩
    · exact fun hnone => absurd (hstored.symm.trans hnone) (by simp)
    · intro record hrecord
      obtain rfl := Option.some.inj (hstored.symm.trans hrecord)
      exact hbounded.2

theorem occurrenceInv_unseen (std : CronStdlib) (job : CronJobSpec)
    (hattempts : 0 < job.retryPolicy.maxAttempts) :
    OccurrenceInv std job OccurrenceWorld.unseen where
  attempts := hattempts
  unseen := fun _ => rfl
  schedulable := fun _ hstored => absurd hstored (by simp [OccurrenceWorld.unseen])
  counted := fun _ hstored => absurd hstored (by simp [OccurrenceWorld.unseen])

end Ticks

/-! ## A second failing occurrence -/

/-- Floats without a fraction, which are multiplied and compared like numbers. -/
def wholeFloats : FloatStdlib ℕ where
  mul := fun left right => left * right
  pow := fun base exponent => .ok (base ^ exponent)
  lt := fun left right => left < right
  timedelta := fun seconds => .ok (seconds * 1000000)

def twoAttempts : BackoffPolicy ℕ where
  maxAttempts := 2
  maxAttempts_pos := by decide
  baseDelaySeconds := 10
  maxDelaySeconds := 60
  backoffMultiplier := 2

/-- A tick whose run, if it starts one, fails at once. -/
def failingTick (now : Instant) : OccurrenceTick where
  now := now
  ending := .ended (.raised (py "boom") now)

/-- The first occurrence fails twice, and the second fails in its first run. -/
def failingOccurrences : List OccurrenceTick :=
  [failingTick 0, failingTick 60000000, failingTick 70000000, failingTick 120000000]

end RootSeeker.Cron
