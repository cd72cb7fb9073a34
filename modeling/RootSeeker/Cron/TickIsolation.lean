import RootSeeker.Core.Loops
import RootSeeker.Cron.Scheduler

/-!
# Jobs inside one tick

A tick stops at the first job whose state cannot be initialised or whose run
cannot be rescheduled, so the jobs behind it are not considered, and the job
itself stays marked as running.
-/

namespace RootSeeker.Cron

open Python Contracts

/-! ## Which jobs run, and which raise -/

section Conditions

variable (std : CronStdlib) (executor : CronExecutor) (job : CronJobSpec) (now : Instant)

/-- The record with which the visit begins. -/
def loadedState (stored : Option CronJobState) : Except PyError CronJobState :=
  match stored with
  | some state => .ok state
  | none => initialState std job now

/-- The record from which a job is started: it is enabled, due and below its limit. -/
def startsFrom (stored : Option CronJobState) : Option CronJobState :=
  match loadedState std job now stored with
  | .error _ => none
  | .ok state => if (consider job state now).2 then some (consider job state now).1 else none

/-- The next run after a run of this status can be computed. -/
def Reschedulable (failures : ℕ) (status : JobRunStatus) : Prop :=
  if status = .failed ∧ failures + 1 < job.retryPolicy.maxAttempts then
    ∃ delay, job.retryPolicy.delay (failures + 1) = .ok delay
  else Schedulable std job

/-- The run of the job ends with a result after which the job is rescheduled. -/
def RunCompletes (state : CronJobState) : Prop :=
  match executor job with
  | .returned result => Reschedulable std job state.consecutiveFailures result.status
  | .raised message _ => Encodable message ∧ Reschedulable std job state.consecutiveFailures .failed
  | .exited => False

/-- A job that cannot stop the tick: its first state can be computed, and if it is
started, its run completes. -/
structure Unhindered (stored : Option CronJobState) : Prop where
  initial : stored = none → Schedulable std job
  run : ∀ state, startsFrom std job now stored = some state →
    RunCompletes std executor job state

end Conditions

variable {result : JobRunResult} {raised : PyError} {finished : CronJobState}

section Records

variable {std : CronStdlib} {executor : CronExecutor} {job : CronJobSpec} {now : Instant}

theorem consider_jobId (state : CronJobState) : (consider job state now).1.jobId = state.jobId := by
  unfold consider recoverStaleRunning
  split <;> split <;> rfl

theorem finishedRecord_spec {state : CronJobState}
    (hok : finishedRecord std job state result = .ok finished) :
    finished.jobId = state.jobId ∧ finished.runCount = state.runCount + 1 ∧
      finished.status ≠ .running := by
  obtain ⟨next, _, hok⟩ := Loops.exists_of_bind_eq_ok hok
  obtain rfl := Except.ok.inj hok
  simp only [closedRecord]
  split
  · exact ⟨rfl, rfl, by simp⟩
  · exact ⟨rfl, rfl, by simp⟩
  · exact ⟨rfl, rfl, by simp⟩

theorem exists_finishedRecord_iff (std : CronStdlib) (job : CronJobSpec)
    (state : CronJobState) (result : JobRunResult) :
    (∃ finished, finishedRecord std job state result = .ok finished) ↔
      Reschedulable std job state.consecutiveFailures result.status := by
  have hnext : (∃ finished, finishedRecord std job state result = .ok finished) ↔
      ∃ next, nextRun std job state result = .ok next := by
    unfold finishedRecord
    cases nextRun std job state result <;> simp [bind, Except.bind, pure, Except.pure]
  have hretry : (result.status = .failed ∧ canRetry job (countFailure state) = true) ↔
      (result.status = .failed ∧ state.consecutiveFailures + 1 < job.retryPolicy.maxAttempts) :=
    and_congr_right fun _ => decide_eq_true_iff
  rw [hnext]
  unfold nextRun Reschedulable
  by_cases hfailed : result.status = .failed ∧
      state.consecutiveFailures + 1 < job.retryPolicy.maxAttempts
  · rw [if_pos hfailed, if_pos (hretry.mpr hfailed)]
    simp only [nextRetryAt, countFailure, Nat.max_eq_right (Nat.le_add_left 1 _)]
    cases job.retryPolicy.delay (state.consecutiveFailures + 1) <;>
      simp [bind, Except.bind, pure, Except.pure]
  · rw [if_neg hfailed, if_neg fun hboth => hfailed (hretry.mp hboth)]
    exact exists_scheduleNextRun_iff result.finishedAt

theorem exists_finishRun_iff {state : CronJobState} (now : Instant) :
    (∃ run, finishRun std executor job state now = .ok run) ↔
      RunCompletes std executor job state := by
  have hresult : ∀ {result : JobRunResult},
      (∃ run, (finishedRecord std job (startedRecord state now) result >>=
          fun finished => Except.ok (result, finished)) = .ok run) ↔
        Reschedulable std job state.consecutiveFailures result.status := by
    intro result
    have hiff := exists_finishedRecord_iff std job (startedRecord state now) result
    rw [← show (startedRecord state now).consecutiveFailures = state.consecutiveFailures
      from rfl, ← hiff]
    cases finishedRecord std job (startedRecord state now) result <;> simp [bind, Except.bind]
  unfold finishRun RunCompletes
  cases executor job with
  | returned result => exact hresult
  | exited => simp [runResult, bind, Except.bind]
  | raised message at' =>
    by_cases hencodable : Encodable message
    · simp only [runResult, validateText, hencodable, if_true, true_and]
      exact hresult
    · simp [runResult, validateText, hencodable, bind, Except.bind]

theorem exists_loadedState_iff (std : CronStdlib) (job : CronJobSpec) (now : Instant)
    (stored : Option CronJobState) :
    (∃ state, loadedState std job now stored = .ok state) ↔
      (stored = none → Schedulable std job) := by
  cases stored with
  | some state => simp [loadedState]
  | none =>
    rw [← exists_scheduleNextRun_iff now]
    simp only [loadedState, initialState, true_imp_iff]
    cases scheduleNextRun std job now <;> simp [bind, Except.bind, pure, Except.pure]

end Records

/-! ## What a visit does to the store -/

/-- Only the records of these jobs change, and runs are only added. -/
structure Touches (jobIds : List PyStr) (before after : CronStore) : Prop where
  others : ∀ jobId, jobId ∉ jobIds → after.getState jobId = before.getState jobId
  runs : ∃ added, after.runs = before.runs ++ added

namespace Touches

variable {jobIds : List PyStr} {first second third : CronStore}

theorem refl (jobIds : List PyStr) (store : CronStore) : Touches jobIds store store :=
  ⟨fun _ _ => rfl, [], (List.append_nil _).symm⟩

theorem trans (hleft : Touches jobIds first second) (hright : Touches jobIds second third) :
    Touches jobIds first third where
  others jobId hjobId := (hright.others jobId hjobId).trans (hleft.others jobId hjobId)
  runs := by
    obtain ⟨added, hadded⟩ := hleft.runs
    obtain ⟨more, hmore⟩ := hright.runs
    exact ⟨added ++ more, by rw [hmore, hadded, List.append_assoc]⟩

theorem mono {wider : List PyStr} (htouches : Touches jobIds first second)
    (hwider : jobIds ⊆ wider) : Touches wider first second where
  others jobId hjobId := htouches.others jobId fun hmem => hjobId (hwider hmem)
  runs := htouches.runs

theorem saveState {state : CronJobState} (hstate : state.jobId.val ∈ jobIds)
    (store : CronStore) : Touches jobIds store (store.saveState state) where
  others _ hjobId :=
    store.getState_saveState_of_ne fun heq => hjobId (heq ▸ hstate)
  runs := ⟨[], (List.append_nil _).symm⟩

theorem appendRun (result : JobRunResult) (store : CronStore) :
    Touches jobIds store (store.appendRun result) where
  others _ _ := rfl
  runs := ⟨[result], rfl⟩

end Touches

section Visit

variable {std : CronStdlib} {executor : CronExecutor} {job : CronJobSpec} {now : Instant}
  {store : CronStore} {state : CronJobState}

theorem stateFor_of_error
    (hload : loadedState std job now (store.getState job.jobId.val) = .error raised) :
    stateFor std job now store = .error raised := by
  unfold loadedState at hload
  unfold stateFor
  cases hget : store.getState job.jobId.val with
  | some stored =>
    rw [hget] at hload
    exact absurd hload (by simp)
  | none =>
    rw [hget] at hload
    simp only at hload
    simp [hload, bind, Except.bind]

theorem stateFor_of_ok (hload : loadedState std job now (store.getState job.jobId.val) = .ok state) :
    state.jobId.val = job.jobId.val ∧ ∃ next, stateFor std job now store = .ok (state, next) ∧
      Touches [job.jobId.val] store next := by
  unfold loadedState at hload
  unfold stateFor
  cases hget : store.getState job.jobId.val with
  | some stored =>
    rw [hget] at hload
    obtain rfl := Except.ok.inj hload
    exact ⟨CronStore.jobId_of_getState hget, store, rfl, Touches.refl _ _⟩
  | none =>
    rw [hget] at hload
    simp only at hload
    have hjobId : state.jobId = job.jobId := by
      obtain ⟨next, _, hinitial⟩ := Loops.exists_of_bind_eq_ok hload
      rw [← Except.ok.inj hinitial]
      rfl
    have hmem : state.jobId.val ∈ [job.jobId.val] := by
      rw [hjobId]
      exact List.mem_cons_self
    refine ⟨congrArg Subtype.val hjobId, store.saveState state, ?_, Touches.saveState hmem store⟩
    simp [hload, bind, Except.bind, pure, Except.pure]

theorem visit_of_error
    (hload : loadedState std job now (store.getState job.jobId.val) = .error raised) :
    visit std executor job now store = (.error raised, store) := by
  unfold visit
  rw [stateFor_of_error hload]

/-- A job that is not started only has its record saved. -/
theorem visit_of_idle (executor : CronExecutor)
    (hload : loadedState std job now (store.getState job.jobId.val) = .ok state)
    (hidle : startsFrom std job now (store.getState job.jobId.val) = none) :
    ∃ next, visit std executor job now store = (.ok none, next) ∧
      Touches [job.jobId.val] store next := by
  obtain ⟨hjobId, loaded, hloaded, htouches⟩ := stateFor_of_ok hload
  have hnot : (consider job state now).2 = false := by
    rw [startsFrom, hload] at hidle
    simpa using hidle
  have hmem : (consider job state now).1.jobId.val ∈ [job.jobId.val] := by
    rw [consider_jobId, hjobId]
    exact List.mem_cons_self
  refine ⟨loaded.saveState (consider job state now).1, ?_,
    htouches.trans (Touches.saveState hmem loaded)⟩
  unfold visit
  rw [hloaded]
  simp only [hnot, Bool.false_eq_true, if_false]

/-- A started job runs from the record that was considered. -/
theorem visit_of_start (executor : CronExecutor)
    (hstart : startsFrom std job now (store.getState job.jobId.val) = some state) :
    state.jobId.val = job.jobId.val ∧ ∃ loaded, Touches [job.jobId.val] store loaded ∧
      visit std executor job now store =
        ((runJob std executor job state now loaded).1.map some,
          (runJob std executor job state now loaded).2) := by
  unfold startsFrom at hstart
  cases hload : loadedState std job now (store.getState job.jobId.val) with
  | error raised =>
    rw [hload] at hstart
    exact absurd hstart (by simp)
  | ok stored =>
    rw [hload] at hstart
    simp only [Option.ite_none_right_eq_some, Option.some.injEq] at hstart
    obtain ⟨hstarts, hstate⟩ := hstart
    obtain ⟨hjobId, loaded, hloaded, htouches⟩ := stateFor_of_ok hload
    refine ⟨?_, loaded, htouches, ?_⟩
    · rw [← hstate, consider_jobId, hjobId]
    · unfold visit
      rw [hloaded]
      simp only [hstarts, if_true, hstate]

theorem runJob_of_completed
    (hfinish : finishRun std executor job state now = .ok (result, finished)) :
    runJob std executor job state now store =
      (.ok result, ((store.saveState (startedRecord state now)).saveState
        finished).appendRun result) := by
  simp only [runJob, hfinish]

theorem runJob_of_failure (hfinish : finishRun std executor job state now = .error raised) :
    runJob std executor job state now store =
      (.error raised, store.saveState (startedRecord state now)) := by
  simp only [runJob, hfinish]

theorem finishRun_spec (hfinish : finishRun std executor job state now = .ok (result, finished)) :
    finished.jobId = state.jobId ∧ finished.runCount = state.runCount + 1 ∧
      finished.status ≠ .running := by
  obtain ⟨other, _, hfinish⟩ := Loops.exists_of_bind_eq_ok hfinish
  obtain ⟨record, hrecord, hfinish⟩ := Loops.exists_of_bind_eq_ok hfinish
  obtain ⟨rfl, rfl⟩ := Prod.mk.inj (Except.ok.inj hfinish)
  have hspec := finishedRecord_spec hrecord
  exact hspec

theorem touches_runJob (hjobId : state.jobId.val = job.jobId.val) :
    Touches [job.jobId.val] store (runJob std executor job state now store).2 := by
  have hmem : (startedRecord state now).jobId.val ∈ [job.jobId.val] :=
    List.mem_singleton.mpr hjobId
  have hstarted : Touches [job.jobId.val] store
      (store.saveState (startedRecord state now)) := Touches.saveState hmem store
  cases hfinish : finishRun std executor job state now with
  | error raised =>
    rw [runJob_of_failure hfinish]
    exact hstarted
  | ok run =>
    obtain ⟨result, finished⟩ := run
    rw [runJob_of_completed hfinish]
    have hmem : finished.jobId.val ∈ [job.jobId.val] := by
      rw [(finishRun_spec hfinish).1, hjobId]
      exact List.mem_cons_self
    exact (hstarted.trans (Touches.saveState hmem _)).trans (Touches.appendRun result _)

theorem touches_visit : Touches [job.jobId.val] store (visit std executor job now store).2 := by
  cases hload : loadedState std job now (store.getState job.jobId.val) with
  | error raised =>
    rw [visit_of_error hload]
    exact Touches.refl _ _
  | ok loaded =>
    cases hstart : startsFrom std job now (store.getState job.jobId.val) with
    | none =>
      obtain ⟨next, hvisit, htouches⟩ := visit_of_idle executor hload hstart
      rw [hvisit]
      exact htouches
    | some state =>
      obtain ⟨hjobId, loaded, htouches, hvisit⟩ := visit_of_start executor hstart
      rw [hvisit]
      exact htouches.trans (touches_runJob hjobId)

/-- A visit does not raise exactly when its job is unhindered. -/
theorem visit_ok_iff :
    (∃ result, (visit std executor job now store).1 = .ok result) ↔
      Unhindered std executor job now (store.getState job.jobId.val) := by
  have hinitial :=
    exists_loadedState_iff std job now (store.getState job.jobId.val)
  cases hload : loadedState std job now (store.getState job.jobId.val) with
  | error raised =>
    rw [visit_of_error hload]
    refine iff_of_false (by simp) ?_
    intro hunhindered
    obtain ⟨state, hstate⟩ := hinitial.mpr hunhindered.initial
    exact absurd (hload.symm.trans hstate) (by simp)
  | ok loaded =>
    have hfirst := hinitial.mp ⟨loaded, hload⟩
    cases hstart : startsFrom std job now (store.getState job.jobId.val) with
    | none =>
      obtain ⟨next, hvisit, _⟩ := visit_of_idle executor hload hstart
      rw [hvisit]
      exact iff_of_true ⟨none, rfl⟩ ⟨hfirst, by simp [hstart]⟩
    | some state =>
      obtain ⟨_, ready, _, hvisit⟩ := visit_of_start executor hstart
      have hruns : Unhindered std executor job now (store.getState job.jobId.val) ↔
          RunCompletes std executor job state := by
        constructor
        · exact fun hunhindered => hunhindered.run state hstart
        · exact fun hcompletes => ⟨hfirst, fun other hother =>
            Option.some.inj (hstart.symm.trans hother) ▸ hcompletes⟩
      rw [hvisit, hruns, ← exists_finishRun_iff now]
      cases hfinish : finishRun std executor job state now with
      | error raised =>
        rw [runJob_of_failure hfinish]
        simp [Except.map]
      | ok run =>
        obtain ⟨result, finished⟩ := run
        rw [runJob_of_completed hfinish]
        simp [Except.map]

end Visit

/-! ## What a tick does to the store -/

def jobIds (jobs : List CronJobSpec) : List PyStr :=
  jobs.map fun job => job.jobId.val

section Tick

variable {std : CronStdlib} {executor : CronExecutor} {now : Instant}
  {before rest : List CronJobSpec} {job : CronJobSpec} {store : CronStore}

theorem tickJobs_cons_of_ok {result : Option JobRunResult}
    (hvisit : (visit std executor job now store).1 = .ok result) :
    (tickJobs std executor now (job :: rest) store).2 =
      (tickJobs std executor now rest (visit std executor job now store).2).2 := by
  rw [tickJobs, show visit std executor job now store =
    (.ok result, (visit std executor job now store).2) from Prod.ext hvisit rfl]

theorem tickJobs_cons_of_error (hvisit : (visit std executor job now store).1 = .error raised) :
    (tickJobs std executor now (job :: rest) store).2 = (visit std executor job now store).2 := by
  rw [tickJobs, show visit std executor job now store =
    (.error raised, (visit std executor job now store).2) from Prod.ext hvisit rfl]

theorem touches_tickJobs (jobs : List CronJobSpec) (store : CronStore) :
    Touches (jobIds jobs) store (tickJobs std executor now jobs store).2 := by
  induction jobs generalizing store with
  | nil => exact Touches.refl _ _
  | cons job rest ih =>
    have hvisit : Touches (jobIds (job :: rest)) store
        (visit std executor job now store).2 :=
      touches_visit.mono (List.cons_subset_cons _ (List.nil_subset _))
    cases houtcome : (visit std executor job now store).1 with
    | error raised =>
      rw [tickJobs_cons_of_error houtcome]
      exact hvisit
    | ok result =>
      rw [tickJobs_cons_of_ok houtcome]
      exact hvisit.trans ((ih _).mono (List.subset_cons_self _ _))

/-- A tick reaches a job behind jobs that are unhindered, with its record as it was. -/
theorem tickJobs_reaches (hnodup : (jobIds (before ++ job :: rest)).Nodup)
    (hbefore : ∀ other ∈ before,
      Unhindered std executor other now (store.getState other.jobId.val)) :
    ∃ reached, Touches (jobIds before) store reached ∧
      Touches (jobIds rest) (visit std executor job now reached).2
        (tickJobs std executor now (before ++ job :: rest) store).2 := by
  induction before generalizing store with
  | nil =>
    refine ⟨store, Touches.refl _ _, ?_⟩
    rw [List.nil_append]
    cases houtcome : (visit std executor job now store).1 with
    | error raised =>
      rw [tickJobs_cons_of_error houtcome]
      exact Touches.refl _ _
    | ok result =>
      rw [tickJobs_cons_of_ok houtcome]
      exact touches_tickJobs rest _
  | cons first before ih =>
    have hfirst : first.jobId.val ∉ jobIds (before ++ job :: rest) :=
      (List.nodup_cons.mp hnodup).1
    replace hnodup := (List.nodup_cons.mp hnodup).2
    obtain ⟨result, hresult⟩ := visit_ok_iff.mpr (hbefore first List.mem_cons_self)
    have hvisit : Touches [first.jobId.val] store
        (visit std executor first now store).2 := touches_visit
    have hrest : ∀ other ∈ before, Unhindered std executor other now
        ((visit std executor first now store).2.getState other.jobId.val) := by
      intro other hother
      have hne : other.jobId.val ∉ [first.jobId.val] := by
        intro hsame
        rw [List.mem_singleton] at hsame
        have hmem : other.jobId.val ∈ jobIds (before ++ job :: rest) :=
          List.mem_map_of_mem (List.mem_append_left _ hother)
        exact hfirst (hsame ▸ hmem)
      rw [hvisit.others _ hne]
      exact hbefore other (List.mem_cons_of_mem _ hother)
    obtain ⟨reached, hreached, hlater⟩ := ih hnodup hrest
    refine ⟨reached, ?_, ?_⟩
    · exact (hvisit.mono (List.cons_subset_cons _ (List.nil_subset _))).trans
        (hreached.mono (List.subset_cons_self _ _))
    · rw [List.cons_append, tickJobs_cons_of_ok hresult]
      exact hlater

/-- Behind a job that raises nothing happens to a job. -/
theorem tickJobs_stops (hnodup : (jobIds (before ++ job :: rest)).Nodup)
    (hhindered : ∃ other ∈ before,
      ¬Unhindered std executor other now (store.getState other.jobId.val)) :
    (tickJobs std executor now (before ++ job :: rest) store).2.getState job.jobId.val =
      store.getState job.jobId.val := by
  induction before generalizing store with
  | nil =>
    obtain ⟨_, hmem, _⟩ := hhindered
    exact absurd hmem List.not_mem_nil
  | cons first before ih =>
    have hfirst : first.jobId.val ∉ jobIds (before ++ job :: rest) :=
      (List.nodup_cons.mp hnodup).1
    replace hnodup := (List.nodup_cons.mp hnodup).2
    have hvisit : Touches [first.jobId.val] store
        (visit std executor first now store).2 := touches_visit
    have hne : ∀ {other : CronJobSpec}, other ∈ before ++ job :: rest →
        other.jobId.val ∉ [first.jobId.val] := by
      intro other hother hsame
      rw [List.mem_singleton] at hsame
      have hmem : other.jobId.val ∈ jobIds (before ++ job :: rest) :=
        List.mem_map_of_mem hother
      exact hfirst (hsame ▸ hmem)
    have hjob := hvisit.others _ (hne (List.mem_append_right before List.mem_cons_self))
    rw [List.cons_append]
    cases houtcome : (visit std executor first now store).1 with
    | error raised =>
      rw [tickJobs_cons_of_error houtcome]
      exact hjob
    | ok result =>
      rw [tickJobs_cons_of_ok houtcome, ih hnodup, hjob]
      obtain ⟨other, hother, hnot⟩ := hhindered
      rcases List.mem_cons.mp hother with rfl | hlater
      · exact absurd (visit_ok_iff.mp ⟨result, houtcome⟩) hnot
      · refine ⟨other, hlater, ?_⟩
        rw [hvisit.others _ (hne (List.mem_append_left _ hlater))]
        exact hnot

end Tick

theorem nodup_jobIds_jobsById (jobs : List CronJobSpec) :
    (jobIds ((jobsById jobs).map Prod.snd)).Nodup := by
  have hkeyed : ∀ entry ∈ jobsById jobs, entry.2.jobId.val = entry.1 := by
    unfold jobsById
    generalize hpairs : (jobs.map fun job => (job.jobId.val, job)) = pairs
    have hsource : ∀ entry ∈ pairs, entry.2.jobId.val = entry.1 := by
      rw [← hpairs]
      simp
    clear hpairs
    have hstep : ∀ (acc : Dict PyStr CronJobSpec),
        (∀ entry ∈ acc, entry.2.jobId.val = entry.1) →
          ∀ entry ∈ Dict.update acc pairs, entry.2.jobId.val = entry.1 := by
      induction pairs with
      | nil => exact fun acc hacc => hacc
      | cons pair pairs ih =>
        rw [List.forall_mem_cons] at hsource
        intro acc hacc
        exact ih hsource.2 _ (Dict.forall_mem_set
          (fun entry : PyStr × CronJobSpec => entry.2.jobId.val = entry.1) hacc hsource.1)
    exact hstep [] (by simp)
  have hids : jobIds ((jobsById jobs).map Prod.snd) = (jobsById jobs).keys := by
    rw [jobIds, List.map_map, Dict.keys]
    exact List.map_congr_left hkeyed
  rw [hids]
  exact Dict.nodup_keys_update (by simp [Dict.keys]) _

/-! ## Isolation -/

/-- The job was executed from this record, and its state and run were saved. -/
def Executed (std : CronStdlib) (executor : CronExecutor) (job : CronJobSpec)
    (now : Instant) (state : CronJobState) (store after : CronStore) : Prop :=
  ∃ result finished, finishRun std executor job state now = .ok (result, finished) ∧
    after.getState job.jobId.val = some finished ∧
      ∃ added, after.runs = store.runs ++ added ∧ result ∈ added

/-- Every enabled due job below its limit is executed, and none is left running. -/
structure JobsIsolated (std : CronStdlib) (executor : CronExecutor)
    (jobs : List CronJobSpec) (now : Instant) (store : CronStore) : Prop where
  executed : ∀ job ∈ (jobsById jobs).map Prod.snd, ∀ state,
    startsFrom std job now (store.getState job.jobId.val) = some state →
      Executed std executor job now state store (tick std executor jobs now store).2
  notRunning : ∀ job ∈ (jobsById jobs).map Prod.snd, ∀ state,
    startsFrom std job now (store.getState job.jobId.val) = some state →
      ∀ left, (tick std executor jobs now store).2.getState job.jobId.val = some left →
        left.status ≠ .running

section Isolation

variable {std : CronStdlib} {executor : CronExecutor} {now : Instant}
  {before rest : List CronJobSpec} {job : CronJobSpec} {store : CronStore}
  {state : CronJobState}

/-- A started record is not the record that the run ends with. -/
theorem runCount_of_startsFrom
    (hstart : startsFrom std job now (store.getState job.jobId.val) = some state)
    {stored : CronJobState} (hstored : store.getState job.jobId.val = some stored) :
    state.runCount = stored.runCount := by
  unfold startsFrom loadedState at hstart
  rw [hstored] at hstart
  simp only [Option.ite_none_right_eq_some, Option.some.injEq] at hstart
  rw [← hstart.2]
  unfold consider recoverStaleRunning
  split <;> split <;> rfl

theorem executed_of_reaches (hnodup : (jobIds (before ++ job :: rest)).Nodup)
    (hbefore : ∀ other ∈ before,
      Unhindered std executor other now (store.getState other.jobId.val))
    (hstart : startsFrom std job now (store.getState job.jobId.val) = some state)
    (hcompletes : RunCompletes std executor job state) :
    Executed std executor job now state store
      (tickJobs std executor now (before ++ job :: rest) store).2 := by
  obtain ⟨reached, htouches, hlater⟩ := tickJobs_reaches hnodup hbefore
  obtain ⟨hbeforeNodup, hjobNodup, hdisjoint⟩ := List.nodup_append.mp
    (show (jobIds before ++ job.jobId.val :: jobIds rest).Nodup by
      simpa [jobIds] using hnodup)
  have hbeforeJob : job.jobId.val ∉ jobIds before :=
    fun hmem => hdisjoint _ hmem _ List.mem_cons_self rfl
  have hrestJob := (List.nodup_cons.mp hjobNodup).1
  rw [← htouches.others _ hbeforeJob] at hstart
  obtain ⟨hjobId, loaded, hloaded, hvisit⟩ := visit_of_start executor hstart
  obtain ⟨⟨result, finished⟩, hfinish⟩ := (exists_finishRun_iff now).mpr hcompletes
  rw [hvisit, runJob_of_completed hfinish] at hlater
  have hid : finished.jobId.val = job.jobId.val := by
    rw [(finishRun_spec hfinish).1, hjobId]
  refine ⟨result, finished, hfinish, ?_, ?_⟩
  · rw [hlater.others _ hrestJob, CronStore.getState_appendRun, ← hid]
    exact CronStore.getState_saveState_self _ _
  · obtain ⟨first, hfirst⟩ := htouches.runs
    obtain ⟨second, hsecond⟩ := hloaded.runs
    obtain ⟨third, hthird⟩ := hlater.runs
    refine ⟨first ++ second ++ [result] ++ third, ?_, by simp⟩
    rw [hthird]
    simp only [CronStore.runs_appendRun, CronStore.runs_saveState, hsecond, hfirst,
      List.append_assoc]

theorem unhindered_of_executed (hnodup : (jobIds (before ++ job :: rest)).Nodup)
    (hstart : startsFrom std job now (store.getState job.jobId.val) = some state)
    (hexecuted : Executed std executor job now state store
      (tickJobs std executor now (before ++ job :: rest) store).2) :
    (∀ other ∈ before,
        Unhindered std executor other now (store.getState other.jobId.val)) ∧
      RunCompletes std executor job state := by
  obtain ⟨result, finished, hfinish, hsaved, _⟩ := hexecuted
  refine ⟨?_, (exists_finishRun_iff now).mp ⟨_, hfinish⟩⟩
  intro other hother
  by_contra hhindered
  rw [tickJobs_stops hnodup ⟨other, hother, hhindered⟩] at hsaved
  have hcount := (finishRun_spec hfinish).2.1
  rw [runCount_of_startsFrom hstart hsaved] at hcount
  omega

end Isolation

/-! ## A job that cannot be parsed -/

/-- One time zone whose wall clock shows the instant. -/
def utcStdlib : CronStdlib :=
  { numberStdlib with
    Zone := Unit
    zoneInfo := fun _ => .ok ()
    toLocal := fun _ instant => instant
    toUtc := fun _ wall => wall
    sha256Head := fun _ => 0 }

def jobWith (jobId schedule : String) (hjobId : py jobId ≠ []) (hschedule : py schedule ≠ []) :
    CronJobSpec where
  jobId := RequiredStr.ofLiteral jobId hjobId
  schedule := RequiredStr.ofLiteral schedule hschedule
  timezone := py "UTC"
  enabled := true
  maxConcurrentRuns := 1
  maxConcurrentRuns_pos := le_refl 1
  retryPolicy := { maxAttempts := 1, delay := fun _ => .ok 30000000 }
  staleAfter := 900000000
  staleAfter_pos := by decide
  metadata := Mapping.empty

def unparsedJob : CronJobSpec :=
  jobWith "cron.a" "every minute" (by decide) (by decide)

def minutelyJob : CronJobSpec :=
  jobWith "cron.b" "* * * * *" (by decide) (by decide)

def dueState : CronJobState :=
  { CronJobState.new minutelyJob.jobId 0 with nextRunAt := some 0 }

def dueStore : CronStore where
  states := [(minutelyJob.jobId.val, dueState)]
  runs := []
  keyed := by simp [dueState, CronJobState.new]

def succeedingExecutor : CronExecutor := fun job =>
  .returned
    { jobId := job.jobId.val
      status := .succeeded
      startedAt := 0
      finishedAt := 1
      attempt := 1
      message := [] }

end RootSeeker.Cron
