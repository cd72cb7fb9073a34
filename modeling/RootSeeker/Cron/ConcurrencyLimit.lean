import RootSeeker.Cron.CrashedRuns

/-!
# The concurrency limit

Several processes tick the job and run it by hand over one shared record.  Every
read and every save of the record is a step of its own, so the limit is checked
on a record that may no longer be the stored one when the run is counted.
-/

namespace RootSeeker.Cron

open Python Contracts Transition

/-! ## Processes over one record -/

/-- Where a process stands in a tick or in a manual run.  Each process works with the
job as it was configured when its call began. -/
inductive Phase where
  | idle
  /-- `run_job_now` before it reads the record. -/
  | manual (job : CronJobSpec) (now : Instant)
  /-- It has read a running record that it takes for stuck. -/
  | clearing (job : CronJobSpec) (now : Instant) (seen : CronJobState)
  | marking (job : CronJobSpec) (now : Instant)
  /-- `_mark_job_due` has read the record. -/
  | marked (job : CronJobSpec) (now : Instant) (seen : Option CronJobState)
  /-- The tick comes to the job. -/
  | visiting (job : CronJobSpec) (now : Instant)
  | unseen (job : CronJobSpec) (now : Instant) (initial : CronJobState)
  | loaded (job : CronJobSpec) (now : Instant) (state : CronJobState)
  /-- The run is counted; its executor has not started. -/
  | starting (job : CronJobSpec) (startedAt : Instant) (state : CronJobState)
  | executing (job : CronJobSpec) (startedAt : Instant) (state : CronJobState)
      (since : Instant)
  | executed (job : CronJobSpec) (state : CronJobState) (since : Instant)
      (result : JobRunResult)

/-- The clock, the stored record of the job and where every process stands. -/
structure Cluster (ι : Type*) where
  clock : Instant
  stored : Option CronJobState
  phase : ι → Phase

inductive ClusterStep (ι : Type*) where
  | advance (clock : Instant)
  | beginTick (process : ι) (job : CronJobSpec) (now : Instant)
  | beginManual (process : ι) (job : CronJobSpec)
  | proceed (process : ι)
  | finish (process : ι) (outcome : ExecutorOutcome)

/-- A manual run that finds the record running since less than this time is skipped. -/
def manualGrace : ℤ := 5000000

/-- A running record that was started just now, so that a manual run leaves it alone. -/
def justStarted (state : CronJobState) (now : Instant) : Bool :=
  match state.lastStartedAt with
  | none => false
  | some started => now - started < manualGrace

/-- What a manual run makes of a record that it takes for stuck. -/
def clearedRecord (state : CronJobState) (now : Instant) : CronJobState :=
  { state with
    status := .idle
    runningCount := 0
    lastError := some (py "cleared stuck running state before manual run")
    updatedAt := now }

/-- The next step of a process, with the record that it leaves. -/
def Phase.next (std : CronStdlib) (clock : Instant) (stored : Option CronJobState) :
    Phase → Option (Phase × Option CronJobState)
  | .idle => none
  | .manual job now =>
    let seen := stored.getD (CronJobState.new job.jobId now)
    if seen.status = .running then
      if justStarted seen now then some (.idle, stored)
      else some (.clearing job now seen, stored)
    else some (.marking job now, stored)
  | .clearing job now seen => some (.marking job now, some (clearedRecord seen now))
  | .marking job now => some (.marked job now stored, stored)
  | .marked job now seen => some (.visiting job now, some (markJobDue job now seen))
  | .visiting job now =>
    match stored with
    | some state => some (.loaded job now state, stored)
    | none =>
      match initialState std job now with
      | .error _ => some (.idle, stored)
      | .ok initial => some (.unseen job now initial, stored)
  | .unseen job now initial => some (.loaded job now initial, some initial)
  | .loaded job now state =>
    let (considered, starts) := consider job state now
    if starts then
      some (.starting job now (startedRecord considered now),
        some (startedRecord considered now))
    else some (.idle, some considered)
  | .starting job startedAt state => some (.executing job startedAt state clock, stored)
  | .executing _ _ _ _ => none
  | .executed job state _ result =>
    match finishedRecord std job state result with
    | .error _ => some (.idle, stored)
    | .ok finished => some (.idle, some finished)

/-- How the executor of a process ends. -/
def Phase.finish (outcome : ExecutorOutcome) : Phase → Option Phase
  | .executing job startedAt state since =>
    match runResult job state startedAt outcome with
    | .error _ => some .idle
    | .ok result => some (.executed job state since result)
  | _ => none

def Phase.begin (phase called : Phase) : Option Phase :=
  match phase with
  | .idle => some called
  | _ => none

/-- The job may be configured anew, but with the limits of `job`. -/
def SameLimits (job configured : CronJobSpec) : Prop :=
  configured.maxConcurrentRuns = job.maxConcurrentRuns ∧
    configured.staleAfter = job.staleAfter

instance (job configured : CronJobSpec) : Decidable (SameLimits job configured) :=
  inferInstanceAs (Decidable (_ ∧ _))

section System

variable {ι : Type*} [DecidableEq ι]

/-- The process goes on in this phase, and this record is stored. -/
def Cluster.set (cluster : Cluster ι) (process : ι) (phase : Phase)
    (stored : Option CronJobState) : Cluster ι where
  clock := cluster.clock
  stored := stored
  phase := Function.update cluster.phase process phase

def Cluster.step (std : CronStdlib) (job : CronJobSpec) (cluster : Cluster ι) :
    ClusterStep ι → Option (Cluster ι)
  | .advance clock => if cluster.clock ≤ clock then some { cluster with clock := clock } else none
  | .beginTick process configured now =>
    if SameLimits job configured then
      ((cluster.phase process).begin (.visiting configured now)).map
        (cluster.set process · cluster.stored)
    else none
  | .beginManual process configured =>
    if SameLimits job configured then
      ((cluster.phase process).begin
          (.manual { configured with enabled := true } cluster.clock)).map
        (cluster.set process · cluster.stored)
    else none
  | .proceed process =>
    ((cluster.phase process).next std cluster.clock cluster.stored).map
      fun (phase, stored) => cluster.set process phase stored
  | .finish process outcome =>
    ((cluster.phase process).finish outcome).map (cluster.set process · cluster.stored)

/-- The runs of the processes over the record of the job. -/
abbrev ClusterRuns (std : CronStdlib) (job : CronJobSpec) (start : Cluster ι)
    (trace : Trace (Cluster ι) (ClusterStep ι)) : Prop :=
  Follows (fun cluster label next => cluster.step std job label = some next) start trace

/-- The state in which no process has begun a call. -/
def Cluster.initial (clock : Instant) (stored : Option CronJobState) : Cluster ι where
  clock := clock
  stored := stored
  phase := fun _ => .idle

end System

/-! ## Runs in flight -/

def countedRuns (stored : Option CronJobState) : ℕ :=
  stored.elim 0 CronJobState.runningCount

/-- The job with which the process works. -/
def Phase.job? : Phase → Option CronJobSpec
  | .idle => none
  | .manual job _ | .clearing job _ _ | .marking job _ | .marked job _ _
  | .visiting job _ | .unseen job _ _ | .loaded job _ _ | .starting job _ _
  | .executing job _ _ _ | .executed job _ _ _ => some job

section Limit

variable {ι : Type*}

/-- The executor of the process has started and is not yet stale. -/
def InFlight (job : CronJobSpec) (cluster : Cluster ι) (process : ι) : Prop :=
  match cluster.phase process with
  | .executing _ _ _ since => cluster.clock < since + job.staleAfter
  | _ => False

/-- The run of the process is counted, has not been written back and is not yet
stale. -/
def OpenRun (job : CronJobSpec) (clock : Instant) : Phase → Prop
  | .starting _ _ _ => True
  | .executing _ _ _ since => clock < since + job.staleAfter
  | .executed _ _ since _ => clock < since + job.staleAfter
  | _ => False

def Cluster.Open (job : CronJobSpec) (cluster : Cluster ι) (process : ι) : Prop :=
  OpenRun job cluster.clock (cluster.phase process)

/-- What the step of a process asks of the state in which it is taken: no run was
counted since the record was read, and counts are cleared only where every open run is
stale. -/
def Undisturbed (std : CronStdlib) (job : CronJobSpec) (cluster : Cluster ι) :
    ClusterStep ι → Prop
  | .proceed process =>
    match cluster.phase process with
    | .clearing _ _ _ => ∀ other, ¬cluster.Open job other
    | .marked _ _ seen => countedRuns cluster.stored ≤ countedRuns seen
    | .unseen _ _ _ => countedRuns cluster.stored = 0
    | .loaded configured now state =>
      if isStale configured state now then ∀ other, ¬cluster.Open job other
      else countedRuns cluster.stored ≤ state.runningCount
    | .executed configured state since result =>
      Reschedulable std configured state.consecutiveFailures result.status →
        countedRuns cluster.stored ≤ state.runningCount ∧
          (cluster.clock < since + job.staleAfter ∨
            ∀ other, other ≠ process → ¬cluster.Open job other)
    | _ => True
  | _ => True

/-- In every state of the run at most `maxConcurrentRuns` runs are in flight. -/
def WithinLimit (job : CronJobSpec) (trace : Trace (Cluster ι) (ClusterStep ι)) : Prop :=
  ∀ entry ∈ trace, ∀ processes : Finset ι,
    (∀ process ∈ processes, InFlight job entry.2 process) →
      processes.card ≤ job.maxConcurrentRuns

/-- The record counts the open runs, which are within the limit. -/
def OpenRunsCounted (job : CronJobSpec) (cluster : Cluster ι) : Prop :=
  ∀ processes : Finset ι, (∀ process ∈ processes, cluster.Open job process) →
    processes.card ≤ countedRuns cluster.stored ∧ processes.card ≤ job.maxConcurrentRuns

/-- Every process works under the limits of the job. -/
def LimitsShared (job : CronJobSpec) (cluster : Cluster ι) : Prop :=
  ∀ process, ∀ configured ∈ (cluster.phase process).job?, SameLimits job configured

/-- What undisturbed steps keep. -/
structure Orderly (job : CronJobSpec) (cluster : Cluster ι) : Prop where
  counted : OpenRunsCounted job cluster
  shared : LimitsShared job cluster

theorem open_of_inFlight {job : CronJobSpec} {cluster : Cluster ι} {process : ι}
    (hflight : InFlight job cluster process) : cluster.Open job process := by
  unfold InFlight at hflight
  unfold Cluster.Open
  cases hphase : cluster.phase process <;> rw [hphase] at hflight <;>
    first
    | exact hflight
    | exact hflight.elim

end Limit

/-! ## What a step does to the open runs -/

variable {state : CronJobState}

section Steps

variable {ι : Type*} [DecidableEq ι] {std : CronStdlib} {job configured : CronJobSpec}
  {cluster next : Cluster ι} {process other : ι} {phase : Phase}
  {stored : Option CronJobState}

theorem open_set_self :
    (cluster.set process phase stored).Open job process ↔ OpenRun job cluster.clock phase := by
  simp [Cluster.Open, Cluster.set]

theorem open_set_of_ne (hne : other ≠ process) :
    (cluster.set process phase stored).Open job other ↔ cluster.Open job other := by
  simp [Cluster.Open, Cluster.set, hne]

/-- A process that does not go on with a run opens none. -/
theorem open_of_open_set (hphase : ¬OpenRun job cluster.clock phase)
    (hopen : (cluster.set process phase stored).Open job other) :
    other ≠ process ∧ cluster.Open job other := by
  by_cases heq : other = process
  · rw [heq] at hopen
    exact absurd (open_set_self.mp hopen) hphase
  · exact ⟨heq, (open_set_of_ne heq).mp hopen⟩

omit [DecidableEq ι] in
theorem OpenRunsCounted.mono (hcounted : OpenRunsCounted job cluster)
    (hopen : ∀ other, next.Open job other → cluster.Open job other)
    (hcount : countedRuns cluster.stored ≤ countedRuns next.stored) : OpenRunsCounted job next := by
  intro processes hprocesses
  obtain ⟨hstored, hlimit⟩ := hcounted processes fun process hmem =>
    hopen process (hprocesses process hmem)
  exact ⟨hstored.trans hcount, hlimit⟩

omit [DecidableEq ι] in
theorem openRunsCounted_of_none (hnone : ∀ other, ¬cluster.Open job other) :
    OpenRunsCounted job cluster := by
  intro processes hprocesses
  have hempty : processes = ∅ :=
    Finset.eq_empty_of_forall_notMem fun process hmem =>
      hnone process (hprocesses process hmem)
  rw [hempty]
  exact ⟨Nat.zero_le _, Nat.zero_le _⟩

/-- A step that keeps the record and opens no run. -/
theorem OpenRunsCounted.keep (hcounted : OpenRunsCounted job cluster)
    (hphase : ¬OpenRun job cluster.clock phase)
    (hcount : countedRuns cluster.stored ≤ countedRuns stored) :
    OpenRunsCounted job (cluster.set process phase stored) := by
  apply hcounted.mono
  · exact fun other hopen => (open_of_open_set hphase hopen).2
  · exact hcount

/-- Nothing is open after a step that opens no run where nothing was open. -/
theorem openRunsCounted_of_cleared (hphase : ¬OpenRun job cluster.clock phase)
    (hnone : ∀ other, ¬cluster.Open job other) :
    OpenRunsCounted job (cluster.set process phase stored) :=
  openRunsCounted_of_none fun other hopen =>
    hnone other (open_of_open_set hphase hopen).2

/-- A run is opened from a record that counts the runs that are open. -/
theorem openRunsCounted_of_started {count : ℕ}
    (hothers : ∀ processes : Finset ι, (∀ process ∈ processes, cluster.Open job process) →
      processes.card ≤ count)
    (hlimit : count < job.maxConcurrentRuns) (hstored : countedRuns stored = count + 1) :
    OpenRunsCounted job (cluster.set process phase stored) := by
  intro processes hprocesses
  have herase : (processes.erase process).card ≤ count := by
    apply hothers
    intro other hmem
    obtain ⟨hne, hother⟩ := Finset.mem_erase.mp hmem
    exact (open_set_of_ne hne).mp (hprocesses other hother)
  have hcard : processes.card ≤ count + 1 := by
    have := Finset.pred_card_le_card_erase (s := processes) (a := process)
    omega
  have hset : countedRuns (cluster.set process phase stored).stored = count + 1 := hstored
  rw [hset]
  exact ⟨hcard, hcard.trans hlimit⟩

/-- A run is written back beside the other open runs. -/
theorem OpenRunsCounted.writeBack {finished : CronJobState}
    (hcounted : OpenRunsCounted job cluster) (hphase : ¬OpenRun job cluster.clock phase)
    (hcount : countedRuns cluster.stored ≤ state.runningCount)
    (hfinished : finished.runningCount = state.runningCount - 1)
    (hyoung : cluster.Open job process ∨
      ∀ other, other ≠ process → ¬cluster.Open job other) :
    OpenRunsCounted job (cluster.set process phase (some finished)) := by
  obtain hopen | hnone := hyoung
  · intro processes hprocesses
    have hothers : ∀ other ∈ processes, other ≠ process ∧ cluster.Open job other :=
      fun other hmem => open_of_open_set hphase (hprocesses other hmem)
    have hnotMem : process ∉ processes := fun hmem => (hothers process hmem).1 rfl
    obtain ⟨hstored, hlimit⟩ := hcounted (insert process processes) (by
      intro other hmem
      obtain rfl | hmem := Finset.mem_insert.mp hmem
      · exact hopen
      · exact (hothers other hmem).2)
    rw [Finset.card_insert_of_notMem hnotMem] at hstored hlimit
    have hset : countedRuns (cluster.set process phase (some finished)).stored =
        state.runningCount - 1 := hfinished
    rw [hset]
    omega
  · apply openRunsCounted_of_none
    intro other hopen
    obtain ⟨hne, hother⟩ := open_of_open_set hphase hopen
    exact hnone other hne hother

theorem LimitsShared.set (hshared : LimitsShared job cluster)
    (hphase : ∀ configured ∈ phase.job?, SameLimits job configured) :
    LimitsShared job (cluster.set process phase stored) := by
  intro other configured hconfigured
  by_cases heq : other = process
  · rw [heq] at hconfigured
    apply hphase
    simpa [Cluster.set] using hconfigured
  · apply hshared other
    simpa [Cluster.set, heq] using hconfigured

/-- A process goes on with its job or ends its call. -/
theorem job?_of_next {clock : Instant} {record : Option CronJobState} {after : Phase}
    (hnext : phase.next std clock stored = some (after, record)) :
    ∀ configured ∈ after.job?, configured ∈ phase.job? := by
  cases phase <;> simp only [Phase.next] at hnext
  case idle | executing => exact absurd hnext (by simp)
  all_goals
    repeat' split at hnext
    all_goals
      obtain ⟨rfl, -⟩ := Prod.mk.inj (Option.some.inj hnext)
      intro configured hconfigured
      first
      | exact hconfigured
      | exact absurd hconfigured (by simp [Phase.job?])

theorem job?_of_finish {outcome : ExecutorOutcome} {after : Phase}
    (hfinish : phase.finish outcome = some after) :
    ∀ configured ∈ after.job?, configured ∈ phase.job? := by
  cases phase <;> simp only [Phase.finish] at hfinish
  case executing =>
    split at hfinish <;> obtain rfl := Option.some.inj hfinish
    · exact fun _ hconfigured => absurd hconfigured (by simp [Phase.job?])
    · exact fun _ hconfigured => hconfigured
  all_goals exact absurd hfinish (by simp)

theorem eq_of_begin {called after : Phase} (hbegin : phase.begin called = some after) :
    after = called := by
  cases phase <;> simp only [Phase.begin] at hbegin
  case idle => exact (Option.some.inj hbegin).symm
  all_goals exact absurd hbegin (by simp)

variable {label : ClusterStep ι}

theorem limitsShared_step (hshared : LimitsShared job cluster)
    (hstep : cluster.step std job label = some next) : LimitsShared job next := by
  cases label <;> simp only [Cluster.step] at hstep
  case advance clock =>
    split at hstep
    · obtain rfl := Option.some.inj hstep
      exact hshared
    · exact absurd hstep (by simp)
  case beginTick process called now =>
    split at hstep
    next hsame =>
      obtain ⟨after, hbegin, rfl⟩ := Option.map_eq_some_iff.mp hstep
      apply hshared.set
      rintro configured hconfigured
      rw [eq_of_begin hbegin] at hconfigured
      obtain rfl := Option.some.inj hconfigured
      exact hsame
    next => exact absurd hstep (by simp)
  case beginManual process called =>
    split at hstep
    next hsame =>
      obtain ⟨after, hbegin, rfl⟩ := Option.map_eq_some_iff.mp hstep
      apply hshared.set
      rintro configured hconfigured
      rw [eq_of_begin hbegin] at hconfigured
      obtain rfl := Option.some.inj hconfigured
      exact hsame
    next => exact absurd hstep (by simp)
  case proceed process =>
    obtain ⟨⟨after, record⟩, hnext, rfl⟩ := Option.map_eq_some_iff.mp hstep
    apply hshared.set
    intro configured hconfigured
    exact hshared process configured (job?_of_next hnext configured hconfigured)
  case finish process outcome =>
    obtain ⟨after, hfinish, rfl⟩ := Option.map_eq_some_iff.mp hstep
    apply hshared.set
    intro configured hconfigured
    exact hshared process configured (job?_of_finish hfinish configured hconfigured)

/-- A visit that starts the job found it below its limit. -/
theorem count_lt_of_starts {now : Instant} (hstarts : (consider configured state now).2 = true) :
    (consider configured state now).1.runningCount < configured.maxConcurrentRuns := by
  cases henabled : configured.enabled with
  | false =>
    rw [consider_of_disabled henabled] at hstarts
    exact absurd hstarts (by simp)
  | true =>
    rw [consider_of_enabled henabled] at hstarts ⊢
    have hcan := (Bool.and_eq_true_iff.mp hstarts).2
    exact of_decide_eq_true hcan

theorem count_consider_of_not_stale {now : Instant} (hstale : ¬isStale configured state now = true) :
    (consider configured state now).1.runningCount = state.runningCount := by
  unfold consider recoverStaleRunning
  rw [if_neg hstale]
  split <;> rfl

theorem count_finishedRecord {finished : CronJobState} {result : JobRunResult}
    (hfinished : finishedRecord std configured state result = .ok finished) :
    finished.runningCount = state.runningCount - 1 := by
  obtain ⟨next, _, hclosed⟩ := Loops.exists_of_bind_eq_ok hfinished
  rw [← Except.ok.inj hclosed]
  simp only [closedRecord]
  split <;> rfl

/-- The visit of an undisturbed process. -/
theorem openRunsCounted_loaded {now : Instant} {after : Phase} {record : Option CronJobState}
    (hcounted : OpenRunsCounted job cluster) (hsame : SameLimits job configured)
    (hundisturbed : if isStale configured state now then
        ∀ other, ¬cluster.Open job other
      else countedRuns cluster.stored ≤ state.runningCount)
    (hnext : (Phase.loaded configured now state).next std cluster.clock cluster.stored =
      some (after, record)) : OpenRunsCounted job (cluster.set process after record) := by
  have hothers : ∀ processes : Finset ι,
      (∀ process ∈ processes, cluster.Open job process) →
        processes.card ≤ (consider configured state now).1.runningCount := by
    intro processes hprocesses
    by_cases hstale : isStale configured state now = true
    · rw [if_pos hstale] at hundisturbed
      have hempty : processes = ∅ :=
        Finset.eq_empty_of_forall_notMem fun process hmem =>
          hundisturbed process (hprocesses process hmem)
      rw [hempty]
      exact Nat.zero_le _
    · rw [if_neg hstale] at hundisturbed
      rw [count_consider_of_not_stale hstale]
      exact (hcounted processes hprocesses).1.trans hundisturbed
  simp only [Phase.next] at hnext
  split at hnext
  next hstarts =>
    obtain ⟨rfl, rfl⟩ := Prod.mk.inj (Option.some.inj hnext)
    have hlimit := count_lt_of_starts hstarts
    rw [hsame.1] at hlimit
    exact openRunsCounted_of_started hothers hlimit rfl
  next =>
    obtain ⟨rfl, rfl⟩ := Prod.mk.inj (Option.some.inj hnext)
    have hidle : ¬OpenRun job cluster.clock .idle := id
    intro processes hprocesses
    have hopen : ∀ other ∈ processes, cluster.Open job other := fun other hmem =>
      (open_of_open_set hidle (hprocesses other hmem)).2
    exact ⟨hothers processes hopen, (hcounted processes hopen).2⟩

/-- What a process saves when it writes its run back. -/
theorem openRunsCounted_executed {since : Instant} {result : JobRunResult} {after : Phase}
    {record : Option CronJobState} (hcounted : OpenRunsCounted job cluster)
    (hphase : cluster.phase process = .executed configured state since result)
    (hundisturbed : Reschedulable std configured state.consecutiveFailures result.status →
      countedRuns cluster.stored ≤ state.runningCount ∧
        (cluster.clock < since + job.staleAfter ∨
          ∀ other, other ≠ process → ¬cluster.Open job other))
    (hnext : (Phase.executed configured state since result).next std cluster.clock
      cluster.stored = some (after, record)) :
    OpenRunsCounted job (cluster.set process after record) := by
  have hidle : ¬OpenRun job cluster.clock .idle := id
  simp only [Phase.next] at hnext
  cases hfinished : finishedRecord std configured state result with
  | error raised =>
    rw [hfinished] at hnext
    obtain ⟨rfl, rfl⟩ := Prod.mk.inj (Option.some.inj hnext)
    exact hcounted.keep hidle le_rfl
  | ok finished =>
    rw [hfinished] at hnext
    obtain ⟨rfl, rfl⟩ := Prod.mk.inj (Option.some.inj hnext)
    obtain ⟨hcount, hyoung⟩ := hundisturbed
      ((exists_finishedRecord_iff std configured state result).mp ⟨finished, hfinished⟩)
    apply hcounted.writeBack hidle hcount (count_finishedRecord hfinished)
    apply hyoung.imp_left
    intro hfresh
    rw [Cluster.Open, hphase]
    exact hfresh

theorem openRunsCounted_proceed {after : Phase} {record : Option CronJobState}
    (hcounted : OpenRunsCounted job cluster) (hshared : LimitsShared job cluster)
    (hundisturbed : Undisturbed std job cluster (.proceed process))
    (hnext : (cluster.phase process).next std cluster.clock cluster.stored =
      some (after, record)) : OpenRunsCounted job (cluster.set process after record) := by
  unfold Undisturbed at hundisturbed
  cases hphase : cluster.phase process <;> rw [hphase] at hnext <;>
    simp only [hphase] at hundisturbed
  case idle | executing => exact absurd hnext (by simp [Phase.next])
  case manual called now =>
    simp only [Phase.next] at hnext
    split at hnext
    · split at hnext <;> obtain ⟨rfl, rfl⟩ := Prod.mk.inj (Option.some.inj hnext)
      · exact hcounted.keep id le_rfl
      · exact hcounted.keep id le_rfl
    · obtain ⟨rfl, rfl⟩ := Prod.mk.inj (Option.some.inj hnext)
      exact hcounted.keep id le_rfl
  case clearing called now seen =>
    obtain ⟨rfl, rfl⟩ := Prod.mk.inj (Option.some.inj hnext)
    exact openRunsCounted_of_cleared id hundisturbed
  case marking called now =>
    obtain ⟨rfl, rfl⟩ := Prod.mk.inj (Option.some.inj hnext)
    exact hcounted.keep id le_rfl
  case marked called now seen =>
    obtain ⟨rfl, rfl⟩ := Prod.mk.inj (Option.some.inj hnext)
    apply hcounted.keep id
    apply hundisturbed.trans
    cases seen <;> exact le_rfl
  case visiting called now =>
    simp only [Phase.next] at hnext
    split at hnext
    · obtain ⟨rfl, rfl⟩ := Prod.mk.inj (Option.some.inj hnext)
      exact hcounted.keep id le_rfl
    · split at hnext <;> obtain ⟨rfl, rfl⟩ := Prod.mk.inj (Option.some.inj hnext)
      · exact hcounted.keep id le_rfl
      · exact hcounted.keep id le_rfl
  case unseen called now initial =>
    obtain ⟨rfl, rfl⟩ := Prod.mk.inj (Option.some.inj hnext)
    apply hcounted.keep id
    rw [hundisturbed]
    exact Nat.zero_le _
  case loaded called now state =>
    have hsame : SameLimits job called := by
      apply hshared process
      rw [hphase]
      rfl
    exact openRunsCounted_loaded hcounted hsame hundisturbed hnext
  case starting called startedAt state =>
    obtain ⟨rfl, rfl⟩ := Prod.mk.inj (Option.some.inj hnext)
    apply hcounted.mono
    · intro other hopen
      by_cases heq : other = process
      · rw [heq, Cluster.Open, hphase]
        trivial
      · exact (open_set_of_ne heq).mp hopen
    · exact le_rfl
  case executed called state since result =>
    exact openRunsCounted_executed hcounted hphase hundisturbed hnext

/-- The executor of a process ends: the run stays open until it is written back. -/
theorem openRunsCounted_finish {outcome : ExecutorOutcome} {after : Phase}
    (hcounted : OpenRunsCounted job cluster)
    (hfinish : (cluster.phase process).finish outcome = some after) :
    OpenRunsCounted job (cluster.set process after cluster.stored) := by
  cases hphase : cluster.phase process <;> rw [hphase] at hfinish
  case executing called startedAt state since =>
    simp only [Phase.finish] at hfinish
    split at hfinish <;> obtain rfl := Option.some.inj hfinish
    · exact hcounted.keep id le_rfl
    · apply hcounted.mono
      · intro other hopen
        by_cases heq : other = process
        · rw [heq] at hopen ⊢
          have hyoung := open_set_self.mp hopen
          rw [Cluster.Open, hphase]
          exact hyoung
        · exact (open_set_of_ne heq).mp hopen
      · exact le_rfl
  all_goals exact absurd hfinish (by simp [Phase.finish])

omit [DecidableEq ι] in
theorem openRunsCounted_advance {clock : Instant} (hcounted : OpenRunsCounted job cluster)
    (hclock : cluster.clock ≤ clock) : OpenRunsCounted job { cluster with clock := clock } := by
  apply hcounted.mono
  · intro other hopen
    unfold Cluster.Open at hopen ⊢
    cases hphase : cluster.phase other <;> simp only [hphase, OpenRun] at hopen ⊢
    case executing => exact lt_of_le_of_lt hclock hopen
    case executed => exact lt_of_le_of_lt hclock hopen
  · exact le_rfl

theorem openRunsCounted_step (hcounted : OpenRunsCounted job cluster)
    (hshared : LimitsShared job cluster) (hundisturbed : Undisturbed std job cluster label)
    (hstep : cluster.step std job label = some next) : OpenRunsCounted job next := by
  cases label <;> simp only [Cluster.step] at hstep
  case advance clock =>
    split at hstep
    next hclock =>
      obtain rfl := Option.some.inj hstep
      exact openRunsCounted_advance hcounted hclock
    next => exact absurd hstep (by simp)
  case beginTick process called now =>
    split at hstep
    · obtain ⟨after, hbegin, rfl⟩ := Option.map_eq_some_iff.mp hstep
      rw [eq_of_begin hbegin]
      exact hcounted.keep id le_rfl
    · exact absurd hstep (by simp)
  case beginManual process called =>
    split at hstep
    · obtain ⟨after, hbegin, rfl⟩ := Option.map_eq_some_iff.mp hstep
      rw [eq_of_begin hbegin]
      exact hcounted.keep id le_rfl
    · exact absurd hstep (by simp)
  case proceed process =>
    obtain ⟨⟨after, record⟩, hnext, rfl⟩ := Option.map_eq_some_iff.mp hstep
    exact openRunsCounted_proceed hcounted hshared hundisturbed hnext
  case finish process outcome =>
    obtain ⟨after, hfinish, rfl⟩ := Option.map_eq_some_iff.mp hstep
    exact openRunsCounted_finish hcounted hfinish

theorem orderly_step (horderly : Orderly job cluster)
    (hundisturbed : Undisturbed std job cluster label)
    (hstep : cluster.step std job label = some next) : Orderly job next where
  counted := openRunsCounted_step horderly.counted horderly.shared hundisturbed hstep
  shared := limitsShared_step horderly.shared hstep

end Steps

/-! ## Runs of the processes -/

section Runs

variable {ι : Type*} [DecidableEq ι] {std : CronStdlib} {job : CronJobSpec}
  {clock : Instant} {stored : Option CronJobState}
  {trace : Trace (Cluster ι) (ClusterStep ι)}

omit [DecidableEq ι] in
theorem orderly_initial : Orderly job (.initial clock stored : Cluster ι) where
  counted := openRunsCounted_of_none fun _ hopen => hopen
  shared := by
    intro _ _ hconfigured
    exact absurd hconfigured (by simp [Cluster.initial, Phase.job?])

/-- Where no step of a run is disturbed, the runs in flight stay within the limit. -/
theorem undisturbed_within_limit (hruns : ClusterRuns std job (.initial clock stored) trace)
    (hundisturbed : Guarded (Undisturbed std job) (.initial clock stored) trace) :
    WithinLimit job trace := by
  have hstates := (invariant_of_guarded hruns hundisturbed orderly_initial
    fun _ _ _ hinv hguard hstep => orderly_step hinv hguard hstep).1
  intro entry hentry processes hflight
  have hopen : ∀ process ∈ processes, entry.2.Open job process := fun process hmem =>
    open_of_inFlight (hflight process hmem)
  exact ((hstates entry hentry).counted processes hopen).2

end Runs

/-! ## A process that nobody disturbs -/

section Alone

variable {ι : Type*} [DecidableEq ι] {std : CronStdlib} {job configured : CronJobSpec}
  {cluster next : Cluster ι} {process : ι} {phase after : Phase}
  {stored record : Option CronJobState} {now : Instant} {outcome : ExecutorOutcome}

/-- The steps of one process, whose executor ends with this outcome. -/
def OwnStep (std : CronStdlib) (job : CronJobSpec) (process : ι) (outcome : ExecutorOutcome)
    (cluster next : Cluster ι) : Prop :=
  cluster.step std job (.proceed process) = some next ∨
    cluster.step std job (.finish process outcome) = some next

/-- The process alone leads from one state to the other. -/
def RunsAlone (std : CronStdlib) (job : CronJobSpec) (process : ι)
    (outcome : ExecutorOutcome) : Cluster ι → Cluster ι → Prop :=
  Relation.ReflTransGen (OwnStep std job process outcome)

@[simp]
theorem Cluster.set_set :
    (cluster.set process phase stored).set process after record =
      cluster.set process after record := by
  simp [Cluster.set]

@[simp]
theorem Cluster.phase_set : (cluster.set process phase stored).phase process = phase :=
  Function.update_self _ _ _

@[simp]
theorem Cluster.stored_set : (cluster.set process phase stored).stored = stored := rfl

theorem RunsAlone.proceed (hnext : phase.next std cluster.clock stored = some (after, record))
    (hruns : RunsAlone std job process outcome (cluster.set process after record) next) :
    RunsAlone std job process outcome (cluster.set process phase stored) next := by
  apply Relation.ReflTransGen.head _ hruns
  apply Or.inl
  have hclock : (cluster.set process phase stored).clock = cluster.clock := rfl
  simp only [Cluster.step, Cluster.phase_set, Cluster.stored_set, hclock, hnext,
    Option.map_some, Cluster.set_set]

theorem RunsAlone.finish (hfinish : phase.finish outcome = some after)
    (hruns : RunsAlone std job process outcome (cluster.set process after stored) next) :
    RunsAlone std job process outcome (cluster.set process phase stored) next := by
  apply Relation.ReflTransGen.head _ hruns
  apply Or.inr
  simp only [Cluster.step, Cluster.phase_set, Cluster.stored_set, hfinish,
    Option.map_some, Cluster.set_set]

/-- The run of the job by a process alone. -/
theorem runsAlone_starting :
    RunsAlone std job process outcome
      (cluster.set process (.starting configured now (startedRecord state now))
        (some (startedRecord state now)))
      (cluster.set process .idle
        (some (recordAfterRun std configured now state state (.ended outcome)))) := by
  have hstarting : (Phase.starting configured now (startedRecord state now)).next std
      cluster.clock (some (startedRecord state now)) =
        some (.executing configured now (startedRecord state now) cluster.clock,
          some (startedRecord state now)) := rfl
  apply RunsAlone.proceed hstarting
  cases hresult : runResult configured (startedRecord state now) now outcome with
  | error raised =>
    have hfinish : (Phase.executing configured now (startedRecord state now)
        cluster.clock).finish outcome = some .idle := by
      simp only [Phase.finish, hresult]
    have hafter : recordAfterRun std configured now state state (.ended outcome) =
        startedRecord state now := by
      simp [recordAfterRun, finishRun, hresult, bind, Except.bind]
    rw [hafter]
    exact RunsAlone.finish hfinish .refl
  | ok result =>
    have hfinish : (Phase.executing configured now (startedRecord state now)
        cluster.clock).finish outcome =
          some (.executed configured (startedRecord state now) cluster.clock result) := by
      simp only [Phase.finish, hresult]
    apply RunsAlone.finish hfinish
    cases hfinished : finishedRecord std configured (startedRecord state now) result with
    | error raised =>
      have hafter : recordAfterRun std configured now state state (.ended outcome) =
          startedRecord state now := by
        simp [recordAfterRun, finishRun, hresult, hfinished, bind, Except.bind]
      have hnext : (Phase.executed configured (startedRecord state now) cluster.clock
          result).next std cluster.clock (some (startedRecord state now)) =
            some (.idle, some (startedRecord state now)) := by
        simp only [Phase.next, hfinished]
      rw [hafter]
      exact RunsAlone.proceed hnext .refl
    | ok finished =>
      have hafter : recordAfterRun std configured now state state (.ended outcome) = finished := by
        simp [recordAfterRun, finishRun, hresult, hfinished, bind, Except.bind, pure, Except.pure]
      have hnext : (Phase.executed configured (startedRecord state now) cluster.clock
          result).next std cluster.clock (some (startedRecord state now)) =
            some (.idle, some finished) := by
        simp only [Phase.next, hfinished]
      rw [hafter]
      exact RunsAlone.proceed hnext .refl

/-- The visit of the job by a process alone, once it has loaded the record. -/
theorem runsAlone_loaded :
    RunsAlone std job process outcome
      (cluster.set process (.loaded configured now state) stored)
      (cluster.set process .idle (some
        (if (consider configured state now).2 then
          recordAfterRun std configured now state (consider configured state now).1
            (.ended outcome)
        else (consider configured state now).1))) := by
  cases hstarts : (consider configured state now).2 with
  | true =>
    have hnext : (Phase.loaded configured now state).next std cluster.clock stored =
        some (.starting configured now (startedRecord (consider configured state now).1 now),
          some (startedRecord (consider configured state now).1 now)) := by
      simp only [Phase.next, hstarts, if_true]
    exact RunsAlone.proceed hnext runsAlone_starting
  | false =>
    have hnext : (Phase.loaded configured now state).next std cluster.clock stored =
        some (.idle, some (consider configured state now).1) := by
      simp only [Phase.next, hstarts, Bool.false_eq_true, if_false]
    exact RunsAlone.proceed hnext .refl

/-- A process that runs alone does what a visit does. -/
theorem runsAlone_visiting :
    RunsAlone std job process outcome
      (cluster.set process (.visiting configured now) stored)
      (cluster.set process .idle
        (recordAfterVisit std configured now stored (.ended outcome))) := by
  cases stored with
  | some state =>
    have hnext : (Phase.visiting configured now).next std cluster.clock (some state) =
        some (.loaded configured now state, some state) := rfl
    apply RunsAlone.proceed hnext
    convert runsAlone_loaded using 2
    simp only [recordAfterVisit, loadedState]
    split <;> rfl
  | none =>
    cases hinitial : initialState std configured now with
    | error raised =>
      have hnext : (Phase.visiting configured now).next std cluster.clock none =
          some (.idle, none) := by
        simp only [Phase.next, hinitial]
      have hafter : recordAfterVisit std configured now none (.ended outcome) = none := by
        simp only [recordAfterVisit, loadedState, hinitial]
      rw [hafter]
      exact RunsAlone.proceed hnext .refl
    | ok initial =>
      have hnext : (Phase.visiting configured now).next std cluster.clock none =
          some (.unseen configured now initial, none) := by
        simp only [Phase.next, hinitial]
      have hsaved : (Phase.unseen configured now initial).next std cluster.clock none =
          some (.loaded configured now initial, some initial) := rfl
      apply RunsAlone.proceed hnext
      apply RunsAlone.proceed hsaved
      convert runsAlone_loaded using 2
      simp only [recordAfterVisit, loadedState, hinitial]
      split <;> rfl

end Alone

/-! ## Two ticks -/

/-- The states that these steps pass from a job that is due at the moment. -/
def dueTrace (labels : List (ClusterStep Bool)) : Trace (Cluster Bool) (ClusterStep Bool) :=
  (record (Cluster.step utcStdlib minutelyJob) (.initial 0 (some dueState)) labels).getD []

/-- One process runs the job to its end, and the other visits it meanwhile. -/
def tickBesideTick : List (ClusterStep Bool) :=
  [.beginTick false minutelyJob 0, .proceed false, .proceed false, .proceed false,
    .beginTick true minutelyJob 0, .proceed true, .proceed true,
    .finish false (succeedingExecutor minutelyJob), .proceed false]

theorem tickBesideTick_within_limit : WithinLimit minutelyJob (dueTrace tickBesideTick) := by
  have hrecord : record (Cluster.step utcStdlib minutelyJob) (.initial 0 (some dueState))
      tickBesideTick = some (dueTrace tickBesideTick) := rfl
  apply undisturbed_within_limit (follows_of_record hrecord)
  refine ⟨trivial, trivial, Nat.zero_le _, trivial, trivial, trivial, ?_, trivial, ?_, trivial⟩
  · exact le_rfl
  · exact fun _ => ⟨le_rfl, Or.inl (by decide)⟩

/-- Both processes load the record before one of them has saved it. -/
def racingTicks : List (ClusterStep Bool) :=
  [.beginTick false minutelyJob 0, .beginTick true minutelyJob 0, .proceed false,
    .proceed true, .proceed false, .proceed true, .proceed false, .proceed true]

theorem racingTicks_exceed_limit :
    ClusterRuns utcStdlib minutelyJob (.initial 0 (some dueState)) (dueTrace racingTicks) ∧
      ¬WithinLimit minutelyJob (dueTrace racingTicks) := by
  have hrecord : record (Cluster.step utcStdlib minutelyJob) (.initial 0 (some dueState))
      racingTicks = some (dueTrace racingTicks) := rfl
  refine ⟨follows_of_record hrecord, ?_⟩
  intro hwithin
  have hlast : 7 < (dueTrace racingTicks).length := by decide
  have hcard := hwithin _ (List.getElem_mem hlast) Finset.univ (by
    intro process _
    cases process
    · exact (by decide : (0 : ℤ) < 0 + minutelyJob.staleAfter)
    · exact (by decide : (0 : ℤ) < 0 + minutelyJob.staleAfter))
  exact absurd hcard (by decide)

end RootSeeker.Cron
