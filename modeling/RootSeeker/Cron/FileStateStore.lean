import RootSeeker.Core.Transition
import RootSeeker.Cron.Scheduler

/-!
# The cron state file

A store reads the file when it is opened and writes its whole memory back with
every call.  What another store wrote since then is overwritten.
-/

namespace RootSeeker.Cron

open Python Contracts Transition

/-! ## Stores on one path -/

/-- The calls of a state store that write. -/
inductive StoreCall where
  | saveState (state : CronJobState)
  | appendRun (result : JobRunResult)

def StoreCall.apply (store : CronStore) : StoreCall → CronStore
  | .saveState state => store.saveState state
  | .appendRun result => store.appendRun result

/-- The job whose record a call overwrites. -/
def StoreCall.savedJob : StoreCall → Option PyStr
  | .saveState state => some state.jobId.val
  | .appendRun _ => none

def CronStore.empty : CronStore where
  states := []
  runs := []
  keyed := by simp

/-- The file, the memory of every opened store, and the calls that were made so far. -/
structure StateFile (ι : Type*) where
  file : Option CronStore
  memory : ι → Option CronStore
  calls : List (ι × StoreCall)

inductive FileStep (ι : Type*) where
  | opened (store : ι)
  | called (store : ι) (call : StoreCall)

section Contents

variable {ι : Type*}

/-- What a store that is opened now has in memory: `_load` leaves it empty where there
is no file. -/
def StateFile.reopened (stores : StateFile ι) : CronStore :=
  stores.file.getD .empty

/-- No store is opened yet on the path. -/
def StateFile.start (file : Option CronStore) : StateFile ι where
  file := file
  memory := fun _ => none
  calls := []

/-- The runs that were appended, in the order of the calls. -/
def appended (calls : List (ι × StoreCall)) : List JobRunResult :=
  calls.filterMap fun entry =>
    match entry.2 with
    | .saveState _ => none
    | .appendRun result => some result

/-- The record of the job after the calls. -/
def lastSaved (jobId : PyStr) (before : Option CronJobState) :
    List (ι × StoreCall) → Option CronJobState :=
  List.foldl (fun saved entry =>
    match entry.2 with
    | .saveState state => if state.jobId.val = jobId then some state else saved
    | .appendRun _ => saved) before

/-- The store has in memory what the file holds, apart from the record that the call
overwrites. -/
structure UpToDate (file memory : CronStore) (call : StoreCall) : Prop where
  runs : memory.runs = file.runs
  states : ∀ jobId, call.savedJob ≠ some jobId →
    memory.getState jobId = file.getState jobId

/-- Every call is made by a store that is up to date. -/
def CallsUpToDate (stores : StateFile ι) : FileStep ι → Prop
  | .opened _ => True
  | .called store call => ∀ memory ∈ stores.memory store, UpToDate stores.reopened memory call

end Contents

section Stores

variable {ι : Type*} [DecidableEq ι]

/-- A call changes the memory of its store and flushes it into the file. -/
def StateFile.step (stores : StateFile ι) : FileStep ι → Option (StateFile ι)
  | .opened store =>
    some { stores with
      memory := Function.update stores.memory store (some stores.reopened) }
  | .called store call =>
    (stores.memory store).map fun memory =>
      { file := some (call.apply memory)
        memory := Function.update stores.memory store (some (call.apply memory))
        calls := stores.calls ++ [(store, call)] }

/-- The runs of the stores that are opened on one path. -/
abbrev FileRuns (start : StateFile ι) (trace : Trace (StateFile ι) (FileStep ι)) : Prop :=
  Follows (fun stores label next => stores.step label = some next) start trace

/-- The runs that were appended through one of the stores. -/
def appendedBy (store : ι) (calls : List (ι × StoreCall)) : List JobRunResult :=
  appended (calls.filter fun entry => entry.1 = store)

/-- The store holds what the calls stored beside what the file held before. -/
structure HoldsCalls (before : CronStore) (calls : List (ι × StoreCall))
    (opened : CronStore) : Prop where
  runs : opened.runs.Perm (before.runs ++ appended calls)
  inOrder : ∀ store, (appendedBy store calls).Sublist opened.runs
  states : ∀ jobId, opened.getState jobId = lastSaved jobId (before.getState jobId) calls

/-- After every step of the run a store can be opened that holds all calls. -/
def LosesNoUpdate (before : CronStore) (trace : Trace (StateFile ι) (FileStep ι)) : Prop :=
  ∀ entry ∈ trace, HoldsCalls before entry.2.calls entry.2.reopened

end Stores

/-! ## One call -/

section Call

variable {ι : Type*} {before file memory : CronStore} {calls : List (ι × StoreCall)}
  {store : ι} {call : StoreCall}

/-- The runs that a call appends. -/
def StoreCall.runs : StoreCall → List JobRunResult
  | .saveState _ => []
  | .appendRun result => [result]

theorem runs_apply (memory : CronStore) (call : StoreCall) :
    (call.apply memory).runs = memory.runs ++ call.runs := by
  cases call with
  | saveState state => exact (List.append_nil _).symm
  | appendRun result => rfl

theorem appended_snoc (calls : List (ι × StoreCall)) (store : ι) (call : StoreCall) :
    appended (calls ++ [(store, call)]) = appended calls ++ call.runs := by
  cases call <;> simp [appended, StoreCall.runs]

theorem lastSaved_snoc (jobId : PyStr) (saved : Option CronJobState)
    (calls : List (ι × StoreCall)) (store : ι) (call : StoreCall) :
    lastSaved jobId saved (calls ++ [(store, call)]) =
      lastSaved jobId (lastSaved jobId saved calls) [(store, call)] := by
  simp only [lastSaved, List.foldl_append]

/-- What a call does to the record of a job. -/
theorem getState_apply (memory : CronStore) (jobId : PyStr) (store : ι) (call : StoreCall) :
    (call.apply memory).getState jobId =
      lastSaved jobId (memory.getState jobId) [(store, call)] := by
  cases call with
  | appendRun result => rfl
  | saveState state =>
    simp only [lastSaved, List.foldl_cons, List.foldl_nil, StoreCall.apply]
    by_cases heq : state.jobId.val = jobId
    · rw [if_pos heq, ← heq]
      exact CronStore.getState_saveState_self memory state
    · rw [if_neg heq]
      exact CronStore.getState_saveState_of_ne memory (Ne.symm heq)

theorem lastSaved_of_savedJob {jobId : PyStr} (hsaved : call.savedJob = some jobId)
    (first second : Option CronJobState) :
    lastSaved jobId first [(store, call)] = lastSaved jobId second [(store, call)] := by
  cases call with
  | appendRun result => exact absurd hsaved (by simp [StoreCall.savedJob])
  | saveState state =>
    have heq : state.jobId.val = jobId := Option.some.inj hsaved
    simp only [lastSaved, List.foldl_cons, List.foldl_nil, if_pos heq]

theorem lastSaved_of_not_savedJob {jobId : PyStr} (hsaved : call.savedJob ≠ some jobId)
    (saved : Option CronJobState) : lastSaved jobId saved [(store, call)] = saved := by
  cases call with
  | appendRun result => rfl
  | saveState state =>
    have hne : state.jobId.val ≠ jobId := fun heq => hsaved (congrArg some heq)
    simp only [lastSaved, List.foldl_cons, List.foldl_nil, if_neg hne]

theorem appendedBy_snoc_sublist [DecidableEq ι] (other : ι) {runs : List JobRunResult}
    (hsublist : (appendedBy other calls).Sublist runs) :
    (appendedBy other (calls ++ [(store, call)])).Sublist (runs ++ call.runs) := by
  unfold appendedBy at hsublist ⊢
  rw [List.filter_append]
  by_cases heq : store = other
  · rw [List.filter_cons_of_pos (by simpa using heq), List.filter_nil, appended_snoc]
    exact hsublist.append (List.Sublist.refl _)
  · rw [List.filter_cons_of_neg (by simpa using heq), List.filter_nil, List.append_nil]
    exact hsublist.trans (List.sublist_append_left _ _)

/-- A call through a store whose memory is a part of the file keeps all calls exactly
when that store is up to date. -/
theorem holdsCalls_apply_iff [DecidableEq ι] (hholds : HoldsCalls before calls file)
    (hinitial : memory.runs <+: file.runs) :
    HoldsCalls before (calls ++ [(store, call)]) (call.apply memory) ↔
      UpToDate file memory call := by
  constructor
  · intro hafter
    refine ⟨?_, ?_⟩
    · apply hinitial.eq_of_length
      have hfile := hholds.runs.length_eq
      have hnew := hafter.runs.length_eq
      rw [runs_apply, appended_snoc] at hnew
      simp only [List.length_append] at hfile hnew
      omega
    · intro jobId hsaved
      have hnew := hafter.states jobId
      rw [getState_apply memory jobId store, lastSaved_snoc,
        lastSaved_of_not_savedJob hsaved, lastSaved_of_not_savedJob hsaved,
        ← hholds.states jobId] at hnew
      exact hnew
  · intro hcurrent
    refine ⟨?_, ?_, ?_⟩
    · rw [runs_apply, appended_snoc, hcurrent.runs, ← List.append_assoc]
      exact hholds.runs.append_right _
    · intro other
      rw [runs_apply, hcurrent.runs]
      exact appendedBy_snoc_sublist other (hholds.inOrder other)
    · intro jobId
      rw [getState_apply memory jobId store, lastSaved_snoc, ← hholds.states jobId]
      by_cases hsaved : call.savedJob = some jobId
      · exact lastSaved_of_savedJob hsaved _ _
      · rw [lastSaved_of_not_savedJob hsaved, lastSaved_of_not_savedJob hsaved]
        exact hcurrent.states jobId hsaved

end Call

/-! ## Runs of the stores -/

section Runs

variable {ι : Type*} [DecidableEq ι] {before : CronStore} {file : Option CronStore}
  {stores next : StateFile ι} {trace : Trace (StateFile ι) (FileStep ι)}

/-- What is in memory was in the file when it was read or written last. -/
def MemoryBehind (stores : StateFile ι) : Prop :=
  ∀ store, ∀ memory ∈ stores.memory store, memory.runs <+: stores.reopened.runs

theorem holdsCalls_start : HoldsCalls before ([] : List (ι × StoreCall)) before where
  runs := by simp [appended]
  inOrder := by simp [appendedBy, appended]
  states _ := rfl

/-- Opening a store brings its memory up to date. -/
theorem memoryBehind_opened {store : ι} (hbehind : MemoryBehind stores) :
    MemoryBehind { stores with
      memory := Function.update stores.memory store (some stores.reopened) } := by
  intro other memory hmemory
  by_cases heq : other = store
  · rw [heq] at hmemory
    simp only [Function.update_self] at hmemory
    obtain rfl := Option.some.inj hmemory
    exact List.prefix_refl _
  · simp only [Function.update_of_ne heq] at hmemory
    exact hbehind other memory hmemory

theorem memoryBehind_called {store : ι} {call : StoreCall} {memory : CronStore}
    {calls : List (ι × StoreCall)} (hbehind : MemoryBehind stores)
    (hruns : memory.runs = stores.reopened.runs) :
    MemoryBehind
      { file := some (call.apply memory)
        memory := Function.update stores.memory store (some (call.apply memory))
        calls := calls } := by
  intro other found hfound
  by_cases heq : other = store
  · rw [heq] at hfound
    simp only [Function.update_self] at hfound
    obtain rfl := Option.some.inj hfound
    exact List.prefix_refl _
  · simp only [Function.update_of_ne heq] at hfound
    apply (hbehind other found hfound).trans
    have hfile : (StateFile.mk (some (call.apply memory)) (Function.update stores.memory store
        (some (call.apply memory))) calls).reopened.runs = memory.runs ++ call.runs :=
      runs_apply memory call
    rw [hfile, hruns]
    exact List.prefix_append _ _

theorem holdsCalls_step {label : FileStep ι}
    (hholds : HoldsCalls before stores.calls stores.reopened)
    (hbehind : MemoryBehind stores) (hstep : stores.step label = some next) :
    (HoldsCalls before next.calls next.reopened ↔ CallsUpToDate stores label) ∧
      (HoldsCalls before next.calls next.reopened → MemoryBehind next) := by
  cases label with
  | opened store =>
    obtain rfl := Option.some.inj hstep
    exact ⟨iff_of_true hholds trivial, fun _ => memoryBehind_opened hbehind⟩
  | called store call =>
    obtain ⟨memory, hmemory, rfl⟩ := Option.map_eq_some_iff.mp hstep
    have hiff : HoldsCalls before (stores.calls ++ [(store, call)]) (call.apply memory) ↔
        UpToDate stores.reopened memory call :=
      holdsCalls_apply_iff hholds (hbehind store memory hmemory)
    refine ⟨?_, ?_⟩
    · apply hiff.trans
      simp only [CallsUpToDate, hmemory, Option.mem_some_iff, forall_eq']
    · intro hafter
      exact memoryBehind_called hbehind (hiff.mp hafter).runs

end Runs

/-! ## Two stores -/

def runOf (jobId : String) : JobRunResult where
  jobId := py jobId
  status := .succeeded
  startedAt := 0
  finishedAt := 0
  attempt := 1
  message := []

/-- The states that these steps pass on a path without a file. -/
def fileTrace (labels : List (FileStep Bool)) : Trace (StateFile Bool) (FileStep Bool) :=
  (record StateFile.step (.start none) labels).getD []

/-- The second store is opened after the call of the first. -/
def openedAfterwards : List (FileStep Bool) :=
  [.opened false, .called false (.appendRun (runOf "cron.a")), .opened true,
    .called true (.appendRun (runOf "cron.b"))]

/-- Both stores are opened before the first call. -/
def openedBefore : List (FileStep Bool) :=
  [.opened false, .opened true, .called false (.appendRun (runOf "cron.a")),
    .called true (.appendRun (runOf "cron.b"))]

end RootSeeker.Cron
