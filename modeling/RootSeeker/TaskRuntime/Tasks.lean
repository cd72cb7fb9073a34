import RootSeeker.Contracts.Common

/-!
# Tasks

The record of a task, the persistent task store and what the executor makes of
a record.  The diagnosis or the replay suite that a task stands for is left
open: it ends in one of the outcomes below.
-/

namespace RootSeeker.TaskRuntime

open Python Contracts

inductive TaskKind where
  | caseRun
  | cron
  | replay
  deriving DecidableEq

inductive TaskStatus where
  | pending
  | running
  | completed
  | failed
  | cancelled
  deriving DecidableEq

structure TaskRecord where
  taskId : RequiredStr
  kind : TaskKind
  caseId : Option PyStr
  status : TaskStatus
  payload : Fields
  resultRef : Option PyStr
  error : Option Fields
  createdAt : ℤ

/-- `create_task_record`, with the identifier and the time that it draws. -/
def createTaskRecord (taskId : RequiredStr) (kind : TaskKind) (payload : Fields)
    (caseId : Option PyStr) (createdAt : ℤ) : TaskRecord where
  taskId := taskId
  kind := kind
  caseId := caseId
  status := .pending
  payload := payload
  resultRef := none
  error := none
  createdAt := createdAt

/-! ## The store -/

/-- Records are stored under their identifier. -/
structure TaskStore where
  tasks : Dict PyStr TaskRecord
  keyed : ∀ entry ∈ tasks, entry.2.taskId.val = entry.1

variable {task : TaskRecord}

namespace TaskStore

def empty : TaskStore where
  tasks := []
  keyed := by simp

def save (store : TaskStore) (task : TaskRecord) : TaskStore where
  tasks := store.tasks.set task.taskId.val task
  keyed :=
    Dict.forall_mem_set (fun entry : PyStr × TaskRecord => entry.2.taskId.val = entry.1)
      store.keyed rfl

def get (store : TaskStore) (taskId : PyStr) : Option TaskRecord :=
  store.tasks.get? taskId

def statusOf (store : TaskStore) (taskId : PyStr) : Option TaskStatus :=
  (store.get taskId).map TaskRecord.status

/-- `_next_pending_task_id` may return this task: it is pending, and no pending task was
created earlier. -/
def mayBeNext (store : TaskStore) (taskId : PyStr) : Bool :=
  match store.get taskId with
  | none => false
  | some task =>
    task.status = .pending ∧
      ∀ entry ∈ store.tasks, entry.2.status = .pending → task.createdAt ≤ entry.2.createdAt

theorem get_save_self (store : TaskStore) (task : TaskRecord) :
    (store.save task).get task.taskId.val = some task :=
  Dict.get?_set_self _ _ _

theorem get_save_of_ne (store : TaskStore) {taskId : PyStr} (hne : taskId ≠ task.taskId.val) :
    (store.save task).get taskId = store.get taskId :=
  Dict.get?_set_of_ne _ _ hne

@[simp]
theorem statusOf_save_self (store : TaskStore) (task : TaskRecord) :
    (store.save task).statusOf task.taskId.val = some task.status := by
  rw [statusOf, get_save_self, Option.map_some]

theorem statusOf_save_of_ne (store : TaskStore) {taskId : PyStr} (hne : taskId ≠ task.taskId.val) :
    (store.save task).statusOf taskId = store.statusOf taskId := by
  rw [statusOf, get_save_of_ne store hne, statusOf]

end TaskStore

/-! ## The executor -/

/-- The report of a replay suite, as far as it goes into the record. -/
structure SuiteReport where
  reportId : PyStr
  suiteName : PyStr
  caseCount : ℕ
  gatePassed : Bool
  releaseAllowed : Bool
  decision : Fields

/-- How `_execute_task` ends.  An exception finds the record as far as it was filled; one
that is no `Exception` leaves it unsaved. -/
inductive TaskOutcome where
  | agentRun (caseId runStatus : PyStr) (attemptCount : ℕ)
  | flowRun (caseId runStatus executionId : PyStr)
  | suiteRun (report : SuiteReport)
  | raised (reason type : PyStr) (payload : Fields) (resultRef : Option PyStr)
  | exited

/-- Cases are run by the agent or the flow, the other kinds by the replay runner. -/
def TaskOutcome.fits : TaskOutcome → TaskKind → Bool
  | .agentRun _ _ _, kind => kind = .caseRun
  | .flowRun _ _ _, kind => kind = .caseRun
  | .suiteRun _, kind => kind ≠ .caseRun
  | .raised _ _ _ _, _ => true
  | .exited, _ => true

/-- `_task_status_for_run`. -/
def taskStatusForRun (runStatus : PyStr) : TaskStatus :=
  if runStatus = py "completed" then .completed else .failed

/-- The record that is saved after the execution. -/
def settle (task : TaskRecord) : TaskOutcome → Option TaskRecord
  | .agentRun caseId runStatus attemptCount =>
    some { task with
      resultRef := some caseId
      payload := (task.payload.set (py "runner") (.str (py "agent"))).set
        (py "attempt_count") (.int attemptCount)
      status := taskStatusForRun runStatus }
  | .flowRun caseId runStatus executionId =>
    some { task with
      resultRef := some caseId
      payload := task.payload.set (py "flow_run_id") (.str executionId)
      status := taskStatusForRun runStatus }
  | .suiteRun report =>
    some { task with
      resultRef := some report.reportId
      payload := task.payload.update
        [(py "report_suite_name", .str report.suiteName),
          (py "report_case_count", .int report.caseCount),
          (py "report_gate_passed", .bool report.gatePassed),
          (py "report_release_allowed", .bool report.releaseAllowed),
          (py "deployment_decision", .obj report.decision)]
      status := .completed }
  | .raised reason type payload resultRef =>
    some { task with
      resultRef := resultRef
      payload := payload
      status := .failed
      error := some [(py "reason", .str reason), (py "type", .str type)] }
  | .exited => none

/-- The statuses in which a task has come to its end. -/
def TaskStatus.Done (status : TaskStatus) : Prop :=
  status = .completed ∨ status = .failed

theorem done_taskStatusForRun (runStatus : PyStr) : (taskStatusForRun runStatus).Done := by
  unfold taskStatusForRun
  split
  · exact Or.inl rfl
  · exact Or.inr rfl

/-- An execution that ends keeps the task and settles its status. -/
theorem settle_spec {settled : TaskRecord} {outcome : TaskOutcome}
    (hsettle : settle task outcome = some settled) :
    settled.taskId = task.taskId ∧ settled.status.Done := by
  cases outcome with
  | agentRun caseId runStatus attemptCount =>
    obtain rfl := Option.some.inj hsettle
    exact ⟨rfl, done_taskStatusForRun runStatus⟩
  | flowRun caseId runStatus executionId =>
    obtain rfl := Option.some.inj hsettle
    exact ⟨rfl, done_taskStatusForRun runStatus⟩
  | suiteRun report =>
    obtain rfl := Option.some.inj hsettle
    exact ⟨rfl, Or.inl rfl⟩
  | raised reason type payload resultRef =>
    obtain rfl := Option.some.inj hsettle
    exact ⟨rfl, Or.inr rfl⟩
  | exited => exact absurd hsettle (by simp [settle])

end RootSeeker.TaskRuntime
