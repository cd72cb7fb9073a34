import RootSeeker.Core.Transition
import RootSeeker.TaskRuntime.Tasks

/-!
# Executions of a task

Several task runtimes share the store, each with a queue of its own.  A task can
be reached through the queue of the runtime that submitted it and through the
scan for pending tasks, and the executor does not look at the status of the
record that it overwrites.
-/

namespace RootSeeker.TaskRuntime

open Python Contracts Transition

/-! ## Runtimes over one store -/

/-- Where a runtime stands in `submit` or `run_once`. -/
inductive RuntimePhase where
  | idle
  | pushing (taskId : PyStr)
  | picked (taskId : PyStr)
  | loaded (task : TaskRecord)
  /-- The record is saved as running; the execution has not begun. -/
  | running (task : TaskRecord)
  | executing (task : TaskRecord)
  | executed (task : TaskRecord)

/-- The store, the queue and the phase of every runtime, and the tasks whose payload was
executed so far. -/
structure TaskSystem (ι : Type*) where
  store : TaskStore
  queue : ι → List PyStr
  phase : ι → RuntimePhase
  executions : List PyStr

inductive TaskStep (ι : Type*) where
  | submit (runtime : ι) (taskId : RequiredStr) (kind : TaskKind) (payload : Fields)
      (caseId : Option PyStr) (createdAt : ℤ)
  | pop (runtime : ι)
  | scan (runtime : ι) (taskId : PyStr)
  | proceed (runtime : ι)
  | finish (runtime : ι) (outcome : TaskOutcome)

section System

variable {ι : Type*} [DecidableEq ι]

/-- The runtime goes on in this phase. -/
def TaskSystem.enter (system : TaskSystem ι) (runtime : ι) (phase : RuntimePhase) :
    TaskSystem ι :=
  { system with phase := Function.update system.phase runtime phase }

def TaskSystem.proceed (system : TaskSystem ι) (runtime : ι) : Option (TaskSystem ι) :=
  match system.phase runtime with
  | .pushing taskId =>
    some { system.enter runtime .idle with
      queue := Function.update system.queue runtime (system.queue runtime ++ [taskId]) }
  | .picked taskId =>
    match system.store.get taskId with
    | none => some (system.enter runtime .idle)
    | some task => some (system.enter runtime (.loaded task))
  | .loaded task =>
    some { system.enter runtime (.running { task with status := .running }) with
      store := system.store.save { task with status := .running } }
  | .running task =>
    some { system.enter runtime (.executing task) with
      executions := system.executions ++ [task.taskId.val] }
  | .executed task => some { system.enter runtime .idle with store := system.store.save task }
  | .idle | .executing _ => none

/-- A submitted task gets a new identifier.  The pending tasks are scanned where the own
queue is empty. -/
def TaskSystem.step (system : TaskSystem ι) : TaskStep ι → Option (TaskSystem ι)
  | .submit runtime taskId kind payload caseId createdAt =>
    match system.phase runtime, system.store.get taskId.val with
    | .idle, none =>
      some { system.enter runtime (.pushing taskId.val) with
        store :=
          system.store.save (createTaskRecord taskId kind payload caseId createdAt) }
    | _, _ => none
  | .pop runtime =>
    match system.phase runtime, system.queue runtime with
    | .idle, taskId :: rest =>
      some { system.enter runtime (.picked taskId) with
        queue := Function.update system.queue runtime rest }
    | _, _ => none
  | .scan runtime taskId =>
    match system.phase runtime, system.queue runtime with
    | .idle, [] =>
      if system.store.mayBeNext taskId then some (system.enter runtime (.picked taskId))
      else none
    | _, _ => none
  | .proceed runtime => system.proceed runtime
  | .finish runtime outcome =>
    match system.phase runtime with
    | .executing task =>
      if outcome.fits task.kind then
        match settle task outcome with
        | some settled => some (system.enter runtime (.executed settled))
        | none => some (system.enter runtime .idle)
      else none
    | _ => none

/-- The runs of the runtimes over one store. -/
abbrev TaskRuns (start : TaskSystem ι) (trace : Trace (TaskSystem ι) (TaskStep ι)) : Prop :=
  Follows (fun system label next => system.step label = some next) start trace

end System

section Claims

variable {ι : Type*}

/-- The runtimes begin with these tasks in the store and these queues. -/
def TaskSystem.start (store : TaskStore) (queue : ι → List PyStr) : TaskSystem ι where
  store := store
  queue := queue
  phase := fun _ => .idle
  executions := []

def TaskSystem.DoneAt (system : TaskSystem ι) (taskId : PyStr) : Prop :=
  ∃ status : TaskStatus, system.store.statusOf taskId = some status ∧ status.Done

/-- No payload is executed twice, and no task that was completed or has failed runs
again. -/
structure AtMostOnce (start : TaskSystem ι) (trace : Trace (TaskSystem ι) (TaskStep ι)) :
    Prop where
  executions : ∀ entry ∈ trace, entry.2.executions.Nodup
  noRerun : ∀ first second, trace = first ++ second → ∀ taskId,
    (last start first).DoneAt taskId →
      ∀ entry ∈ second, entry.2.store.statusOf taskId ≠ some .running

/-- A record is saved as running only while the stored one is pending. -/
def RunsPending (system : TaskSystem ι) : TaskStep ι → Prop
  | .proceed runtime =>
    match system.phase runtime with
    | .loaded task => system.store.statusOf task.taskId.val = some .pending
    | _ => True
  | _ => True

/-- The task that the runtime has saved as running and not yet written back. -/
def RuntimePhase.task? : RuntimePhase → Option PyStr
  | .running task | .executing task | .executed task => some task.taskId.val
  | _ => none

/-- A running task belongs to one runtime, which executes it once. -/
structure OneOwner (system : TaskSystem ι) : Prop where
  running : ∀ runtime, ∀ taskId ∈ (system.phase runtime).task?,
    system.store.statusOf taskId = some .running
  owner : ∀ runtime other, ∀ taskId ∈ (system.phase runtime).task?,
    taskId ∈ (system.phase other).task? → runtime = other
  notYet : ∀ runtime task, system.phase runtime = .running task →
    task.taskId.val ∉ system.executions
  settled : ∀ runtime task, system.phase runtime = .executed task → task.status.Done
  executed : ∀ taskId ∈ system.executions, ∃ status : TaskStatus,
    system.store.statusOf taskId = some status ∧ status ≠ .pending
  nodup : system.executions.Nodup

end Claims

/-! ## What a step does to the owners -/

section Steps

variable {ι : Type*} [DecidableEq ι] {system next : TaskSystem ι} {runtime other : ι}
  {phase : RuntimePhase} {taskId : PyStr} {task : TaskRecord} {queue : ι → List PyStr}

/-- After a step the runtime that stepped is in its new phase and the others are where
they were. -/
theorem phase_of_enter {found : RuntimePhase}
    (hfound : (system.enter runtime phase).phase other = found) :
    other = runtime ∧ phase = found ∨ other ≠ runtime ∧ system.phase other = found := by
  by_cases heq : other = runtime
  · rw [heq] at hfound
    exact Or.inl ⟨heq, (Function.update_self _ _ _).symm.trans hfound⟩
  · exact Or.inr ⟨heq, (Function.update_of_ne heq _ _).symm.trans hfound⟩

/-- Whoever owns a task after a step owned it before, unless the runtime that stepped
has it now. -/
theorem owned_of_enter (howned : taskId ∈ ((system.enter runtime phase).phase other).task?) :
    other = runtime ∧ taskId ∈ phase.task? ∨
      other ≠ runtime ∧ taskId ∈ (system.phase other).task? := by
  have hfound : (system.enter runtime phase).phase other =
      (system.enter runtime phase).phase other := rfl
  obtain ⟨heq, hphase⟩ | ⟨hne, hphase⟩ := phase_of_enter hfound
  · rw [← hphase] at howned
    exact Or.inl ⟨heq, howned⟩
  · rw [← hphase] at howned
    exact Or.inr ⟨hne, howned⟩

/-- A step that changes neither the store nor the executions, and after which the
runtime owns no other task than before. -/
theorem OneOwner.enter (howner : OneOwner system)
    (htask : ∀ taskId ∈ phase.task?, taskId ∈ (system.phase runtime).task?)
    (hrunning : ∀ task, phase ≠ .running task)
    (hexecuted : ∀ task, phase = .executed task → task.status.Done) :
    OneOwner { system.enter runtime phase with queue := queue } := by
  have hbefore : ∀ {other taskId}, taskId ∈ ((system.enter runtime phase).phase other).task? →
      taskId ∈ (system.phase other).task? := by
    intro other taskId howned
    obtain ⟨heq, howned⟩ | ⟨_, howned⟩ := owned_of_enter howned
    · rw [heq]
      exact htask taskId howned
    · exact howned
  refine ⟨?_, ?_, ?_, ?_, howner.executed, howner.nodup⟩
  · intro other taskId howned
    exact howner.running other taskId (hbefore howned)
  · intro first second taskId hfirst hsecond
    exact howner.owner first second taskId (hbefore hfirst) (hbefore hsecond)
  · intro other task hfound
    obtain ⟨_, hphase⟩ | ⟨_, hphase⟩ := phase_of_enter hfound
    · exact absurd hphase (hrunning task)
    · exact howner.notYet other task hphase
  · intro other task hfound
    obtain ⟨_, hphase⟩ | ⟨_, hphase⟩ := phase_of_enter hfound
    · exact hexecuted task hphase
    · exact howner.settled other task hphase

/-- The same for a step after which the runtime owns nothing. -/
theorem OneOwner.leave (howner : OneOwner system) (htask : phase.task? = none) :
    OneOwner { system.enter runtime phase with queue := queue } := by
  apply howner.enter
  · intro taskId howned
    rw [htask] at howned
    exact absurd howned (by simp)
  · rintro task rfl
    exact absurd htask (by simp [RuntimePhase.task?])
  · rintro task rfl
    exact absurd htask (by simp [RuntimePhase.task?])

omit [DecidableEq ι] in
/-- Saving a record changes nothing for the owners of other tasks. -/
theorem OneOwner.save (howner : OneOwner system)
    (hfree : ∀ runtime, task.taskId.val ∉ (system.phase runtime).task?)
    (hstatus : task.taskId.val ∈ system.executions → task.status ≠ .pending) :
    OneOwner { system with store := system.store.save task } := by
  refine ⟨?_, howner.owner, howner.notYet, howner.settled, ?_, howner.nodup⟩
  · intro runtime taskId howned
    have hne : taskId ≠ task.taskId.val := fun heq => hfree runtime (heq ▸ howned)
    exact (system.store.statusOf_save_of_ne hne).trans (howner.running runtime taskId howned)
  · intro taskId hexecuted
    by_cases heq : taskId = task.taskId.val
    · rw [heq] at hexecuted ⊢
      exact ⟨task.status, system.store.statusOf_save_self task, hstatus hexecuted⟩
    · obtain ⟨status, hget, hne⟩ := howner.executed taskId hexecuted
      exact ⟨status, (system.store.statusOf_save_of_ne heq).trans hget, hne⟩

section

variable (howner : OneOwner system)

include howner

/-- A pending task is claimed by one runtime. -/
theorem OneOwner.claim (hpending : system.store.statusOf task.taskId.val = some .pending) :
    OneOwner { system.enter runtime (.running { task with status := .running }) with
      store := system.store.save { task with status := .running } } := by
  have hfree : ∀ other, task.taskId.val ∉ (system.phase other).task? := by
    intro other howned
    have hrunning := howner.running other _ howned
    exact absurd (hpending.symm.trans hrunning) (by simp)
  have hfresh : task.taskId.val ∉ system.executions := by
    intro hexecuted
    obtain ⟨status, hstatus, hne⟩ := howner.executed _ hexecuted
    exact hne (Option.some.inj (hstatus.symm.trans hpending))
  have hsaved : OneOwner { system with
      store := system.store.save { task with status := .running } } :=
    howner.save hfree (by simp)
  refine ⟨?_, ?_, ?_, ?_, hsaved.executed, howner.nodup⟩
  · intro other taskId howned
    obtain ⟨_, hmine⟩ | ⟨_, howned⟩ := owned_of_enter howned
    · obtain rfl := Option.some.inj hmine
      exact system.store.statusOf_save_self { task with status := .running }
    · exact hsaved.running other taskId howned
  · intro first second taskId hfirst hsecond
    obtain ⟨hfirstEq, hmine⟩ | ⟨_, hfirst⟩ := owned_of_enter hfirst <;>
      obtain ⟨hsecondEq, hmine'⟩ | ⟨_, hsecond⟩ := owned_of_enter hsecond
    · rw [hfirstEq, hsecondEq]
    · obtain rfl := Option.some.inj hmine
      exact absurd hsecond (hfree second)
    · obtain rfl := Option.some.inj hmine'
      exact absurd hfirst (hfree first)
    · exact howner.owner first second taskId hfirst hsecond
  · intro other found hfound
    obtain ⟨_, hphase⟩ | ⟨_, hphase⟩ := phase_of_enter hfound
    · obtain rfl := RuntimePhase.running.inj hphase
      exact hfresh
    · exact howner.notYet other found hphase
  · intro other found hfound
    obtain ⟨_, hphase⟩ | ⟨_, hphase⟩ := phase_of_enter hfound
    · exact absurd hphase (by simp)
    · exact howner.settled other found hphase

/-- The owner of a task executes it once. -/
theorem OneOwner.execute (hphase : system.phase runtime = .running task) :
    OneOwner { system.enter runtime (.executing task) with
      executions := system.executions ++ [task.taskId.val] } := by
  have hmine : task.taskId.val ∈ (system.phase runtime).task? := by
    rw [hphase]
    rfl
  have hentered : OneOwner (system.enter runtime (.executing task)) := by
    apply howner.enter
    · intro taskId howned
      rw [hphase]
      exact howned
    · simp
    · simp
  refine ⟨hentered.running, hentered.owner, ?_, hentered.settled, ?_, ?_⟩
  · intro other found hfound hexecuted
    obtain ⟨_, hother⟩ | ⟨hne, hother⟩ := phase_of_enter hfound
    · exact absurd hother (by simp)
    · obtain hexecuted | hlast := List.mem_append.mp hexecuted
      · exact howner.notYet other found hother hexecuted
      · have hsame : found.taskId.val = task.taskId.val := List.mem_singleton.mp hlast
        have howned : task.taskId.val ∈ (system.phase other).task? := by
          rw [hother, ← hsame]
          rfl
        exact hne (howner.owner other runtime _ howned hmine)
  · intro taskId hexecuted
    obtain hexecuted | hlast := List.mem_append.mp hexecuted
    · exact howner.executed taskId hexecuted
    · obtain rfl := List.mem_singleton.mp hlast
      exact ⟨.running, howner.running runtime _ hmine, by simp⟩
  · rw [List.nodup_append_comm, List.singleton_append, List.nodup_cons]
    exact ⟨howner.notYet runtime task hphase, howner.nodup⟩

/-- The owner writes the outcome back. -/
theorem OneOwner.writeBack (hphase : system.phase runtime = .executed task) :
    OneOwner { system.enter runtime .idle with store := system.store.save task } := by
  have hmine : task.taskId.val ∈ (system.phase runtime).task? := by
    rw [hphase]
    rfl
  have hleft : OneOwner (system.enter runtime .idle) :=
    howner.leave rfl
  apply hleft.save
  · intro other howned
    obtain ⟨_, hidle⟩ | ⟨hne, howned⟩ := owned_of_enter howned
    · exact absurd hidle (by simp [RuntimePhase.task?])
    · exact hne (howner.owner other runtime _ howned hmine)
  · intro _ hpending
    obtain hdone | hdone := howner.settled runtime task hphase
    · exact absurd (hdone.symm.trans hpending) (by simp)
    · exact absurd (hdone.symm.trans hpending) (by simp)

/-- A submitted task is new. -/
theorem OneOwner.submit (hfresh : system.store.get task.taskId.val = none) :
    OneOwner { system.enter runtime (.pushing task.taskId.val) with
      store := system.store.save task } := by
  have hnone : system.store.statusOf task.taskId.val = none := by
    rw [TaskStore.statusOf, hfresh, Option.map_none]
  have hleft : OneOwner (system.enter runtime (.pushing task.taskId.val)) :=
    howner.leave rfl
  apply hleft.save
  · intro other howned
    exact absurd (hnone.symm.trans (hleft.running other _ howned)) (by simp)
  · intro hexecuted
    obtain ⟨status, hstatus, _⟩ := howner.executed _ hexecuted
    exact absurd (hnone.symm.trans hstatus) (by simp)

theorem oneOwner_proceed (hpending : RunsPending system (.proceed runtime))
    (hstep : system.proceed runtime = some next) : OneOwner next := by
  unfold TaskSystem.proceed at hstep
  unfold RunsPending at hpending
  cases hphase : system.phase runtime <;> simp only [hphase] at hstep hpending
  case idle | executing => exact absurd hstep (by simp)
  case pushing taskId =>
    obtain rfl := Option.some.inj hstep
    exact howner.leave rfl
  case picked taskId =>
    split at hstep <;> obtain rfl := Option.some.inj hstep
    · exact howner.leave rfl
    · exact howner.leave rfl
  case loaded task =>
    obtain rfl := Option.some.inj hstep
    exact howner.claim hpending
  case running task =>
    obtain rfl := Option.some.inj hstep
    exact howner.execute hphase
  case executed task =>
    obtain rfl := Option.some.inj hstep
    exact howner.writeBack hphase

theorem oneOwner_finish {outcome : TaskOutcome}
    (hstep : system.step (.finish runtime outcome) = some next) : OneOwner next := by
  simp only [TaskSystem.step] at hstep
  cases hphase : system.phase runtime <;> simp only [hphase] at hstep
  case executing task =>
    split at hstep
    · cases hsettle : settle task outcome with
      | none =>
        rw [hsettle] at hstep
        obtain rfl := Option.some.inj hstep
        exact howner.leave rfl
      | some settled =>
        rw [hsettle] at hstep
        obtain rfl := Option.some.inj hstep
        obtain ⟨hsame, hdone⟩ := settle_spec hsettle
        apply howner.enter
        · intro taskId howned
          rw [hphase, ← Option.some.inj howned, hsame]
          rfl
        · simp
        · intro found hfound
          rw [← RuntimePhase.executed.inj hfound]
          exact hdone
    · exact absurd hstep (by simp)
  all_goals exact absurd hstep (by simp)

end

variable {label : TaskStep ι}

theorem oneOwner_step (howner : OneOwner system) (hpending : RunsPending system label)
    (hstep : system.step label = some next) : OneOwner next := by
  cases label with
  | submit runtime taskId kind payload caseId createdAt =>
    simp only [TaskSystem.step] at hstep
    split at hstep
    next hfresh =>
      obtain rfl := Option.some.inj hstep
      exact howner.submit hfresh
    next => exact absurd hstep (by simp)
  | pop runtime =>
    simp only [TaskSystem.step] at hstep
    split at hstep
    · obtain rfl := Option.some.inj hstep
      exact howner.leave rfl
    · exact absurd hstep (by simp)
  | scan runtime taskId =>
    simp only [TaskSystem.step] at hstep
    split at hstep
    · split at hstep
      · obtain rfl := Option.some.inj hstep
        exact howner.leave rfl
      · exact absurd hstep (by simp)
    · exact absurd hstep (by simp)
  | proceed runtime => exact oneOwner_proceed howner hpending hstep
  | finish runtime outcome => exact oneOwner_finish howner hstep

/-- The steps that change the store save one record, which is a new one, one claimed as
running, or one that is done. -/
theorem store_of_step (howner : OneOwner system) (hpending : RunsPending system label)
    (hstep : system.step label = some next) :
    next.store = system.store ∨ ∃ task, next.store = system.store.save task ∧
      (¬system.DoneAt task.taskId.val ∨ task.status.Done) := by
  cases label with
  | submit runtime taskId kind payload caseId createdAt =>
    simp only [TaskSystem.step] at hstep
    split at hstep
    next hfresh =>
      obtain rfl := Option.some.inj hstep
      refine Or.inr ⟨_, rfl, Or.inl ?_⟩
      rintro ⟨status, hstatus, _⟩
      rw [TaskStore.statusOf] at hstatus
      have hnone : system.store.get (createTaskRecord taskId kind payload caseId
          createdAt).taskId.val = none := hfresh
      rw [hnone] at hstatus
      exact absurd hstatus (by simp)
    next => exact absurd hstep (by simp)
  | pop runtime =>
    simp only [TaskSystem.step] at hstep
    split at hstep
    · obtain rfl := Option.some.inj hstep
      exact Or.inl rfl
    · exact absurd hstep (by simp)
  | scan runtime taskId =>
    simp only [TaskSystem.step] at hstep
    split at hstep
    · split at hstep
      · obtain rfl := Option.some.inj hstep
        exact Or.inl rfl
      · exact absurd hstep (by simp)
    · exact absurd hstep (by simp)
  | finish runtime outcome =>
    simp only [TaskSystem.step] at hstep
    split at hstep
    · split at hstep
      · split at hstep <;> obtain rfl := Option.some.inj hstep
        · exact Or.inl rfl
        · exact Or.inl rfl
      · exact absurd hstep (by simp)
    · exact absurd hstep (by simp)
  | proceed runtime =>
    simp only [TaskSystem.step, TaskSystem.proceed] at hstep
    unfold RunsPending at hpending
    cases hphase : system.phase runtime <;> simp only [hphase] at hstep hpending
    case idle | executing => exact absurd hstep (by simp)
    case pushing taskId =>
      obtain rfl := Option.some.inj hstep
      exact Or.inl rfl
    case picked taskId =>
      split at hstep <;> obtain rfl := Option.some.inj hstep
      · exact Or.inl rfl
      · exact Or.inl rfl
    case running task =>
      obtain rfl := Option.some.inj hstep
      exact Or.inl rfl
    case loaded task =>
      obtain rfl := Option.some.inj hstep
      refine Or.inr ⟨_, rfl, Or.inl ?_⟩
      rintro ⟨status, hstatus, hdone⟩
      obtain rfl := Option.some.inj (hstatus.symm.trans hpending)
      exact absurd hdone (by simp [TaskStatus.Done])
    case executed task =>
      obtain rfl := Option.some.inj hstep
      exact Or.inr ⟨task, rfl, Or.inr (howner.settled runtime task hphase)⟩

/-- A task that is done stays done. -/
theorem doneAt_step (howner : OneOwner system) (hdone : system.DoneAt taskId)
    (hpending : RunsPending system label) (hstep : system.step label = some next) :
    next.DoneAt taskId := by
  obtain hsame | ⟨task, hsaved, hstatus⟩ := store_of_step howner hpending hstep
  · obtain ⟨status, hget, hsettled⟩ := hdone
    exact ⟨status, hsame ▸ hget, hsettled⟩
  · by_cases heq : taskId = task.taskId.val
    · rw [heq] at hdone ⊢
      obtain hnot | hsettled := hstatus
      · exact absurd hdone hnot
      · refine ⟨task.status, ?_, hsettled⟩
        rw [hsaved, TaskStore.statusOf_save_self]
    · obtain ⟨status, hget, hsettled⟩ := hdone
      refine ⟨status, ?_, hsettled⟩
      rw [hsaved, TaskStore.statusOf_save_of_ne _ heq, hget]

/-- The task is done, and running tasks have one owner. -/
def DoneForGood (taskId : PyStr) (system : TaskSystem ι) : Prop :=
  OneOwner system ∧ system.DoneAt taskId

theorem doneForGood_step (hdone : DoneForGood taskId system) (hpending : RunsPending system label)
    (hstep : system.step label = some next) : DoneForGood taskId next :=
  ⟨oneOwner_step hdone.1 hpending hstep, doneAt_step hdone.1 hdone.2 hpending hstep⟩

end Steps

/-! ## Runs of the runtimes -/

section Runs

variable {ι : Type*} [DecidableEq ι] {store : TaskStore} {queue : ι → List PyStr}
  {trace : Trace (TaskSystem ι) (TaskStep ι)}

omit [DecidableEq ι] in
theorem oneOwner_start : OneOwner (TaskSystem.start store queue) where
  running := by simp [TaskSystem.start, RuntimePhase.task?]
  owner := by simp [TaskSystem.start, RuntimePhase.task?]
  notYet := by simp [TaskSystem.start]
  settled := by simp [TaskSystem.start]
  executed := by simp [TaskSystem.start]
  nodup := List.nodup_nil

/-- Where only pending tasks are marked as running, every task is executed at most once. -/
theorem at_most_once (hruns : TaskRuns (.start store queue) trace)
    (hpending : Guarded RunsPending (.start store queue) trace) :
    AtMostOnce (.start store queue) trace where
  executions := by
    have hstates := (invariant_of_guarded hruns hpending oneOwner_start
      fun _ _ _ howner hguard hstep => oneOwner_step howner hguard hstep).1
    exact fun entry hentry => (hstates entry hentry).nodup
  noRerun := by
    rintro first second rfl taskId hdone entry hentry hrunning
    obtain ⟨hfirst, hsecond⟩ := follows_append.mp hruns
    obtain ⟨hfirstPending, hsecondPending⟩ := follows_append.mp hpending
    have howner := (invariant_of_guarded hfirst hfirstPending oneOwner_start
      fun _ _ _ howner hguard hstep => oneOwner_step howner hguard hstep).2
    have hgood : DoneForGood taskId (last (.start store queue) first) := ⟨howner, hdone⟩
    have hstates := (invariant_of_guarded hsecond hsecondPending hgood
      fun _ _ _ hinv hguard hstep => doneForGood_step hinv hguard hstep).1
    obtain ⟨status, hstatus, hsettled⟩ := (hstates entry hentry).2
    obtain rfl := Option.some.inj (hstatus.symm.trans hrunning)
    exact absurd hsettled (by simp [TaskStatus.Done])

end Runs

/-! ## Two runtimes -/

/-- The states that these steps pass from an empty store. -/
def taskTrace (labels : List (TaskStep Bool)) : Trace (TaskSystem Bool) (TaskStep Bool) :=
  (record TaskSystem.step (.start .empty fun _ => []) labels).getD []

def demoTask : RequiredStr := .ofLiteral "task-1" (by decide)

def submitDemo : List (TaskStep Bool) :=
  [.submit false demoTask .replay [] none 0, .proceed false]

def replayed : TaskOutcome :=
  .suiteRun
    { reportId := py "report-1"
      suiteName := py "cron-default-flow"
      caseCount := 1
      gatePassed := true
      releaseAllowed := true
      decision := [] }

/-- The runtime that submitted the task runs it. -/
def runBySubmitter : List (TaskStep Bool) :=
  submitDemo ++ [.pop false, .proceed false, .proceed false, .proceed false,
    .finish false replayed, .proceed false]

theorem runBySubmitter_at_most_once :
    AtMostOnce (.start .empty fun _ => []) (taskTrace runBySubmitter) := by
  have hrecord : record TaskSystem.step (.start .empty fun _ => []) runBySubmitter =
      some (taskTrace runBySubmitter) := rfl
  apply at_most_once (follows_of_record hrecord)
  exact ⟨trivial, trivial, trivial, trivial, rfl, trivial, trivial, trivial, trivial⟩

/-- Another runtime finds the task in its scan and completes it.  Then the runtime that
submitted the task takes it from its queue. -/
def runByBoth : List (TaskStep Bool) :=
  submitDemo ++ [.scan true demoTask.val, .proceed true, .proceed true, .proceed true,
    .finish true replayed, .proceed true,
    .pop false, .proceed false, .proceed false, .proceed false]

theorem runByBoth_executes_twice :
    TaskRuns (.start .empty fun _ => []) (taskTrace runByBoth) ∧
      ¬AtMostOnce (.start .empty fun _ => []) (taskTrace runByBoth) := by
  have hrecord : record TaskSystem.step (.start .empty fun _ => []) runByBoth =
      some (taskTrace runByBoth) := rfl
  refine ⟨follows_of_record hrecord, ?_⟩
  intro honce
  have hlast : 11 < (taskTrace runByBoth).length := by decide
  have htwice : [demoTask.val, demoTask.val].Nodup :=
    honce.executions _ (List.getElem_mem hlast)
  exact absurd htwice (by decide)

end RootSeeker.TaskRuntime
