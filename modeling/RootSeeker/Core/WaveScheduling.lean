import Mathlib

/-!
# Wave scheduling of dependent tasks

A scheduler holds a list of pending tasks.  Each wave first closes the pending
tasks that wait for a task known to block its dependants, then hands out every
pending task whose dependencies are all finished, and collects the results.
When a wave neither closes nor hands out anything, the remaining tasks are
given up.  This module develops that machine over an arbitrary type of tasks:
what one wave can do, what every run accounts for, and the exact circumstances
under which the run agrees with the recursive reading of the dependencies.
-/

namespace RootSeeker.WaveScheduling

variable {ι : Type*} [DecidableEq ι]

/-- A finite set of tasks in the order in which they are listed.  Tasks outside
the list neither depend on anything nor block anything. -/
structure Tasks (ι : Type*) where
  listed : List ι
  deps : ι → List ι
  required : ι → Bool
  ok : ι → Bool
  nodup : listed.Nodup
  required_listed : ∀ task, required task = true → task ∈ listed
  deps_listed : ∀ task, task ∉ listed → deps task = []

/-- What the scheduler does with one task, in the order of happening. -/
inductive Event (ι : Type*) where
  | skipped (task : ι)
  | unresolved (task : ι)
  | handed (task : ι)
  | returned (task : ι)
  deriving DecidableEq

namespace Event

/-- The task an event closes; handing a task out does not close it. -/
def closes : Event ι → Option ι
  | skipped task => some task
  | unresolved task => some task
  | handed _ => none
  | returned task => some task

def handedTask : Event ι → Option ι
  | handed task => some task
  | _ => none

def returnedTask : Event ι → Option ι
  | returned task => some task
  | _ => none

omit [DecidableEq ι]

theorem filterMap_closes_map {event : ι → Event ι}
    (hcloses : ∀ task, (event task).closes = some task) (tasks : List ι) :
    (tasks.map event).filterMap closes = tasks := by
  simp [List.filterMap_map, hcloses]

@[simp]
theorem filterMap_closes_handed (tasks : List ι) : (tasks.map handed).filterMap closes = [] := by
  simp [List.filterMap_map, Function.comp_def, closes]

@[simp]
theorem filterMap_returnedTask_handed (tasks : List ι) :
    (tasks.map handed).filterMap returnedTask = [] := by
  simp [List.filterMap_map, Function.comp_def, returnedTask]

@[simp]
theorem filterMap_handedTask_handed (tasks : List ι) :
    (tasks.map handed).filterMap handedTask = tasks := by
  simp [List.filterMap_map, Function.comp_def, handedTask]

@[simp]
theorem filterMap_returnedTask_returned (tasks : List ι) :
    (tasks.map returned).filterMap returnedTask = tasks := by
  simp [List.filterMap_map, Function.comp_def, returnedTask]

theorem handedTask_eq_none {event : Event ι} {task : ι}
    (hcloses : event.closes = some task) : event.handedTask = none := by
  cases event <;> simp_all [closes, handedTask]

end Event

structure Progress (ι : Type*) where
  pending : List ι
  finished : Finset ι
  blocking : Finset ι
  events : List (Event ι)

namespace Progress

/-- Close one task with the event `event`, adding it to the blocking set when
`blocks` is set. -/
def close (event : ι → Event ι) (blocks : ι → Bool) (progress : Progress ι)
    (task : ι) : Progress ι where
  pending := progress.pending.erase task
  finished := insert task progress.finished
  blocking := if blocks task then insert task progress.blocking
    else progress.blocking
  events := progress.events ++ [event task]

def closeAll (event : ι → Event ι) (blocks : ι → Bool) (progress : Progress ι)
    (tasks : List ι) : Progress ι :=
  tasks.foldl (close event blocks) progress

/-- Tasks closed so far, in the order in which they were closed. -/
def closed (progress : Progress ι) : List ι :=
  progress.events.filterMap Event.closes

def handed (progress : Progress ι) : List ι :=
  progress.events.filterMap Event.handedTask

def returned (progress : Progress ι) : List ι :=
  progress.events.filterMap Event.returnedTask

variable (event : ι → Event ι) (blocks : ι → Bool)

@[simp]
theorem close_pending (progress : Progress ι) (task : ι) :
    (close event blocks progress task).pending = progress.pending.erase task :=
  rfl

theorem close_pending_nodup {progress : Progress ι} (hnodup : progress.pending.Nodup) (task : ι) :
    (close event blocks progress task).pending.Nodup :=
  hnodup.erase task

theorem mem_close_pending {progress : Progress ι} (hnodup : progress.pending.Nodup) (task other : ι) :
    other ∈ (close event blocks progress task).pending ↔ other ≠ task ∧ other ∈ progress.pending :=
  hnodup.mem_erase_iff

theorem close_pending_length_lt {progress : Progress ι} {task : ι}
    (hpending : task ∈ progress.pending) :
    (close event blocks progress task).pending.length <
      progress.pending.length := by
  rw [close_pending, List.length_erase_of_mem hpending]
  have hpos := List.length_pos_of_mem hpending
  omega

@[simp]
theorem close_finished (progress : Progress ι) (task : ι) :
    (close event blocks progress task).finished = insert task progress.finished :=
  rfl

@[simp]
theorem close_blocking (progress : Progress ι) (task : ι) :
    (close event blocks progress task).blocking =
      if blocks task then insert task progress.blocking else progress.blocking :=
  rfl

@[simp]
theorem close_events (progress : Progress ι) (task : ι) :
    (close event blocks progress task).events = progress.events ++ [event task] :=
  rfl

theorem close_closed (hcloses : ∀ task, (event task).closes = some task) (progress : Progress ι)
    (task : ι) : (close event blocks progress task).closed = progress.closed ++ [task] := by
  simp [closed, hcloses]

theorem close_returned (progress : Progress ι) (task : ι) :
    (close event blocks progress task).returned =
      progress.returned ++ (event task).returnedTask.toList := by
  rw [returned, close_events, List.filterMap_append]
  cases event task <;> rfl

@[simp]
theorem closeAll_nil (progress : Progress ι) :
    closeAll event blocks progress [] = progress := rfl

@[simp]
theorem closeAll_cons (progress : Progress ι) (task : ι) (tasks : List ι) :
    closeAll event blocks progress (task :: tasks) =
      closeAll event blocks (close event blocks progress task) tasks := rfl

theorem closeAll_pending (progress : Progress ι) (tasks : List ι) :
    (closeAll event blocks progress tasks).pending = progress.pending.diff tasks := by
  induction tasks generalizing progress with
  | nil => rfl
  | cons task tasks ih => rw [closeAll_cons, ih, List.diff_cons]; rfl

theorem mem_closeAll_pending {progress : Progress ι}
    (hnodup : progress.pending.Nodup) (tasks : List ι) (task : ι) :
    task ∈ (closeAll event blocks progress tasks).pending ↔
      task ∈ progress.pending ∧ task ∉ tasks := by
  rw [closeAll_pending]
  exact hnodup.mem_sdiff_iff

theorem mem_closeAll_finished (progress : Progress ι) (tasks : List ι) (task : ι) :
    task ∈ (closeAll event blocks progress tasks).finished ↔
      task ∈ progress.finished ∨ task ∈ tasks := by
  induction tasks generalizing progress with
  | nil => simp
  | cons head tasks ih =>
    rw [closeAll_cons, ih]
    simp only [close, Finset.mem_insert, List.mem_cons]
    tauto

theorem mem_closeAll_blocking (progress : Progress ι) (tasks : List ι) (task : ι) :
    task ∈ (closeAll event blocks progress tasks).blocking ↔
      task ∈ progress.blocking ∨ (task ∈ tasks ∧ blocks task = true) := by
  induction tasks generalizing progress with
  | nil => simp
  | cons head tasks ih =>
    rw [closeAll_cons, ih]
    have hclose : task ∈ (close event blocks progress head).blocking ↔
        task ∈ progress.blocking ∨ (task = head ∧ blocks task = true) := by
      by_cases hhead : blocks head = true
      · simp only [close, hhead, if_true, Finset.mem_insert]
        constructor
        · rintro (rfl | hmem)
          · exact Or.inr ⟨rfl, hhead⟩
          · exact Or.inl hmem
        · rintro (hmem | ⟨rfl, _⟩)
          · exact Or.inr hmem
          · exact Or.inl rfl
      · simp only [close, hhead]
        constructor
        · exact Or.inl
        · rintro (hmem | ⟨rfl, hblocks⟩)
          · exact hmem
          · exact absurd hblocks hhead
    rw [hclose, List.mem_cons]
    tauto

theorem closeAll_events (progress : Progress ι) (tasks : List ι) :
    (closeAll event blocks progress tasks).events = progress.events ++ tasks.map event := by
  induction tasks generalizing progress with
  | nil => simp
  | cons task tasks ih =>
    rw [closeAll_cons, ih]
    simp [close]

end Progress

namespace Tasks

variable (tasks : Tasks ι)

def start : Progress ι where
  pending := tasks.listed
  finished := ∅
  blocking := ∅
  events := []

/-- The skip pass looks at each pending task once, in listing order, and closes
it when one of its dependencies blocks.  A task closed early in the pass blocks
the tasks that the same pass visits later. -/
def skipOne (progress : Progress ι) (task : ι) : Progress ι :=
  if (tasks.deps task).any (· ∈ progress.blocking) then
    progress.close Event.skipped tasks.required task
  else progress

def skipPass (progress : Progress ι) : Progress ι :=
  progress.pending.foldl tasks.skipOne progress

def ready (progress : Progress ι) : List ι :=
  progress.pending.filter fun task =>
    (tasks.deps task).all (· ∈ progress.finished)

def failing (task : ι) : Bool :=
  !tasks.ok task && tasks.required task

def runBatch (progress : Progress ι) (batch : List ι) : Progress ι :=
  Progress.closeAll Event.returned tasks.failing
    { progress with events := progress.events ++ batch.map Event.handed } batch

def giveUp (progress : Progress ι) : Progress ι :=
  progress.closeAll Event.unresolved tasks.required progress.pending

def wave (progress : Progress ι) : Progress ι :=
  let after := tasks.skipPass progress
  if tasks.ready after = [] then
    if after.pending = progress.pending then tasks.giveUp after else after
  else tasks.runBatch after (tasks.ready after)

/-- All waves: a wave closes at least one task, so there are at most as many
waves as tasks, and a wave without pending tasks changes nothing. -/
def run : Progress ι :=
  tasks.wave^[tasks.listed.length] tasks.start

/-! ## What one wave can do -/

/-- The tasks the skip pass closes when it starts from a blocking set. -/
def skipsFrom (blocking : Finset ι) : List ι → List ι
  | [] => []
  | task :: rest =>
    if (tasks.deps task).any (· ∈ blocking) then
      task :: skipsFrom
        (if tasks.required task then insert task blocking else blocking) rest
    else skipsFrom blocking rest

theorem skipsFrom_sublist (blocking : Finset ι) (pending : List ι) :
    (tasks.skipsFrom blocking pending).Sublist pending := by
  induction pending generalizing blocking with
  | nil => exact List.Sublist.slnil
  | cons task rest ih =>
    rw [skipsFrom]
    split
    · exact (ih _).cons_cons task
    · exact (ih _).cons task

theorem skipsFrom_empty (pending : List ι) : tasks.skipsFrom ∅ pending = [] := by
  induction pending with
  | nil => rfl
  | cons task rest ih => simpa [skipsFrom] using ih

private theorem foldl_skipOne (progress : Progress ι) (pending : List ι) :
    pending.foldl tasks.skipOne progress =
      progress.closeAll Event.skipped tasks.required
        (tasks.skipsFrom progress.blocking pending) := by
  induction pending generalizing progress with
  | nil => rfl
  | cons task rest ih =>
    rw [List.foldl_cons, ih, skipOne, skipsFrom]
    split <;> rfl

def skips (progress : Progress ι) : List ι :=
  tasks.skipsFrom progress.blocking progress.pending

theorem skipPass_eq (progress : Progress ι) :
    tasks.skipPass progress =
      progress.closeAll Event.skipped tasks.required (tasks.skips progress) :=
  tasks.foldl_skipOne progress progress.pending

theorem skipPass_pending {progress : Progress ι} (hnodup : progress.pending.Nodup) :
    (tasks.skipPass progress).pending = progress.pending.filter (· ∉ tasks.skips progress) := by
  rw [skipPass_eq, Progress.closeAll_pending, hnodup.sdiff_eq_filter]

/-- One wave closes the skipped tasks and then does exactly one of three
things: it hands out the ready tasks, it stops after the skips, or, when there
were none, it gives the remaining tasks up. -/
theorem wave_cases {progress : Progress ι} (hnodup : progress.pending.Nodup) :
    (∃ batch, batch ≠ [] ∧
      batch = tasks.ready (tasks.skipPass progress) ∧
      tasks.wave progress = tasks.runBatch (tasks.skipPass progress) batch) ∨
    (tasks.ready (tasks.skipPass progress) = [] ∧ tasks.skips progress ≠ [] ∧
      tasks.wave progress = tasks.skipPass progress) ∨
    (tasks.ready progress = [] ∧ tasks.skips progress = [] ∧
      tasks.skipPass progress = progress ∧
      tasks.wave progress = tasks.giveUp progress) := by
  by_cases hready : tasks.ready (tasks.skipPass progress) = []
  · by_cases hskips : tasks.skips progress = []
    · have hpass : tasks.skipPass progress = progress := by
        rw [skipPass_eq, hskips, Progress.closeAll_nil]
      refine Or.inr (Or.inr ⟨hpass ▸ hready, hskips, hpass, ?_⟩)
      rw [hpass] at hready
      simp only [wave, hpass, hready, if_true]
    · refine Or.inr (Or.inl ⟨hready, hskips, ?_⟩)
      have hpending : (tasks.skipPass progress).pending ≠ progress.pending := by
        obtain ⟨task, hskip⟩ := List.exists_mem_of_ne_nil _ hskips
        have hmem : task ∈ progress.pending :=
          (tasks.skipsFrom_sublist _ _).subset hskip
        intro heq
        rw [← heq, tasks.skipPass_pending hnodup, List.mem_filter] at hmem
        exact (of_decide_eq_true hmem.2) hskip
      simp only [wave, hready, if_true, if_neg hpending]
  · refine Or.inl ⟨_, hready, rfl, ?_⟩
    simp only [wave, if_neg hready]

theorem wave_pending_sublist (progress : Progress ι) :
    (tasks.wave progress).pending.Sublist progress.pending := by
  have hpass : (tasks.skipPass progress).pending.Sublist progress.pending := by
    rw [skipPass_eq, Progress.closeAll_pending]
    exact List.diff_sublist _ _
  rw [wave]
  split
  · split
    · rw [giveUp, Progress.closeAll_pending]
      exact (List.diff_sublist _ _).trans hpass
    · exact hpass
  · rw [runBatch, Progress.closeAll_pending]
    exact (List.diff_sublist _ _).trans hpass

/-- A wave only appends events. -/
theorem wave_events_prefix (progress : Progress ι) :
    progress.events <+: (tasks.wave progress).events := by
  have hpass : progress.events <+: (tasks.skipPass progress).events := by
    rw [skipPass_eq, Progress.closeAll_events]
    exact List.prefix_append _ _
  rw [wave]
  split
  · split
    · rw [giveUp, Progress.closeAll_events]
      exact hpass.trans (List.prefix_append _ _)
    · exact hpass
  · rw [runBatch, Progress.closeAll_events]
    exact hpass.trans ((List.prefix_append _ _).trans (List.prefix_append _ _))

/-! ## What every run accounts for -/

/-- Each task handed out in an event list had all its dependencies closed
before, starting from the tasks `done`. -/
def OrderedFrom (done : List ι) : List (Event ι) → Prop
  | [] => True
  | event :: events =>
    (∀ task, event = Event.handed task → ∀ dep ∈ tasks.deps task, dep ∈ done) ∧
      OrderedFrom (done ++ event.closes.toList) events

omit [DecidableEq ι] in
theorem orderedFrom_append (done : List ι) (left right : List (Event ι)) :
    tasks.OrderedFrom done (left ++ right) ↔
      tasks.OrderedFrom done left ∧
        tasks.OrderedFrom (done ++ left.filterMap Event.closes) right := by
  induction left generalizing done with
  | nil => simp [OrderedFrom]
  | cons event events ih =>
    have hclosed : (event :: events).filterMap Event.closes =
        event.closes.toList ++ events.filterMap Event.closes := by
      cases event <;> rfl
    rw [List.cons_append, OrderedFrom, OrderedFrom, ih, hclosed, List.append_assoc, and_assoc]

omit [DecidableEq ι] in
/-- In an ordered event list every dependency of a handed-out task was closed
by an earlier event. -/
theorem OrderedFrom.deps_closed {tasks : Tasks ι} {events : List (Event ι)}
    (hordered : tasks.OrderedFrom [] events) {before after : List (Event ι)}
    {task : ι} (hevents : events = before ++ Event.handed task :: after) :
    ∀ dep ∈ tasks.deps task, dep ∈ before.filterMap Event.closes := by
  rw [hevents, orderedFrom_append] at hordered
  simpa using hordered.2.1 task rfl

omit [DecidableEq ι] in
private theorem orderedFrom_of_not_handed (done : List ι) {events : List (Event ι)}
    (hevents : ∀ event ∈ events, event.handedTask = none) : tasks.OrderedFrom done events := by
  induction events generalizing done with
  | nil => trivial
  | cons event events ih =>
    refine ⟨?_, ih _ fun other hother => hevents other (List.mem_cons_of_mem _ hother)⟩
    rintro task rfl
    simpa [Event.handedTask] using hevents _ List.mem_cons_self

omit [DecidableEq ι] in
private theorem orderedFrom_handed {done batch : List ι}
    (hbatch : ∀ task ∈ batch, ∀ dep ∈ tasks.deps task, dep ∈ done) :
    tasks.OrderedFrom done (batch.map Event.handed) := by
  induction batch with
  | nil => trivial
  | cons head batch ih =>
    refine ⟨?_, ?_⟩
    · rintro task heq
      obtain rfl : head = task := by simpa using heq
      exact hbatch head List.mem_cons_self
    · simpa [Event.closes] using ih fun task htask => hbatch task (List.mem_cons_of_mem _ htask)

/-- The books a scheduler keeps between waves: closed and pending tasks
partition the list, no task is closed twice, what was handed out has returned,
and a task is handed out only after every dependency was closed. -/
structure Accounted (progress : Progress ι) : Prop where
  pending_sublist : progress.pending.Sublist tasks.listed
  closed_nodup : progress.closed.Nodup
  mem_closed : ∀ task, task ∈ progress.closed ↔
    task ∈ tasks.listed ∧ task ∉ progress.pending
  mem_finished : ∀ task, task ∈ progress.finished ↔ task ∈ progress.closed
  handed_eq : progress.handed = progress.returned
  ordered : tasks.OrderedFrom [] progress.events

omit [DecidableEq ι] in
theorem start_accounted : tasks.Accounted tasks.start where
  pending_sublist := List.Sublist.refl _
  closed_nodup := List.nodup_nil
  mem_closed task := by simp [start, Progress.closed]
  mem_finished task := by simp [start, Progress.closed]
  handed_eq := rfl
  ordered := trivial

namespace Accounted

variable {tasks} {progress : Progress ι}

omit [DecidableEq ι] in
theorem pending_nodup (haccounted : tasks.Accounted progress) : progress.pending.Nodup :=
  tasks.nodup.sublist haccounted.pending_sublist

section

variable (haccounted : tasks.Accounted progress)

include haccounted

/-- Handing out `batch` and then closing the pending tasks `group` keeps the
books, provided the closing events return exactly the batch. -/
theorem closeAll {event : ι → Event ι} (blocks : ι → Bool) {batch group : List ι}
    (hcloses : ∀ task, (event task).closes = some task)
    (hreturned : (group.map event).filterMap Event.returnedTask = batch) (hnodup : group.Nodup)
    (hpending : ∀ task ∈ group, task ∈ progress.pending)
    (hdeps : ∀ task ∈ batch, ∀ dep ∈ tasks.deps task, dep ∈ progress.closed) :
    tasks.Accounted (Progress.closeAll event blocks
      { progress with events := progress.events ++ batch.map Event.handed }
      group) := by
  have hevents : (Progress.closeAll event blocks
      { progress with events := progress.events ++ batch.map Event.handed }
      group).events = progress.events ++ (batch.map Event.handed ++ group.map event) := by
    rw [Progress.closeAll_events, List.append_assoc]
  have hhandNone : ∀ task, (event task).handedTask = none :=
    fun task => Event.handedTask_eq_none (hcloses task)
  have hclosed : (Progress.closeAll event blocks
      { progress with events := progress.events ++ batch.map Event.handed }
      group).closed = progress.closed ++ group := by
    rw [Progress.closed, hevents, List.filterMap_append, List.filterMap_append,
      Event.filterMap_closes_map hcloses, Event.filterMap_closes_handed,
      List.nil_append, Progress.closed]
  have hmemPending : ∀ task, task ∈ (Progress.closeAll event blocks
      { progress with events := progress.events ++ batch.map Event.handed }
      group).pending ↔ task ∈ progress.pending ∧ task ∉ group := by
    intro task
    refine Progress.mem_closeAll_pending _ _ ?_ group task
    exact haccounted.pending_nodup
  constructor
  · rw [Progress.closeAll_pending]
    exact (List.diff_sublist _ _).trans haccounted.pending_sublist
  · rw [hclosed, List.nodup_append']
    refine ⟨haccounted.closed_nodup, hnodup, ?_⟩
    intro task hold hgroup
    exact ((haccounted.mem_closed task).mp hold).2 (hpending task hgroup)
  · intro task
    rw [hclosed, List.mem_append, hmemPending, haccounted.mem_closed]
    constructor
    · rintro (⟨hlisted, hnot⟩ | hgroup)
      · exact ⟨hlisted, fun hboth => hnot hboth.1⟩
      · exact ⟨haccounted.pending_sublist.subset (hpending task hgroup),
          fun hboth => hboth.2 hgroup⟩
    · rintro ⟨hlisted, hnot⟩
      by_cases hgroup : task ∈ group
      · exact Or.inr hgroup
      · exact Or.inl ⟨hlisted, fun hmem => hnot ⟨hmem, hgroup⟩⟩
  · intro task
    rw [hclosed, List.mem_append, Progress.mem_closeAll_finished]
    exact or_congr_left (haccounted.mem_finished task)
  · have hhandGroup : (group.map event).filterMap Event.handedTask = [] := by
      rw [List.filterMap_eq_nil_iff]
      simp [hhandNone]
    rw [Progress.handed, Progress.returned, hevents]
    simp only [List.filterMap_append, Event.filterMap_returnedTask_handed,
      Event.filterMap_handedTask_handed, hhandGroup, hreturned,
      List.append_nil, List.nil_append]
    rw [show progress.events.filterMap Event.handedTask =
      progress.events.filterMap Event.returnedTask from haccounted.handed_eq]
  · rw [hevents, orderedFrom_append, orderedFrom_append]
    refine ⟨haccounted.ordered, tasks.orderedFrom_handed hdeps, ?_⟩
    apply orderedFrom_of_not_handed
    simp [hhandNone]

/-- Closing pending tasks without handing anything out keeps the books. -/
theorem closeAll_of_not_returned {event : ι → Event ι} {blocks : ι → Bool} {group : List ι}
    (hcloses : ∀ task, (event task).closes = some task)
    (hreturned : ∀ task, (event task).returnedTask = none) (hnodup : group.Nodup)
    (hpending : ∀ task ∈ group, task ∈ progress.pending) :
    tasks.Accounted (progress.closeAll event blocks group) := by
  have hnone : (group.map event).filterMap Event.returnedTask = [] := by
    rw [List.filterMap_eq_nil_iff]
    simp [hreturned]
  simpa using haccounted.closeAll blocks hcloses hnone hnodup hpending (by simp)

theorem skipPass : tasks.Accounted (tasks.skipPass progress) := by
  have hsublist := tasks.skipsFrom_sublist progress.blocking progress.pending
  rw [skipPass_eq]
  exact haccounted.closeAll_of_not_returned (fun _ => rfl) (fun _ => rfl)
    (haccounted.pending_nodup.sublist hsublist) fun _ hskip =>
      hsublist.subset hskip

theorem giveUp : tasks.Accounted (tasks.giveUp progress) :=
  haccounted.closeAll_of_not_returned (fun _ => rfl) (fun _ => rfl)
    haccounted.pending_nodup fun _ hmem => hmem

theorem runBatch_ready : tasks.Accounted (tasks.runBatch progress (tasks.ready progress)) := by
  refine haccounted.closeAll _ (fun _ => rfl)
    (Event.filterMap_returnedTask_returned _)
    (haccounted.pending_nodup.filter _)
    (fun _ hready => (List.mem_filter.mp hready).1) ?_
  intro task hready dep hdep
  have hall := (List.mem_filter.mp hready).2
  rw [List.all_eq_true] at hall
  exact (haccounted.mem_finished dep).mp (of_decide_eq_true (hall dep hdep))

/-- One wave keeps the books. -/
theorem wave : tasks.Accounted (tasks.wave progress) := by
  obtain ⟨batch, _, rfl, hwave⟩ | ⟨_, _, hwave⟩ | ⟨_, _, _, hwave⟩ :=
    tasks.wave_cases haccounted.pending_nodup
  · rw [hwave]
    exact haccounted.skipPass.runBatch_ready
  · rw [hwave]
    exact haccounted.skipPass
  · rw [hwave]
    exact haccounted.giveUp

/-- A wave that finds pending tasks closes at least one of them. -/
theorem wave_pending_lt (hpending : progress.pending ≠ []) :
    (tasks.wave progress).pending.length < progress.pending.length := by
  have hpass : (tasks.skipPass progress).pending.length ≤
      progress.pending.length := by
    rw [tasks.skipPass_pending haccounted.pending_nodup]
    exact List.length_filter_le _ _
  obtain ⟨batch, hbatch, rfl, hwave⟩ | ⟨_, hskips, hwave⟩ | ⟨_, _, _, hwave⟩ :=
    tasks.wave_cases haccounted.pending_nodup
  · obtain ⟨task, htask⟩ := List.exists_mem_of_ne_nil _ hbatch
    rw [hwave, Tasks.runBatch, Progress.closeAll_pending,
      haccounted.skipPass.pending_nodup.sdiff_eq_filter]
    refine lt_of_lt_of_le ?_ hpass
    exact List.length_filter_lt_length_iff_exists.mpr
      ⟨task, (List.mem_filter.mp htask).1, by simpa using htask⟩
  · obtain ⟨task, htask⟩ := List.exists_mem_of_ne_nil _ hskips
    rw [hwave, tasks.skipPass_pending haccounted.pending_nodup]
    exact List.length_filter_lt_length_iff_exists.mpr
      ⟨task, (tasks.skipsFrom_sublist _ _).subset htask, by simpa using htask⟩
  · rw [hwave, Tasks.giveUp, Progress.closeAll_pending, haccounted.pending_nodup.sdiff_eq_filter]
    obtain ⟨task, htask⟩ := List.exists_mem_of_ne_nil _ hpending
    exact List.length_filter_lt_length_iff_exists.mpr ⟨task, htask, by simpa using htask⟩

end

end Accounted

theorem iterate_accounted (count : ℕ) : tasks.Accounted (tasks.wave^[count] tasks.start) := by
  induction count with
  | zero => exact tasks.start_accounted
  | succ count ih =>
    rw [Function.iterate_succ_apply']
    exact ih.wave

/-- While tasks are pending, every wave has made progress. -/
theorem iterate_pending_length (count : ℕ)
    (hpending : (tasks.wave^[count] tasks.start).pending ≠ []) :
    (tasks.wave^[count] tasks.start).pending.length + count ≤
      tasks.listed.length := by
  induction count with
  | zero => exact le_rfl
  | succ count ih =>
    rw [Function.iterate_succ_apply'] at hpending ⊢
    have hbefore : (tasks.wave^[count] tasks.start).pending ≠ [] := by
      intro hnil
      apply hpending
      have hsublist :
          (tasks.wave (tasks.wave^[count] tasks.start)).pending.Sublist
            (tasks.wave^[count] tasks.start).pending :=
        tasks.wave_pending_sublist _
      rw [hnil] at hsublist
      exact List.sublist_nil.mp hsublist
    have hlt := (tasks.iterate_accounted count).wave_pending_lt hbefore
    have hle := ih hbefore
    omega

/-- Every run closes all tasks. -/
theorem run_pending : tasks.run.pending = [] := by
  by_contra hpending
  have hle := tasks.iterate_pending_length _ hpending
  have hpos := List.length_pos_of_ne_nil hpending
  rw [← run] at hle
  omega

theorem run_accounted : tasks.Accounted tasks.run :=
  tasks.iterate_accounted _

theorem wave_of_pending_nil {progress : Progress ι}
    (hpending : progress.pending = []) : tasks.wave progress = progress := by
  simp [wave, ready, skipPass, giveUp, hpending]

theorem iterate_of_pending_nil {progress : Progress ι} (hpending : progress.pending = [])
    (count : ℕ) : tasks.wave^[count] progress = progress :=
  Function.iterate_fixed (tasks.wave_of_pending_nil hpending) count

theorem iterate_events_prefix {first second : ℕ} (hle : first ≤ second) :
    (tasks.wave^[first] tasks.start).events <+:
      (tasks.wave^[second] tasks.start).events := by
  induction hle with
  | refl => exact List.prefix_refl _
  | step _ ih =>
    rw [Function.iterate_succ_apply']
    exact ih.trans (tasks.wave_events_prefix _)

/-- A run hands out nothing exactly when every task waits for another one:
then the first wave finds no task to start with and gives all of them up. -/
theorem run_handed_eq_nil_iff :
    tasks.run.handed = [] ↔ ∀ task ∈ tasks.listed, tasks.deps task ≠ [] := by
  have hskips : tasks.skips tasks.start = [] := tasks.skipsFrom_empty _
  have hpass : tasks.skipPass tasks.start = tasks.start := by
    rw [skipPass_eq, hskips, Progress.closeAll_nil]
  have hready : ∀ task, task ∈ tasks.ready tasks.start ↔
      task ∈ tasks.listed ∧ tasks.deps task = [] := by
    intro task
    simp [ready, start, List.eq_nil_iff_forall_not_mem]
  constructor
  · intro hhanded task hlisted hdeps
    have hmem : task ∈ tasks.ready tasks.start :=
      (hready task).mpr ⟨hlisted, hdeps⟩
    have hwave : tasks.wave tasks.start = tasks.runBatch tasks.start (tasks.ready tasks.start) := by
      simp only [wave, hpass, if_neg (List.ne_nil_of_mem hmem)]
    have hevent : Event.handed task ∈ (tasks.wave^[1] tasks.start).events := by
      rw [Function.iterate_one, hwave, runBatch, Progress.closeAll_events]
      simp [hmem]
    have hcount : 1 ≤ tasks.listed.length := List.length_pos_of_mem hlisted
    have hrun : Event.handed task ∈ tasks.run.events :=
      (tasks.iterate_events_prefix hcount).subset hevent
    have hin : task ∈ tasks.run.handed :=
      List.mem_filterMap.mpr ⟨_, hrun, rfl⟩
    rw [hhanded] at hin
    exact List.not_mem_nil hin
  · intro hdeps
    have hnone : tasks.ready tasks.start = [] := by
      rw [List.eq_nil_iff_forall_not_mem]
      intro task hmem
      exact hdeps task ((hready task).mp hmem).1 ((hready task).mp hmem).2
    have hwave : tasks.wave tasks.start = tasks.giveUp tasks.start := by
      simp only [wave, hpass, hnone, if_true]
    have hgiven : (tasks.giveUp tasks.start).pending = [] := by
      rw [giveUp, Progress.closeAll_pending, tasks.start_accounted.pending_nodup.sdiff_eq_filter]
      simp
    have hhanded : (tasks.giveUp tasks.start).handed = [] := by
      rw [Progress.handed, giveUp, Progress.closeAll_events]
      simp [start, List.filterMap_map, Function.comp_def, Event.handedTask]
    rw [run]
    cases hlength : tasks.listed.length with
    | zero => rfl
    | succ count =>
      rw [Function.iterate_succ_apply, hwave, tasks.iterate_of_pending_nil hgiven, hhanded]

end Tasks

end RootSeeker.WaveScheduling
