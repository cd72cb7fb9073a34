import RootSeeker.Core.WaveScheduling

/-!
# When a wave run follows the dependencies

Read recursively, the dependencies decide every task: a task is blocked when
one of its required dependencies is itself blocked or does not succeed, and
every other task is executed.  The waves reach the same verdicts only if each
blocked task is seen by a skip pass before it looks ready.  This module dates
the end of every task by that recursion, and shows that the run agrees with it
exactly when no blocked task becomes ready too early and no executed task
waits for something outside the list.
-/

namespace RootSeeker.WaveScheduling

variable {ι : Type*} [DecidableEq ι]

namespace Tasks

variable (tasks : Tasks ι)

/-- A task is blocked when a required dependency is blocked or not ok. -/
inductive Blocked : ι → Prop
  | failed {task dep : ι} (hdep : dep ∈ tasks.deps task)
      (hrequired : tasks.required dep = true) (hok : tasks.ok dep = false) :
      Blocked task
  | skipped {task dep : ι} (hdep : dep ∈ tasks.deps task)
      (hrequired : tasks.required dep = true) (hblocked : Blocked dep) :
      Blocked task

/-- A required task that is blocked or not ok blocks its dependants. -/
def Blocks (dep : ι) : Prop :=
  tasks.required dep = true ∧ (tasks.Blocked dep ∨ tasks.ok dep = false)

omit [DecidableEq ι] in
theorem blocked_iff (task : ι) :
    tasks.Blocked task ↔ ∃ dep ∈ tasks.deps task, tasks.Blocks dep := by
  constructor
  · intro hblocked
    cases hblocked with
    | failed hdep hrequired hok => exact ⟨_, hdep, hrequired, Or.inr hok⟩
    | skipped hdep hrequired hblocked => exact ⟨_, hdep, hrequired, Or.inl hblocked⟩
  · rintro ⟨dep, hdep, hrequired, hblocked | hok⟩
    · exact Blocked.skipped hdep hrequired hblocked
    · exact Blocked.failed hdep hrequired hok

def DependsOn (dep task : ι) : Prop :=
  dep ∈ tasks.deps task

def Acyclic : Prop :=
  ∀ task, ¬ Relation.TransGen tasks.DependsOn task task

omit [DecidableEq ι] in
theorem Acyclic.wellFounded {tasks : Tasks ι} (hacyclic : tasks.Acyclic) :
    WellFounded tasks.DependsOn := by
  let order : ι → ι → Prop := Relation.TransGen tasks.DependsOn
  have : IsStrictOrder ι order :=
    { irrefl := hacyclic
      trans := fun _ _ _ => Relation.TransGen.trans }
  have hfinite : {task | task ∈ tasks.listed}.Finite :=
    List.finite_toSet tasks.listed
  have hon := hfinite.wellFoundedOn (r := order)
  have hlisted : ∀ task, task ∈ tasks.listed → Acc tasks.DependsOn task := by
    intro task htask
    refine hon.induction htask fun task _ ih => ?_
    constructor
    intro dep hdep
    by_cases hdepListed : dep ∈ tasks.listed
    · exact ih dep hdepListed (Relation.TransGen.single hdep)
    · constructor
      intro other hother
      rw [DependsOn, tasks.deps_listed dep hdepListed] at hother
      exact absurd hother List.not_mem_nil
  constructor
  intro task
  by_cases htask : task ∈ tasks.listed
  · exact hlisted task htask
  · constructor
    intro dep hdep
    rw [DependsOn, tasks.deps_listed task htask] at hdep
    exact absurd hdep List.not_mem_nil

def ListedBefore (left right : ι) : Prop :=
  tasks.listed.idxOf left < tasks.listed.idxOf right

instance (left right : ι) : Decidable (tasks.ListedBefore left right) :=
  inferInstanceAs (Decidable (_ < _))

open Classical in
/-- The wave in which a task finishes if every verdict follows the
dependencies.  A blocked task is closed by the first skip pass that sees one
of its blocking dependencies: an executed dependency is seen one wave later, a
skipped one in its own wave if it is listed before the task.  Any other task
runs in the first wave in which all dependencies are finished. -/
noncomputable def finishWave (hwf : WellFounded tasks.DependsOn) (task : ι) : ℕ :=
  if tasks.Blocked task then
    sInf {n | ∃ dep, ∃ _hdep : dep ∈ tasks.deps task, tasks.Blocks dep ∧
      finishWave hwf dep +
        (if tasks.Blocked dep ∧ tasks.ListedBefore dep task then 0 else 1) ≤ n}
  else
    sInf {n | ∀ dep, ∀ _hdep : dep ∈ tasks.deps task,
      finishWave hwf dep + (if tasks.Blocked dep then 0 else 1) ≤ n}
termination_by hwf.wrap task
decreasing_by all_goals exact _hdep

variable (hwf : WellFounded tasks.DependsOn)

open Classical in
/-- The first wave whose skip pass sees `dep` when it visits `task`. -/
noncomputable def seenWave (task dep : ι) : ℕ :=
  tasks.finishWave hwf dep +
    (if tasks.Blocked dep ∧ tasks.ListedBefore dep task then 0 else 1)

open Classical in
/-- The first wave in which `dep` no longer keeps its dependants waiting. -/
noncomputable def freeWave (dep : ι) : ℕ :=
  tasks.finishWave hwf dep + (if tasks.Blocked dep then 0 else 1)

variable {task : ι}

theorem finishWave_le_iff_of_blocked (hblocked : tasks.Blocked task) (n : ℕ) :
    tasks.finishWave hwf task ≤ n ↔
      ∃ dep ∈ tasks.deps task, tasks.Blocks dep ∧ tasks.seenWave hwf task dep ≤ n := by
  rw [finishWave, if_pos hblocked]
  set seen := {n | ∃ dep, ∃ _hdep : dep ∈ tasks.deps task, tasks.Blocks dep ∧
    tasks.seenWave hwf task dep ≤ n} with hseen
  change sInf seen ≤ n ↔ _
  constructor
  · intro hle
    have hnonempty : seen.Nonempty := by
      obtain ⟨dep, hdep, hblocks⟩ := (tasks.blocked_iff task).mp hblocked
      exact ⟨_, dep, hdep, hblocks, le_rfl⟩
    obtain ⟨dep, hdep, hblocks, hdepLe⟩ := Nat.sInf_mem hnonempty
    exact ⟨dep, hdep, hblocks, hdepLe.trans hle⟩
  · rintro ⟨dep, hdep, hblocks, hle⟩
    exact Nat.sInf_le ⟨dep, hdep, hblocks, hle⟩

theorem finishWave_le_iff_of_not_blocked (hblocked : ¬ tasks.Blocked task) (n : ℕ) :
    tasks.finishWave hwf task ≤ n ↔ ∀ dep ∈ tasks.deps task, tasks.freeWave hwf dep ≤ n := by
  rw [finishWave, if_neg hblocked]
  set free := {n | ∀ dep, ∀ _hdep : dep ∈ tasks.deps task,
    tasks.freeWave hwf dep ≤ n} with hfree
  change sInf free ≤ n ↔ _
  constructor
  · intro hle dep hdep
    have hnonempty : free.Nonempty :=
      ⟨((tasks.deps task).map (tasks.freeWave hwf)).sum, fun dep hdep =>
        List.le_sum_of_mem (List.mem_map_of_mem hdep)⟩
    exact (Nat.sInf_mem hnonempty dep hdep).trans hle
  · intro hall
    exact Nat.sInf_le hall

/-- The progress reached before wave `n` when every verdict so far followed the
dependencies: exactly the tasks dated before `n` are closed, the blocked ones
by a skip and the others by an execution. -/
structure AtWave (n : ℕ) (progress : Progress ι) : Prop where
  accounted : tasks.Accounted progress
  mem_pending : ∀ task, task ∈ progress.pending ↔
    task ∈ tasks.listed ∧ n ≤ tasks.finishWave hwf task
  mem_blocking : ∀ task, task ∈ progress.blocking ↔
    tasks.Blocks task ∧ tasks.finishWave hwf task < n
  skipped_iff : ∀ task, Event.skipped task ∈ progress.events ↔
    task ∈ tasks.listed ∧ tasks.Blocked task ∧ tasks.finishWave hwf task < n
  unresolved : ∀ task, Event.unresolved task ∉ progress.events
  handed_iff : ∀ task, Event.handed task ∈ progress.events ↔
    task ∈ tasks.listed ∧ ¬ tasks.Blocked task ∧ tasks.finishWave hwf task < n

/-- A blocked task is ready too early at wave `n`: all its dependencies are
finished by then, but no skip pass up to wave `n` has seen one that blocks. -/
def LateAt (n : ℕ) (task : ι) : Prop :=
  task ∈ tasks.listed ∧ tasks.Blocked task ∧
    (∀ dep ∈ tasks.deps task, dep ∈ tasks.listed ∧ tasks.freeWave hwf dep ≤ n) ∧
    n < tasks.finishWave hwf task

/-- No blocked task is ever ready too early. -/
def NeverLate : Prop :=
  ∀ (hwf : WellFounded tasks.DependsOn) (n : ℕ) (task : ι),
    ¬ tasks.LateAt hwf n task

/-- Every task that is to be executed waits for listed tasks only. -/
def Resolvable : Prop :=
  ∀ task ∈ tasks.listed, ¬ tasks.Blocked task →
    ∀ dep ∈ tasks.deps task, dep ∈ tasks.listed

theorem start_atWave : tasks.AtWave hwf 0 tasks.start where
  accounted := tasks.start_accounted
  mem_pending task := by simp [start]
  mem_blocking task := by simp [start]
  skipped_iff task := by simp [start]
  unresolved task := by simp [start]
  handed_iff task := by simp [start]

omit [DecidableEq ι] in
theorem Blocks.listed {tasks : Tasks ι} {dep : ι} (hblocks : tasks.Blocks dep) :
    dep ∈ tasks.listed :=
  tasks.required_listed dep hblocks.1

/-- In a part of the list that starts with `done`, the tasks of `done` are
exactly those listed before the next one. -/
theorem mem_done_iff_listedBefore {done rest : List ι} {dep : ι}
    (hsublist : (done ++ task :: rest).Sublist tasks.listed) (hdep : dep ∈ done ++ task :: rest) :
    dep ∈ done ↔ tasks.ListedBefore dep task := by
  have hpairwise : tasks.listed.Pairwise tasks.ListedBefore := by
    rw [List.pairwise_iff_getElem]
    intro left right hleft hright hlt
    rw [ListedBefore, tasks.nodup.idxOf_getElem, tasks.nodup.idxOf_getElem]
    exact hlt
  have horder := hpairwise.sublist hsublist
  rw [List.pairwise_append, List.pairwise_cons] at horder
  constructor
  · intro hdone
    exact horder.2.2 dep hdone task List.mem_cons_self
  · intro hbefore
    rcases List.mem_append.mp hdep with hdone | hrest
    · exact hdone
    rcases List.mem_cons.mp hrest with rfl | hrest
    · exact absurd hbefore (lt_irrefl _)
    · exact absurd (horder.2.1.1 dep hrest) (lt_asymm hbefore)

/-- During the skip pass of wave `n`, a visited task sees a blocking dependency
exactly when it is blocked and dated `n`. -/
private theorem any_blocking_iff {n : ℕ} {done rest pending : List ι} {blocking : Finset ι}
    (hpendingEq : pending = done ++ task :: rest) (hsublist : pending.Sublist tasks.listed)
    (hpending : ∀ task, task ∈ pending ↔
      task ∈ tasks.listed ∧ n ≤ tasks.finishWave hwf task)
    (hblocking : ∀ dep, dep ∈ blocking ↔ tasks.Blocks dep ∧
      (tasks.finishWave hwf dep < n ∨
        tasks.finishWave hwf dep = n ∧ tasks.Blocked dep ∧ dep ∈ done)) :
    (tasks.deps task).any (· ∈ blocking) = true ↔
      tasks.Blocked task ∧ tasks.finishWave hwf task = n := by
  have hlate : n ≤ tasks.finishWave hwf task :=
    ((hpending task).mp (by simp [hpendingEq])).2
  have hseen : ∀ dep, tasks.Blocks dep →
      (tasks.seenWave hwf task dep ≤ n ↔ tasks.finishWave hwf dep < n ∨
        tasks.finishWave hwf dep = n ∧ tasks.Blocked dep ∧ dep ∈ done) := by
    intro dep hblocks
    rw [seenWave]
    by_cases hdone : tasks.Blocked dep ∧ tasks.ListedBefore dep task
    · rw [if_pos hdone, add_zero, le_iff_lt_or_eq]
      refine or_congr_right ⟨fun heq => ⟨heq, hdone.1, ?_⟩, fun h => h.1⟩
      have hmem : dep ∈ done ++ task :: rest := by
        rw [← hpendingEq]
        exact (hpending dep).mpr ⟨hblocks.listed, heq.ge⟩
      exact (tasks.mem_done_iff_listedBefore (hpendingEq ▸ hsublist) hmem).mpr hdone.2
    · rw [if_neg hdone, Nat.succ_le_iff]
      refine ⟨Or.inl, ?_⟩
      rintro (hlt | ⟨_, hblocked, hmem⟩)
      · exact hlt
      · exact absurd ⟨hblocked, (tasks.mem_done_iff_listedBefore
          (hpendingEq ▸ hsublist) (List.mem_append_left _ hmem)).mp hmem⟩ hdone
  have hany : (tasks.deps task).any (· ∈ blocking) = true ↔
      ∃ dep ∈ tasks.deps task, tasks.Blocks dep ∧ tasks.seenWave hwf task dep ≤ n := by
    simp only [List.any_eq_true, decide_eq_true_eq]
    refine exists_congr fun dep => and_congr_right fun _ => ?_
    rw [hblocking]
    exact and_congr_right fun hblocks => (hseen dep hblocks).symm
  rw [hany]
  constructor
  · rintro ⟨dep, hdep, hblocks, hle⟩
    have hblocked : tasks.Blocked task :=
      (tasks.blocked_iff task).mpr ⟨dep, hdep, hblocks⟩
    exact ⟨hblocked, le_antisymm ((tasks.finishWave_le_iff_of_blocked hwf
      hblocked n).mpr ⟨dep, hdep, hblocks, hle⟩) hlate⟩
  · rintro ⟨hblocked, heq⟩
    exact (tasks.finishWave_le_iff_of_blocked hwf hblocked n).mp heq.le

private theorem mem_skipsFrom_iff {n : ℕ} {pending : List ι}
    (hsublist : pending.Sublist tasks.listed) (hpending : ∀ task, task ∈ pending ↔
      task ∈ tasks.listed ∧ n ≤ tasks.finishWave hwf task) (rest done : List ι)
    (hpendingEq : pending = done ++ rest) (blocking : Finset ι)
    (hblocking : ∀ dep, dep ∈ blocking ↔ tasks.Blocks dep ∧
      (tasks.finishWave hwf dep < n ∨
        tasks.finishWave hwf dep = n ∧ tasks.Blocked dep ∧ dep ∈ done)) (task : ι) :
    task ∈ tasks.skipsFrom blocking rest ↔
      task ∈ rest ∧ tasks.Blocked task ∧ tasks.finishWave hwf task = n := by
  induction rest generalizing done blocking with
  | nil => simp [skipsFrom]
  | cons head rest ih =>
    have hnext : pending = (done ++ [head]) ++ rest := by simpa using hpendingEq
    have hhead := tasks.any_blocking_iff hwf hpendingEq hsublist hpending hblocking
    rw [skipsFrom]
    by_cases hskip : (tasks.deps head).any (· ∈ blocking) = true
    · obtain ⟨hblocked, hdate⟩ := hhead.mp hskip
      rw [if_pos hskip, List.mem_cons, List.mem_cons, ih (done ++ [head]) hnext]
      · constructor
        · rintro (rfl | ⟨hrest, hverdict⟩)
          · exact ⟨Or.inl rfl, hblocked, hdate⟩
          · exact ⟨Or.inr hrest, hverdict⟩
        · rintro ⟨rfl | hrest, hverdict⟩
          · exact Or.inl rfl
          · exact Or.inr ⟨hrest, hverdict⟩
      · intro dep
        have hinsert : dep ∈ (if tasks.required head then insert head blocking
            else blocking) ↔ dep ∈ blocking ∨ (dep = head ∧ tasks.required head = true) := by
          by_cases hrequired : tasks.required head = true
          · simp [hrequired, or_comm]
          · simp [hrequired]
        rw [hinsert, hblocking, List.mem_append, List.mem_singleton]
        constructor
        · rintro (⟨hblocks, hlt | ⟨heq, hdepBlocked, hdone⟩⟩ | ⟨rfl, hrequired⟩)
          · exact ⟨hblocks, Or.inl hlt⟩
          · exact ⟨hblocks, Or.inr ⟨heq, hdepBlocked, Or.inl hdone⟩⟩
          · exact ⟨⟨hrequired, Or.inl hblocked⟩, Or.inr ⟨hdate, hblocked, Or.inr rfl⟩⟩
        · rintro ⟨hblocks, hlt | ⟨heq, hdepBlocked, hdone | rfl⟩⟩
          · exact Or.inl ⟨hblocks, Or.inl hlt⟩
          · exact Or.inl ⟨hblocks, Or.inr ⟨heq, hdepBlocked, hdone⟩⟩
          · exact Or.inr ⟨rfl, hblocks.1⟩
    · have hverdict := fun h => hskip (hhead.mpr h)
      rw [if_neg hskip, ih (done ++ [head]) hnext, List.mem_cons]
      · constructor
        · rintro ⟨hrest, hboth⟩
          exact ⟨Or.inr hrest, hboth⟩
        · rintro ⟨rfl | hrest, hboth⟩
          · exact absurd hboth hverdict
          · exact ⟨hrest, hboth⟩
      · intro dep
        rw [hblocking, List.mem_append, List.mem_singleton]
        constructor
        · rintro ⟨hblocks, hlt | ⟨heq, hdepBlocked, hdone⟩⟩
          · exact ⟨hblocks, Or.inl hlt⟩
          · exact ⟨hblocks, Or.inr ⟨heq, hdepBlocked, Or.inl hdone⟩⟩
        · rintro ⟨hblocks, hlt | ⟨heq, hdepBlocked, hdone | rfl⟩⟩
          · exact ⟨hblocks, Or.inl hlt⟩
          · exact ⟨hblocks, Or.inr ⟨heq, hdepBlocked, hdone⟩⟩
          · exact absurd ⟨hdepBlocked, heq⟩ hverdict

namespace AtWave

variable {tasks} {hwf} {n : ℕ} {progress : Progress ι}

section

variable (hat : tasks.AtWave hwf n progress)

include hat

theorem mem_skips_iff (task : ι) :
    task ∈ tasks.skips progress ↔ task ∈ tasks.listed ∧ tasks.Blocked task ∧
      tasks.finishWave hwf task = n := by
  rw [skips, tasks.mem_skipsFrom_iff hwf hat.accounted.pending_sublist
    hat.mem_pending progress.pending [] rfl progress.blocking
    (by intro dep; rw [hat.mem_blocking]; simp), hat.mem_pending]
  constructor
  · rintro ⟨⟨hlisted, _⟩, hblocked, heq⟩
    exact ⟨hlisted, hblocked, heq⟩
  · rintro ⟨hlisted, hblocked, heq⟩
    exact ⟨⟨hlisted, heq.ge⟩, hblocked, heq⟩

theorem mem_skipPass_finished_iff (dep : ι) :
    dep ∈ (tasks.skipPass progress).finished ↔ dep ∈ tasks.listed ∧ tasks.freeWave hwf dep ≤ n := by
  rw [skipPass_eq, Progress.mem_closeAll_finished, hat.mem_skips_iff,
    hat.accounted.mem_finished, hat.accounted.mem_closed, hat.mem_pending,
    freeWave]
  by_cases hblocked : tasks.Blocked dep
  · rw [if_pos hblocked]
    constructor
    · rintro (⟨hlisted, hnot⟩ | ⟨hlisted, _, heq⟩)
      · have hlt : tasks.finishWave hwf dep < n := by
          by_contra hge
          exact hnot ⟨hlisted, not_lt.mp hge⟩
        exact ⟨hlisted, by omega⟩
      · exact ⟨hlisted, by omega⟩
    · rintro ⟨hlisted, hle⟩
      rcases Nat.lt_or_ge (tasks.finishWave hwf dep) n with hlt | hge
      · exact Or.inl ⟨hlisted, fun hboth => by omega⟩
      · exact Or.inr ⟨hlisted, hblocked, by omega⟩
  · rw [if_neg hblocked]
    constructor
    · rintro (⟨hlisted, hnot⟩ | ⟨_, hboth, _⟩)
      · have hlt : tasks.finishWave hwf dep < n := by
          by_contra hge
          exact hnot ⟨hlisted, not_lt.mp hge⟩
        exact ⟨hlisted, by omega⟩
      · exact absurd hboth hblocked
    · rintro ⟨hlisted, hle⟩
      exact Or.inl ⟨hlisted, fun hboth => by omega⟩

/-- After the skip pass of wave `n`, the ready tasks are those still pending
whose dependencies are free by then. -/
theorem mem_ready_iff (task : ι) :
    task ∈ tasks.ready (tasks.skipPass progress) ↔
      task ∈ tasks.listed ∧ n ≤ tasks.finishWave hwf task ∧
        ¬ (tasks.Blocked task ∧ tasks.finishWave hwf task = n) ∧
        ∀ dep ∈ tasks.deps task,
          dep ∈ tasks.listed ∧ tasks.freeWave hwf dep ≤ n := by
  have hfinished : (tasks.deps task).all
      (· ∈ (tasks.skipPass progress).finished) = true ↔
        ∀ dep ∈ tasks.deps task,
          dep ∈ tasks.listed ∧ tasks.freeWave hwf dep ≤ n := by
    simp only [List.all_eq_true, decide_eq_true_eq, hat.mem_skipPass_finished_iff]
  rw [ready, List.mem_filter, hfinished,
    tasks.skipPass_pending hat.accounted.pending_nodup, List.mem_filter,
    hat.mem_pending, decide_eq_true_eq, hat.mem_skips_iff]
  constructor
  · rintro ⟨⟨⟨hlisted, hle⟩, hnot⟩, hdeps⟩
    exact ⟨hlisted, hle, fun hboth => hnot ⟨hlisted, hboth⟩, hdeps⟩
  · rintro ⟨hlisted, hle, hnot, hdeps⟩
    exact ⟨⟨⟨hlisted, hle⟩, fun hall => hnot hall.2⟩, hdeps⟩

/-- A blocked task that is late at wave `n` is handed out by that wave. -/
theorem handed_of_lateAt (hlate : tasks.LateAt hwf n task) :
    Event.handed task ∈ (tasks.wave progress).events := by
  obtain ⟨hlisted, _, hdeps, hdate⟩ := hlate
  have hready : task ∈ tasks.ready (tasks.skipPass progress) :=
    (hat.mem_ready_iff task).mpr
      ⟨hlisted, hdate.le, fun hboth => hdate.ne' hboth.2, hdeps⟩
  obtain ⟨batch, _, rfl, hwave⟩ | ⟨hnone, _⟩ | ⟨hnone, _, hpass, _⟩ :=
    tasks.wave_cases hat.accounted.pending_nodup
  · rw [hwave, runBatch, Progress.closeAll_events]
    simp [hready]
  · rw [hnone] at hready
    exact absurd hready List.not_mem_nil
  · rw [hpass, hnone] at hready
    exact absurd hready List.not_mem_nil

theorem mem_ready_iff_of_not_late (hresolvable : tasks.Resolvable)
    (hlate : ∀ task, ¬ tasks.LateAt hwf n task) (task : ι) :
    task ∈ tasks.ready (tasks.skipPass progress) ↔
      task ∈ tasks.listed ∧ ¬ tasks.Blocked task ∧ tasks.finishWave hwf task = n := by
  rw [hat.mem_ready_iff]
  constructor
  · rintro ⟨hlisted, hle, hnot, hdeps⟩
    have hblocked : ¬ tasks.Blocked task := by
      intro hblocked
      refine hlate task ⟨hlisted, hblocked, hdeps, lt_of_le_of_ne hle ?_⟩
      exact fun heq => hnot ⟨hblocked, heq.symm⟩
    refine ⟨hlisted, hblocked, le_antisymm ?_ hle⟩
    exact (tasks.finishWave_le_iff_of_not_blocked hwf hblocked n).mpr
      fun dep hdep => (hdeps dep hdep).2
  · rintro ⟨hlisted, hblocked, heq⟩
    refine ⟨hlisted, heq.ge, fun hboth => hblocked hboth.1, fun dep hdep => ?_⟩
    exact ⟨hresolvable task hlisted hblocked dep hdep,
      (tasks.finishWave_le_iff_of_not_blocked hwf hblocked n).mp heq.le dep hdep⟩

/-- While tasks are pending at wave `n`, one of them is dated `n`: the date of
a pending task without pending dependencies. -/
theorem exists_dated (hresolvable : tasks.Resolvable) (hpending : progress.pending ≠ []) :
    ∃ task ∈ tasks.listed, tasks.finishWave hwf task = n := by
  obtain ⟨first, hfirst⟩ := List.exists_mem_of_ne_nil _ hpending
  obtain ⟨task, htask, hminimal⟩ := hwf.has_min
    {task | task ∈ tasks.listed ∧ n ≤ tasks.finishWave hwf task}
    ⟨first, (hat.mem_pending first).mp hfirst⟩
  refine ⟨task, htask.1, le_antisymm ?_ htask.2⟩
  have hearlier : ∀ dep ∈ tasks.deps task, dep ∈ tasks.listed → tasks.finishWave hwf dep < n := by
    intro dep hdep hlisted
    by_contra hge
    exact hminimal dep ⟨hlisted, not_lt.mp hge⟩ hdep
  by_cases hblocked : tasks.Blocked task
  · obtain ⟨dep, hdep, hblocks⟩ := (tasks.blocked_iff task).mp hblocked
    refine (tasks.finishWave_le_iff_of_blocked hwf hblocked n).mpr ⟨dep, hdep, hblocks, ?_⟩
    have hlt := hearlier dep hdep hblocks.listed
    rw [seenWave]
    split <;> omega
  · refine (tasks.finishWave_le_iff_of_not_blocked hwf hblocked n).mpr fun dep hdep => ?_
    have hlt := hearlier dep hdep (hresolvable task htask.1 hblocked dep hdep)
    rw [freeWave]
    split <;> omega

/-- A wave without late tasks dates everything one wave further. -/
theorem wave (hresolvable : tasks.Resolvable) (hlate : ∀ task, ¬ tasks.LateAt hwf n task)
    (hpending : progress.pending ≠ []) : tasks.AtWave hwf (n + 1) (tasks.wave progress) := by
  have hready := hat.mem_ready_iff_of_not_late hresolvable hlate
  have hskips := hat.mem_skips_iff
  have hskipEvents : (tasks.skipPass progress).events =
      progress.events ++ (tasks.skips progress).map Event.skipped := by
    rw [skipPass_eq, Progress.closeAll_events]
  have hskipPending := tasks.skipPass_pending hat.accounted.pending_nodup
  have hskipBlocking : ∀ task, task ∈ (tasks.skipPass progress).blocking ↔
      task ∈ progress.blocking ∨ (task ∈ tasks.skips progress ∧ tasks.required task = true) := by
    intro task
    rw [skipPass_eq, Progress.mem_closeAll_blocking]
  -- Both remaining kinds of wave close the skipped tasks and `batch`.
  suffices hbatch : ∀ batch, (∀ task, task ∈ batch ↔
      task ∈ tasks.listed ∧ ¬ tasks.Blocked task ∧
        tasks.finishWave hwf task = n) →
      tasks.wave progress =
        tasks.runBatch (tasks.skipPass progress) batch →
      tasks.AtWave hwf (n + 1) (tasks.wave progress) by
    obtain ⟨batch, _, hbatchEq, hwave⟩ | ⟨hnone, _, hwave⟩ |
        ⟨hnone, hnoskips, hpass, _⟩ :=
      tasks.wave_cases hat.accounted.pending_nodup
    · exact hbatch batch (fun task => hbatchEq ▸ hready task) hwave
    · refine hbatch [] (fun task => ?_) ?_
      · rw [← hready, hnone]
      · rw [hwave]
        simp [runBatch]
    · obtain ⟨task, hlisted, hdate⟩ := hat.exists_dated hresolvable hpending
      by_cases hblocked : tasks.Blocked task
      · have hmem := (hskips task).mpr ⟨hlisted, hblocked, hdate⟩
        rw [hnoskips] at hmem
        exact absurd hmem List.not_mem_nil
      · have hmem := (hready task).mpr ⟨hlisted, hblocked, hdate⟩
        rw [hpass, hnone] at hmem
        exact absurd hmem List.not_mem_nil
  intro batch hbatch hwave
  have hevents : (tasks.wave progress).events =
      progress.events ++ (tasks.skips progress).map Event.skipped ++
        batch.map Event.handed ++ batch.map Event.returned := by
    rw [hwave, runBatch, Progress.closeAll_events, hskipEvents]
  refine ⟨hat.accounted.wave, ?_, ?_, ?_, ?_, ?_⟩
  · intro task
    rw [hwave, runBatch, Progress.closeAll_pending,
      hat.accounted.skipPass.pending_nodup.mem_sdiff_iff, hskipPending,
      List.mem_filter, decide_eq_true_eq, hat.mem_pending, hskips, hbatch]
    constructor
    · rintro ⟨⟨⟨hlisted, hle⟩, hnotSkip⟩, hnotBatch⟩
      refine ⟨hlisted, Nat.succ_le_of_lt (lt_of_le_of_ne hle fun heq => ?_)⟩
      by_cases hblocked : tasks.Blocked task
      · exact hnotSkip ⟨hlisted, hblocked, heq.symm⟩
      · exact hnotBatch ⟨hlisted, hblocked, heq.symm⟩
    · rintro ⟨hlisted, hle⟩
      exact ⟨⟨⟨hlisted, by omega⟩, fun hskip => by omega⟩, fun hmem => by omega⟩
  · intro task
    rw [hwave, runBatch, Progress.mem_closeAll_blocking, hskipBlocking,
      hat.mem_blocking, hskips, hbatch, failing, Bool.and_eq_true,
      Bool.not_eq_true']
    constructor
    · rintro ((⟨hblocks, hlt⟩ | ⟨⟨_, hblocked, heq⟩, hrequired⟩) |
          ⟨⟨_, _, heq⟩, hok, hrequired⟩)
      · exact ⟨hblocks, by omega⟩
      · exact ⟨⟨hrequired, Or.inl hblocked⟩, by omega⟩
      · exact ⟨⟨hrequired, Or.inr hok⟩, by omega⟩
    · rintro ⟨hblocks, hlt⟩
      rcases Nat.lt_or_ge (tasks.finishWave hwf task) n with hbefore | hge
      · exact Or.inl (Or.inl ⟨hblocks, hbefore⟩)
      have heq : tasks.finishWave hwf task = n := by omega
      by_cases hblocked : tasks.Blocked task
      · exact Or.inl (Or.inr ⟨⟨hblocks.listed, hblocked, heq⟩, hblocks.1⟩)
      · exact Or.inr ⟨⟨hblocks.listed, hblocked, heq⟩, hblocks.2.resolve_left hblocked, hblocks.1⟩
  · intro task
    have hmem : Event.skipped task ∈ (tasks.wave progress).events ↔
        Event.skipped task ∈ progress.events ∨ task ∈ tasks.skips progress := by
      rw [hevents]
      simp
    rw [hmem, hat.skipped_iff, hskips]
    constructor
    · rintro (⟨hlisted, hblocked, hlt⟩ | ⟨hlisted, hblocked, heq⟩)
      · exact ⟨hlisted, hblocked, by omega⟩
      · exact ⟨hlisted, hblocked, by omega⟩
    · rintro ⟨hlisted, hblocked, hlt⟩
      rcases Nat.lt_or_ge (tasks.finishWave hwf task) n with hbefore | hge
      · exact Or.inl ⟨hlisted, hblocked, hbefore⟩
      · exact Or.inr ⟨hlisted, hblocked, by omega⟩
  · intro task
    rw [hevents]
    simp [hat.unresolved]
  · intro task
    have hmem : Event.handed task ∈ (tasks.wave progress).events ↔
        Event.handed task ∈ progress.events ∨ task ∈ batch := by
      rw [hevents]
      simp
    rw [hmem, hat.handed_iff, hbatch]
    constructor
    · rintro (⟨hlisted, hblocked, hlt⟩ | ⟨hlisted, hblocked, heq⟩)
      · exact ⟨hlisted, hblocked, by omega⟩
      · exact ⟨hlisted, hblocked, by omega⟩
    · rintro ⟨hlisted, hblocked, hlt⟩
      rcases Nat.lt_or_ge (tasks.finishWave hwf task) n with hbefore | hge
      · exact Or.inl ⟨hlisted, hblocked, hbefore⟩
      · exact Or.inr ⟨hlisted, hblocked, by omega⟩

end

end AtWave

/-! ## Whole runs -/

/-- Up to the first late task the run follows the dates. -/
theorem iterate_atWave {n : ℕ} (hresolvable : tasks.Resolvable)
    (hlate : ∀ m < n, ∀ task, ¬ tasks.LateAt hwf m task)
    (hpending : ∀ m < n, (tasks.wave^[m] tasks.start).pending ≠ []) :
    tasks.AtWave hwf n (tasks.wave^[n] tasks.start) := by
  induction n with
  | zero => exact tasks.start_atWave hwf
  | succ n ih =>
    have hat := ih (fun m hm => hlate m (by omega)) (fun m hm => hpending m (by omega))
    rw [Function.iterate_succ_apply']
    exact hat.wave hresolvable (hlate n (by omega)) (hpending n (by omega))

/-- Without late tasks, a run skips the blocked tasks, hands out all others
and gives nothing up. -/
theorem run_of_not_late (hresolvable : tasks.Resolvable)
    (hlate : ∀ n task, ¬ tasks.LateAt hwf n task) :
    (∀ task, Event.handed task ∈ tasks.run.events ↔
      task ∈ tasks.listed ∧ ¬ tasks.Blocked task) ∧
    (∀ task, Event.skipped task ∈ tasks.run.events ↔
      task ∈ tasks.listed ∧ tasks.Blocked task) ∧
    ∀ task, Event.unresolved task ∉ tasks.run.events := by
  have hexists : ∃ n, (tasks.wave^[n] tasks.start).pending = [] :=
    ⟨_, tasks.run_pending⟩
  classical
  let last := Nat.find hexists
  have hlast : (tasks.wave^[last] tasks.start).pending = [] :=
    Nat.find_spec hexists
  have hle : last ≤ tasks.listed.length :=
    Nat.find_min' hexists tasks.run_pending
  have hat : tasks.AtWave hwf last (tasks.wave^[last] tasks.start) :=
    tasks.iterate_atWave hwf hresolvable (fun m _ => hlate m)
      fun m hm => Nat.find_min hexists hm
  have hrun : tasks.run = tasks.wave^[last] tasks.start := by
    rw [run, ← Nat.sub_add_cancel hle, Function.iterate_add_apply,
      tasks.iterate_of_pending_nil hlast]
  have hdated : ∀ task ∈ tasks.listed, tasks.finishWave hwf task < last := by
    intro task hlisted
    by_contra hge
    have hmem := (hat.mem_pending task).mpr ⟨hlisted, not_lt.mp hge⟩
    rw [hlast] at hmem
    exact List.not_mem_nil hmem
  rw [hrun]
  refine ⟨fun task => ?_, fun task => ?_, hat.unresolved⟩
  · rw [hat.handed_iff]
    exact ⟨fun h => ⟨h.1, h.2.1⟩, fun h => ⟨h.1, h.2, hdated task h.1⟩⟩
  · rw [hat.skipped_iff]
    exact ⟨fun h => ⟨h.1, h.2.1⟩, fun h => ⟨h.1, h.2, hdated task h.1⟩⟩

/-- If a task is late, the first late wave hands out a blocked task. -/
theorem exists_handed_blocked (hresolvable : tasks.Resolvable)
    (hlate : ∃ n task, tasks.LateAt hwf n task) :
    ∃ task ∈ tasks.listed, tasks.Blocked task ∧ Event.handed task ∈ tasks.run.events := by
  classical
  obtain ⟨task, htask⟩ := Nat.find_spec hlate
  set first := Nat.find hlate with hfirst
  have hbefore : ∀ m < first, ∀ other, ¬ tasks.LateAt hwf m other :=
    fun m hm other hother => Nat.find_min hlate hm ⟨other, hother⟩
  have hpending : ∀ m ≤ first, (tasks.wave^[m] tasks.start).pending ≠ [] := by
    intro m hm
    induction m using Nat.strong_induction_on with
    | _ m ih =>
      have hat := tasks.iterate_atWave (n := m) hwf hresolvable
        (fun k hk => hbefore k (by omega)) (fun k hk => ih k hk (by omega))
      have hdate := htask.2.2.2
      exact List.ne_nil_of_mem ((hat.mem_pending task).mpr ⟨htask.1, by omega⟩)
  have hat := tasks.iterate_atWave hwf hresolvable hbefore fun m hm => hpending m hm.le
  have hhanded := hat.handed_of_lateAt htask
  rw [← Function.iterate_succ_apply' tasks.wave] at hhanded
  have hlength := tasks.iterate_pending_length first (hpending first le_rfl)
  have hpos := List.length_pos_of_ne_nil (hpending first le_rfl)
  exact ⟨task, htask.1, htask.2.1, (tasks.iterate_events_prefix (by omega)).subset hhanded⟩

theorem dep_listed_of_handed (hhanded : Event.handed task ∈ tasks.run.events) :
    ∀ dep ∈ tasks.deps task, dep ∈ tasks.listed := by
  intro dep hdep
  obtain ⟨before, after, hevents⟩ := List.append_of_mem hhanded
  have hclosed := tasks.run_accounted.ordered.deps_closed hevents dep hdep
  have hmem : dep ∈ tasks.run.closed := by
    rw [Progress.closed, hevents, List.filterMap_append]
    exact List.mem_append_left _ hclosed
  exact ((tasks.run_accounted.mem_closed dep).mp hmem).1

include hwf in
/-- The run follows the dependencies exactly when the executed tasks wait for
listed tasks only and no blocked task is ever late. -/
theorem run_handed_iff :
    (∀ task ∈ tasks.listed,
      Event.handed task ∈ tasks.run.events ↔ ¬ tasks.Blocked task) ↔
    tasks.Resolvable ∧ tasks.NeverLate := by
  constructor
  · intro hfollows
    have hresolvable : tasks.Resolvable := fun task hlisted hblocked =>
      tasks.dep_listed_of_handed ((hfollows task hlisted).mpr hblocked)
    refine ⟨hresolvable, fun hwf n task hlate => ?_⟩
    obtain ⟨other, hlisted, hblocked, hhanded⟩ :=
      tasks.exists_handed_blocked hwf hresolvable ⟨n, task, hlate⟩
    exact (hfollows other hlisted).mp hhanded hblocked
  · rintro ⟨hresolvable, hlate⟩ task hlisted
    have hrun := (tasks.run_of_not_late hwf hresolvable (hlate hwf)).1 task
    exact ⟨fun h => (hrun.mp h).2, fun h => hrun.mpr ⟨hlisted, h⟩⟩

omit [DecidableEq ι] in
/-- The verdicts depend on the dependencies and results only, not on how the
tasks are listed. -/
theorem blocked_congr {left right : Tasks ι} (hdeps : left.deps = right.deps)
    (hrequired : left.required = right.required) (hok : left.ok = right.ok)
    (hblocked : left.Blocked task) : right.Blocked task := by
  induction hblocked with
  | failed hdep hdepRequired hdepOk =>
    exact Blocked.failed (hdeps ▸ hdep) (hrequired ▸ hdepRequired) (hok ▸ hdepOk)
  | skipped hdep hdepRequired _ ih =>
    exact Blocked.skipped (hdeps ▸ hdep) (hrequired ▸ hdepRequired) ih

omit [DecidableEq ι] in
/-- On an acyclic list, verdicts that satisfy the recursion over the
dependencies are the verdicts of `Blocked`. -/
theorem not_iff_blocked_of_recursion (executed : ι → Prop) (hwf : WellFounded tasks.DependsOn)
    (hrecursion : ∀ task ∈ tasks.listed, ¬ executed task ↔
      ∃ dep ∈ tasks.deps task, tasks.required dep = true ∧
        (¬ executed dep ∨ tasks.ok dep = false)) (task : ι) (hlisted : task ∈ tasks.listed) :
    executed task ↔ ¬ tasks.Blocked task := by
  induction task using hwf.induction with
  | _ task ih =>
    rw [← not_iff_not, not_not, hrecursion task hlisted, blocked_iff]
    refine exists_congr fun dep => and_congr_right fun hdep =>
      and_congr_right fun hrequired => ?_
    rw [ih dep hdep (tasks.required_listed dep hrequired), not_not]

/-- What makes a task late: every dependency that blocks it was itself skipped
in that very wave and is not listed before it. -/
theorem LateAt.blocking_dep {tasks : Tasks ι} {hwf : WellFounded tasks.DependsOn} {n : ℕ} {dep : ι}
    (hlate : tasks.LateAt hwf n task) (hdep : dep ∈ tasks.deps task) (hblocks : tasks.Blocks dep) :
    tasks.Blocked dep ∧ tasks.finishWave hwf dep = n ∧ ¬ tasks.ListedBefore dep task := by
  obtain ⟨_, hblocked, hdeps, hdate⟩ := hlate
  have hfree := (hdeps dep hdep).2
  have hseen : n < tasks.seenWave hwf task dep := by
    by_contra hle
    exact absurd ((tasks.finishWave_le_iff_of_blocked hwf hblocked n).mpr
      ⟨dep, hdep, hblocks, not_lt.mp hle⟩) (not_le.mpr hdate)
  rw [freeWave] at hfree
  rw [seenWave] at hseen
  by_cases hdepBlocked : tasks.Blocked dep
  · by_cases hbefore : tasks.ListedBefore dep task
    · rw [if_pos ⟨hdepBlocked, hbefore⟩] at hseen
      rw [if_pos hdepBlocked] at hfree
      omega
    · rw [if_neg fun hboth => hbefore hboth.2] at hseen
      rw [if_pos hdepBlocked] at hfree
      exact ⟨hdepBlocked, by omega, hbefore⟩
  · rw [if_neg fun hboth => hdepBlocked hboth.1] at hseen
    rw [if_neg hdepBlocked] at hfree
    omega

/-- Listing every task after its dependencies is enough to be on time. -/
theorem neverLate_of_listedBefore (horder : ∀ task ∈ tasks.listed, ∀ dep ∈ tasks.deps task,
      tasks.ListedBefore dep task) : tasks.NeverLate := by
  intro hwf n task hlate
  obtain ⟨dep, hdep, hblocks⟩ := (tasks.blocked_iff task).mp hlate.2.1
  exact (hlate.blocking_dep hdep hblocks).2.2 (horder task hlate.1 dep hdep)

end Tasks

end RootSeeker.WaveScheduling
