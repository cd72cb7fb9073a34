import RootSeeker.Core.WaveTimeline

/-!
# Cycles

When does adding one hub, which a set of spokes then waits for, close a cycle
in an acyclic relation, and what does wave scheduling do with tasks that wait
for each other.
-/

namespace RootSeeker.Cycles

open Relation

variable {α : Type*}

def Acyclic (before : α → α → Prop) : Prop :=
  ∀ item, ¬TransGen before item item

/-- The relation in which the hub comes before every spoke as well. -/
def WithHub (before : α → α → Prop) (hub : α) (spoke : α → Prop) (left right : α) : Prop :=
  before left right ∨ left = hub ∧ spoke right

variable {before : α → α → Prop} {hub : α} {spoke : α → Prop}

/-- While no spoke comes before the hub, a path through the hub uses it once. -/
theorem transGen_withHub (hspoke : ∀ item, spoke item → ¬ReflTransGen before item hub)
    {left right : α} (hpath : TransGen (WithHub before hub spoke) left right) :
    TransGen before left right ∨
      ReflTransGen before left hub ∧ ∃ item, spoke item ∧ ReflTransGen before item right := by
  induction hpath with
  | @single right hstep =>
    cases hstep with
    | inl hbefore => exact Or.inl (TransGen.single hbefore)
    | inr hnew => exact Or.inr ⟨hnew.1 ▸ .refl, right, hnew.2, .refl⟩
  | @tail middle right _ hstep ih =>
    cases hstep with
    | inl hbefore =>
      cases ih with
      | inl hold => exact Or.inl (hold.tail hbefore)
      | inr hthrough =>
        obtain ⟨hleft, item, hitem, hmiddle⟩ := hthrough
        exact Or.inr ⟨hleft, item, hitem, hmiddle.tail hbefore⟩
    | inr hnew =>
      obtain ⟨rfl, hright⟩ := hnew
      cases ih with
      | inl hold => exact Or.inr ⟨hold.to_reflTransGen, right, hright, .refl⟩
      | inr hthrough =>
        obtain ⟨_, item, hitem, hmiddle⟩ := hthrough
        exact absurd hmiddle (hspoke item hitem)

/-- Putting a hub before some items of an acyclic relation closes a cycle
exactly when one of these items is, or comes before, the hub. -/
theorem acyclic_withHub_iff (hacyclic : Acyclic before) :
    Acyclic (WithHub before hub spoke) ↔ ∀ item, spoke item → ¬ReflTransGen before item hub := by
  constructor
  · intro hafter item hitem hpath
    have hback : ReflTransGen (WithHub before hub spoke) item hub :=
      ReflTransGen.mono (fun _ _ => Or.inl) _ _ hpath
    exact hafter hub (TransGen.head' (Or.inr ⟨rfl, hitem⟩) hback)
  · intro hspoke item hcycle
    cases transGen_withHub hspoke hcycle with
    | inl hold => exact hacyclic item hold
    | inr hthrough =>
      obtain ⟨hhub, other, hother, hitem⟩ := hthrough
      exact hspoke other hother (hitem.trans hhub)

/-- An item on a cycle waits for an item on a cycle. -/
theorem exists_before_on_cycle {item : α} (hcycle : TransGen before item item) :
    ∃ other, before other item ∧ TransGen before other other := by
  obtain ⟨other, hpath, hstep⟩ := (TransGen.tail'_iff).mp hcycle
  exact ⟨other, hstep, TransGen.head' hstep hpath⟩

end RootSeeker.Cycles

namespace RootSeeker.WaveScheduling.Tasks

open Relation

variable {ι : Type*} [DecidableEq ι] (tasks : Tasks ι) {progress : Progress ι}

theorem mem_runBatch_pending (hnodup : progress.pending.Nodup) (batch : List ι) (task : ι) :
    task ∈ (tasks.runBatch progress batch).pending ↔ task ∈ progress.pending ∧ task ∉ batch := by
  apply Progress.mem_closeAll_pending
  exact hnodup

/-- The tasks given up by one wave are pending, and none of them is ready. -/
theorem unresolved_mem_wave (haccounted : tasks.Accounted progress) {task : ι}
    (hmem : Event.unresolved task ∈ (tasks.wave progress).events) :
    Event.unresolved task ∈ progress.events ∨
      tasks.ready progress = [] ∧ task ∈ progress.pending := by
  have hpass : Event.unresolved task ∈ (tasks.skipPass progress).events →
      Event.unresolved task ∈ progress.events := by
    rw [skipPass_eq, Progress.closeAll_events]
    simp
  obtain ⟨batch, _, _, hwave⟩ | ⟨_, _, hwave⟩ | ⟨hready, _, _, hwave⟩ :=
    tasks.wave_cases haccounted.pending_nodup
  · rw [hwave, runBatch, Progress.closeAll_events] at hmem
    exact Or.inl (hpass (by simpa using hmem))
  · rw [hwave] at hmem
    exact Or.inl (hpass hmem)
  · rw [hwave, giveUp, Progress.closeAll_events] at hmem
    exact (List.mem_append.mp hmem).imp_right fun hgiven => ⟨hready, by simpa using hgiven⟩

/-- Among pending tasks that wait for each other without a cycle, one is ready. -/
theorem ready_ne_nil (hacyclic : tasks.Acyclic)
    (hlisted : ∀ task, ∀ dep ∈ tasks.deps task, dep ∈ tasks.listed)
    (haccounted : tasks.Accounted progress) (hpending : progress.pending ≠ []) :
    tasks.ready progress ≠ [] := by
  obtain ⟨pending, hmem⟩ := List.exists_mem_of_ne_nil _ hpending
  obtain ⟨first, hfirst, hmin⟩ :=
    hacyclic.wellFounded.has_min {task | task ∈ progress.pending} ⟨pending, hmem⟩
  have hdone : ∀ dep ∈ tasks.deps first, dep ∈ progress.finished := by
    intro dep hdep
    rw [haccounted.mem_finished, haccounted.mem_closed]
    exact ⟨hlisted first dep hdep, fun hmem => hmin dep hmem hdep⟩
  apply List.ne_nil_of_mem (a := first)
  exact List.mem_filter.mpr ⟨hfirst, by simpa using hdone⟩

/-- Without a cycle no run gives a task up. -/
theorem not_unresolved_of_acyclic (hacyclic : tasks.Acyclic)
    (hlisted : ∀ task, ∀ dep ∈ tasks.deps task, dep ∈ tasks.listed) (task : ι) :
    Event.unresolved task ∉ tasks.run.events := by
  have hcount : ∀ count,
      Event.unresolved task ∉ (tasks.wave^[count] tasks.start).events := by
    intro count
    induction count with
    | zero => exact List.not_mem_nil
    | succ count ih =>
      rw [Function.iterate_succ_apply']
      intro hmem
      have haccounted := tasks.iterate_accounted count
      cases tasks.unresolved_mem_wave haccounted hmem with
      | inl hbefore => exact ih hbefore
      | inr hgiven =>
        exact tasks.ready_ne_nil hacyclic hlisted haccounted (List.ne_nil_of_mem hgiven.2) hgiven.1
  exact hcount _

/-- Nothing blocks and the tasks on a cycle wait, until the scheduler gives up. -/
def Deadlocked (progress : Progress ι) : Prop :=
  (∃ task, Event.unresolved task ∈ progress.events) ∨
    progress.blocking = ∅ ∧ ∀ task, TransGen tasks.DependsOn task task →
      task ∈ progress.pending

theorem Deadlocked.wave {tasks : Tasks ι} (hok : ∀ task, tasks.failing task = false)
    (haccounted : tasks.Accounted progress) (hpending : progress.pending ≠ [])
    (hdeadlocked : tasks.Deadlocked progress) : tasks.Deadlocked (tasks.wave progress) := by
  cases hdeadlocked with
  | inl hgiven =>
    obtain ⟨task, hmem⟩ := hgiven
    exact Or.inl ⟨task, (tasks.wave_events_prefix progress).subset hmem⟩
  | inr hwaiting =>
    obtain ⟨hblocking, hcycle⟩ := hwaiting
    have hskips : tasks.skips progress = [] := by
      rw [skips, hblocking, skipsFrom_empty]
    have hpass : tasks.skipPass progress = progress := by
      rw [skipPass_eq, hskips, Progress.closeAll_nil]
    obtain ⟨batch, _, hbatch, hwave⟩ | ⟨_, hnone, _⟩ | ⟨_, _, _, hwave⟩ :=
      tasks.wave_cases haccounted.pending_nodup
    · rw [hpass] at hbatch hwave
      rw [hwave, hbatch]
      refine Or.inr ⟨?_, fun task htask => ?_⟩
      · rw [Finset.eq_empty_iff_forall_notMem]
        intro task hmem
        rw [runBatch, Progress.mem_closeAll_blocking] at hmem
        simp [hblocking, hok] at hmem
      · -- A task on a cycle waits for another one, which is pending.
        obtain ⟨dep, hdep, hother⟩ := Cycles.exists_before_on_cycle htask
        have hunfinished : dep ∉ progress.finished := by
          rw [haccounted.mem_finished, haccounted.mem_closed]
          exact fun hclosed => hclosed.2 (hcycle dep hother)
        rw [tasks.mem_runBatch_pending haccounted.pending_nodup]
        refine ⟨hcycle task htask, fun hready => hunfinished ?_⟩
        have hall := List.all_eq_true.mp (List.mem_filter.mp hready).2
        exact of_decide_eq_true (hall dep hdep)
    · exact absurd hskips hnone
    · obtain ⟨task, hmem⟩ := List.exists_mem_of_ne_nil _ hpending
      refine Or.inl ⟨task, ?_⟩
      rw [hwave, giveUp, Progress.closeAll_events]
      exact List.mem_append_right _ (List.mem_map_of_mem hmem)

/-- When every task that runs succeeds, a cycle makes the run give tasks up. -/
theorem exists_unresolved_of_cycle (hok : ∀ task, tasks.failing task = false) {task : ι}
    (hcycle : TransGen tasks.DependsOn task task) :
    ∃ other, Event.unresolved other ∈ tasks.run.events := by
  have hlisted : ∀ item, TransGen tasks.DependsOn item item → item ∈ tasks.listed := by
    intro item hitem
    obtain ⟨dep, hdep, _⟩ := Cycles.exists_before_on_cycle hitem
    by_contra hnot
    have hnone : tasks.deps item = [] := tasks.deps_listed item hnot
    rw [DependsOn, hnone] at hdep
    exact List.not_mem_nil hdep
  have hcount : ∀ count, tasks.Deadlocked (tasks.wave^[count] tasks.start) := by
    intro count
    induction count with
    | zero => exact Or.inr ⟨rfl, hlisted⟩
    | succ count ih =>
      rw [Function.iterate_succ_apply']
      by_cases hpending : (tasks.wave^[count] tasks.start).pending = []
      · rw [tasks.wave_of_pending_nil hpending]
        exact ih
      · exact ih.wave hok (tasks.iterate_accounted count) hpending
  cases hcount tasks.listed.length with
  | inl hgiven => exact hgiven
  | inr hwaiting =>
    have hmem := hwaiting.2 task hcycle
    rw [show (tasks.wave^[tasks.listed.length] tasks.start).pending = [] from
      tasks.run_pending] at hmem
    exact absurd hmem List.not_mem_nil

end RootSeeker.WaveScheduling.Tasks
