import RootSeeker.AgentRuntime.PlannedRun

/-!
# The wave loop and the dependency graph

Read recursively, the dependency graph decides every step of a plan: a step is
skipped exactly when a required direct dependency ended failed or skipped, and
every other step runs once, after its dependencies, and ends as its own call
did.  This module says for which plans and results the wave loop reaches these
statuses.
-/

namespace RootSeeker.AgentRuntime

open Python Contracts KeyedList WaveScheduling

namespace RunEvent

def handedRequest : RunEvent → Option ToolCallRequest
  | handed request => some request
  | _ => none

/-- The step that an event adds to the finished steps. -/
def finishes : RunEvent → Option PyStr
  | skipped trace => some trace.stepId
  | unresolved trace => some trace.stepId
  | returned record => some record.request.stepId.val
  | _ => none

end RunEvent

/-- The step ids handed to the tool call loop, in order. -/
def handedIds (history : List RunEvent) : List PyStr :=
  (history.filterMap RunEvent.handedRequest).map requestKey

/-- The end of a run as the dependency graph defines it. -/
structure FollowsDependencies (env : Collaborators) (calls : List ToolPlanCall)
    (history : List RunEvent) (steps : List CaseStep) : Prop where
  step_ids : steps.map stepKey = calls.map ToolPlanCall.stepId
  skipped_iff : ∀ step ∈ steps, step.status = .skipped ↔
    ∃ dep ∈ dependenciesOf calls (stepKey step), requiredOf calls dep = true ∧
      ∃ other ∈ steps, stepKey other = dep ∧
        (other.status = .failed ∨ other.status = .skipped)
  not_handed : ∀ step ∈ steps, step.status = .skipped →
    stepKey step ∉ handedIds history
  executed_once : ∀ step ∈ steps, step.status ≠ .skipped →
    (handedIds history).count (stepKey step) = 1
  after_dependencies : ∀ before request after,
    history = before ++ RunEvent.handed request :: after →
      ∀ dep ∈ dependenciesOf calls (requestKey request),
        ∃ event ∈ before, event.finishes = some dep
  own_result : ∀ step ∈ steps, step.status ≠ .skipped →
    step.status = if (env.answer step.stepId).ok then .completed else .failed

/-- The loop over `calls` ends in `final` within `fuel` turns and is settled as
`settled`. -/
def LoopSettles (env : Collaborators) (input : RunInput) (planResult : ToolPlanResult)
    (calls : List ToolPlanCall) (fuel : ℕ) (final : RunState)
    (settled : Settled) : Prop :=
  ∃ start, startRun env input planResult calls = .ok start ∧
    runWaves env calls fuel start = some (.ok final) ∧
    settleSteps env final = .ok settled

def LoopFollowsDependencies (env : Collaborators) (input : RunInput)
    (planResult : ToolPlanResult) (calls : List ToolPlanCall) (fuel : ℕ) : Prop :=
  ∃ final settled, LoopSettles env input planResult calls fuel final settled ∧
    FollowsDependencies env calls final.history settled.steps

/-! ## The history of a finished loop -/

theorem handedIds_eq (history : List RunEvent) :
    handedIds history = (history.filterMap RunEvent.task).filterMap Event.handedTask := by
  induction history with
  | nil => rfl
  | cons event history ih =>
    cases event with
    | handed request => exact congrArg (requestKey request :: ·) ih
    | caseStatus old new => exact ih
    | stepStatus stepId old new => exact ih
    | skipped trace => exact ih
    | unresolved trace => exact ih
    | returned record => exact ih
    | notified record => exact ih

theorem finishes_eq (event : RunEvent) : event.finishes = event.task.bind Event.closes := by
  cases event <;> rfl

theorem returned_sublist_closed (events : List (Event PyStr)) :
    (events.filterMap Event.returnedTask).Sublist (events.filterMap Event.closes) := by
  induction events with
  | nil => exact List.Sublist.slnil
  | cons event events ih =>
    cases event with
    | skipped task => exact ih.cons task
    | unresolved task => exact ih.cons task
    | handed task => exact ih
    | returned task => exact ih.cons_cons task

section Finished

variable {env : Collaborators} {calls : List ToolPlanCall}
  {hnodup : (calls.map ToolPlanCall.stepId).Nodup} {caseStatus : CaseStatus}
  {state : RunState}

theorem handedIds_of_run (hsim : Simulates env calls [] caseStatus state
    (planTasks env calls hnodup).run) :
    handedIds state.history = (planTasks env calls hnodup).run.returned := by
  rw [handedIds_eq, hsim.events_eq]
  exact (planTasks env calls hnodup).run_accounted.handed_eq

theorem handed_mem_iff (stepId : PyStr) :
    Event.handed stepId ∈ (planTasks env calls hnodup).run.events ↔
      stepId ∈ (planTasks env calls hnodup).run.returned := by
  rw [← (planTasks env calls hnodup).run_accounted.handed_eq, Progress.handed, List.mem_filterMap]
  constructor
  · exact fun hmem => ⟨_, hmem, rfl⟩
  · rintro ⟨event, hmem, hevent⟩
    cases event <;> simp_all [Event.handedTask]

theorem after_dependencies_of_run (hsim : Simulates env calls [] caseStatus state
    (planTasks env calls hnodup).run) (before after : List RunEvent) (request : ToolCallRequest)
    (hhistory : state.history = before ++ RunEvent.handed request :: after) :
    ∀ dep ∈ dependenciesOf calls (requestKey request),
      ∃ event ∈ before, event.finishes = some dep := by
  intro dep hdep
  have hevents : (planTasks env calls hnodup).run.events =
      before.filterMap RunEvent.task ++
        Event.handed (requestKey request) :: after.filterMap RunEvent.task := by
    rw [← hsim.events_eq, hhistory, List.filterMap_append]
    rfl
  have hclosed := (planTasks env calls hnodup).run_accounted.ordered.deps_closed hevents dep hdep
  rw [List.filterMap_filterMap, List.mem_filterMap] at hclosed
  obtain ⟨event, hmem, hevent⟩ := hclosed
  exact ⟨event, hmem, by rw [finishes_eq, hevent]⟩

/-- Settled statuses satisfy the recursion over the dependencies exactly when
the abstract run executes the tasks that are not blocked. -/
theorem followsDependencies_iff (hwf : WellFounded (planTasks env calls hnodup).DependsOn)
    (hsim : Simulates env calls [] caseStatus state (planTasks env calls hnodup).run)
    {settled : Settled}
    (hfrom : SettledFrom env calls (planTasks env calls hnodup).run state settled) :
    FollowsDependencies env calls state.history settled.steps ↔
      ∀ stepId ∈ (planTasks env calls hnodup).listed,
        Event.handed stepId ∈ (planTasks env calls hnodup).run.events ↔
          ¬(planTasks env calls hnodup).Blocked stepId := by
  set tasks := planTasks env calls hnodup with htasks
  have hskipped : ∀ step ∈ settled.steps,
      step.status = .skipped ↔ Event.handed (stepKey step) ∉ tasks.run.events := by
    intro step hstep
    have hmem : Event.handed (stepKey step) ∈ tasks.run.events ↔
        stepKey step ∈ tasks.run.returned := handed_mem_iff _
    rw [hfrom.step_status step hstep, settledStatus, hmem]
    by_cases hreturned : stepKey step ∈ tasks.run.returned
    · rw [if_pos hreturned]
      simp only [hreturned, not_true_eq_false, iff_false]
      split <;> decide
    · rw [if_neg hreturned]
      simp [hreturned]
  have hends : ∀ step ∈ settled.steps,
      (step.status = .failed ∨ step.status = .skipped) ↔
        (Event.handed (stepKey step) ∉ tasks.run.events ∨ tasks.ok (stepKey step) = false) := by
    intro step hstep
    rw [← hskipped step hstep, hfrom.step_status step hstep, settledStatus]
    change _ ↔ _ ∨ env.okOf (stepKey step) = false
    by_cases hreturned : stepKey step ∈ tasks.run.returned
    · rw [if_pos hreturned]
      cases env.okOf (stepKey step) <;> simp
    · rw [if_neg hreturned]
      simp
  have hexists : ∀ stepId ∈ tasks.listed, ∃ step ∈ settled.steps,
      stepKey step = stepId := by
    intro stepId hlisted
    rw [show tasks.listed = settled.steps.map stepKey from hfrom.step_ids.symm] at hlisted
    exact List.mem_map.mp hlisted
  have hrecursion : ∀ step ∈ settled.steps,
      (∃ dep ∈ dependenciesOf calls (stepKey step), requiredOf calls dep = true ∧
        ∃ other ∈ settled.steps, stepKey other = dep ∧
          (other.status = .failed ∨ other.status = .skipped)) ↔
      ∃ dep ∈ tasks.deps (stepKey step), tasks.required dep = true ∧
        (Event.handed dep ∉ tasks.run.events ∨ tasks.ok dep = false) := by
    intro step _
    refine exists_congr fun dep => and_congr_right fun _ =>
      and_congr_right fun hrequired => ?_
    constructor
    · rintro ⟨other, hother, rfl, hstatus⟩
      exact (hends other hother).mp hstatus
    · intro hdep
      obtain ⟨other, hother, rfl⟩ := hexists dep (tasks.required_listed dep hrequired)
      exact ⟨other, hother, rfl, (hends other hother).mpr hdep⟩
  constructor
  · intro hfollows
    refine tasks.not_iff_blocked_of_recursion _ hwf fun stepId hlisted => ?_
    obtain ⟨step, hstep, rfl⟩ := hexists stepId hlisted
    rw [← hskipped step hstep, hfollows.skipped_iff step hstep, hrecursion step hstep]
  · intro hhanded
    have hlisted : ∀ step ∈ settled.steps, stepKey step ∈ tasks.listed := by
      intro step hstep
      rw [show tasks.listed = settled.steps.map stepKey from hfrom.step_ids.symm]
      exact List.mem_map_of_mem hstep
    exact {
      step_ids := hfrom.step_ids
      skipped_iff := by
        intro step hstep
        rw [hrecursion step hstep, hskipped step hstep,
          not_congr (hhanded _ (hlisted step hstep)), not_not, tasks.blocked_iff]
        refine exists_congr fun dep => and_congr_right fun _ =>
          and_congr_right fun hrequired => or_congr_left ?_
        rw [hhanded dep (tasks.required_listed dep hrequired), not_not]
      not_handed := by
        intro step hstep hstatus
        rw [handedIds_of_run hsim, ← handed_mem_iff]
        exact (hskipped step hstep).mp hstatus
      executed_once := by
        intro step hstep hstatus
        rw [handedIds_of_run hsim]
        refine List.count_eq_one_of_mem
          (tasks.run_accounted.closed_nodup.sublist (returned_sublist_closed _)) ?_
        rw [← handed_mem_iff]
        exact not_not.mp (mt (hskipped step hstep).mpr hstatus)
      after_dependencies := fun before request after hhistory =>
        after_dependencies_of_run hsim before after request hhistory
      own_result := by
        intro step hstep hstatus
        have hreturned : stepKey step ∈ tasks.run.returned := by
          rw [← handed_mem_iff]
          exact not_not.mp (mt (hskipped step hstep).mpr hstatus)
        rw [hfrom.step_status step hstep, settledStatus, if_pos hreturned, stepKey, okOf_eq] }

end Finished

/-! ## Acyclic plans -/

def DependenciesAcyclic (calls : List ToolPlanCall) : Prop :=
  ∀ stepId, ¬Relation.TransGen (fun dep stepId => dep ∈ dependenciesOf calls stepId)
    stepId stepId

theorem mem_dependenciesOf {calls : List ToolPlanCall} {dep stepId : PyStr}
    (hdep : dep ∈ dependenciesOf calls stepId) :
    ∃ call, lookup ToolPlanCall.stepId stepId calls = some call ∧ dep ∈ call.dependsOn := by
  cases hcall : lookup ToolPlanCall.stepId stepId calls with
  | none =>
    rw [dependenciesOf, hcall] at hdep
    exact absurd hdep List.not_mem_nil
  | some call =>
    rw [dependenciesOf_eq hcall] at hdep
    exact ⟨call, rfl, hdep⟩

/-- Calls that only depend on calls of a lower rank are acyclic. -/
theorem dependenciesAcyclic_of_rank {calls : List ToolPlanCall} (rank : PyStr → ℕ)
    (hrank : ∀ call ∈ calls, ∀ dep ∈ call.dependsOn, rank dep < rank call.stepId) :
    DependenciesAcyclic calls := by
  have hlt : ∀ left right, Relation.TransGen
      (fun dep stepId => dep ∈ dependenciesOf calls stepId) left right →
        rank left < rank right := by
    intro left right hpath
    induction hpath with
    | single hedge =>
      obtain ⟨call, hcall, hdep⟩ := mem_dependenciesOf hedge
      obtain ⟨hmem, rfl⟩ := mem_of_lookup hcall
      exact hrank call hmem _ hdep
    | tail _ hedge ih =>
      obtain ⟨call, hcall, hdep⟩ := mem_dependenciesOf hedge
      obtain ⟨hmem, rfl⟩ := mem_of_lookup hcall
      exact ih.trans (hrank call hmem _ hdep)
  exact fun stepId hpath => (hlt stepId stepId hpath).false

/-- Dropping calls from an acyclic plan leaves it acyclic. -/
theorem DependenciesAcyclic.wellFounded {env : Collaborators} {calls kept : List ToolPlanCall}
    (hacyclic : DependenciesAcyclic calls) (hsublist : kept.Sublist calls)
    (hnodup : (calls.map ToolPlanCall.stepId).Nodup) (hkept : (kept.map ToolPlanCall.stepId).Nodup) :
    WellFounded (planTasks env kept hkept).DependsOn := by
  refine Tasks.Acyclic.wellFounded fun stepId hpath => hacyclic stepId ?_
  refine Relation.TransGen.mono (fun dep stepId hedge => ?_) _ _ hpath
  obtain ⟨call, hcall, hdep⟩ := mem_dependenciesOf hedge
  obtain ⟨hmem, rfl⟩ := mem_of_lookup hcall
  rw [dependenciesOf_of_mem hnodup (hsublist.subset hmem)]
  exact hdep

/-! ## Whole loops -/

section Loop

variable {env : Collaborators} {input : RunInput} {planResult : ToolPlanResult}
  {calls : List ToolPlanCall} {fuel : ℕ}

theorem loopFollowsDependencies_iff (hbuildable : ∀ call ∈ calls, call.Buildable)
    (hnodup : (calls.map ToolPlanCall.stepId).Nodup)
    (hwf : WellFounded (planTasks env calls hnodup).DependsOn) (hfuel : calls.length ≤ fuel) :
    LoopFollowsDependencies env input planResult calls fuel ↔
      ∀ stepId ∈ (planTasks env calls hnodup).listed,
        Event.handed stepId ∈ (planTasks env calls hnodup).run.events ↔
          ¬(planTasks env calls hnodup).Blocked stepId := by
  obtain ⟨start, final, hstart, hfinal, hsim⟩ :=
    runWaves_ok env input planResult hbuildable hnodup hfuel
  obtain ⟨settled, hsettled, hfrom⟩ :=
    settleSteps_ok hsim (planTasks env calls hnodup).run_pending hnodup
  rw [← followsDependencies_iff hwf hsim hfrom]
  constructor
  · rintro ⟨otherFinal, otherSettled, ⟨otherStart, hotherStart, hotherFinal,
      hotherSettled⟩, hfollows⟩
    obtain rfl : start = otherStart := Except.ok.inj (hstart.symm.trans hotherStart)
    obtain rfl : final = otherFinal :=
      Except.ok.inj (Option.some.inj (hfinal.symm.trans hotherFinal))
    obtain rfl : settled = otherSettled := Except.ok.inj (hsettled.symm.trans hotherSettled)
    exact hfollows
  · exact fun hfollows => ⟨final, settled, ⟨start, hstart, hfinal, hsettled⟩, hfollows⟩

/-- Statuses that follow the dependencies are those of the recursion. -/
theorem FollowsDependencies.status_eq (hnodup : (calls.map ToolPlanCall.stepId).Nodup)
    (hwf : WellFounded (planTasks env calls hnodup).DependsOn) {history : List RunEvent}
    {steps : List CaseStep} (hfollows : FollowsDependencies env calls history steps)
    {step : CaseStep} (hstep : step ∈ steps) :
    (step.status = .skipped ↔ (planTasks env calls hnodup).Blocked (stepKey step)) ∧
      (step.status ≠ .skipped → step.status =
        if env.okOf (stepKey step) then .completed else .failed) := by
  let tasks := planTasks env calls hnodup
  let executed (stepId : PyStr) : Prop :=
    ∃ other ∈ steps, stepKey other = stepId ∧ other.status ≠ .skipped
  have hlisted : tasks.listed = steps.map stepKey := hfollows.step_ids.symm
  have hunique : ∀ left ∈ steps, ∀ right ∈ steps, stepKey left = stepKey right → left = right := by
    have hnodupKeys : (steps.map stepKey).Nodup := hlisted ▸ tasks.nodup
    exact fun left hleft right hright =>
      List.inj_on_of_nodup_map hnodupKeys hleft hright
  have hexecuted : ∀ other ∈ steps,
      ¬executed (stepKey other) ↔ other.status = .skipped := by
    intro other hother
    constructor
    · intro hnot
      by_contra hstatus
      exact hnot ⟨other, hother, rfl, hstatus⟩
    · rintro hstatus ⟨same, hsame, hkey, hsameStatus⟩
      rw [hunique same hsame other hother hkey] at hsameStatus
      exact hsameStatus hstatus
  have hresult : ∀ other ∈ steps, other.status ≠ .skipped →
      other.status = if env.okOf (stepKey other) then .completed else .failed := by
    intro other hother hstatus
    rw [hfollows.own_result other hother hstatus, stepKey, okOf_eq]
  have hfailed : ∀ other ∈ steps, (other.status = .failed ∨ other.status = .skipped) ↔
      (¬executed (stepKey other) ∨ tasks.ok (stepKey other) = false) := by
    intro other hother
    rw [hexecuted other hother]
    change _ ↔ _ ∨ env.okOf (stepKey other) = false
    by_cases hstatus : other.status = .skipped
    · simp [hstatus]
    · rw [hresult other hother hstatus]
      cases env.okOf (stepKey other) <;> simp
  have hverdict := tasks.not_iff_blocked_of_recursion executed hwf
    (fun stepId hmem => by
      rw [hlisted] at hmem
      obtain ⟨other, hother, rfl⟩ := List.mem_map.mp hmem
      rw [hexecuted other hother, hfollows.skipped_iff other hother]
      refine exists_congr fun dep => and_congr_right fun _ =>
        and_congr_right fun hrequired => ?_
      constructor
      · rintro ⟨blocking, hblocking, rfl, hstatus⟩
        exact (hfailed blocking hblocking).mp hstatus
      · intro hdep
        have hdepListed := tasks.required_listed dep hrequired
        rw [hlisted] at hdepListed
        obtain ⟨blocking, hblocking, rfl⟩ := List.mem_map.mp hdepListed
        exact ⟨blocking, hblocking, rfl, (hfailed blocking hblocking).mpr hdep⟩)
    (stepKey step) (by rw [hlisted]; exact List.mem_map_of_mem hstep)
  exact ⟨by rw [← hexecuted step hstep, hverdict, not_not], hresult step hstep⟩

end Loop

theorem lookup_perm {left right : List ToolPlanCall} (hperm : left.Perm right)
    (hnodup : (left.map ToolPlanCall.stepId).Nodup) (stepId : PyStr) :
    lookup ToolPlanCall.stepId stepId left = lookup ToolPlanCall.stepId stepId right := by
  have hright : (right.map ToolPlanCall.stepId).Nodup :=
    (hperm.map _).nodup_iff.mp hnodup
  refine Option.ext fun call => ?_
  rw [lookup_eq_some_iff hnodup, lookup_eq_some_iff hright, hperm.mem_iff]

/-- Two listings of the same calls have the same blocked steps. -/
theorem blocked_iff_of_perm {env : Collaborators} {left right : List ToolPlanCall}
    (hperm : left.Perm right) (hleft : (left.map ToolPlanCall.stepId).Nodup)
    (hright : (right.map ToolPlanCall.stepId).Nodup) (stepId : PyStr) :
    (planTasks env left hleft).Blocked stepId ↔ (planTasks env right hright).Blocked stepId := by
  have hlookup := fun stepId => lookup_perm hperm hleft stepId
  have hdeps : (planTasks env left hleft).deps = (planTasks env right hright).deps := by
    funext stepId
    simp only [planTasks, dependenciesOf, hlookup]
  have hrequired : (planTasks env left hleft).required = (planTasks env right hright).required := by
    funext stepId
    simp only [planTasks, requiredOf, hlookup]
  exact ⟨Tasks.blocked_congr hdeps hrequired rfl, Tasks.blocked_congr hdeps.symm hrequired.symm rfl⟩

/-- Listing every call after the calls it waits for is enough. -/
theorem neverLate_of_dependencies_first {env : Collaborators}
    {calls : List ToolPlanCall} (hnodup : (calls.map ToolPlanCall.stepId).Nodup)
    (horder : ∀ call ∈ calls, ∀ dep ∈ call.dependsOn,
      (planTasks env calls hnodup).ListedBefore dep call.stepId) :
    (planTasks env calls hnodup).NeverLate := by
  refine Tasks.neverLate_of_listedBefore _ fun stepId _ dep hedge => ?_
  obtain ⟨call, hcall, hdep⟩ := mem_dependenciesOf hedge
  obtain ⟨hmem, rfl⟩ := mem_of_lookup hcall
  exact horder call hmem dep hdep

/-- Three calls in a chain, each listed before the call it waits for. -/
def reversedChain : List ToolPlanCall :=
  [plannedCall "b" ["a"] true, plannedCall "a" ["x"] true, plannedCall "x" [] true]

theorem reversedChain_nodup : (reversedChain.map ToolPlanCall.stepId).Nodup := by
  decide

theorem reversedChain_acyclic : DependenciesAcyclic reversedChain :=
  dependenciesAcyclic_of_rank
    (fun stepId => if stepId = py "b" then 2 else if stepId = py "a" then 1 else 0)
    (by decide)

theorem reversedChain_buildable : ∀ call ∈ reversedChain, call.Buildable := by
  simp only [reversedChain, List.forall_mem_cons]
  exact ⟨plannedCall_buildable (by decide) _ _, plannedCall_buildable (by decide) _ _,
    plannedCall_buildable (by decide) _ _, by simp⟩

/-- The same chain listed in order ends as the recursion says. -/
def chain : List ToolPlanCall :=
  reversedChain.reverse

theorem chain_nodup : (chain.map ToolPlanCall.stepId).Nodup := by
  decide

end RootSeeker.AgentRuntime
