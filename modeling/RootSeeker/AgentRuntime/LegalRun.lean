import RootSeeker.AgentRuntime.PlannedRun

/-!
# Which planned runs end in a legal terminal case

Every planned run terminates.  It ends with a terminal case, terminal steps,
one trace for each step and everything stored under one case id exactly when
the case accepts the texts of the plan, the final status change is legal, and
no step takes the id under which the notification is traced.
-/

namespace RootSeeker.AgentRuntime

open Python Contracts KeyedList WaveScheduling

/-- The end that every planned run is meant to reach. -/
structure EndsLegally (calls : List ToolPlanCall) (outcome : RunOutcome) : Prop where
  changes_legal : ∀ event ∈ outcome.history, event.Legal
  case_terminal : outcome.case.status = .completed ∨ outcome.case.status = .failed
  case_failed_iff : outcome.case.status = .failed ↔
    RequiredStepFailed calls outcome.case.steps
  step_ids : outcome.case.steps.map stepKey = calls.map ToolPlanCall.stepId
  step_terminal : ∀ step ∈ outcome.case.steps, step.status = .completed ∨
    step.status = .failed ∨ step.status = .skipped
  one_trace : ∀ step ∈ outcome.case.steps,
    (outcome.result.toolTraces.map (·.stepId)).count (stepKey step) = 1
  result_id : outcome.result.caseId = outcome.case.caseId.val
  case_stored : outcome.stores.cases.get? outcome.case.caseId = some outcome.case
  pack_stored : ∃ pack, outcome.stores.packs.get? outcome.case.caseId = some pack ∧
    pack.caseId = outcome.case.caseId
  report_stored : ∃ report,
    outcome.stores.reports.get? outcome.case.caseId = some report ∧
      report.caseId = outcome.case.caseId

/-- With `fuel` turns of the wave loop the run ends, and ends legally. -/
def RunEndsLegally (env : Collaborators) (input : RunInput) (fuel : ℕ)
    (calls : List ToolPlanCall) : Prop :=
  ∃ outcome, runLlmToolPlan env input fuel = some (.ok outcome) ∧
    EndsLegally calls outcome

section Accepted

variable (env : Collaborators) (input : RunInput) {plan : ToolPlan} {fuel : ℕ}

/-- A plan within the allowed tools gets as far as building its case. -/
theorem runLlmToolPlan_eq (hok : input.planResult.ok = true)
    (hplan : input.planResult.plan = some plan) (hallowed : ∀ call ∈ plan.toolCalls,
      call.toolName ∈ input.allowedToolNames.map (·.val)) :
    runLlmToolPlan env input fuel =
      runCalls env input (withoutPostReportTools input.planResult)
        (remainingCalls plan) fuel := by
  have hnone : (plan.toolCalls.map ToolPlanCall.toolName).filter
      (· ∉ input.allowedToolNames.map (·.val)) = [] := by
    rw [List.filter_eq_nil_iff]
    intro toolName hmem
    obtain ⟨call, hcall, rfl⟩ := List.mem_map.mp hmem
    exact fun hnot => of_decide_eq_true hnot (hallowed call hcall)
  rw [runLlmToolPlan, hok, hplan]
  exact if_neg (not_not.mpr hnone)

/-- The traces of a run without the notification: one for each step. -/
theorem count_closed (tasks : Tasks PyStr) {stepId : PyStr}
    (hlisted : stepId ∈ tasks.listed) : tasks.run.closed.count stepId = 1 := by
  refine List.count_eq_one_of_mem tasks.run_accounted.closed_nodup ?_
  rw [tasks.run_accounted.mem_closed, tasks.run_pending]
  exact ⟨hlisted, List.not_mem_nil⟩

variable {state : RunState} {calls : List ToolPlanCall}

/-- Nothing was executed and nothing required was planned. -/
theorem not_ends_iff (hnodup : (calls.map ToolPlanCall.stepId).Nodup) {settled : Settled}
    (hfrom : SettledFrom env calls (planTasks env calls hnodup).run state settled) :
    ¬(caseStatusOf (planTasks env calls hnodup).run = .running ∨
        RequiredStepFailed calls settled.steps) ↔
      ¬∃ call ∈ calls, call.required = true ∨ call.dependsOn = [] := by
  let tasks := planTasks env calls hnodup
  have hroot : tasks.run.handed = [] ↔ ∀ call ∈ calls, call.dependsOn ≠ [] := by
    rw [tasks.run_handed_eq_nil_iff]
    change (∀ stepId ∈ calls.map ToolPlanCall.stepId,
      dependenciesOf calls stepId ≠ []) ↔ _
    rw [List.forall_mem_map]
    refine forall₂_congr fun call hcall => ?_
    rw [dependenciesOf_of_mem hnodup hcall]
  by_cases hhanded : tasks.run.handed = []
  · have hcase : caseStatusOf tasks.run = .planned := if_pos hhanded
    have hstatus : ∀ step ∈ settled.steps, step.status = .skipped := by
      intro step hstep
      rw [hfrom.step_status step hstep, settledStatus,
        ← (tasks.run_accounted.handed_eq : _ = tasks.run.returned), hhanded,
        if_neg List.not_mem_nil]
    have hrequired : RequiredStepFailed calls settled.steps ↔
        ∃ call ∈ calls, call.required = true := by
      constructor
      · rintro ⟨step, hstep, hrequired, _⟩
        have hkey : stepKey step ∈ calls.map ToolPlanCall.stepId := by
          rw [← hfrom.step_ids]
          exact List.mem_map_of_mem hstep
        obtain ⟨call, hcall, hcallId⟩ := List.mem_map.mp hkey
        rw [← hcallId, requiredOf_of_mem hnodup hcall] at hrequired
        exact ⟨call, hcall, hrequired⟩
      · rintro ⟨call, hcall, hrequired⟩
        have hkey : call.stepId ∈ settled.steps.map stepKey := by
          rw [hfrom.step_ids]
          exact List.mem_map_of_mem hcall
        obtain ⟨step, hstep, hstepId⟩ := List.mem_map.mp hkey
        refine ⟨step, hstep, ?_, Or.inr (hstatus step hstep)⟩
        rw [hstepId, requiredOf_of_mem hnodup hcall, hrequired]
    rw [hcase, hrequired, not_iff_not]
    constructor
    · rintro (hrunning | ⟨call, hcall, hrequired⟩)
      · exact absurd hrunning (by decide)
      · exact ⟨call, hcall, Or.inl hrequired⟩
    · rintro ⟨call, hcall, hrequired | hdeps⟩
      · exact Or.inr ⟨call, hcall, hrequired⟩
      · exact absurd hdeps (hroot.mp hhanded call hcall)
  · have hcase : caseStatusOf tasks.run = .running := if_neg hhanded
    rw [hroot] at hhanded
    push Not at hhanded
    obtain ⟨call, hcall, hdeps⟩ := hhanded
    rw [hcase]
    simp only [true_or, not_true_eq_false, false_iff, not_not]
    exact ⟨call, hcall, Or.inr hdeps⟩

/-- What follows the loop keeps a legally settled case and stores it with its
evidence and report. -/
theorem finishRun_ok (planResult : ToolPlanResult) {case : CaseRecord} {pack : EvidencePack}
    {history : List RunEvent} (hsettle : settleCase env calls state = .ok (case, pack, history))
    (hpack : pack.caseId = case.caseId) :
    ∃ outcome, finishRun env input planResult calls state = .ok outcome ∧
      outcome.case = case ∧ outcome.result.caseId = case.caseId.val ∧
      outcome.result.toolTraces.map (·.stepId) =
        state.toolTraces.map (·.stepId) ++
          (if notifyToolName ∈ input.allowedToolNames then [notifyStepId.val]
            else []) ∧
      (∀ event ∈ outcome.history, event ∈ history ∨ event.Legal) ∧
      outcome.stores.cases.get? case.caseId = some case ∧
      outcome.stores.packs.get? case.caseId = some pack ∧
      ∃ report, outcome.stores.reports.get? case.caseId = some report ∧
        report.caseId = case.caseId := by
  rw [finishRun, hsettle]
  refine ⟨_, rfl, rfl, rfl, ?_, ?_, ?_, ?_, ?_⟩
  · by_cases hnotify : notifyToolName ∈ input.allowedToolNames
    · simp only [hnotify, if_true, Option.map_some, Option.toList_some, List.map_append]
      rfl
    · simp only [hnotify, if_false, Option.map_none, Option.toList_none,
        List.map_append, List.map_nil]
  · intro event hevent
    rcases List.mem_append.mp hevent with hold | hnew
    · exact Or.inl hold
    · obtain ⟨record, _, rfl⟩ := Option.map_eq_some_iff.mp (Option.mem_toList.mp hnew)
      exact Or.inr trivial
  · exact Dict.get?_set_self _ _ _
  · rw [← hpack]
    exact Dict.get?_set_self _ _ _
  · exact ⟨_, Dict.get?_set_self _ _ _, rfl⟩

/-- The run of a plan that its case accepts, up to the end of the case. -/
theorem acceptedRun (hok : input.planResult.ok = true) (hplan : input.planResult.plan = some plan)
    (hallowed : ∀ call ∈ plan.toolCalls,
      call.toolName ∈ input.allowedToolNames.map (·.val))
    (hnodup : ((remainingCalls plan).map ToolPlanCall.stepId).Nodup)
    (hbuildable : ∀ call ∈ remainingCalls plan, call.Buildable)
    (hfuel : (remainingCalls plan).length ≤ fuel) :
    ∃ state, Simulates env (remainingCalls plan) []
        (caseStatusOf (planTasks env (remainingCalls plan) hnodup).run) state
        (planTasks env (remainingCalls plan) hnodup).run ∧
      runLlmToolPlan env input fuel = some (finishRun env input
        (withoutPostReportTools input.planResult) (remainingCalls plan) state) := by
  obtain ⟨start, final, hstart, hfinal, hsim⟩ :=
    runWaves_ok env input (withoutPostReportTools input.planResult) hbuildable
      hnodup hfuel
  refine ⟨final, hsim, ?_⟩
  rw [runLlmToolPlan_eq env input hok hplan hallowed, runCalls, hstart]
  exact congrArg (Option.map _) hfinal

/-- When nothing is executed and nothing required was planned, the case is
still planned at the end, and completing it is not allowed. -/
theorem acceptedRun_raises (planResult : ToolPlanResult)
    (hnodup : (calls.map ToolPlanCall.stepId).Nodup)
    (hsim : Simulates env calls [] (caseStatusOf (planTasks env calls hnodup).run)
      state (planTasks env calls hnodup).run)
    (hnone : ¬∃ call ∈ calls, call.required = true ∨ call.dependsOn = []) :
    ∃ message, finishRun env input planResult calls state =
      .error (.stateTransitionError message) := by
  obtain ⟨settled, _, hfrom, _, hraises⟩ := settleCase_ok hsim
    (planTasks env calls hnodup).run_pending hnodup (caseStatusOf_cases _)
  obtain ⟨message, hmessage⟩ := hraises ((not_ends_iff env hnodup hfrom).mpr hnone)
  exact ⟨message, by rw [finishRun, hmessage]; rfl⟩

theorem acceptedRun_ends_iff (planResult : ToolPlanResult)
    (hnodup : (calls.map ToolPlanCall.stepId).Nodup)
    (hsim : Simulates env calls [] (caseStatusOf (planTasks env calls hnodup).run)
      state (planTasks env calls hnodup).run)
    (hsome : ∃ call ∈ calls, call.required = true ∨ call.dependsOn = []) :
    ∃ outcome, finishRun env input planResult calls state = .ok outcome ∧
      (EndsLegally calls outcome ↔ ¬(notifyToolName ∈ input.allowedToolNames ∧
        ∃ call ∈ calls, call.stepId = notifyStepId.val)) := by
  let tasks := planTasks env calls hnodup
  obtain ⟨settled, _, hfrom, hends, _⟩ :=
    settleCase_ok hsim tasks.run_pending hnodup (caseStatusOf_cases _)
  obtain ⟨case, pack, history, hsettle, hsteps, hcaseId, hpackId, hterminal,
    hfailedIff, hlegal⟩ := hends (not_not.mp (mt (not_ends_iff env hnodup hfrom).mp
      (not_not.mpr hsome)))
  obtain ⟨outcome, hfinish, hcase, hresultId, htraces, hhistory, hcaseStored,
    hpackStored, report, hreport, hreportId⟩ :=
    finishRun_ok env input planResult hsettle (hpackId.trans hcaseId.symm)
  have hcount : ∀ step ∈ settled.steps,
      (outcome.result.toolTraces.map (·.stepId)).count (stepKey step) = 1 +
        (if notifyToolName ∈ input.allowedToolNames ∧
          stepKey step = notifyStepId.val then 1 else 0) := by
    intro step hstep
    have hlisted : stepKey step ∈ tasks.listed := by
      change _ ∈ calls.map ToolPlanCall.stepId
      rw [← hfrom.step_ids]
      exact List.mem_map_of_mem hstep
    have hclosed := count_closed tasks hlisted
    rw [htraces, List.count_append, hsim.trace_ids, hclosed]
    by_cases hnotify : notifyToolName ∈ input.allowedToolNames
    · by_cases hkey : stepKey step = notifyStepId.val
      · simp [hnotify, hkey]
      · simp [hnotify, hkey, Ne.symm hkey]
    · simp [hnotify]
  refine ⟨outcome, hfinish, ?_⟩
  constructor
  · rintro hend ⟨hnotify, call, hcall, hcallId⟩
    have hkey : call.stepId ∈ settled.steps.map stepKey := by
      rw [hfrom.step_ids]
      exact List.mem_map_of_mem hcall
    obtain ⟨step, hstep, hstepId⟩ := List.mem_map.mp hkey
    have hone := hend.one_trace step (by rw [hcase, hsteps]; exact hstep)
    rw [hcount step hstep, if_pos ⟨hnotify, hstepId.trans hcallId⟩] at hone
    omega
  · intro hclear
    exact {
      changes_legal := fun event hevent =>
        (hhistory event hevent).elim (hlegal event) id
      case_terminal := by rw [hcase]; exact hterminal
      case_failed_iff := by rw [hcase, hsteps]; exact hfailedIff
      step_ids := by rw [hcase, hsteps]; exact hfrom.step_ids
      step_terminal := by
        intro step hstep
        rw [hcase, hsteps] at hstep
        rw [hfrom.step_status step hstep, settledStatus]
        split
        · split <;> simp
        · simp
      one_trace := by
        intro step hstep
        rw [hcase, hsteps] at hstep
        rw [hcount step hstep, if_neg]
        rintro ⟨hnotify, hkey⟩
        have hmem : stepKey step ∈ calls.map ToolPlanCall.stepId := by
          rw [← hfrom.step_ids]
          exact List.mem_map_of_mem hstep
        obtain ⟨call, hcall, hcallId⟩ := List.mem_map.mp hmem
        exact hclear ⟨hnotify, call, hcall, hcallId.trans hkey⟩
      result_id := by rw [hcase]; exact hresultId
      case_stored := by rw [hcase]; exact hcaseStored
      pack_stored := by
        rw [hcase]
        exact ⟨pack, hpackStored, hpackId.trans hcaseId.symm⟩
      report_stored := by
        rw [hcase]
        exact ⟨report, hreport, hreportId⟩ }

end Accepted

/-- Two optional calls that wait for each other. -/
def optionalCycle : List ToolPlanCall :=
  [plannedCall "a" ["b"] false, plannedCall "b" ["a"] false]

/-- One required call that waits for nothing. -/
def singleCall : List ToolPlanCall :=
  [plannedCall "a" [] true]

end RootSeeker.AgentRuntime
