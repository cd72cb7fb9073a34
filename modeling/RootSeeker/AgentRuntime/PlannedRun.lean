import RootSeeker.AgentRuntime.WaveRefinement

/-!
# Planned runs

Putting the refinement to work.  The first part shows where the wave loop
starts and what settling its final state leaves.  The second part compares the
settled statuses with the recursive reading of the dependencies.  The third
part says which plans end in a legal terminal case.
-/

namespace RootSeeker.AgentRuntime

open Python Contracts KeyedList WaveScheduling

/-! ## Starting the loop -/

theorem remainingCalls_sublist (plan : ToolPlan) : (remainingCalls plan).Sublist plan.toolCalls :=
  List.filter_sublist

theorem remainingCalls_nodup {plan : ToolPlan}
    (hnodup : (plan.toolCalls.map ToolPlanCall.stepId).Nodup) :
    ((remainingCalls plan).map ToolPlanCall.stepId).Nodup :=
  hnodup.sublist ((remainingCalls_sublist plan).map _)

/-- The validated fields of a step and of its request accept the call. -/
def ToolPlanCall.Buildable (call : ToolPlanCall) : Prop :=
  (call.stepId ≠ [] ∧ Encodable call.stepId) ∧
    (call.toolName ≠ [] ∧ Encodable call.toolName) ∧
    KeysEncodable call.arguments

instance (call : ToolPlanCall) : Decidable call.Buildable :=
  inferInstanceAs (Decidable (_ ∧ _ ∧ _))

/-- A freshly built step of a call. -/
structure BuiltFrom (call : ToolPlanCall) (step : CaseStep) : Prop where
  step_id : stepKey step = call.stepId
  status : step.status = .pending
  tool_name : step.toolName = some call.toolName
  inputs : step.inputs = call.arguments

theorem stepName_valid_iff (toolName : PyStr) :
    (py "LLM planned " ++ toolName ≠ [] ∧ Encodable (py "LLM planned " ++ toolName)) ↔
      Encodable toolName := by
  rw [encodable_append]
  constructor
  · rintro ⟨_, _, hencodable⟩
    exact hencodable
  · intro hencodable
    exact ⟨fun hnil => absurd (List.append_eq_nil_iff.mp hnil).1 (by decide),
      encodable_py _, hencodable⟩

variable {call : ToolPlanCall}

theorem buildStep_ok (skillSlug : RequiredStr) (hcall : call.Buildable) :
    ∃ step, buildStep skillSlug call = .ok step ∧ BuiltFrom call step := by
  obtain ⟨hstepId, htoolName, harguments⟩ := hcall
  rw [buildStep, RequiredStr.validate_of_valid hstepId,
    RequiredStr.validate_of_valid ((stepName_valid_iff _).mpr htoolName.2),
    RequiredStr.validate_of_valid htoolName,
    Mapping.validate_of_encodable harguments]
  exact ⟨_, rfl, rfl, rfl, rfl, rfl⟩

theorem buildStep_error (skillSlug : RequiredStr) (hcall : ¬call.Buildable) :
    buildStep skillSlug call = .error .validationError := by
  rw [buildStep]
  by_cases hstepId : call.stepId ≠ [] ∧ Encodable call.stepId
  · rw [RequiredStr.validate_of_valid hstepId]
    by_cases htoolName : call.toolName ≠ [] ∧ Encodable call.toolName
    · have harguments : ¬KeysEncodable call.arguments :=
        fun h => hcall ⟨hstepId, htoolName, h⟩
      rw [RequiredStr.validate_of_valid htoolName,
        RequiredStr.validate_of_valid ((stepName_valid_iff _).mpr htoolName.2),
        Mapping.validate_of_not_encodable harguments]
      rfl
    · rw [RequiredStr.validate_of_not_valid htoolName]
      by_cases hname : Encodable call.toolName
      · rw [RequiredStr.validate_of_valid ((stepName_valid_iff _).mpr hname)]
        rfl
      · rw [RequiredStr.validate_of_not_valid (mt (stepName_valid_iff _).mp hname)]
        rfl
  · rw [RequiredStr.validate_of_not_valid hstepId]
    rfl

theorem buildRequest_ok (case : CaseRecord) {step : CaseStep} (hcall : call.Buildable)
    (hstep : BuiltFrom call step) :
    ∃ request, buildRequest case step = .ok request ∧ requestKey request = call.stepId := by
  have htoolName : (step.toolName.filter (· ≠ [])).getD step.action.val = call.toolName := by
    rw [hstep.tool_name]
    simp [Option.filter, hcall.2.1.1]
  rw [buildRequest, htoolName, RequiredStr.validate_of_valid hcall.2.1,
    hstep.inputs, Mapping.validate_of_encodable hcall.2.2]
  exact ⟨_, rfl, hstep.step_id⟩

section Start

variable (env : Collaborators) (input : RunInput) (planResult : ToolPlanResult)
  {calls : List ToolPlanCall}

theorem startRun_error (hcalls : ¬∀ call ∈ calls, call.Buildable) :
    startRun env input planResult calls = .error .validationError := by
  push Not at hcalls
  obtain ⟨call, hmem, hcall⟩ := hcalls
  have hsteps : calls.mapM (buildStep input.skillSlug) = .error .validationError := by
    refine Loops.mapM_error (fun other _ => ?_) ⟨call, hmem, buildStep_error _ hcall⟩
    by_cases hother : other.Buildable
    · obtain ⟨step, hstep, _⟩ := buildStep_ok input.skillSlug hother
      exact Or.inl ⟨step, hstep⟩
    · exact Or.inr (buildStep_error _ hother)
  rw [startRun, buildCaseFromPlan, hsteps]
  rfl

/-- The loop starts where the abstract run starts. -/
theorem startRun_ok (hcalls : ∀ call ∈ calls, call.Buildable)
    (hnodup : (calls.map ToolPlanCall.stepId).Nodup) :
    ∃ state, startRun env input planResult calls = .ok state ∧
      Simulates env calls [] .planned state (planTasks env calls hnodup).start := by
  obtain ⟨steps, hsteps, hstepIds, hbuilt⟩ : ∃ steps,
      calls.mapM (buildStep input.skillSlug) = .ok steps ∧
      steps.map stepKey = calls.map ToolPlanCall.stepId ∧
      ∀ step ∈ steps, ∃ call : ToolPlanCall, call.Buildable ∧ BuiltFrom call step := by
    refine Loops.mapM_keyed fun call hmem => ?_
    obtain ⟨step, hstep, hbuilt⟩ := buildStep_ok _ (hcalls call hmem)
    exact ⟨step, hstep, hbuilt.step_id, call, hcalls call hmem, hbuilt⟩
  have hvalid : validateCaseTransition .pending .planned = .ok () :=
    validateTransition_of_mem (by decide)
  rw [startRun, buildCaseFromPlan, hsteps]
  simp only [transitionCaseStatus, hvalid, bind, Except.bind, pure, Except.pure]
  generalize hcase : CaseRecord.mk _ _ _ _ _ _ _ _ _ = case
  have hcaseSteps : case.steps = steps := by rw [← hcase]
  obtain ⟨requests, hrequests, hrequestIds, _⟩ : ∃ requests,
      steps.mapM (buildRequest case) = .ok requests ∧
      requests.map requestKey = steps.map stepKey ∧
      ∀ request ∈ requests, True := by
    refine Loops.mapM_keyed fun step hmem => ?_
    obtain ⟨call, hcall, hstep⟩ := hbuilt step hmem
    obtain ⟨request, hrequest, hkey⟩ := buildRequest_ok case hcall hstep
    exact ⟨request, hrequest, hkey.trans hstep.step_id.symm, trivial⟩
  have hcaseStatus : case.status = .planned := by rw [← hcase]
  have hcaseId : case.caseId = env.caseId := by rw [← hcase]
  rw [hrequests]
  refine ⟨_, rfl, ?_⟩
  exact {
    pending_eq := hstepIds
    finished_eq := rfl
    blocking_eq := rfl
    events_eq := rfl
    traces_eq := rfl
    trace_ids := rfl
    step_ids := by rw [hcaseSteps, hstepIds]
    request_ids := hrequestIds.trans hstepIds
    step_status := by
      intro stepId step hstep
      rw [hcaseSteps] at hstep
      obtain ⟨hmem, hkey⟩ := mem_of_lookup hstep
      obtain ⟨call, _, hbuiltStep⟩ := hbuilt step hmem
      have hlisted : stepId ∈ (planTasks env calls hnodup).start.pending := by
        change stepId ∈ calls.map ToolPlanCall.stepId
        rw [← hstepIds, ← hkey]
        exact List.mem_map_of_mem hmem
      rw [hbuiltStep.status, loopStatus, if_pos hlisted, if_neg List.not_mem_nil]
    case_status := hcaseStatus
    case_id := hcaseId
    record_eq := fun _ => rfl
    legal := by
      intro event hevent
      obtain rfl := List.mem_singleton.mp hevent
      rw [RunEvent.Legal]
      decide
    pending_nodup := hnodup
    pending_listed := fun _ hmem => hmem
    not_returned := fun _ _ => List.not_mem_nil }

/-- The whole loop: it ends, raises nothing, and stands for the abstract run. -/
theorem runWaves_ok (hcalls : ∀ call ∈ calls, call.Buildable)
    (hnodup : (calls.map ToolPlanCall.stepId).Nodup) {fuel : ℕ} (hfuel : calls.length ≤ fuel) :
    ∃ start final, startRun env input planResult calls = .ok start ∧
      runWaves env calls fuel start = some (.ok final) ∧
      Simulates env calls [] (caseStatusOf (planTasks env calls hnodup).run) final
        (planTasks env calls hnodup).run := by
  let tasks := planTasks env calls hnodup
  obtain ⟨start, hstart, hstartSim⟩ := startRun_ok env input planResult hcalls hnodup
  have hlength : tasks.listed.length = calls.length := List.length_map _
  rw [← hlength] at hfuel
  obtain ⟨final, hfinal, hfinalSim⟩ := hstartSim.runWaves tasks.start_accounted hfuel
  have hrun : tasks.wave^[fuel] tasks.start = tasks.run := by
    rw [← Nat.sub_add_cancel hfuel, Function.iterate_add_apply]
    exact tasks.iterate_of_pending_nil tasks.run_pending _
  rw [hrun] at hfinalSim
  exact ⟨start, final, hstart, hfinal, hfinalSim⟩

end Start

/-! ## Settling -/

/-- The status with which a step of a finished loop is settled. -/
def settledStatus (env : Collaborators) (progress : Progress PyStr)
    (stepId : PyStr) : StepStatus :=
  if stepId ∈ progress.returned then
    if env.okOf stepId then .completed else .failed
  else .skipped

/-- What settling the steps of a finished loop leaves. -/
structure SettledFrom (env : Collaborators) (calls : List ToolPlanCall)
    (progress : Progress PyStr) (state : RunState) (settled : Settled) : Prop where
  step_ids : settled.steps.map stepKey = calls.map ToolPlanCall.stepId
  step_status : ∀ step ∈ settled.steps,
    step.status = settledStatus env progress (stepKey step)
  pack_id : settled.pack.caseId = env.caseId
  history : ∃ changes : List RunEvent, settled.history = state.history ++ changes ∧
    ∀ event ∈ changes, event.Legal ∧ event.task = none ∧ event.trace = none

section Settle

variable {env : Collaborators} {calls : List ToolPlanCall}
  {caseStatus : CaseStatus} {state : RunState} {progress : Progress PyStr}

theorem collectEvidence_caseId (pack : EvidencePack) (result : ToolCallResult) :
    (collectEvidence env pack result).caseId = pack.caseId := by
  rw [collectEvidence]
  split <;> rfl

/-- Settling one step of a finished loop. -/
theorem settleStep_ok (hsim : Simulates env calls [] caseStatus state progress)
    (hpending : progress.pending = []) {step : CaseStep}
    (hstatus : step.status = loopStatus [] progress (stepKey step)) (settled : Settled) :
    ∃ (next : CaseStep) (pack : EvidencePack) (changes : List RunEvent),
      settleStep env state.records settled step = .ok {
        steps := settled.steps ++ [next]
        pack := pack
        history := settled.history ++ changes } ∧
      stepKey next = stepKey step ∧
      next.status = settledStatus env progress (stepKey step) ∧
      pack.caseId = settled.pack.caseId ∧
      ∀ event ∈ changes, event.Legal ∧ event.task = none ∧ event.trace = none := by
  have hrecord := hsim.record_eq step.stepId
  rw [loopStatus, hpending, if_neg List.not_mem_nil, stepKey] at hstatus
  rw [settleStep]
  by_cases hreturned : step.stepId.val ∈ progress.returned
  · rw [if_pos hreturned] at hstatus hrecord
    obtain ⟨record, hget, hresult⟩ := Option.map_eq_some_iff.mp hrecord
    have hallowed : (if record.result.ok then StepStatus.completed
        else StepStatus.failed) ∈ allowedStepTransitions
          (withOutputs (env.sanitizeForPersistence record.result.content) step).status := by
      change _ ∈ allowedStepTransitions step.status
      rw [hstatus]
      split <;> decide
    rw [hget]
    simp only [transitionStepStatus_eq hallowed, bind, Except.bind, pure, Except.pure]
    refine ⟨_, _, _, rfl, rfl, ?_, collectEvidence_caseId _ _, ?_⟩
    · rw [settledStatus, stepKey, if_pos hreturned, okOf_eq, ← hresult]
      rfl
    · intro event hevent
      obtain rfl := List.mem_singleton.mp hevent
      exact ⟨hallowed, rfl, rfl⟩
  · rw [if_neg hreturned] at hstatus hrecord
    rw [Option.map_eq_none_iff.mp hrecord]
    refine ⟨step, settled.pack, [], by simp, rfl, ?_, rfl, by simp⟩
    rw [hstatus, settledStatus, stepKey, if_neg hreturned]

theorem settleSteps_ok (hsim : Simulates env calls [] caseStatus state progress)
    (hpending : progress.pending = []) (hnodup : (calls.map ToolPlanCall.stepId).Nodup) :
    ∃ settled, settleSteps env state = .ok settled ∧
      SettledFrom env calls progress state settled := by
  let invariant (rest : List CaseStep) (settled : Settled) : Prop :=
    (∀ step ∈ rest, step ∈ state.case.steps) ∧
      settled.steps.map stepKey ++ rest.map stepKey =
        calls.map ToolPlanCall.stepId ∧
      (∀ step ∈ settled.steps,
        step.status = settledStatus env progress (stepKey step)) ∧
      settled.pack.caseId = env.caseId ∧
      ∃ changes : List RunEvent, settled.history = state.history ++ changes ∧
        ∀ event ∈ changes, event.Legal ∧ event.task = none ∧ event.trace = none
  have hbody : ∀ step rest settled, invariant (step :: rest) settled →
      ∃ next, settleStep env state.records settled step = .ok next ∧ invariant rest next := by
    rintro step rest settled ⟨hmem, hids, hstatuses, hpack, changes, hhistory, hchanges⟩
    have hstatus : step.status = loopStatus [] progress (stepKey step) :=
      hsim.step_status _ step ((lookup_eq_some_iff (hsim.step_ids ▸ hnodup) _ _).mpr
        ⟨hmem step List.mem_cons_self, rfl⟩)
    obtain ⟨next, pack, more, hnext, hkey, hnextStatus, hnextPack, hmore⟩ :=
      settleStep_ok hsim hpending hstatus settled
    refine ⟨_, hnext, fun other hother => hmem other (List.mem_cons_of_mem _ hother),
      ?_, ?_, hnextPack.trans hpack, changes ++ more, ?_, ?_⟩
    · rw [← hids]
      simp [hkey]
    · intro other hother
      rcases List.mem_append.mp hother with hold | hlast
      · exact hstatuses other hold
      · obtain rfl := List.mem_singleton.mp hlast
        rw [hnextStatus, hkey]
    · rw [hhistory, List.append_assoc]
    · intro event hevent
      rcases List.mem_append.mp hevent with hold | hlast
      · exact hchanges event hold
      · exact hmore event hlast
  have hstart : invariant state.case.steps
      { steps := []
        pack := { caseId := state.case.caseId, items := [], summary := [] }
        history := state.history } :=
    ⟨fun _ hmem => hmem, hsim.step_ids, by simp, hsim.case_id, [], by simp, by simp⟩
  obtain ⟨settled, hsettled, _, hids, hstatuses, hpack, hhistory⟩ :=
    Loops.foldlM_ok invariant hbody _ _ hstart
  exact ⟨settled, hsettled, by simpa using hids, hstatuses, hpack, hhistory⟩

theorem requiredOf_of_mem (hnodup : (calls.map ToolPlanCall.stepId).Nodup)
    (hcall : call ∈ calls) : requiredOf calls call.stepId = call.required :=
  requiredOf_eq ((lookup_eq_some_iff hnodup _ _).mpr ⟨hcall, rfl⟩)

theorem dependenciesOf_of_mem (hnodup : (calls.map ToolPlanCall.stepId).Nodup)
    (hcall : call ∈ calls) : dependenciesOf calls call.stepId = call.dependsOn :=
  dependenciesOf_eq ((lookup_eq_some_iff hnodup _ _).mpr ⟨hcall, rfl⟩)

/-- A required step ended failed or skipped. -/
def RequiredStepFailed (calls : List ToolPlanCall) (steps : List CaseStep) : Prop :=
  ∃ step ∈ steps, requiredOf calls (stepKey step) = true ∧
    (step.status = .failed ∨ step.status = .skipped)

theorem anyRequiredStepFailed {steps : List CaseStep}
    (hsteps : steps.map stepKey = calls.map ToolPlanCall.stepId) :
    ∃ failed, steps.anyM (requiredStepFailed calls) = .ok failed ∧
      (failed = true ↔ RequiredStepFailed calls steps) := by
  refine ⟨steps.any fun step =>
    (step.status = .failed ∨ step.status = .skipped) && requiredOf calls (stepKey step),
    Loops.anyM_ok fun step hmem => ?_, ?_⟩
  · have hkey : stepKey step ∈ calls.map ToolPlanCall.stepId := by
      rw [← hsteps]
      exact List.mem_map_of_mem hmem
    obtain ⟨call, hcall⟩ := lookup_of_mem hkey
    rw [requiredStepFailed]
    split
    · rename_i hstatus
      have hfound : callFor calls step.stepId.val = .ok call := callFor_eq hcall
      rw [hfound, requiredOf_eq hcall]
      simp [hstatus, bind, Except.bind, pure, Except.pure]
    · rename_i hstatus
      simp [hstatus]
  · simp only [List.any_eq_true, Bool.and_eq_true, decide_eq_true_eq, RequiredStepFailed, and_comm]

/-- Ending the case succeeds when it is running or has to fail. -/
theorem settleCase_ok (hsim : Simulates env calls [] caseStatus state progress)
    (hpending : progress.pending = []) (hnodup : (calls.map ToolPlanCall.stepId).Nodup)
    (hcase : caseStatus = .planned ∨ caseStatus = .running) :
    ∃ settled, settleSteps env state = .ok settled ∧
      SettledFrom env calls progress state settled ∧
      ((caseStatus = .running ∨ RequiredStepFailed calls settled.steps) →
        ∃ case pack history, settleCase env calls state = .ok (case, pack, history) ∧
          case.steps = settled.steps ∧ case.caseId = env.caseId ∧
          pack.caseId = env.caseId ∧
          (case.status = .completed ∨ case.status = .failed) ∧
          (case.status = .failed ↔ RequiredStepFailed calls settled.steps) ∧
          ∀ event ∈ history, event.Legal) ∧
      (¬(caseStatus = .running ∨ RequiredStepFailed calls settled.steps) →
        ∃ message, settleCase env calls state = .error (.stateTransitionError message)) := by
  obtain ⟨settled, hsettled, hfrom⟩ := settleSteps_ok hsim hpending hnodup
  obtain ⟨failed, hfailed, hfailedIff⟩ := anyRequiredStepFailed hfrom.step_ids
  obtain ⟨changes, hhistory, hchanges⟩ := hfrom.history
  refine ⟨settled, hsettled, hfrom, ?_, ?_⟩
  · intro hends
    have hallowed : (if failed then CaseStatus.failed else .completed) ∈
        allowedCaseTransitions state.case.status := by
      rw [hsim.case_status]
      rcases hcase with rfl | rfl
      · have hmust : failed = true := by
          rw [hfailedIff]
          exact hends.resolve_left (by decide)
        rw [hmust]
        decide
      · split <;> decide
    have hvalid : validateCaseTransition state.case.status
        (if failed then .failed else .completed) = .ok () :=
      validateTransition_of_mem hallowed
    rw [settleCase, hsettled]
    simp only [bind, Except.bind, hfailed, transitionCaseStatus, hvalid, pure, Except.pure]
    refine ⟨_, _, _, rfl, rfl, hsim.case_id, hfrom.pack_id, ?_, ?_, ?_⟩
    · cases failed <;> simp
    · rw [← hfailedIff]
      cases failed <;> simp
    · intro event hevent
      rw [hhistory] at hevent
      rcases List.mem_append.mp hevent with hold | hlast
      · rcases List.mem_append.mp hold with hstate | hchange
        · exact hsim.legal event hstate
        · exact (hchanges event hchange).1
      · obtain rfl := List.mem_singleton.mp hlast
        exact hallowed
  · intro hends
    rw [not_or] at hends
    have hplanned : state.case.status = .planned := by
      rw [hsim.case_status]
      exact hcase.resolve_right hends.1
    have hcompleted : failed = false := by
      rw [← Bool.not_eq_true, hfailedIff]
      exact hends.2
    rw [settleCase, hsettled]
    simp only [bind, Except.bind, hfailed, transitionCaseStatus, hplanned, hcompleted]
    exact ⟨_, rfl⟩

end Settle

/-! ## Small plans -/

/-- A call of one tool without arguments. -/
def plannedCall (stepId : String) (dependsOn : List String) (required : Bool) :
    ToolPlanCall where
  toolName := py "log.query"
  stepId := py stepId
  arguments := []
  rationale := []
  dependsOn := dependsOn.map py
  timeoutSeconds := none
  required := required

theorem plannedCall_buildable {stepId : String} (hne : py stepId ≠ []) (dependsOn : List String)
    (required : Bool) : (plannedCall stepId dependsOn required).Buildable :=
  have htoolName : py "log.query" ≠ [] := by decide
  ⟨⟨hne, encodable_py _⟩, ⟨htoolName, encodable_py _⟩, Mapping.empty.property⟩

def planOf (calls : List ToolPlanCall) : ToolPlan where
  toolCalls := calls
  rationale := []
  finalAnswer := none
  raw := []

/-- A run of `calls` with one allowed tool and empty stores. -/
def inputOf (calls : List ToolPlanCall) : RunInput where
  caseRequest := {
    title := .ofLiteral "title" (by decide)
    symptom := .ofLiteral "symptom" (by decide)
    serviceName := .ofLiteral "service" (by decide)
    source := .ofLiteral "webhook" Fixture.webhook
    metadata := .empty }
  skillSlug := .ofLiteral "playbook" (by decide)
  routeMode := py "auto"
  allowedToolNames := [.ofLiteral "log.query" Fixture.logQuery]
  planResult := {
    ok := true
    plan := some (planOf calls)
    provider := none
    model := none
    elapsedMs := none
    error := none }
  stores := { cases := [], packs := [], reports := [] }

/-- Tools that answer without content; the calls of `failing` are not ok. -/
def quietCollaborators (failing : List String) : Collaborators where
  caseId := .ofLiteral "case-1" Fixture.caseOne
  attemptId := py "attempt-1"
  itemId := fun _ => .ofLiteral "ev-1" Fixture.evOne
  answer stepId := {
    ok := stepId.val ∉ failing.map py
    toolName := .ofLiteral "log.query" Fixture.logQuery
    content := .empty
    error := none
    latencyMs := 0 }
  notifyAnswer := {
    ok := true
    toolName := notifyToolName
    content := .empty
    error := none
    latencyMs := 0 }
  enrichToolArguments _ arguments _ := arguments
  contentPreview content := content
  sanitizeForPersistence content := content.val
  sanitizeForEvidence _ content := content
  summarizeEvidence _ _ := []
  analyze _ _ _ := { summary := [], rootCause := none, metadata := [] }
  notifyArguments _ := .empty

end RootSeeker.AgentRuntime
