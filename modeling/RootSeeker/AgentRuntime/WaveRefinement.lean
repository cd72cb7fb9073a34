import RootSeeker.AgentRuntime.AttemptRunner
import RootSeeker.Core.WaveTimeline

/-!
# The wave loop refines wave scheduling

The loop of a planned run keeps dictionaries, step statuses, records and
traces.  Forgetting all but the pending list, the two id sets and the order of
events leaves the abstract wave scheduler.  Each operation of the loop is
matched with one abstract step, so a whole run of the loop ends where the
abstract run ends and raises nothing on the way.
-/

namespace RootSeeker.AgentRuntime

open Python Contracts KeyedList WaveScheduling

namespace RunEvent

/-- The scheduling event behind an event of the run. -/
def task : RunEvent → Option (Event PyStr)
  | skipped trace => some (.skipped trace.stepId)
  | unresolved trace => some (.unresolved trace.stepId)
  | handed request => some (.handed request.stepId.val)
  | returned record => some (.returned record.request.stepId.val)
  | _ => none

/-- The trace that an event adds to the run's traces. -/
def trace : RunEvent → Option ToolExecutionTrace
  | skipped trace => some trace
  | unresolved trace => some trace
  | returned record => some record.trace
  | notified record => some record.trace
  | _ => none

/-- A status change follows the frozen state machine. -/
def Legal : RunEvent → Prop
  | caseStatus old new => new ∈ allowedCaseTransitions old
  | stepStatus _ old new => new ∈ allowedStepTransitions old
  | _ => True

end RunEvent

def dependenciesOf (calls : List ToolPlanCall) (stepId : PyStr) : List PyStr :=
  ((lookup ToolPlanCall.stepId stepId calls).map (·.dependsOn)).getD []

def requiredOf (calls : List ToolPlanCall) (stepId : PyStr) : Bool :=
  ((lookup ToolPlanCall.stepId stepId calls).map (·.required)).getD false

/-- The result of a step's own call. -/
def Collaborators.okOf (env : Collaborators) (stepId : PyStr) : Bool :=
  if hstepId : stepId ≠ [] ∧ Encodable stepId then
    (env.answer ⟨stepId, hstepId⟩).ok
  else false

/-- The calls of a plan as tasks of the scheduler. -/
def planTasks (env : Collaborators) (calls : List ToolPlanCall)
    (hnodup : (calls.map ToolPlanCall.stepId).Nodup) : Tasks PyStr where
  listed := calls.map ToolPlanCall.stepId
  deps := dependenciesOf calls
  required := requiredOf calls
  ok := env.okOf
  nodup := hnodup
  required_listed stepId hrequired := by
    rw [← lookup_isSome_iff]
    cases hcall : lookup ToolPlanCall.stepId stepId calls with
    | none => simp [requiredOf, hcall] at hrequired
    | some call => rfl
  deps_listed stepId hnot := by
    rw [dependenciesOf, (lookup_eq_none_iff stepId calls).mpr hnot]
    rfl

/-- The status of a step while the loop runs; steps in flight are pending for
the scheduler but already started. -/
def loopStatus (inFlight : List PyStr) (progress : Progress PyStr)
    (stepId : PyStr) : StepStatus :=
  if stepId ∈ progress.pending then
    if stepId ∈ inFlight then .running else .pending
  else if stepId ∈ progress.returned then .running
  else .skipped

/-- The state of the loop stands for a progress of the scheduler. -/
structure Simulates (env : Collaborators) (calls : List ToolPlanCall)
    (inFlight : List PyStr) (caseStatus : CaseStatus) (state : RunState)
    (progress : Progress PyStr) : Prop where
  pending_eq : state.pending = progress.pending
  finished_eq : state.finished = progress.finished
  blocking_eq : state.blocking = progress.blocking
  events_eq : state.history.filterMap RunEvent.task = progress.events
  traces_eq : state.toolTraces = state.history.filterMap RunEvent.trace
  trace_ids : state.toolTraces.map ToolExecutionTrace.stepId = progress.closed
  step_ids : state.case.steps.map stepKey = calls.map ToolPlanCall.stepId
  request_ids : state.requests.map requestKey =
    calls.map ToolPlanCall.stepId
  step_status : ∀ stepId step,
    lookup stepKey stepId state.case.steps = some step →
      step.status = loopStatus inFlight progress stepId
  case_status : state.case.status = caseStatus
  case_id : state.case.caseId = env.caseId
  record_eq : ∀ stepId : RequiredStr,
    (state.records.get? stepId.val).map (·.result) =
      if stepId.val ∈ progress.returned then some (env.answer stepId) else none
  legal : ∀ event ∈ state.history, event.Legal
  pending_nodup : progress.pending.Nodup
  pending_listed : ∀ stepId ∈ progress.pending,
    stepId ∈ calls.map ToolPlanCall.stepId
  not_returned : ∀ stepId ∈ progress.pending, stepId ∉ progress.returned

/-! ## Single operations -/

variable {stepId : PyStr} {call : ToolPlanCall} {step : CaseStep}

theorem transitionStepStatus_eq {new : StepStatus}
    (hallowed : new ∈ allowedStepTransitions step.status) :
    transitionStepStatus step new = .ok (withStatus new step,
      .stepStatus step.stepId.val step.status new) := by
  have hvalid : validateStepTransition step.status new = .ok () :=
    validateTransition_of_mem hallowed
  rw [transitionStepStatus, hvalid]
  rfl

theorem setStepStatus_eq (new : StepStatus) {state : RunState}
    (hstep : lookup stepKey stepId state.case.steps = some step)
    (hallowed : new ∈ allowedStepTransitions step.status) :
    setStepStatus new state stepId = .ok { state with
      case := { state.case with
        steps := modify stepKey stepId (withStatus new) state.case.steps }
      history := state.history ++ [.stepStatus step.stepId.val step.status new] } := by
  simp only [setStepStatus, stepFor, hstep, transitionStepStatus_eq hallowed,
    bind, Except.bind, pure, Except.pure]

theorem listRemove_eq {α : Type*} [DecidableEq α] {items : List α} {item : α}
    (hmem : item ∈ items) : listRemove items item = .ok (items.erase item) :=
  if_pos hmem

theorem callFor_eq {calls : List ToolPlanCall}
    (hcall : lookup ToolPlanCall.stepId stepId calls = some call) :
    callFor calls stepId = .ok call := by
  rw [callFor, hcall]

theorem requestFor_eq {state : RunState} {request : ToolCallRequest}
    (hrequest : lookup requestKey stepId state.requests = some request) :
    requestFor state stepId = .ok request := by
  rw [requestFor, hrequest]

theorem stepFor_eq {state : RunState} (hstep : lookup stepKey stepId state.case.steps = some step) :
    stepFor state stepId = .ok step := by
  rw [stepFor, hstep]

theorem dependenciesOf_eq {calls : List ToolPlanCall}
    (hcall : lookup ToolPlanCall.stepId stepId calls = some call) :
    dependenciesOf calls stepId = call.dependsOn := by
  rw [dependenciesOf, hcall]
  rfl

theorem requiredOf_eq {calls : List ToolPlanCall}
    (hcall : lookup ToolPlanCall.stepId stepId calls = some call) :
    requiredOf calls stepId = call.required := by
  rw [requiredOf, hcall]
  rfl

theorem okOf_eq (env : Collaborators) (stepId : RequiredStr) :
    env.okOf stepId.val = (env.answer stepId).ok :=
  dif_pos stepId.property

namespace Simulates

variable {env : Collaborators} {calls : List ToolPlanCall}
  {inFlight : List PyStr} {caseStatus : CaseStatus} {state : RunState}
  {progress : Progress PyStr}

theorem lookup_step (hsim : Simulates env calls inFlight caseStatus state progress)
    (hpending : stepId ∈ progress.pending) :
    ∃ step, lookup stepKey stepId state.case.steps = some step ∧
      step.stepId.val = stepId ∧ step.status = loopStatus inFlight progress stepId := by
  have hmem : stepId ∈ state.case.steps.map stepKey := by
    rw [hsim.step_ids]
    exact hsim.pending_listed stepId hpending
  obtain ⟨step, hstep⟩ := lookup_of_mem hmem
  exact ⟨step, hstep, (mem_of_lookup hstep).2, hsim.step_status stepId step hstep⟩

theorem lookup_request (hsim : Simulates env calls inFlight caseStatus state progress)
    (hpending : stepId ∈ progress.pending) :
    ∃ request, lookup requestKey stepId state.requests = some request ∧
      request.stepId.val = stepId := by
  have hmem : stepId ∈ state.requests.map requestKey := by
    rw [hsim.request_ids]
    exact hsim.pending_listed stepId hpending
  obtain ⟨request, hrequest⟩ := lookup_of_mem hmem
  exact ⟨request, hrequest, (mem_of_lookup hrequest).2⟩

theorem lookup_call (hsim : Simulates env calls inFlight caseStatus state progress)
    (hpending : stepId ∈ progress.pending) :
    ∃ call, lookup ToolPlanCall.stepId stepId calls = some call :=
  lookup_of_mem (hsim.pending_listed stepId hpending)

/-- Setting the status of every step that is looked up as `stepId` leaves the
other statuses alone. -/
theorem step_status_modify (hsim : Simulates env calls inFlight caseStatus state progress)
    {new : StepStatus} {inFlight' : List PyStr} {progress' : Progress PyStr}
    (hself : loopStatus inFlight' progress' stepId = new) (hother : ∀ other ≠ stepId,
      loopStatus inFlight' progress' other = loopStatus inFlight progress other) (other : PyStr)
    (step : CaseStep) (hstep : lookup stepKey other
      (modify stepKey stepId (withStatus new) state.case.steps) = some step) :
    step.status = loopStatus inFlight' progress' other := by
  rw [lookup_modify (stepKey_withStatus new)] at hstep
  split at hstep
  · rename_i heq
    obtain ⟨old, _, rfl⟩ := Option.map_eq_some_iff.mp hstep
    rw [heq, hself]
    rfl
  · rename_i hne
    rw [hother other hne]
    exact hsim.step_status other step hstep

/-- A pending step is started. -/
theorem setRunning (hsim : Simulates env calls inFlight caseStatus state progress)
    (hpending : stepId ∈ progress.pending) (hwaiting : stepId ∉ inFlight) :
    ∃ next, setStepStatus .running state stepId = .ok next ∧
      Simulates env calls (inFlight ++ [stepId]) caseStatus next progress := by
  obtain ⟨step, hstep, hstepId, hstatus⟩ := hsim.lookup_step hpending
  rw [loopStatus, if_pos hpending, if_neg hwaiting] at hstatus
  refine ⟨_, setStepStatus_eq .running hstep (by rw [hstatus]; decide), ?_⟩
  exact {
    pending_eq := hsim.pending_eq
    finished_eq := hsim.finished_eq
    blocking_eq := hsim.blocking_eq
    events_eq := by
      rw [List.filterMap_append, hsim.events_eq]
      exact List.append_nil _
    traces_eq := by
      rw [List.filterMap_append, ← hsim.traces_eq]
      exact (List.append_nil _).symm
    trace_ids := hsim.trace_ids
    step_ids := (map_modify (stepKey_withStatus _) _ _).trans hsim.step_ids
    request_ids := hsim.request_ids
    step_status := hsim.step_status_modify (by simp [loopStatus, hpending])
      fun other hne => by simp [loopStatus, hne]
    case_status := hsim.case_status
    case_id := hsim.case_id
    record_eq := hsim.record_eq
    legal := by
      intro event hevent
      rcases List.mem_append.mp hevent with hold | hnew
      · exact hsim.legal event hold
      · obtain rfl := List.mem_singleton.mp hnew
        rw [hstatus, RunEvent.Legal]
        decide
    pending_nodup := hsim.pending_nodup
    pending_listed := hsim.pending_listed
    not_returned := hsim.not_returned }

/-- Closing a pending step without executing it is one abstract `close`. -/
theorem skipStep (hsim : Simulates env calls [] caseStatus state progress)
    (hpending : stepId ∈ progress.pending) (event : ToolExecutionTrace → RunEvent)
    (taskEvent : PyStr → Event PyStr)
    (htask : ∀ trace, (event trace).task = some (taskEvent trace.stepId))
    (htrace : ∀ trace, (event trace).trace = some trace) (hlegal : ∀ trace, (event trace).Legal)
    (hcloses : ∀ stepId, (taskEvent stepId).closes = some stepId)
    (hreturned : ∀ stepId, (taskEvent stepId).returnedTask = none) (errorCode errorMessage : PyStr) :
    ∃ next, skipStep calls event errorCode errorMessage state stepId = .ok next ∧
      next.skippedThisWave = state.skippedThisWave ∧
      Simulates env calls [] caseStatus next
        (progress.close taskEvent (requiredOf calls) stepId) := by
  obtain ⟨step, hstep, rfl, hstatus⟩ := hsim.lookup_step hpending
  obtain ⟨request, hrequest, _⟩ := hsim.lookup_request hpending
  obtain ⟨call, hcall⟩ := hsim.lookup_call hpending
  rw [loopStatus, if_pos hpending, if_neg List.not_mem_nil] at hstatus
  have hset := setStepStatus_eq .skipped hstep (by rw [hstatus]; decide)
  have hmem : step.stepId.val ∈ state.pending := by rwa [hsim.pending_eq]
  have hpendingIff := Progress.mem_close_pending taskEvent (requiredOf calls)
    hsim.pending_nodup step.stepId.val
  have hreturnedEq : (progress.close taskEvent (requiredOf calls)
      step.stepId.val).returned = progress.returned := by
    rw [Progress.close_returned, hreturned]
    simp
  rw [AgentRuntime.skipStep, callFor_eq hcall, stepFor_eq hstep, requestFor_eq hrequest, hset]
  simp only [bind, Except.bind, listRemove_eq hmem, pure, Except.pure]
  refine ⟨_, rfl, rfl, ?_⟩
  exact {
    pending_eq := by simp [hsim.pending_eq]
    finished_eq := by simp [hsim.finished_eq]
    blocking_eq := by simp [hsim.blocking_eq, requiredOf_eq hcall]
    events_eq := by
      simp only [List.filterMap_append, hsim.events_eq, Progress.close_events,
        List.filterMap_cons, List.filterMap_nil, htask]
      simp [RunEvent.task]
    traces_eq := by
      simp only [List.filterMap_append, hsim.traces_eq, List.filterMap_cons,
        List.filterMap_nil, htrace]
      simp [RunEvent.trace]
    trace_ids := by
      rw [Progress.close_closed _ _ hcloses, ← hsim.trace_ids]
      simp
    step_ids := (map_modify (stepKey_withStatus _) _ _).trans hsim.step_ids
    request_ids := hsim.request_ids
    step_status := by
      refine hsim.step_status_modify ?_ fun other hne => ?_
      · rw [loopStatus, hreturnedEq, if_neg fun hin => ((hpendingIff _).mp hin).1 rfl,
          if_neg (hsim.not_returned _ hpending)]
      · simp only [loopStatus, hreturnedEq, hpendingIff, hne, ne_eq, not_false_eq_true, true_and]
    case_status := hsim.case_status
    case_id := hsim.case_id
    record_eq := by
      intro other
      rw [hreturnedEq]
      exact hsim.record_eq other
    legal := by
      intro other hother
      simp only [List.append_assoc, List.mem_append, List.mem_singleton] at hother
      rcases hother with hold | rfl | rfl
      · exact hsim.legal other hold
      · rw [hstatus, RunEvent.Legal]
        decide
      · exact hlegal _
    pending_nodup := Progress.close_pending_nodup _ _ hsim.pending_nodup _
    pending_listed := fun other hother =>
      hsim.pending_listed other ((hpendingIff other).mp hother).2
    not_returned := by
      intro other hother
      rw [hreturnedEq]
      exact hsim.not_returned other ((hpendingIff other).mp hother).2 }

/-- Collecting the record of a step in flight is one abstract `close`. -/
theorem collectRecord (hsim : Simulates env calls inFlight caseStatus state progress)
    {record : ToolCallExecution} (hpending : record.request.stepId.val ∈ progress.pending)
    (hresult : record.result = env.answer record.request.stepId)
    (htrace : record.trace.stepId = record.request.stepId.val)
    (hrunning : record.request.stepId.val ∈ inFlight) (blocks : PyStr → Bool)
    (hblocks : blocks record.request.stepId.val =
      (!record.result.ok && requiredOf calls record.request.stepId.val)) :
    ∃ next, collectRecord calls state record = .ok next ∧
      Simulates env calls inFlight caseStatus next
        (progress.close Event.returned blocks record.request.stepId.val) := by
  obtain ⟨call, hcall⟩ := hsim.lookup_call hpending
  have hmem : record.request.stepId.val ∈ state.pending := by
    rwa [hsim.pending_eq]
  have hpendingIff := Progress.mem_close_pending Event.returned blocks
    hsim.pending_nodup record.request.stepId.val
  have hreturnedEq : (progress.close Event.returned blocks
      record.request.stepId.val).returned = progress.returned ++ [record.request.stepId.val] := by
    rw [Progress.close_returned]
    rfl
  rw [requiredOf_eq hcall] at hblocks
  rw [AgentRuntime.collectRecord, callFor_eq hcall]
  simp only [bind, Except.bind, listRemove_eq hmem, pure, Except.pure]
  refine ⟨_, rfl, ?_⟩
  exact {
    pending_eq := by simp [hsim.pending_eq]
    finished_eq := by simp [hsim.finished_eq]
    blocking_eq := by simp [hsim.blocking_eq, hblocks]
    events_eq := by
      rw [List.filterMap_append, hsim.events_eq, Progress.close_events]
      rfl
    traces_eq := by
      rw [List.filterMap_append, ← hsim.traces_eq]
      rfl
    trace_ids := by
      rw [Progress.close_closed _ _ fun _ => rfl, ← hsim.trace_ids]
      simp [htrace]
    step_ids := hsim.step_ids
    request_ids := hsim.request_ids
    step_status := by
      intro other step hstep
      rw [hsim.step_status other step hstep]
      by_cases hother : other = record.request.stepId.val
      · subst hother
        simp [loopStatus, hreturnedEq, hpending, hrunning]
      · simp [loopStatus, hreturnedEq, hother]
    case_status := hsim.case_status
    case_id := hsim.case_id
    record_eq := by
      intro other
      by_cases hother : other = record.request.stepId
      · subst hother
        simp [hreturnedEq, hresult]
      · have hne : other.val ≠ record.request.stepId.val :=
          fun heq => hother (Subtype.ext heq)
        rw [Dict.get?_set_of_ne _ _ hne, hsim.record_eq, hreturnedEq]
        simp [hne]
    legal := by
      intro event hevent
      rcases List.mem_append.mp hevent with hold | hnew
      · exact hsim.legal event hold
      · obtain rfl := List.mem_singleton.mp hnew
        trivial
    pending_nodup := Progress.close_pending_nodup _ _ hsim.pending_nodup _
    pending_listed := fun other hother =>
      hsim.pending_listed other ((hpendingIff other).mp hother).2
    not_returned := by
      intro other hother
      obtain ⟨hne, hold⟩ := (hpendingIff other).mp hother
      rw [hreturnedEq]
      simp [hsim.not_returned other hold, hne] }

/-- Filling in arguments changes nothing the scheduler sees. -/
theorem enrichRequest (hsim : Simulates env calls inFlight caseStatus state progress)
    (hpending : stepId ∈ progress.pending) (outputs : Dict PyStr Fields) :
    ∃ next, enrichRequest env outputs state stepId = .ok next ∧
      Simulates env calls inFlight caseStatus next progress := by
  obtain ⟨request, hrequest, _⟩ := hsim.lookup_request hpending
  rw [AgentRuntime.enrichRequest, requestFor_eq hrequest]
  simp only [bind, Except.bind, pure, Except.pure]
  refine ⟨_, rfl, ?_⟩
  exact { hsim with
    step_ids := (map_modify (stepKey_withInputs _) _ _).trans hsim.step_ids
    request_ids :=
      (map_modify (requestKey_withArguments _) _ _).trans hsim.request_ids
    step_status := by
      intro other step hstep
      rw [lookup_modify (stepKey_withInputs _)] at hstep
      split at hstep
      · rename_i heq
        obtain ⟨old, hold, rfl⟩ := Option.map_eq_some_iff.mp hstep
        rw [heq]
        exact hsim.step_status stepId old hold
      · exact hsim.step_status other step hstep }

theorem startCase (hsim : Simulates env calls inFlight caseStatus state progress)
    (hcase : caseStatus = .planned ∨ caseStatus = .running) :
    ∃ next, startCase state = .ok next ∧ Simulates env calls inFlight .running next progress := by
  rw [AgentRuntime.startCase]
  rcases hcase with rfl | rfl
  · have hvalid : validateCaseTransition .planned .running = .ok () :=
      validateTransition_of_mem (by decide)
    simp only [hsim.case_status, if_true, transitionCaseStatus, hvalid, bind,
      Except.bind, pure, Except.pure]
    refine ⟨_, rfl, ?_⟩
    exact { hsim with
      events_eq := by
        rw [List.filterMap_append, hsim.events_eq]
        exact List.append_nil _
      traces_eq := by
        rw [List.filterMap_append, ← hsim.traces_eq]
        exact (List.append_nil _).symm
      case_status := rfl
      legal := by
        intro event hevent
        rcases List.mem_append.mp hevent with hold | hnew
        · exact hsim.legal event hold
        · obtain rfl := List.mem_singleton.mp hnew
          rw [RunEvent.Legal]
          decide }
  · refine ⟨state, ?_, hsim⟩
    rw [hsim.case_status, if_neg (by decide)]

end Simulates

/-! ## One wave -/

section Wave

variable {env : Collaborators} {calls : List ToolPlanCall}
  {hnodup : (calls.map ToolPlanCall.stepId).Nodup}
  {caseStatus : CaseStatus} {state : RunState} {progress : Progress PyStr}

/-- One turn of the skip pass is one abstract turn, and it raises the flag
exactly when it closes the step. -/
theorem Simulates.visitPending (hsim : Simulates env calls [] caseStatus state progress)
    (hnodup : (calls.map ToolPlanCall.stepId).Nodup) (hpending : stepId ∈ progress.pending) :
    ∃ next, visitPending calls state stepId = .ok next ∧
      Simulates env calls [] caseStatus next
        ((planTasks env calls hnodup).skipOne progress stepId) ∧
      next.skippedThisWave = (state.skippedThisWave ||
        (dependenciesOf calls stepId).any (· ∈ progress.blocking)) := by
  obtain ⟨call, hcall⟩ := hsim.lookup_call hpending
  have hdeps : (planTasks env calls hnodup).deps stepId = call.dependsOn :=
    dependenciesOf_eq hcall
  rw [AgentRuntime.visitPending, callFor_eq hcall, Tasks.skipOne, hdeps, dependenciesOf_eq hcall]
  simp only [bind, Except.bind, pure, Except.pure, hsim.blocking_eq]
  by_cases hblocked : call.dependsOn.filter (· ∈ progress.blocking) = []
  · have hnone : call.dependsOn.any (· ∈ progress.blocking) = false := by
      simpa [List.filter_eq_nil_iff, List.any_eq_false] using hblocked
    rw [if_pos hblocked, hnone]
    exact ⟨state, rfl, by simpa using hsim, by simp⟩
  · have hany : call.dependsOn.any (· ∈ progress.blocking) = true := by
      simpa [List.filter_eq_nil_iff, List.any_eq_true] using hblocked
    obtain ⟨next, hnext, _, hnextSim⟩ := hsim.skipStep hpending
      RunEvent.skipped Event.skipped (fun _ => rfl) (fun _ => rfl)
      (fun _ => trivial) (fun _ => rfl) (fun _ => rfl)
      (py "DEPENDENCY_FAILED")
      (dependencyFailedMessage (call.dependsOn.filter (· ∈ progress.blocking)))
    rw [if_neg hblocked, hnext, hany]
    exact ⟨_, rfl, by simpa using { hnextSim with }, by simp⟩

/-- The whole skip pass; its flag says whether it closed a step. -/
theorem Simulates.skipPass (hsim : Simulates env calls [] caseStatus state progress)
    (hnodup : (calls.map ToolPlanCall.stepId).Nodup) :
    ∃ next, state.pending.foldlM (AgentRuntime.visitPending calls)
        { state with skippedThisWave := false } = .ok next ∧
      Simulates env calls [] caseStatus next
        ((planTasks env calls hnodup).skipPass progress) ∧
      (next.skippedThisWave = true ↔
        ((planTasks env calls hnodup).skipPass progress).pending ≠
          progress.pending) := by
  let tasks := planTasks env calls hnodup
  let invariant (rest : List PyStr) (current : RunState) : Prop :=
    ∃ reached, Simulates env calls [] caseStatus current reached ∧
      (∀ stepId ∈ rest, stepId ∈ reached.pending) ∧ rest.Nodup ∧
      rest.foldl tasks.skipOne reached = tasks.skipPass progress ∧
      (current.skippedThisWave = false → reached.pending = progress.pending) ∧
      (current.skippedThisWave = true →
        reached.pending.length < progress.pending.length) ∧
      reached.pending.length ≤ progress.pending.length
  have hbody : ∀ stepId rest current, invariant (stepId :: rest) current →
      ∃ next, AgentRuntime.visitPending calls current stepId = .ok next ∧ invariant rest next := by
    rintro stepId rest current ⟨reached, hreached, hrest, hrestNodup, hfold, hsame, hless, hle⟩
    have hpending := hrest stepId List.mem_cons_self
    obtain ⟨hnotMem, hrestNodup⟩ := List.nodup_cons.mp hrestNodup
    obtain ⟨next, hnext, hnextSim, hflag⟩ := hreached.visitPending hnodup hpending
    refine ⟨next, hnext, tasks.skipOne reached stepId, hnextSim, ?_, hrestNodup, hfold, ?_⟩
    · intro other hother
      have hotherPending := hrest other (List.mem_cons_of_mem _ hother)
      rw [Tasks.skipOne]
      split
      · refine (Progress.mem_close_pending _ _ hreached.pending_nodup _ _).mpr ⟨?_, hotherPending⟩
        rintro rfl
        exact hnotMem hother
      · exact hotherPending
    · by_cases hany :
          (dependenciesOf calls stepId).any (· ∈ reached.blocking) = true
      · have hone : tasks.skipOne reached stepId =
            reached.close Event.skipped tasks.required stepId := if_pos hany
        have hlt := Progress.close_pending_length_lt Event.skipped tasks.required hpending
        rw [hany, Bool.or_true] at hflag
        rw [hone, hflag]
        exact ⟨by simp, fun _ => by omega, by omega⟩
      · have hone : tasks.skipOne reached stepId = reached := if_neg hany
        rw [Bool.not_eq_true] at hany
        rw [hany, Bool.or_false] at hflag
        rw [hone, hflag]
        exact ⟨hsame, hless, hle⟩
  have hstart : invariant state.pending { state with skippedThisWave := false } := by
    refine ⟨progress, { hsim with }, ?_, ?_, ?_, fun _ => rfl, by simp, le_rfl⟩
    · intro stepId hmem
      rwa [← hsim.pending_eq]
    · rw [hsim.pending_eq]
      exact hsim.pending_nodup
    · rw [hsim.pending_eq]
      rfl
  obtain ⟨next, hnext, reached, hreached, _, _, hfold, hsame, hless, _⟩ :=
    Loops.foldlM_ok invariant hbody _ _ hstart
  obtain rfl : reached = tasks.skipPass progress := hfold
  refine ⟨next, hnext, hreached, ?_⟩
  constructor
  · intro hflag heq
    exact absurd (congrArg List.length heq) (hless hflag).ne
  · intro hne
    by_contra hflag
    exact hne (hsame (Bool.not_eq_true _ ▸ hflag))

/-- The readiness test never raises and finds the abstract ready tasks. -/
theorem Simulates.readyStepIds (hsim : Simulates env calls [] caseStatus state progress)
    (hnodup : (calls.map ToolPlanCall.stepId).Nodup) :
    AgentRuntime.readyStepIds calls state = .ok ((planTasks env calls hnodup).ready progress) := by
  obtain ⟨entries, hentries, hkeys, hdeps⟩ : ∃ entries,
      state.pending.mapM (withCall calls) = .ok entries ∧
      entries.map Prod.fst = state.pending.map id ∧
      ∀ entry ∈ entries, entry.2.dependsOn = dependenciesOf calls entry.1 := by
    refine Loops.mapM_keyed fun stepId hmem => ?_
    rw [hsim.pending_eq] at hmem
    obtain ⟨call, hcall⟩ := hsim.lookup_call hmem
    refine ⟨(stepId, call), ?_, rfl, (dependenciesOf_eq hcall).symm⟩
    rw [withCall, callFor_eq hcall]
    rfl
  have hfilter : (entries.filter fun entry =>
        entry.2.dependsOn.all (· ∈ state.finished)).map Prod.fst =
      (entries.map Prod.fst).filter fun stepId =>
        (dependenciesOf calls stepId).all (· ∈ state.finished) := by
    rw [List.filter_map]
    refine congrArg _ (List.filter_congr fun entry hmem => ?_)
    rw [hdeps entry hmem]
    rfl
  rw [AgentRuntime.readyStepIds, hentries]
  simp only [bind, Except.bind, pure, Except.pure]
  rw [hfilter, hkeys, List.map_id, hsim.pending_eq, hsim.finished_eq]
  rfl

/-- Giving up closes every pending step. -/
theorem Simulates.giveUp (hsim : Simulates env calls [] caseStatus state progress)
    (hnodup : (calls.map ToolPlanCall.stepId).Nodup) :
    ∃ next, state.pending.foldlM
        (AgentRuntime.skipStep calls .unresolved (py "DEPENDENCY_CYCLE")
          unresolvedMessage) state = .ok next ∧
      Simulates env calls [] caseStatus next
        ((planTasks env calls hnodup).giveUp progress) := by
  let tasks := planTasks env calls hnodup
  let invariant (rest : List PyStr) (current : RunState) : Prop :=
    ∃ reached, Simulates env calls [] caseStatus current reached ∧
      (∀ stepId ∈ rest, stepId ∈ reached.pending) ∧ rest.Nodup ∧
      reached.closeAll Event.unresolved tasks.required rest = tasks.giveUp progress
  have hbody : ∀ stepId rest current, invariant (stepId :: rest) current →
      ∃ next, AgentRuntime.skipStep calls .unresolved (py "DEPENDENCY_CYCLE")
          unresolvedMessage current stepId = .ok next ∧ invariant rest next := by
    rintro stepId rest current ⟨reached, hreached, hrest, hrestNodup, hclose⟩
    obtain ⟨hnotMem, hrestNodup⟩ := List.nodup_cons.mp hrestNodup
    obtain ⟨next, hnext, _, hnextSim⟩ := hreached.skipStep
      (hrest stepId List.mem_cons_self) RunEvent.unresolved Event.unresolved
      (fun _ => rfl) (fun _ => rfl) (fun _ => trivial) (fun _ => rfl)
      (fun _ => rfl) (py "DEPENDENCY_CYCLE") unresolvedMessage
    refine ⟨next, hnext, _, hnextSim, ?_, hrestNodup, hclose⟩
    intro other hother
    refine (Progress.mem_close_pending _ _ hreached.pending_nodup _ _).mpr
      ⟨?_, hrest other (List.mem_cons_of_mem _ hother)⟩
    rintro rfl
    exact hnotMem hother
  have hstart : invariant state.pending state := by
    refine ⟨progress, hsim, ?_, ?_, ?_⟩
    · intro stepId hmem
      rwa [← hsim.pending_eq]
    · rw [hsim.pending_eq]
      exact hsim.pending_nodup
    · rw [hsim.pending_eq]
      rfl
  obtain ⟨next, hnext, reached, hreached, _, _, hclose⟩ :=
    Loops.foldlM_ok invariant hbody _ _ hstart
  obtain rfl : reached = tasks.giveUp progress := hclose
  exact ⟨next, hnext, hreached⟩

variable {ready : List PyStr}

/-- Starting the ready steps. -/
theorem Simulates.startReady (hsim : Simulates env calls [] caseStatus state progress)
    (hready : ∀ stepId ∈ ready, stepId ∈ progress.pending) (hreadyNodup : ready.Nodup) :
    ∃ next, ready.foldlM (setStepStatus .running) state = .ok next ∧
      Simulates env calls ready caseStatus next progress := by
  let invariant (rest : List PyStr) (current : RunState) : Prop :=
    ∃ started, started ++ rest = ready ∧
      Simulates env calls started caseStatus current progress
  have hbody : ∀ stepId rest current, invariant (stepId :: rest) current →
      ∃ next, setStepStatus .running current stepId = .ok next ∧ invariant rest next := by
    rintro stepId rest current ⟨started, hsplit, hcurrent⟩
    have hmem : stepId ∈ ready := by
      rw [← hsplit]
      simp
    have hwaiting : stepId ∉ started := by
      rw [← hsplit] at hreadyNodup
      intro hstarted
      exact (List.nodup_append.mp hreadyNodup).2.2 _ hstarted _ List.mem_cons_self rfl
    obtain ⟨next, hnext, hnextSim⟩ := hcurrent.setRunning (hready stepId hmem) hwaiting
    exact ⟨next, hnext, started ++ [stepId], by simpa using hsplit, hnextSim⟩
  obtain ⟨next, hnext, started, hsplit, hnextSim⟩ :=
    Loops.foldlM_ok invariant hbody ready state ⟨[], rfl, hsim⟩
  rw [List.append_nil] at hsplit
  exact ⟨next, hnext, hsplit ▸ hnextSim⟩

/-- Filling in the arguments of the ready steps. -/
theorem Simulates.enrichReady {inFlight : List PyStr}
    (hsim : Simulates env calls inFlight caseStatus state progress)
    (hready : ∀ stepId ∈ ready, stepId ∈ progress.pending) (outputs : Dict PyStr Fields) :
    ∃ next, ready.foldlM (AgentRuntime.enrichRequest env outputs) state = .ok next ∧
      Simulates env calls inFlight caseStatus next progress := by
  let invariant (rest : List PyStr) (current : RunState) : Prop :=
    (∀ stepId ∈ rest, stepId ∈ progress.pending) ∧
      Simulates env calls inFlight caseStatus current progress
  have hbody : ∀ stepId rest current, invariant (stepId :: rest) current →
      ∃ next, AgentRuntime.enrichRequest env outputs current stepId = .ok next ∧
        invariant rest next := by
    rintro stepId rest current ⟨hrest, hcurrent⟩
    obtain ⟨next, hnext, hnextSim⟩ :=
      hcurrent.enrichRequest (hrest stepId List.mem_cons_self) outputs
    exact ⟨next, hnext, fun other hother => hrest other (List.mem_cons_of_mem _ hother), hnextSim⟩
  obtain ⟨next, hnext, _, hnextSim⟩ := Loops.foldlM_ok invariant hbody ready state ⟨hready, hsim⟩
  exact ⟨next, hnext, hnextSim⟩

/-- The requests of the ready steps, in their order. -/
theorem Simulates.readyRequests {inFlight : List PyStr}
    (hsim : Simulates env calls inFlight caseStatus state progress)
    (hready : ∀ stepId ∈ ready, stepId ∈ progress.pending) :
    ∃ requests, ready.mapM (requestFor state) = .ok requests ∧ requests.map requestKey = ready := by
  obtain ⟨requests, hrequests, hkeys, _⟩ : ∃ requests,
      ready.mapM (requestFor state) = .ok requests ∧
      requests.map requestKey = ready.map id ∧ ∀ request ∈ requests, True := by
    refine Loops.mapM_keyed fun stepId hmem => ?_
    obtain ⟨request, hrequest, hkey⟩ := hsim.lookup_request (hready stepId hmem)
    exact ⟨request, requestFor_eq hrequest, hkey, trivial⟩
  exact ⟨requests, hrequests, by rw [hkeys, List.map_id]⟩

/-- Handing a batch to the tool call loop. -/
theorem Simulates.hand {inFlight : List PyStr}
    (hsim : Simulates env calls inFlight caseStatus state progress)
    (requests : List ToolCallRequest) :
    Simulates env calls inFlight caseStatus
      { state with history := state.history ++ requests.map .handed }
      { progress with
        events := progress.events ++ (requests.map requestKey).map .handed } := by
  have htasks : (requests.map RunEvent.handed).filterMap RunEvent.task =
      (requests.map requestKey).map Event.handed := by
    induction requests with
    | nil => rfl
    | cons request requests ih =>
      rw [List.map_cons, List.filterMap_cons, List.map_cons, List.map_cons, ← ih]
      rfl
  have htraces : (requests.map RunEvent.handed).filterMap RunEvent.trace = [] := by
    simp [List.filterMap_map, Function.comp_def, RunEvent.trace]
  have hclosed : Progress.closed { progress with
      events := progress.events ++ (requests.map requestKey).map .handed } = progress.closed := by
    rw [Progress.closed, List.filterMap_append, Event.filterMap_closes_handed,
      List.append_nil, Progress.closed]
  have hreturned : Progress.returned { progress with
      events := progress.events ++ (requests.map requestKey).map .handed } = progress.returned := by
    rw [Progress.returned, List.filterMap_append,
      Event.filterMap_returnedTask_handed, List.append_nil, Progress.returned]
  exact { hsim with
    events_eq := by rw [List.filterMap_append, hsim.events_eq, htasks]
    traces_eq := by
      rw [List.filterMap_append, htraces, List.append_nil, hsim.traces_eq]
    trace_ids := by rw [hclosed, hsim.trace_ids]
    step_status := by
      intro stepId step hstep
      rw [hsim.step_status stepId step hstep, loopStatus, loopStatus, hreturned]
    record_eq := by
      intro stepId
      rw [hreturned]
      exact hsim.record_eq stepId
    legal := by
      intro event hevent
      rcases List.mem_append.mp hevent with hold | hnew
      · exact hsim.legal event hold
      · obtain ⟨request, _, rfl⟩ := List.mem_map.mp hnew
        trivial
    not_returned := by
      intro stepId hmem
      rw [hreturned]
      exact hsim.not_returned stepId hmem }

/-- Once every step in flight is closed, nothing is in flight. -/
theorem Simulates.land {inFlight : List PyStr}
    (hsim : Simulates env calls inFlight caseStatus state progress)
    (hclosed : ∀ stepId ∈ inFlight, stepId ∉ progress.pending) :
    Simulates env calls [] caseStatus state progress :=
  { hsim with
    step_status := by
      intro stepId step hstep
      rw [hsim.step_status stepId step hstep, loopStatus, loopStatus]
      by_cases hpending : stepId ∈ progress.pending
      · rw [if_pos hpending, if_pos hpending,
          if_neg fun hmem => hclosed stepId hmem hpending, if_neg List.not_mem_nil]
      · rw [if_neg hpending, if_neg hpending] }

/-- Collecting the records of a batch closes the batch. -/
theorem Simulates.collectRecords {inFlight : List PyStr}
    (hsim : Simulates env calls inFlight caseStatus state progress)
    (hnodup : (calls.map ToolPlanCall.stepId).Nodup) (records : List ToolCallExecution)
    (hrecords : ∀ record ∈ records, record.result = env.answer record.request.stepId ∧
      record.trace.stepId = record.request.stepId.val ∧
      record.request.stepId.val ∈ inFlight ∧
      record.request.stepId.val ∈ progress.pending)
    (hdistinct : (records.map fun record => requestKey record.request).Nodup) :
    ∃ next, records.foldlM (AgentRuntime.collectRecord calls) state = .ok next ∧
      Simulates env calls inFlight caseStatus next
        (progress.closeAll Event.returned (planTasks env calls hnodup).failing
          (records.map fun record => requestKey record.request)) := by
  induction records generalizing state progress with
  | nil => exact ⟨state, rfl, hsim⟩
  | cons record records ih =>
    obtain ⟨hresult, htrace, hflight, hpending⟩ := hrecords record List.mem_cons_self
    obtain ⟨hnotMem, hrestDistinct⟩ := List.nodup_cons.mp hdistinct
    have hblocks : (planTasks env calls hnodup).failing record.request.stepId.val =
        (!record.result.ok && requiredOf calls record.request.stepId.val) := by
      rw [hresult, ← okOf_eq]
      rfl
    obtain ⟨next, hnext, hnextSim⟩ := hsim.collectRecord hpending hresult htrace hflight _ hblocks
    obtain ⟨final, hfinal, hfinalSim⟩ := ih hnextSim (by
      intro other hother
      obtain ⟨hresult, htrace, hflight, hotherPending⟩ :=
        hrecords other (List.mem_cons_of_mem _ hother)
      refine ⟨hresult, htrace, hflight, ?_⟩
      refine (Progress.mem_close_pending _ _ hsim.pending_nodup _ _).mpr ⟨?_, hotherPending⟩
      intro heq
      exact hnotMem (List.mem_map.mpr ⟨other, hother, heq⟩)) hrestDistinct
    refine ⟨final, ?_, hfinalSim⟩
    rw [List.foldlM_cons, hnext]
    exact hfinal

/-- Running the ready steps is one abstract batch, and the case is running
afterwards. -/
theorem Simulates.runReady (hsim : Simulates env calls [] caseStatus state progress)
    (hcase : caseStatus = .planned ∨ caseStatus = .running)
    (hready : ∀ stepId ∈ ready, stepId ∈ progress.pending) (hreadyNodup : ready.Nodup) :
    ∃ next, AgentRuntime.runReady env calls ready state = .ok next ∧
      Simulates env calls [] .running next
        ((planTasks env calls hnodup).runBatch progress ready) := by
  obtain ⟨started, hstarted, hstartedSim⟩ := hsim.startReady hready hreadyNodup
  obtain ⟨running, hrunning, hrunningSim⟩ := hstartedSim.startCase hcase
  obtain ⟨enriched, henriched, henrichedSim⟩ := hrunningSim.enrichReady hready
    (completedStepOutputs running.records)
  obtain ⟨requests, hrequests, hkeys⟩ := henrichedSim.readyRequests hready
  set records := executeRecords env.contentPreview
    (fun request => env.answer request.stepId) (executionMetadata calls) requests
    with hrecordsDef
  have hrecordKeys :
      (records.map fun record => requestKey record.request) = ready := by
    rw [hrecordsDef, executeRecords, List.map_map]
    exact hkeys
  have hhanded := henrichedSim.hand requests
  obtain ⟨next, hnext, hnextSim⟩ := hhanded.collectRecords hnodup records (by
      intro record hrecord
      have hmem : requestKey record.request ∈ ready := by
        rw [← hrecordKeys]
        exact List.mem_map_of_mem hrecord
      obtain ⟨request, _, rfl⟩ := List.mem_map.mp hrecord
      exact ⟨rfl, rfl, hmem, hready _ hmem⟩)
    (hrecordKeys ▸ hreadyNodup)
  rw [hrecordKeys, hkeys] at hnextSim
  refine ⟨next, ?_, hnextSim.land ?_⟩
  · rw [AgentRuntime.runReady, hstarted]
    simp only [bind, Except.bind, hrunning, henriched, hrequests]
    exact hnext
  · intro stepId hmem hin
    refine ((Progress.mem_closeAll_pending _ _ ?_ _ _).mp hin).2 hmem
    exact hsim.pending_nodup

/-- The status of the case between waves. -/
def caseStatusOf (progress : Progress PyStr) : CaseStatus :=
  if progress.handed = [] then .planned else .running

theorem caseStatusOf_cases (progress : Progress PyStr) :
    caseStatusOf progress = .planned ∨ caseStatusOf progress = .running := by
  rw [caseStatusOf]
  split
  · exact Or.inl rfl
  · exact Or.inr rfl

theorem caseStatusOf_closeAll {event : PyStr → Event PyStr} {blocks : PyStr → Bool}
    (hevent : ∀ stepId, (event stepId).handedTask = none) (group : List PyStr) :
    caseStatusOf (progress.closeAll event blocks group) = caseStatusOf progress := by
  have hhanded : (progress.closeAll event blocks group).handed = progress.handed := by
    rw [Progress.handed, Progress.closeAll_events, List.filterMap_append, List.filterMap_map]
    simp [hevent, Progress.handed]
  rw [caseStatusOf, hhanded, caseStatusOf]

theorem caseStatusOf_runBatch (tasks : Tasks PyStr) {batch : List PyStr} (hbatch : batch ≠ []) :
    caseStatusOf (tasks.runBatch progress batch) = .running := by
  rw [caseStatusOf, if_neg]
  rw [Progress.handed, Tasks.runBatch, Progress.closeAll_events]
  obtain ⟨stepId, rest, rfl⟩ := List.exists_cons_of_ne_nil hbatch
  simp [Event.handedTask]

/-- One turn of the loop is one abstract wave and raises nothing. -/
theorem Simulates.runWave (hsim : Simulates env calls [] (caseStatusOf progress) state progress)
    (hnodup : (calls.map ToolPlanCall.stepId).Nodup) :
    ∃ next, AgentRuntime.runWave env calls state = .ok next ∧
      Simulates env calls [] (caseStatusOf ((planTasks env calls hnodup).wave progress))
        next ((planTasks env calls hnodup).wave progress) := by
  let tasks := planTasks env calls hnodup
  obtain ⟨passed, hpassed, hpassedSim, hflag⟩ := hsim.skipPass hnodup
  have hready := hpassedSim.readyStepIds hnodup
  have hpassCase : caseStatusOf progress = caseStatusOf (tasks.skipPass progress) := by
    rw [Tasks.skipPass_eq, caseStatusOf_closeAll fun _ => rfl]
  rw [hpassCase] at hpassedSim
  rw [AgentRuntime.runWave, hpassed]
  simp only [bind, Except.bind, hready, pure, Except.pure, Tasks.wave]
  by_cases hnone : tasks.ready (tasks.skipPass progress) = []
  · rw [if_pos hnone, if_pos hnone]
    by_cases hskipped : passed.skippedThisWave = true
    · rw [if_pos hskipped, if_neg (hflag.mp hskipped)]
      exact ⟨passed, rfl, hpassedSim⟩
    · rw [if_neg hskipped, if_pos (not_not.mp (mt hflag.mpr hskipped))]
      obtain ⟨next, hnext, hnextSim⟩ := hpassedSim.giveUp hnodup
      refine ⟨next, hnext, ?_⟩
      rw [Tasks.giveUp, caseStatusOf_closeAll fun _ => rfl]
      exact hnextSim
  · rw [if_neg hnone, if_neg hnone, caseStatusOf_runBatch tasks hnone]
    exact hpassedSim.runReady (caseStatusOf_cases _)
      (fun stepId hmem => (List.mem_filter.mp hmem).1)
      (hpassedSim.pending_nodup.filter _)

/-- With a turn for each pending step the loop ends, without raising, where
the abstract run ends. -/
theorem Simulates.runWaves {fuel : ℕ}
    (hsim : Simulates env calls [] (caseStatusOf progress) state progress)
    (haccounted : (planTasks env calls hnodup).Accounted progress)
    (hfuel : progress.pending.length ≤ fuel) :
    ∃ final, AgentRuntime.runWaves env calls fuel state = some (.ok final) ∧
      Simulates env calls []
        (caseStatusOf ((planTasks env calls hnodup).wave^[fuel] progress)) final
        ((planTasks env calls hnodup).wave^[fuel] progress) := by
  induction fuel generalizing state progress with
  | zero =>
    have hpending : state.pending = [] := by
      rw [hsim.pending_eq]
      exact List.eq_nil_of_length_eq_zero (by omega)
    refine ⟨state, ?_, hsim⟩
    rw [AgentRuntime.runWaves, if_pos hpending]
  | succ fuel ih =>
    by_cases hpending : progress.pending = []
    · rw [Tasks.iterate_of_pending_nil _ hpending]
      refine ⟨state, ?_, hsim⟩
      rw [AgentRuntime.runWaves, hsim.pending_eq, if_pos hpending]
    · obtain ⟨next, hnext, hnextSim⟩ := hsim.runWave hnodup
      have hlt := haccounted.wave_pending_lt hpending
      obtain ⟨final, hfinal, hfinalSim⟩ := ih hnextSim haccounted.wave (by omega)
      refine ⟨final, ?_, by rwa [Function.iterate_succ_apply]⟩
      rw [AgentRuntime.runWaves, hsim.pending_eq, if_neg hpending, hnext]
      exact hfinal

end Wave

end RootSeeker.AgentRuntime
