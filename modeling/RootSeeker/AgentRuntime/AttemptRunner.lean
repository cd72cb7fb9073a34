import RootSeeker.AgentRuntime.ToolCallLoop
import RootSeeker.Contracts.Report
import RootSeeker.Core.KeyedList
import RootSeeker.Core.Loops

/-!
# Running an LLM tool plan

A planned run turns each call of the plan into a step of a case, executes the
steps in waves that respect the declared dependencies, settles every step from
its record, and stores the case, its evidence and its report.  Every status
change goes through the frozen state machine; a change that is not allowed
raises and ends the run.
-/

namespace RootSeeker.AgentRuntime

open Python Contracts KeyedList

/-- What a run does, in the order of happening.  The run itself keeps the
traces only; the history also shows status changes and the batches handed to
the tool call loop. -/
inductive RunEvent where
  | caseStatus (old new : CaseStatus)
  | stepStatus (stepId : PyStr) (old new : StepStatus)
  | skipped (trace : ToolExecutionTrace)
  | unresolved (trace : ToolExecutionTrace)
  | handed (request : ToolCallRequest)
  | returned (record : ToolCallExecution)
  | notified (record : ToolCallExecution)

structure ReportBody where
  summary : PyStr
  rootCause : Option RootCauseConclusion
  metadata : Fields

structure RuntimeStores where
  cases : Dict RequiredStr CaseRecord
  packs : Dict RequiredStr EvidencePack
  reports : Dict RequiredStr CaseReport

namespace RuntimeStores

def putCase (stores : RuntimeStores) (case : CaseRecord) : RuntimeStores :=
  { stores with cases := stores.cases.set case.caseId case }

def putPack (stores : RuntimeStores) (pack : EvidencePack) : RuntimeStores :=
  { stores with packs := stores.packs.set pack.caseId pack }

def putReport (stores : RuntimeStores) (report : CaseReport) : RuntimeStores :=
  { stores with reports := stores.reports.set report.caseId report }

end RuntimeStores

/-- What a run gets from the rest of the system: fresh ids, the gateway's
answers, and the functions that fill in arguments, trim results and draw
conclusions.  A step is executed at most once, so an answer for each step id
covers every behaviour of the tools. -/
structure Collaborators where
  caseId : RequiredStr
  attemptId : PyStr
  itemId : ℕ → RequiredStr
  answer : RequiredStr → ToolCallResult
  notifyAnswer : ToolCallResult
  enrichToolArguments : PyStr → Fields → Dict PyStr Fields → Fields
  contentPreview : Fields → Fields
  sanitizeForPersistence : Mapping → Fields
  sanitizeForEvidence : PyStr → Mapping → Mapping
  summarizeEvidence : CaseRecord → Dict PyStr ToolCallExecution → PyStr
  analyze : PyStr → EvidencePack → Option PyStr → ReportBody
  notifyArguments : CaseReport → Mapping

/-- The allowed tool names are the stripped non-empty names that the playbook
and its helpers bind. -/
structure RunInput where
  caseRequest : CaseCreateRequest
  skillSlug : RequiredStr
  routeMode : PyStr
  allowedToolNames : List RequiredStr
  planResult : ToolPlanResult
  stores : RuntimeStores

structure AttemptResult where
  attemptId : PyStr
  caseId : PyStr
  status : PyStr
  toolTraces : List ToolExecutionTrace
  metadata : Fields

/-- A finished run: its result, the case as stored, and what it left behind. -/
structure RunOutcome where
  result : AttemptResult
  case : CaseRecord
  stores : RuntimeStores
  history : List RunEvent

structure RunState where
  case : CaseRecord
  requests : List ToolCallRequest
  records : Dict PyStr ToolCallExecution
  toolTraces : List ToolExecutionTrace
  blocking : Finset PyStr
  finished : Finset PyStr
  pending : List PyStr
  skippedThisWave : Bool
  history : List RunEvent

def stepKey (step : CaseStep) : PyStr := step.stepId.val

def requestKey (request : ToolCallRequest) : PyStr := request.stepId.val

def withStatus (new : StepStatus) (step : CaseStep) : CaseStep :=
  { step with status := new }

def withInputs (arguments : Fields) (step : CaseStep) : CaseStep :=
  { step with inputs := arguments }

def withOutputs (outputs : Fields) (step : CaseStep) : CaseStep :=
  { step with outputs := outputs }

def withArguments (arguments : Fields) (request : ToolCallRequest) :
    ToolCallRequest :=
  { request with arguments := arguments }

@[simp]
theorem stepKey_withStatus (new : StepStatus) (step : CaseStep) :
    stepKey (withStatus new step) = stepKey step := rfl

@[simp]
theorem stepKey_withInputs (arguments : Fields) (step : CaseStep) :
    stepKey (withInputs arguments step) = stepKey step := rfl

@[simp]
theorem requestKey_withArguments (arguments : Fields) (request : ToolCallRequest) :
    requestKey (withArguments arguments request) = requestKey request := rfl

/-- `list.remove`, which raises if the item is missing. -/
def listRemove {α : Type*} [DecidableEq α] (items : List α) (item : α) :
    Except PyError (List α) :=
  if item ∈ items then .ok (items.erase item)
  else .error (.valueError (py "list.remove(x): x not in list"))

/-! ## Building the case -/

def postReportToolNames : List PyStr := [py "notify.send"]

def remainingCalls (plan : ToolPlan) : List ToolPlanCall :=
  plan.toolCalls.filter (·.toolName ∉ postReportToolNames)

def withoutPostReportTools (planResult : ToolPlanResult) : ToolPlanResult :=
  { planResult with
    plan := planResult.plan.map fun plan =>
      { plan with toolCalls := remainingCalls plan } }

def buildStep (skillSlug : RequiredStr) (call : ToolPlanCall) :
    Except PyError CaseStep := do
  let stepId ← RequiredStr.validate call.stepId
  let name ← RequiredStr.validate (py "LLM planned " ++ call.toolName)
  let action ← RequiredStr.validate call.toolName
  let inputs ← Mapping.validate call.arguments
  return {
    stepId := stepId
    name := name
    skillName := skillSlug
    action := action
    status := .pending
    toolName := some call.toolName
    inputs := inputs.val
    outputs := [] }

section Run

variable (env : Collaborators) (input : RunInput)

/-- `_transition_case_status`. -/
def transitionCaseStatus (case : CaseRecord) (new : CaseStatus) :
    Except PyError (CaseRecord × RunEvent) := do
  validateCaseTransition case.status new
  return ({ case with status := new }, .caseStatus case.status new)

/-- `_transition_step_status`. -/
def transitionStepStatus (step : CaseStep) (new : StepStatus) :
    Except PyError (CaseStep × RunEvent) := do
  validateStepTransition step.status new
  return (withStatus new step,
    .stepStatus step.stepId.val step.status new)

def buildCaseFromPlan (planResult : ToolPlanResult)
    (calls : List ToolPlanCall) : Except PyError (CaseRecord × RunEvent) := do
  let steps ← calls.mapM (buildStep input.skillSlug)
  transitionCaseStatus
    { caseId := env.caseId
      title := input.caseRequest.title
      symptom := input.caseRequest.symptom
      serviceName := input.caseRequest.serviceName
      source := input.caseRequest.source
      status := .pending
      selectedSkills := [input.skillSlug.val]
      steps := steps
      metadata := input.caseRequest.metadata.val.update
        [(py "agent_route", .str (py "llm_tool_plan")),
          (py "llm_tool_plan", .obj planResult.toPayload),
          (py "llm_tool_plan_calls",
            .arr (calls.map fun call => .obj call.toPayload))] }
    .planned

def buildRequest (case : CaseRecord) (step : CaseStep) :
    Except PyError ToolCallRequest := do
  let toolName ← RequiredStr.validate ((step.toolName.filter (· ≠ [])).getD step.action.val)
  let arguments ← Mapping.validate step.inputs
  return {
    caseId := case.caseId
    stepId := step.stepId
    skillName := step.skillName
    toolName := toolName
    arguments := arguments.val }

/-! ## The wave loop -/

section Waves

variable (calls : List ToolPlanCall)

/-- `calls_by_step_id[step_id]`. -/
def callFor (stepId : PyStr) : Except PyError ToolPlanCall :=
  match lookup ToolPlanCall.stepId stepId calls with
  | some call => .ok call
  | none => .error (.keyError stepId)

def stepFor (state : RunState) (stepId : PyStr) : Except PyError CaseStep :=
  match lookup stepKey stepId state.case.steps with
  | some step => .ok step
  | none => .error (.keyError stepId)

def requestFor (state : RunState) (stepId : PyStr) :
    Except PyError ToolCallRequest :=
  match lookup requestKey stepId state.requests with
  | some request => .ok request
  | none => .error (.keyError stepId)

/-- Change the status of a pending step in place. -/
def setStepStatus (new : StepStatus) (state : RunState) (stepId : PyStr) :
    Except PyError RunState := do
  let step ← stepFor state stepId
  let (_, event) ← transitionStepStatus step new
  return { state with
    case := { state.case with
      steps := modify stepKey stepId (withStatus new) state.case.steps }
    history := state.history ++ [event] }

/-- Close one pending step without executing it.  The skip pass and the last
resort for unresolvable steps differ in their event and error only. -/
def skipStep (event : ToolExecutionTrace → RunEvent)
    (errorCode errorMessage : PyStr) (state : RunState) (stepId : PyStr) :
    Except PyError RunState := do
  let call ← callFor calls stepId
  let step ← stepFor state stepId
  let request ← requestFor state stepId
  let state ← setStepStatus .skipped state stepId
  let trace : ToolExecutionTrace := {
    stepId := step.stepId.val
    toolName := request.toolName.val
    ok := false
    latencyMs := 0
    contentPreview := []
    errorCode := some errorCode
    errorMessage := some errorMessage
    planMetadata := call.toExecutionMetadata }
  let pending ← listRemove state.pending stepId
  return { state with
    toolTraces := state.toolTraces ++ [trace]
    finished := insert stepId state.finished
    pending := pending
    blocking := if call.required then insert stepId state.blocking
      else state.blocking
    history := state.history ++ [event trace] }

def dependencyFailedMessage (blocked : List PyStr) : PyStr :=
  py "Skipped because dependency steps failed or were skipped: " ++
    join (py ", ") blocked

def unresolvedMessage : PyStr :=
  py "Skipped because tool plan dependencies could not be resolved."

/-- One turn of the skip pass. -/
def visitPending (state : RunState) (stepId : PyStr) :
    Except PyError RunState := do
  let call ← callFor calls stepId
  let blocked := call.dependsOn.filter (· ∈ state.blocking)
  if blocked = [] then
    return state
  else
    let state ← skipStep calls .skipped (py "DEPENDENCY_FAILED")
      (dependencyFailedMessage blocked) state stepId
    return { state with skippedThisWave := true }

def withCall (stepId : PyStr) : Except PyError (PyStr × ToolPlanCall) := do
  let call ← callFor calls stepId
  return (stepId, call)

def readyStepIds (state : RunState) : Except PyError (List PyStr) := do
  let pendingCalls ← state.pending.mapM (withCall calls)
  return (pendingCalls.filter fun entry =>
    entry.2.dependsOn.all (· ∈ state.finished)).map Prod.fst

def completedStepOutputs (records : Dict PyStr ToolCallExecution) :
    Dict PyStr Fields :=
  records.map fun entry => (entry.1, entry.2.result.content.val)

/-- Fill in the arguments of one ready request from earlier outputs. -/
def enrichRequest (outputs : Dict PyStr Fields) (state : RunState)
    (stepId : PyStr) : Except PyError RunState := do
  let request ← requestFor state stepId
  let arguments := env.enrichToolArguments request.toolName.val request.arguments outputs
  return { state with
    requests := modify requestKey stepId (withArguments arguments) state.requests
    case := { state.case with
      steps := modify stepKey stepId (withInputs arguments) state.case.steps } }

def collectRecord (state : RunState) (record : ToolCallExecution) :
    Except PyError RunState := do
  let stepId := record.request.stepId.val
  let call ← callFor calls stepId
  let pending ← listRemove state.pending stepId
  return { state with
    records := state.records.set stepId record
    toolTraces := state.toolTraces ++ [record.trace]
    finished := insert stepId state.finished
    pending := pending
    blocking := if !record.result.ok && call.required then
      insert stepId state.blocking else state.blocking
    history := state.history ++ [.returned record] }

def executionMetadata (stepId : PyStr) : Fields :=
  match lookup ToolPlanCall.stepId stepId calls with
  | some call => call.toExecutionMetadata
  | none => []

/-- The first executed wave starts the case. -/
def startCase (state : RunState) : Except PyError RunState :=
  if state.case.status = .planned then do
    let (case, event) ← transitionCaseStatus state.case .running
    return { state with case := case, history := state.history ++ [event] }
  else .ok state

/-- Start the ready steps, hand their requests to the tool call loop and
collect the records. -/
def runReady (ready : List PyStr) (state : RunState) :
    Except PyError RunState := do
  let state ← ready.foldlM (setStepStatus .running) state
  let state ← startCase state
  let state ← ready.foldlM (enrichRequest env (completedStepOutputs state.records)) state
  let readyRequests ← ready.mapM (requestFor state)
  let records := executeRecords env.contentPreview
    (fun request => env.answer request.stepId) (executionMetadata calls)
    readyRequests
  records.foldlM (collectRecord calls)
    { state with history := state.history ++ readyRequests.map .handed }

/-- One turn of `while pending_step_ids`. -/
def runWave (state : RunState) : Except PyError RunState := do
  let state ← state.pending.foldlM (visitPending calls) { state with skippedThisWave := false }
  let ready ← readyStepIds calls state
  if ready = [] then
    if state.skippedThisWave then
      return state
    else
      state.pending.foldlM
        (skipStep calls .unresolved (py "DEPENDENCY_CYCLE") unresolvedMessage)
        state
  else
    runReady env calls ready state

/-- The loop, for at most `fuel` turns; `none` means that it is still running. -/
def runWaves : ℕ → RunState → Option (Except PyError RunState)
  | fuel, state =>
    if state.pending = [] then some (.ok state)
    else
      match fuel with
      | 0 => none
      | fuel + 1 =>
        match runWave env calls state with
        | .ok next => runWaves fuel next
        | .error error => some (.error error)

end Waves

/-! ## Settling the steps -/

structure Settled where
  steps : List CaseStep
  pack : EvidencePack
  history : List RunEvent

def evidenceTypeForTool (toolName : PyStr) : EvidenceType :=
  if (py "log.").isPrefixOf toolName then .log
  else if (py "trace.").isPrefixOf toolName then .trace
  else if (py "code.").isPrefixOf toolName then .code
  else if (py "catalog.").isPrefixOf toolName then .serviceCatalog
  else .other

def isFalse : Option Json → Bool
  | some (.bool false) => true
  | _ => false

def toolContentUnconfigured (content : Fields) : Bool :=
  isFalse (content.get? (py "configured")) ||
    match content.get? (py "metadata") with
    | some (.obj metadata) => isFalse (Dict.get? metadata (py "configured"))
    | _ => false

def appendToolJsonEvidence (pack : EvidencePack) (toolName : RequiredStr)
    (content : Mapping) : EvidencePack :=
  { pack with
    items := pack.items ++
      [{ itemId := env.itemId pack.items.length
         type := evidenceTypeForTool toolName.val
         source := toolName
         content := content }] }

/-- A successful result with usable content adds one item of evidence. -/
def collectEvidence (pack : EvidencePack) (result : ToolCallResult) :
    EvidencePack :=
  if result.ok && !toolContentUnconfigured result.content.val then
    appendToolJsonEvidence env pack result.toolName
      (env.sanitizeForEvidence result.toolName.val result.content)
  else pack

/-- Settle one step from its record, if it has one. -/
def settleStep (records : Dict PyStr ToolCallExecution) (settled : Settled)
    (step : CaseStep) : Except PyError Settled :=
  match records.get? step.stepId.val with
  | none => .ok { settled with steps := settled.steps ++ [step] }
  | some record => do
    let (step, event) ← transitionStepStatus
      (withOutputs (env.sanitizeForPersistence record.result.content) step)
      (if record.result.ok then .completed else .failed)
    return {
      steps := settled.steps ++ [step]
      pack := collectEvidence env settled.pack record.result
      history := settled.history ++ [event] }

def requiredStepFailed (calls : List ToolPlanCall) (step : CaseStep) :
    Except PyError Bool :=
  if step.status = .failed ∨ step.status = .skipped then do
    let call ← callFor calls step.stepId.val
    return call.required
  else .ok false

def settleSteps (state : RunState) : Except PyError Settled :=
  state.case.steps.foldlM (settleStep env state.records)
    { steps := []
      pack := { caseId := state.case.caseId, items := [], summary := [] }
      history := state.history }

/-- Settle all steps, summarise the evidence and end the case. -/
def settleCase (calls : List ToolPlanCall) (state : RunState) :
    Except PyError (CaseRecord × EvidencePack × List RunEvent) := do
  let settled ← settleSteps env state
  let case := { state.case with steps := settled.steps }
  let pack := { settled.pack with
    summary := env.summarizeEvidence case state.records }
  let failed ← case.steps.anyM (requiredStepFailed calls)
  let (case, event) ← transitionCaseStatus case (if failed then .failed else .completed)
  return (case, pack, settled.history ++ [event])

/-! ## The whole run -/

def buildCaseReport (caseId title : RequiredStr) (pack : EvidencePack)
    (serviceName : Option PyStr) : CaseReport :=
  let body := env.analyze title.val pack serviceName
  { caseId := caseId
    title := title
    summary := body.summary
    rootCause := body.rootCause
    evidenceItemIds := pack.items.map (·.itemId.val)
    metadata := body.metadata }

def notifyStepId : RequiredStr := .ofLiteral "notify" (by decide)

def notifyToolName : RequiredStr := .ofLiteral "notify.send" Fixture.notifySend

/-- The single record of the notification request. -/
def sendReportNotification (report : CaseReport) : ToolCallExecution :=
  let request : ToolCallRequest := {
    caseId := report.caseId
    stepId := notifyStepId
    skillName := input.skillSlug
    toolName := notifyToolName
    arguments := (env.notifyArguments report).val }
  { request := request
    result := env.notifyAnswer
    trace := traceFromResult env.contentPreview request.stepId.val
      env.notifyAnswer [(py "engine", .str (py "after_report"))] }

def notifyDispatchSkipped (record : Option ToolCallExecution) : Bool :=
  match record with
  | none => false
  | some record =>
    match record.result.content.val.get? (py "metadata") with
    | some (.obj metadata) => ((Dict.get? metadata (py "skipped")).map Json.truthy).getD false
    | _ => false

def agentMetadata (planResult : ToolPlanResult) : Json :=
  .obj [(py "route_mode", .str input.routeMode), (py "tool_plan", .obj planResult.toPayload)]

/-- Everything after the wave loop. -/
def finishRun (planResult : ToolPlanResult) (calls : List ToolPlanCall)
    (state : RunState) : Except PyError RunOutcome := do
  let (case, pack, history) ← settleCase env calls state
  let stores := (input.stores.putCase case).putPack pack
  let report := buildCaseReport env case.caseId case.title pack (some case.serviceName.val)
  let notification :=
    if notifyToolName ∈ input.allowedToolNames then
      some (sendReportNotification env input report)
    else none
  let notifySkipped : Fields :=
    if notifyDispatchSkipped notification then
      [(py "notify_skipped", .bool true)] else []
  let metadata := (report.metadata.set (py "agent")
    (agentMetadata input planResult)).update notifySkipped
  let stores := stores.putReport { report with metadata := metadata }
  return {
    result := {
      attemptId := env.attemptId
      caseId := case.caseId.val
      status := if case.status = .failed then py "failed" else py "completed"
      toolTraces := state.toolTraces ++ (notification.map (·.trace)).toList
      metadata := [(py "skill_slug", .str input.skillSlug.val),
        (py "step_count", .int case.steps.length),
        (py "tool_plan", .obj planResult.toPayload)] ++ notifySkipped }
    case := case
    stores := stores
    history := history ++ (notification.map RunEvent.notified).toList }

/-- `_fail_attempt`: no step is planned, and a failed case is stored. -/
def failAttempt (errorCode reason : PyStr) (planPayload : Fields) :
    Except PyError RunOutcome := do
  if ¬Encodable reason then
    throw .validationError
  let case : CaseRecord := {
    caseId := env.caseId
    title := input.caseRequest.title
    symptom := input.caseRequest.symptom
    serviceName := input.caseRequest.serviceName
    source := input.caseRequest.source
    status := .failed
    selectedSkills := [input.skillSlug.val]
    steps := []
    metadata := input.caseRequest.metadata.val.update
      [(py "error_code", .str errorCode), (py "error", .str reason)] }
  let pack : EvidencePack := { caseId := env.caseId, items := [], summary := reason }
  let report := buildCaseReport env env.caseId input.caseRequest.title pack none
  let payload := planPayload.setDefault (py "error") (.str reason)
  return {
    result := {
      attemptId := env.attemptId
      caseId := env.caseId.val
      status := py "failed"
      toolTraces := []
      metadata := [(py "skill_slug", .str input.skillSlug.val), (py "step_count", .int 0),
        (py "tool_plan", .obj payload),
        (py "case_title", .str input.caseRequest.title.val),
        (py "error_code", .str errorCode)] }
    case := case
    stores := ((input.stores.putCase case).putPack pack).putReport
      { report with
        metadata := report.metadata.set (py "error_code") (.str errorCode) }
    history := [] }

/-- The state in which the wave loop starts. -/
def startRun (planResult : ToolPlanResult) (calls : List ToolPlanCall) :
    Except PyError RunState := do
  let (case, event) ← buildCaseFromPlan env input planResult calls
  let requests ← case.steps.mapM (buildRequest case)
  return {
    case := case
    requests := requests
    records := []
    toolTraces := []
    blocking := ∅
    finished := ∅
    pending := case.steps.map (·.stepId.val)
    skippedThisWave := false
    history := [event] }

/-- Build the case, run the waves and finish. -/
def runCalls (planResult : ToolPlanResult) (calls : List ToolPlanCall) (fuel : ℕ) :
    Option (Except PyError RunOutcome) :=
  match startRun env input planResult calls with
  | .error error => some (.error error)
  | .ok state =>
    (runWaves env calls fuel state).map fun waves =>
      waves >>= finishRun env input planResult calls

/-- `_run_llm_tool_plan` after the planner has answered.  The wave loop gets
`fuel` turns; `none` means that they were not enough. -/
def runLlmToolPlan (fuel : ℕ) : Option (Except PyError RunOutcome) :=
  match input.planResult.ok, input.planResult.plan with
  | true, some plan =>
    let disallowed := (plan.toolCalls.map ToolPlanCall.toolName).filter
      (· ∉ input.allowedToolNames.map (·.val))
    if disallowed ≠ [] then
      some (failAttempt env input (py "SKILL_TOOL_NOT_ALLOWED")
        (py "tool not allowed: " ++ join (py ", ") disallowed)
        input.planResult.toPayload)
    else
      runCalls env input (withoutPostReportTools input.planResult)
        (remainingCalls plan) fuel
  | _, _ =>
    some (failAttempt env input (py "SKILL_PLANNER_FAILED")
      ((input.planResult.error.filter (· ≠ [])).getD
        (py "llm planner returned no plan"))
      input.planResult.toPayload)

end Run

end RootSeeker.AgentRuntime
