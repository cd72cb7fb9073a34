import RootSeeker.AgentRuntime.ToolCallLoop
import RootSeeker.Contracts.Report
import RootSeeker.McpPlane.Gateway
import RootSeeker.Python.JsonText

/-!
# Supplementary tool calls

After the default flow a planner may ask for calls of external tools. Each call is passed to
the gateway, and a result that is ok is meant to become evidence.
-/

namespace RootSeeker.AgentRuntime

open Python Contracts McpPlane

/-! ## Which tools may be called -/

/-- The fields of a skill that are read here. -/
structure TaggedSkill where
  slug : RequiredStr
  tags : List PyStr
  metadata : Fields

def skillAllowsExternalMcp (std : Stdlib) : Option TaggedSkill → Bool
  | none => false
  | some skill =>
    ((skill.metadata.get? (py "allow_external_mcp")).map Json.truthy).getD false ||
      (skill.tags.map fun tag => lower std (strip tag)).contains (py "mcp")

def listExternalToolSpecs (registry : ToolRegistry) : List ToolSpec :=
  (registry.specs.map Prod.snd).filter (·.scope = .external)

/-! ## What the planner sees -/

def compactStepOutputs (std : Stdlib) (stepOutputs : Dict PyStr Fields) : Fields :=
  (stepOutputs.take 12).map fun step =>
    let text := dumps std (.obj step.2)
    (step.1, .str (if text.length > 1200 then text.take 1200 ++ py "..." else text))

def enrichCaseRequest (std : Stdlib) (caseRequest : CaseCreateRequest)
    (stepOutputs : Dict PyStr Fields) : Except PyError CaseCreateRequest := do
  let metadata ← Mapping.validate (caseRequest.metadata.val.set
    (py "flow_step_outputs_preview") (.obj (compactStepOutputs std stepOutputs)))
  pure { caseRequest with metadata }

def flowHistorySummary (stepOutputs : Dict PyStr Fields) : PyStr :=
  let fragments := (stepOutputs.keys.take 8).map (· ++ py " completed")
  if fragments = [] then [] else py "prior_flow=" ++ join (py ",") fragments

/-! ## `sanitize_tool_result_for_persistence` -/

def trimHits (content : Fields) : Fields :=
  match content.get? (py "hits") with
  | some (.arr hits) =>
    let total : Json := match content.get? (py "total") with
      | some (.int total) => .int total
      | some (.bool total) => .bool total
      | _ => .int hits.length
    let trimmed := if hits.length > 50 then
        ((content.set (py "hits") (.arr (hits.take 50))).set (py "truncated") (.bool true)).set
          (py "truncated_from") total
      else content
    trimmed.set (py "total") total
  | _ => content

def trimItems (content : Fields) (key : PyStr) : Fields :=
  match content.get? key with
  | some (.arr items) =>
    if items.length > 100 then
      ((content.set key (.arr (items.take 100))).set (key ++ py "_truncated") (.bool true)).set
        (key ++ py "_total") (.int items.length)
    else content
  | _ => content

def trimContentText (content : Fields) : Fields :=
  match content.get? (py "content") with
  | some (.str text) =>
    if text.length > 100000 then
      ((content.set (py "content") (.str (text.take 100000))).set (py "content_truncated")
        (.bool true)).set (py "content_total_chars") (.int text.length)
    else content
  | _ => content

def sanitizeToolResultForPersistence (content : Fields) : Fields :=
  trimContentText ([py "records", py "spans", py "repos", py "sources", py "indexes", py "items",
    py "results"].foldl trimItems (trimHits content))

/-! ## Evidence -/

def evidenceTypeMembers : List (PyStr × EvidenceType) :=
  [(py "LOG", .log), (py "TRACE", .trace), (py "CODE", .code), (py "METRIC", .metric),
    (py "TOPOLOGY", .topology), (py "SERVICE_CATALOG", .serviceCatalog), (py "OTHER", .other)]

/-- An attribute of the enumeration. -/
def evidenceTypeNamed (name : PyStr) : Except PyError EvidenceType :=
  match evidenceTypeMembers.find? (·.1 = name) with
  | none => .error .attributeError
  | some member => .ok member.2

/-- `append_tool_json_evidence`. -/
def appendJsonEvidence (pack : EvidencePack) (toolName : PyStr) (evidenceType : EvidenceType)
    (content : Fields) (itemId : RequiredStr) : Except PyError EvidencePack := do
  let source ← RequiredStr.validate toolName
  let content ← Mapping.validate content
  pure { pack with
    items := pack.items ++ [{ itemId, type := evidenceType, source, content }] }

/-- A call with keyword arguments gives each parameter a value. -/
def bindKeywords (parameters keywords : List PyStr) : Except PyError Unit :=
  if (∀ keyword ∈ keywords, keyword ∈ parameters) ∧ ∀ name ∈ parameters, name ∈ keywords then .ok ()
  else .error .typeError

/-- What is done with a result that is ok; the arguments are evaluated before the call. -/
def recordEvidence (pack : EvidencePack) (toolName : PyStr) (result : ToolCallResult)
    (itemId : RequiredStr) : Except PyError EvidencePack := do
  let content := sanitizeToolResultForPersistence result.content.val
  let evidenceType ← evidenceTypeNamed (py "TOOL_OUTPUT")
  bindKeywords [py "pack", py "tool_name", py "evidence_type", py "content"]
    [py "pack", py "action", py "content", py "evidence_type", py "title"]
  appendJsonEvidence pack toolName evidenceType content itemId

/-! ## The calls -/

structure SupplementInputs where
  caseRequest : CaseCreateRequest
  flowCaseId : PyStr
  stepOutputs : Dict PyStr Fields
  skill : Option TaggedSkill
  registry : ToolRegistry
  /-- `None` without settings for a model. -/
  planner : Option (CaseCreateRequest → List ToolSpec → PyStr → ToolPlanResult)

/-- The gateway answers by the number of the call, and `new_id` in the same way. -/
structure SupplementRuntime where
  contentPreview : Fields → Fields
  invoke : ℕ → ToolCallRequest → ToolCallResult
  newId : ℕ → RequiredStr

def supplementRequest (inputs : SupplementInputs) (call : ToolPlanCall) :
    Except PyError ToolCallRequest := do
  let caseId ← RequiredStr.validate inputs.flowCaseId
  let stepId ← RequiredStr.validate call.stepId
  let skillName ← RequiredStr.validate
    ((inputs.skill.map (·.slug.val)).getD (py "default-log-triage"))
  let toolName ← RequiredStr.validate call.toolName
  let arguments ← Mapping.validate call.arguments
  pure { caseId, stepId, skillName, toolName, arguments := arguments.val }

section Loop

variable (runtime : SupplementRuntime) (inputs : SupplementInputs)

/-- The result of the only record of a loop with one request. -/
def singleResult (number : ℕ) (request : ToolCallRequest) : ToolCallResult :=
  ((executeRecords runtime.contentPreview (runtime.invoke number) (fun _ => []) [request]).head
    (by simp [executeRecords])).result

/-- The loop over the planned calls, with the number of the next one. -/
def supplementCalls (number : ℕ) (pack : EvidencePack) (results : List ToolCallResult) :
    List ToolPlanCall → Except PyError (List ToolCallResult) × EvidencePack
  | [] => (.ok results, pack)
  | call :: calls =>
    match supplementRequest inputs call with
    | .error error => (.error error, pack)
    | .ok request =>
      let result := singleResult runtime number request
      if result.ok then
        match recordEvidence pack call.toolName result (runtime.newId number) with
        | .error error => (.error error, pack)
        | .ok extended => supplementCalls (number + 1) extended (results ++ [result]) calls
      else supplementCalls (number + 1) pack (results ++ [result]) calls

/-- The plan that the planner returns, if there is something to plan for. -/
def supplementPlan (std : Stdlib) : Except PyError (Option ToolPlan) :=
  if skillAllowsExternalMcp std inputs.skill = false then .ok none
  else
    let externalTools := listExternalToolSpecs inputs.registry
    if externalTools = [] then .ok none
    else
      match inputs.planner with
      | none => .ok none
      | some plan => do
        let enriched ← enrichCaseRequest std inputs.caseRequest inputs.stepOutputs
        let planned := plan enriched externalTools (flowHistorySummary inputs.stepOutputs)
        pure (if planned.ok then planned.plan else none)

def runExternalMcpSupplement (std : Stdlib) (pack : EvidencePack) :
    Except PyError (List ToolCallResult) × EvidencePack :=
  match supplementPlan inputs std with
  | .error error => (.error error, pack)
  | .ok none => (.ok [], pack)
  | .ok (some plan) => supplementCalls runtime inputs 0 pack [] plan.toolCalls

end Loop

/-! ## Results that become evidence -/

/-- The skill allows external tools, there are some, and the planner returns this plan. -/
structure PlansCalls (std : Stdlib) (inputs : SupplementInputs) (plan : ToolPlan) : Prop where
  allowed : skillAllowsExternalMcp std inputs.skill = true
  offered : listExternalToolSpecs inputs.registry ≠ []
  planned : ∃ planner enriched, inputs.planner = some planner ∧
    enrichCaseRequest std inputs.caseRequest inputs.stepOutputs = .ok enriched ∧
    (planner enriched (listExternalToolSpecs inputs.registry)
      (flowHistorySummary inputs.stepOutputs)).ok = true ∧
    (planner enriched (listExternalToolSpecs inputs.registry)
      (flowHistorySummary inputs.stepOutputs)).plan = some plan

section Results

variable (runtime : SupplementRuntime) (inputs : SupplementInputs)

/-- One result a call in the order of the plan, and one item of evidence for each that is ok. -/
def Supplemented (pack : EvidencePack) (calls : List ToolPlanCall)
    (outcome : Except PyError (List ToolCallResult) × EvidencePack) : Prop :=
  ∃ requests new,
    List.Forall₂ (fun call request => supplementRequest inputs call = .ok request) calls requests ∧
    outcome = (.ok (requests.mapIdx runtime.invoke), { pack with items := pack.items ++ new }) ∧
    List.Forall₂ (fun (item : EvidenceItem) (result : ToolCallResult) =>
        item.content.val = sanitizeToolResultForPersistence result.content.val)
      new ((requests.mapIdx runtime.invoke).filter (·.ok))

/-- Every call makes a valid request, and the gateway answers that it is not ok. -/
def AllRefused (number : ℕ) : List ToolPlanCall → Prop
  | [] => True
  | call :: calls =>
    (∃ request, supplementRequest inputs call = .ok request ∧
      (runtime.invoke number request).ok = false) ∧ AllRefused (number + 1) calls

variable {runtime inputs}

theorem singleResult_eq (number : ℕ) (request : ToolCallRequest) :
    singleResult runtime number request = runtime.invoke number request := rfl

/-- The enumeration has no member of that name. -/
theorem recordEvidence_raises (pack : EvidencePack) (toolName : PyStr) (result : ToolCallResult)
    (itemId : RequiredStr) :
    recordEvidence pack toolName result itemId = .error .attributeError := rfl

/-- The loop ends normally only without a result that is ok. -/
theorem allRefused_of_ok {calls : List ToolPlanCall} {number : ℕ} {pack : EvidencePack}
    {results final : List ToolCallResult}
    (hok : (supplementCalls runtime inputs number pack results calls).1 = .ok final) :
    AllRefused runtime inputs number calls := by
  induction calls generalizing number pack results with
  | nil => trivial
  | cons call calls ih =>
    cases hrequest : supplementRequest inputs call with
    | error error =>
      simp only [supplementCalls, hrequest] at hok
      cases hok
    | ok request =>
      cases hresult : (runtime.invoke number request).ok with
      | true =>
        simp only [supplementCalls, hrequest, singleResult_eq, hresult, if_true,
          recordEvidence_raises] at hok
        cases hok
      | false =>
        simp only [supplementCalls, hrequest, singleResult_eq, hresult] at hok
        exact ⟨⟨request, hrequest, hresult⟩, ih hok⟩

theorem supplementCalls_of_allRefused {calls : List ToolPlanCall} {number : ℕ}
    (hrefused : AllRefused runtime inputs number calls) (pack : EvidencePack)
    (results : List ToolCallResult) :
    ∃ requests,
      List.Forall₂ (fun call request => supplementRequest inputs call = .ok request)
        calls requests ∧
      supplementCalls runtime inputs number pack results calls =
        (.ok (results ++ requests.mapIdx fun index => runtime.invoke (number + index)), pack) ∧
      ∀ result ∈ requests.mapIdx fun index => runtime.invoke (number + index),
        result.ok = false := by
  induction calls generalizing number results with
  | nil => exact ⟨[], .nil, by simp [supplementCalls], by simp⟩
  | cons call calls ih =>
    obtain ⟨⟨request, hrequest, hresult⟩, hrest⟩ := hrefused
    obtain ⟨requests, hrequests, hloop, hfailed⟩ :=
      ih hrest (results ++ [runtime.invoke number request])
    have hindex : (request :: requests).mapIdx (fun index => runtime.invoke (number + index)) =
        runtime.invoke number request ::
          requests.mapIdx fun index => runtime.invoke (number + 1 + index) := by
      rw [List.mapIdx_cons]
      simp only [Nat.add_zero, Nat.add_assoc, Nat.add_comm 1]
    refine ⟨request :: requests, .cons hrequest hrequests, ?_, ?_⟩
    · simp only [supplementCalls, hrequest, singleResult_eq, hresult]
      rw [hindex, ← List.append_cons] at *
      exact hloop
    · rw [hindex]
      exact List.forall_mem_cons.mpr ⟨hresult, hfailed⟩

theorem runExternalMcpSupplement_of_plansCalls {std : Stdlib} {plan : ToolPlan}
    (hplans : PlansCalls std inputs plan) (pack : EvidencePack) :
    runExternalMcpSupplement runtime inputs std pack =
      supplementCalls runtime inputs 0 pack [] plan.toolCalls := by
  obtain ⟨planner, enriched, hplanner, henriched, hok, hplan⟩ := hplans.planned
  have hanswer : supplementPlan inputs std = .ok (some plan) := by
    rw [supplementPlan, if_neg (by rw [hplans.allowed]; simp), if_neg hplans.offered, hplanner]
    simp only [henriched]
    change Except.ok (if _ then _ else none) = _
    rw [if_pos hok, hplan]
  rw [runExternalMcpSupplement, hanswer]

end Results

def echoTool : ToolSpec where
  name := RequiredStr.ofLiteral "ext.server.echo" (by decide)
  permissionLevel := .read
  scope := .external
  serverName := RequiredStr.ofLiteral "server" (by decide)

def echoPlan : ToolPlan where
  toolCalls := [{
    toolName := py "ext.server.echo"
    stepId := py "echo"
    arguments := []
    rationale := []
    dependsOn := []
    timeoutSeconds := none
    required := true }]
  rationale := []
  finalAnswer := none
  raw := []

def echoInputs : SupplementInputs where
  caseRequest := {
    title := RequiredStr.ofLiteral "t" Fixture.title
    symptom := RequiredStr.ofLiteral "s" (by decide)
    serviceName := RequiredStr.ofLiteral "svc" (by decide)
    source := RequiredStr.ofLiteral "error-chat" (by decide)
    metadata := Mapping.empty }
  flowCaseId := py "case-1"
  stepOutputs := []
  skill := some {
    slug := RequiredStr.ofLiteral "flows/test" (by decide)
    tags := []
    metadata := [(py "allow_external_mcp", .bool true)] }
  registry := {
    specs := [(py "ext.server.echo", echoTool)]
    handlers := []
    named := by decide }
  planner := some fun _ _ _ => {
    ok := true
    plan := some echoPlan
    provider := none
    model := none
    elapsedMs := none
    error := none }

/-- A gateway with one answer for all calls. -/
def echoRuntime (ok : Bool) : SupplementRuntime where
  contentPreview := id
  invoke _ request := {
    ok := ok
    toolName := request.toolName
    content := Mapping.empty
    error := none
    latencyMs := 0 }
  newId _ := RequiredStr.ofLiteral "ev-1" Fixture.evOne

def echoPack : EvidencePack where
  caseId := RequiredStr.ofLiteral "case-1" Fixture.caseOne
  items := []
  summary := []

theorem plansCalls_echo : PlansCalls asciiStdlib echoInputs echoPlan where
  allowed := by decide
  offered := by decide
  planned := ⟨_, _, rfl, rfl, rfl, rfl⟩

end RootSeeker.AgentRuntime
