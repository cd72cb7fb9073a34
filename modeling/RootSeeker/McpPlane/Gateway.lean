import RootSeeker.Policies.Approval

/-!
# The tool gateway

Every tool call passes the gateway: look the tool up, ask the policy guard,
call the handler or the external invoker, write one audit event.  The state
keeps the approvals, the audit log and, for the statements about them, the
handlers that have run.  What a handler does when it is called is part of the
call.
-/

namespace RootSeeker.McpPlane

open Python Contracts Policies

/-! ## Registry and policy -/

structure ToolRegistry where
  specs : Dict PyStr ToolSpec
  /-- The names under which a handler is registered. -/
  handlers : List PyStr
  named : ∀ entry ∈ specs, entry.2.name.val = entry.1

namespace ToolRegistry

def getSpec (registry : ToolRegistry) (toolName : PyStr) : Option ToolSpec :=
  registry.specs.get? toolName

end ToolRegistry

structure McpExternalClient where
  /-- The servers for which an invoker is registered. -/
  servers : List PyStr

structure PolicyGuard where
  denyWrite : Bool
  requireApprovalForWrite : Bool

inductive PolicyError (ids : IdSupply) where
  | approvalRequired (approval : ApprovalRequest)
  | policyDenied (message : PyStr)

variable {ids : IdSupply}

/-- `str(arguments.get("approval_id") or arguments.get("_approval_id") or "")`. -/
def approvalIdOf (std : Stdlib) (request : ToolCallRequest) : PyStr :=
  truthyText std [request.arguments.get? (py "approval_id"),
    request.arguments.get? (py "_approval_id")]

/-- The verdict and the approvals afterwards. -/
def PolicyGuard.enforce (std : Stdlib) (policy : PolicyGuard)
    (approvals : Option (ApprovalStore ids)) (request : ToolCallRequest)
    (spec : ToolSpec) (now : PyStr) :
    Except (PolicyError ids) Unit × Option (ApprovalStore ids) :=
  if policy.denyWrite ∧ spec.permissionLevel ≠ .read then
    (.error (.policyDenied (py "Write tool blocked by policy: " ++ request.toolName.val)),
      approvals)
  else if !policy.requireApprovalForWrite ∨ spec.permissionLevel = .read then
    (.ok (), approvals)
  else
    match approvals with
    | none =>
      (.error (.policyDenied
        (py "Approval store not configured for tool: " ++ request.toolName.val)), none)
    | some store =>
      if approvalIdOf std request ≠ [] ∧
          store.isApprovedFor (approvalIdOf std request) request spec then
        (.ok (), some store)
      else
        let created := store.createForTool request spec
          (spec.permissionLevel.value ++ py " tool requires approval") now
        (.error (.approvalRequired created.1), some created.2)

/-! ## What handlers do -/

/-- A key of a returned dictionary.  A model field accepts texts, and bytes
that decode as UTF-8. -/
inductive ContentKey where
  | text (key : PyStr)
  | bytes (decoded : Option {key : PyStr // Encodable key})
  | other

/-- What a handler returns: a dictionary or any other value. -/
inductive Returned where
  | mapping (entries : List (ContentKey × Json))
  | other

inductive HandlerOutcome where
  | returned (value : Returned)
  | raised (typeName message : PyStr)

def ContentKey.validate : ContentKey → Except PyError PyStr
  | text key => if Encodable key then .ok key else .error .validationError
  | bytes (some key) => .ok key.val
  | bytes none => .error .validationError
  | other => .error .validationError

/-- The field `content : dict[str, Any]` of a result. -/
def Returned.validate : Returned → Except PyError Mapping
  | mapping entries => do
    let keys ← entries.mapM fun entry => entry.1.validate
    Mapping.validate (Dict.update [] (keys.zip (entries.map Prod.snd)))
  | other => .error .validationError

/-- The first entries, as the handler returned them. -/
def Returned.preview : Returned → List (ContentKey × Json)
  | mapping entries => entries.take 5
  | other => []

/-! ## Audit -/

inductive AuditCategory where
  | toolCall
  | approval
  | stateChange
  | security
  | system
  deriving DecidableEq

structure AuditDetail where
  caseId : RequiredStr
  stepId : RequiredStr
  skillName : RequiredStr
  toolName : RequiredStr
  ok : Bool
  latencyMs : ℕ
  argumentsKeys : List PyStr
  pluginId : Option PyStr
  error : Option ToolError
  contentPreview : List (ContentKey × Json)

structure AuditEvent where
  category : AuditCategory
  action : RequiredStr
  actor : RequiredStr
  target : RequiredStr
  requestId : Option {text : PyStr // Encodable text}
  detail : AuditDetail

/-! ## The gateway -/

structure McpGateway where
  registry : ToolRegistry
  policy : PolicyGuard
  externalClient : Option McpExternalClient

/-- One call: the request, the other arguments of `invoke`, what the handler
does if it is called, and the readings of the clocks. -/
structure GatewayCall where
  request : ToolCallRequest
  actor : RequiredStr
  pluginId : Option PyStr
  requestId : Option {text : PyStr // Encodable text}
  outcome : HandlerOutcome
  now : PyStr
  latencyMs : ℕ
  auditLatencyMs : ℕ

/-- A handler or an external invoker has been called. -/
structure HandlerRun where
  spec : ToolSpec
  request : ToolCallRequest

structure GatewayState (ids : IdSupply) where
  approvals : Option (ApprovalStore ids)
  audit : List AuditEvent
  executed : List HandlerRun

namespace GatewayState

def withApprovals (state : GatewayState ids) (approvals : Option (ApprovalStore ids)) :
    GatewayState ids :=
  { state with approvals := approvals }

def append (state : GatewayState ids) (event : AuditEvent) : GatewayState ids :=
  { state with audit := state.audit ++ [event] }

def execute (state : GatewayState ids) (run : HandlerRun) : GatewayState ids :=
  { state with executed := state.executed ++ [run] }

@[simp]
theorem withApprovals_audit (state : GatewayState ids) (approvals : Option (ApprovalStore ids)) :
    (state.withApprovals approvals).audit = state.audit := rfl

@[simp]
theorem withApprovals_executed (state : GatewayState ids) (approvals : Option (ApprovalStore ids)) :
    (state.withApprovals approvals).executed = state.executed := rfl

@[simp]
theorem withApprovals_approvals (state : GatewayState ids) (approvals : Option (ApprovalStore ids)) :
    (state.withApprovals approvals).approvals = approvals := rfl

@[simp]
theorem append_executed (state : GatewayState ids) (event : AuditEvent) :
    (state.append event).executed = state.executed := rfl

@[simp]
theorem append_approvals (state : GatewayState ids) (event : AuditEvent) :
    (state.append event).approvals = state.approvals := rfl

@[simp]
theorem execute_audit (state : GatewayState ids) (run : HandlerRun) :
    (state.execute run).audit = state.audit := rfl

@[simp]
theorem execute_approvals (state : GatewayState ids) (run : HandlerRun) :
    (state.execute run).approvals = state.approvals := rfl

end GatewayState

/-- The event that `_audit` appends. -/
def auditEvent (call : GatewayCall) (ok : Bool) (error : Option ToolError)
    (preview : List (ContentKey × Json)) : AuditEvent where
  category := .toolCall
  action := RequiredStr.ofLiteral "mcp.invoke" (by decide)
  actor := call.actor
  target := call.request.toolName
  requestId := call.requestId
  detail :=
    { caseId := call.request.caseId
      stepId := call.request.stepId
      skillName := call.request.skillName
      toolName := call.request.toolName
      ok := ok
      latencyMs := call.auditLatencyMs
      argumentsKeys := sortedTexts call.request.arguments.keys
      pluginId := call.pluginId
      error := error
      contentPreview := preview }

abbrev InvokeOutcome (ids : IdSupply) := Except PyError ToolCallResult × GatewayState ids

/-- Build the error and the failed result, then audit.  When the error cannot
be built, the exception leaves `invoke` before the audit. -/
def refuse (call : GatewayCall) (state : GatewayState ids) (code : RequiredStr)
    (message : PyStr) (details : Mapping) (retryable : Bool) : InvokeOutcome ids :=
  match ToolError.build code message details retryable with
  | .error raised => (.error raised, state)
  | .ok error =>
    (.ok { ok := false
           toolName := call.request.toolName
           content := Mapping.empty
           error := some error
           latencyMs := 0 },
      state.append (auditEvent call false (some error) []))

/-- `details={"type": type(e).__name__}`. -/
def typeDetails (typeName : PyStr) : Mapping :=
  ⟨[(py "type", .str typeName)], by
    intro key hkey
    rw [List.mem_singleton.mp hkey]
    exact encodable_py _⟩

def refuseExecution (call : GatewayCall) (state : GatewayState ids)
    (typeName message : PyStr) : InvokeOutcome ids :=
  refuse call state (RequiredStr.ofLiteral "TOOL_EXEC_ERROR" (by decide)) message
    (typeDetails typeName) false

/-- The result of a handler that returned, built outside the `try` block. -/
def complete (call : GatewayCall) (state : GatewayState ids) (value : Returned) :
    InvokeOutcome ids :=
  match value.validate with
  | .error raised => (.error raised, state)
  | .ok content =>
    (.ok { ok := true
           toolName := call.request.toolName
           content := content
           error := none
           latencyMs := call.latencyMs },
      state.append (auditEvent call true none value.preview))

/-- Whether there is something to call, or the message of the `RuntimeError`. -/
def McpGateway.findHandler (gateway : McpGateway) (request : ToolCallRequest)
    (spec : ToolSpec) : Except PyStr Unit :=
  match spec.scope with
  | .external =>
    match gateway.externalClient with
    | none => .error (py "external client not configured")
    | some client =>
      if spec.serverName.val ∈ client.servers then .ok ()
      else .error (py "external server not configured: " ++ spec.serverName.val)
  | .internal =>
    if request.toolName.val ∈ gateway.registry.handlers then .ok ()
    else .error (py "No handler for internal tool")

/-- The `try` block around the handler and what follows it. -/
def McpGateway.callTool (gateway : McpGateway) (state : GatewayState ids)
    (call : GatewayCall) (spec : ToolSpec) : InvokeOutcome ids :=
  match gateway.findHandler call.request spec with
  | .error message => refuseExecution call state (py "RuntimeError") message
  | .ok () =>
    match call.outcome with
    | .raised typeName message =>
      refuseExecution call (state.execute ⟨spec, call.request⟩) typeName message
    | .returned value => complete call (state.execute ⟨spec, call.request⟩) value

def McpGateway.invoke (std : Stdlib) (gateway : McpGateway) (state : GatewayState ids)
    (call : GatewayCall) : InvokeOutcome ids :=
  match gateway.registry.getSpec call.request.toolName.val with
  | none =>
    refuse call state (RequiredStr.ofLiteral "TOOL_NOT_REGISTERED" (by decide))
      (py "Tool not registered: " ++ call.request.toolName.val) Mapping.empty false
  | some spec =>
    let enforced := gateway.policy.enforce std state.approvals call.request spec call.now
    let checked := state.withApprovals enforced.2
    match enforced.1 with
    | .error (.approvalRequired approval) =>
      refuse call checked (RequiredStr.ofLiteral "APPROVAL_REQUIRED" (by decide))
        (py "Approval required for tool: " ++ approval.toolName)
        ⟨approval.toPayload, approval.keysEncodable_toPayload⟩ true
    | .error (.policyDenied message) =>
      refuse call checked (RequiredStr.ofLiteral "POLICY_DENIED" (by decide))
        message Mapping.empty false
    | .ok () => gateway.callTool checked call spec

/-! ## What the policy guard decides -/

/-- Reading is free.  Anything else needs writes to be allowed and, where
approval is required, an approval for this very call. -/
def PolicyGuard.Admits (std : Stdlib) (policy : PolicyGuard)
    (approvals : Option (ApprovalStore ids)) (request : ToolCallRequest)
    (spec : ToolSpec) : Prop :=
  spec.permissionLevel = .read ∨
    (policy.denyWrite = false ∧
      (policy.requireApprovalForWrite = false ∨
        ∃ store, approvals = some store ∧ approvalIdOf std request ≠ [] ∧
          store.Authorizes (approvalIdOf std request)
            (ApprovalStore.subjectOf request spec)))

/-- The approval that the guard requests. -/
def requestedApproval (store : ApprovalStore ids) (request : ToolCallRequest)
    (spec : ToolSpec) (now : PyStr) : ApprovalRequest × ApprovalStore ids :=
  store.createForTool request spec
    (spec.permissionLevel.value ++ py " tool requires approval") now

variable {spec : ToolSpec}

theorem PolicyGuard.enforce_of_admits {std : Stdlib} {policy : PolicyGuard}
    {approvals : Option (ApprovalStore ids)} {request : ToolCallRequest}
    (hadmits : policy.Admits std approvals request spec) (now : PyStr) :
    policy.enforce std approvals request spec now = (.ok (), approvals) := by
  unfold PolicyGuard.enforce
  rcases hadmits with hread | ⟨hwrite, hfree | ⟨store, rfl, hid, hauthorizes⟩⟩
  · rw [if_neg (by simp [hread]), if_pos (Or.inr hread)]
  · rw [if_neg (by simp [hwrite]), if_pos (Or.inl (by simp [hfree]))]
  · rw [if_neg (by simp [hwrite])]
    have happroved := (store.isApprovedFor_iff _ request spec).mpr hauthorizes
    split
    · rfl
    · exact if_pos ⟨hid, happroved⟩

/-- A refused call either meets a closed door, which leaves the approvals
alone, or leaves a new approval request behind. -/
theorem PolicyGuard.enforce_of_not_admits {std : Stdlib} {policy : PolicyGuard}
    {approvals : Option (ApprovalStore ids)} {request : ToolCallRequest}
    (hadmits : ¬policy.Admits std approvals request spec) (now : PyStr) :
    (∃ reason : String,
        policy.enforce std approvals request spec now =
          (.error (.policyDenied (py reason ++ request.toolName.val)), approvals) ∧
        (policy.denyWrite = true ∨ approvals = none)) ∨
      (policy.denyWrite = false ∧ ∃ store, approvals = some store ∧
        policy.enforce std approvals request spec now =
          (.error (.approvalRequired (requestedApproval store request spec now).1),
            some (requestedApproval store request spec now).2)) := by
  simp only [PolicyGuard.Admits, not_or, not_and, Bool.not_eq_false] at hadmits
  obtain ⟨hnotRead, hwrite⟩ := hadmits
  unfold PolicyGuard.enforce
  cases hdeny : policy.denyWrite with
  | true =>
    apply Or.inl
    exact ⟨"Write tool blocked by policy: ", if_pos ⟨rfl, hnotRead⟩, Or.inl rfl⟩
  | false =>
    obtain ⟨hrequired, hunauthorized⟩ := hwrite hdeny
    rw [if_neg (by simp), if_neg (by simp [hrequired, hnotRead])]
    cases approvals with
    | none =>
      apply Or.inl
      exact ⟨"Approval store not configured for tool: ", rfl, Or.inr rfl⟩
    | some store =>
      apply Or.inr
      have hrefused : ¬(approvalIdOf std request ≠ [] ∧
          store.isApprovedFor (approvalIdOf std request) request spec) := by
        rintro ⟨hid, happroved⟩
        apply hunauthorized
        exact ⟨store, rfl, hid, (store.isApprovedFor_iff _ _ _).mp happroved⟩
      exact ⟨rfl, store, rfl, if_neg hrefused⟩

/-! ## The exits of a call -/

theorem refuse_state (call : GatewayCall) (state : GatewayState ids) (code : RequiredStr)
    (message : PyStr) (details : Mapping) (retryable : Bool) :
    (refuse call state code message details retryable).2.approvals = state.approvals ∧
      (refuse call state code message details retryable).2.executed = state.executed := by
  unfold refuse
  split
  · exact ⟨rfl, rfl⟩
  · exact ⟨rfl, rfl⟩

theorem complete_state (call : GatewayCall) (state : GatewayState ids) (value : Returned) :
    (complete call state value).2.approvals = state.approvals ∧
      (complete call state value).2.executed = state.executed := by
  unfold complete
  split
  · exact ⟨rfl, rfl⟩
  · exact ⟨rfl, rfl⟩

/-- Calling the tool leaves the approvals alone and runs at most its handler. -/
theorem callTool_state (gateway : McpGateway) (state : GatewayState ids)
    (call : GatewayCall) (spec : ToolSpec) :
    (gateway.callTool state call spec).2.approvals = state.approvals ∧
      ((gateway.callTool state call spec).2.executed = state.executed ∨
        (gateway.callTool state call spec).2.executed =
          state.executed ++ [⟨spec, call.request⟩]) := by
  unfold McpGateway.callTool
  split
  · obtain ⟨happrovals, hexecuted⟩ := refuse_state call state _ _ _ _
    exact ⟨happrovals, Or.inl hexecuted⟩
  · split
    · obtain ⟨happrovals, hexecuted⟩ :=
        refuse_state call (state.execute ⟨spec, call.request⟩) _ _ _ _
      exact ⟨happrovals, Or.inr hexecuted⟩
    · obtain ⟨happrovals, hexecuted⟩ := complete_state call (state.execute ⟨spec, call.request⟩) _
      exact ⟨happrovals, Or.inr hexecuted⟩

section Exits

variable {std : Stdlib} {gateway : McpGateway} {state : GatewayState ids}
  {call : GatewayCall}

theorem invoke_of_unregistered (hspec : gateway.registry.getSpec call.request.toolName.val = none) :
    gateway.invoke std state call =
      refuse call state (RequiredStr.ofLiteral "TOOL_NOT_REGISTERED" (by decide))
        (py "Tool not registered: " ++ call.request.toolName.val) Mapping.empty false := by
  rw [McpGateway.invoke, hspec]

theorem invoke_of_admits (hspec : gateway.registry.getSpec call.request.toolName.val = some spec)
    (hadmits : gateway.policy.Admits std state.approvals call.request spec) :
    gateway.invoke std state call = gateway.callTool state call spec := by
  simp only [McpGateway.invoke, hspec, PolicyGuard.enforce_of_admits hadmits]
  rfl

/-- A refused call is answered with an error about the tool.  Unless writes are
denied or there is no store, a new approval request is left behind. -/
theorem invoke_of_not_admits
    (hspec : gateway.registry.getSpec call.request.toolName.val = some spec)
    (hadmits : ¬gateway.policy.Admits std state.approvals call.request spec) :
    ∃ code reason details retryable approvals,
      gateway.invoke std state call =
          refuse call (state.withApprovals approvals) code
            (py reason ++ call.request.toolName.val) details retryable ∧
        ((approvals = state.approvals ∧
            (gateway.policy.denyWrite = true ∨ state.approvals = none)) ∨
          (gateway.policy.denyWrite = false ∧ ∃ store, state.approvals = some store ∧
            approvals = some (requestedApproval store call.request spec call.now).2)) := by
  rcases PolicyGuard.enforce_of_not_admits hadmits call.now with
    ⟨reason, henforce, hclosed⟩ | ⟨hwrite, store, hstore, henforce⟩
  · refine ⟨RequiredStr.ofLiteral "POLICY_DENIED" (by decide), reason, Mapping.empty,
      false, state.approvals, ?_, Or.inl ⟨rfl, hclosed⟩⟩
    simp only [McpGateway.invoke, hspec, henforce]
  · let requested := requestedApproval store call.request spec call.now
    refine ⟨RequiredStr.ofLiteral "APPROVAL_REQUIRED" (by decide),
      "Approval required for tool: ",
      ⟨requested.1.toPayload, requested.1.keysEncodable_toPayload⟩, true,
      some requested.2, ?_, Or.inr ⟨hwrite, store, hstore, rfl⟩⟩
    simp only [McpGateway.invoke, hspec, henforce]
    rfl

/-- The only change to the approvals is a new request. -/
theorem invoke_approvals (std : Stdlib) (gateway : McpGateway) (state : GatewayState ids)
    (call : GatewayCall) :
    (gateway.invoke std state call).2.approvals = state.approvals ∨
      ∃ store spec, state.approvals = some store ∧
        (gateway.invoke std state call).2.approvals =
          some (requestedApproval store call.request spec call.now).2 := by
  cases hspec : gateway.registry.getSpec call.request.toolName.val with
  | none =>
    rw [invoke_of_unregistered hspec]
    exact Or.inl (refuse_state call state _ _ _ _).1
  | some spec =>
    by_cases hadmits : gateway.policy.Admits std state.approvals call.request spec
    · rw [invoke_of_admits hspec hadmits]
      exact Or.inl (callTool_state gateway state call spec).1
    · obtain ⟨code, reason, details, retryable, approvals, hinvoke, hexit⟩ :=
        invoke_of_not_admits hspec hadmits
      rw [hinvoke, (refuse_state call (state.withApprovals approvals) _ _ _ _).1]
      rcases hexit with ⟨rfl, _⟩ | ⟨_, store, hstore, rfl⟩
      · exact Or.inl rfl
      · exact Or.inr ⟨store, spec, hstore, rfl⟩

/-- A handler runs only for a call that the guard admits. -/
theorem invoke_executed (std : Stdlib) (gateway : McpGateway) (state : GatewayState ids)
    (call : GatewayCall) :
    (gateway.invoke std state call).2.executed = state.executed ∨
      ∃ spec, gateway.registry.getSpec call.request.toolName.val = some spec ∧
        gateway.policy.Admits std state.approvals call.request spec ∧
        (gateway.invoke std state call).2.executed = state.executed ++ [⟨spec, call.request⟩] := by
  cases hspec : gateway.registry.getSpec call.request.toolName.val with
  | none =>
    rw [invoke_of_unregistered hspec]
    exact Or.inl (refuse_state call state _ _ _ _).2
  | some spec =>
    by_cases hadmits : gateway.policy.Admits std state.approvals call.request spec
    · rw [invoke_of_admits hspec hadmits]
      rcases (callTool_state gateway state call spec).2 with hsame | hran
      · exact Or.inl hsame
      · exact Or.inr ⟨spec, rfl, hadmits, hran⟩
    · obtain ⟨code, reason, details, retryable, approvals, hinvoke, _⟩ :=
        invoke_of_not_admits hspec hadmits
      rw [hinvoke]
      exact Or.inl (refuse_state call (state.withApprovals approvals) _ _ _ _).2

end Exits

/-! ## One tool -/

/-- An internal tool of the given permission level. -/
def toolSpec (toolName : RequiredStr) (level : ToolPermissionLevel) : ToolSpec where
  name := toolName
  permissionLevel := level
  scope := .internal
  serverName := RequiredStr.ofLiteral "internal" Fixture.internal

/-- A gateway with one registered tool. -/
def oneToolGateway (spec : ToolSpec) (policy : PolicyGuard) : McpGateway where
  registry :=
    { specs := [(spec.name.val, spec)]
      handlers := [spec.name.val]
      named := by simp }
  policy := policy
  externalClient := none

/-- A call of a tool by one step of one case. -/
def toolCall (toolName : RequiredStr) (arguments : Fields) (outcome : HandlerOutcome) :
    GatewayCall where
  request :=
    { caseId := RequiredStr.ofLiteral "case-1" Fixture.caseOne
      stepId := RequiredStr.ofLiteral "step-1" Fixture.stepOne
      skillName := RequiredStr.ofLiteral "skill" Fixture.skill
      toolName := toolName
      arguments := arguments }
  actor := RequiredStr.ofLiteral "mcp-gateway" (by decide)
  pluginId := none
  requestId := none
  outcome := outcome
  now := py "2026-01-01T00:00:00+00:00"
  latencyMs := 0
  auditLatencyMs := 0

/-- A gateway that shares this store and has answered no call yet. -/
def startingWith (store : ApprovalStore ids) : GatewayState ids where
  approvals := some store
  audit := []
  executed := []

end RootSeeker.McpPlane
