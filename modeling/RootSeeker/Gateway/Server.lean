import RootSeeker.McpPlane.Gateway

/-!
# The gateway server

A request names a method and carries a token.  The server checks the token,
asks the authorizer whether its capabilities suffice for the method, and calls
the method.  Methods that decide approvals and the one that calls a tool are
modelled; a method that runs an agent makes an arbitrary list of tool calls,
and the remaining methods touch neither approvals nor tools.
-/

namespace RootSeeker.Gateway

open Python Contracts Policies McpPlane

/-! ## Credentials -/

structure AuthCredentials where
  clientId : PyStr
  token : PyStr
  capabilities : List PyStr
  expiresAt : Option ℤ

namespace AuthCredentials

def isExpired (credentials : AuthCredentials) (now : ℤ) : Bool :=
  match credentials.expiresAt with
  | none => false
  | some expiresAt => expiresAt < now

/-- An empty list restricts nothing. -/
def hasCapability (credentials : AuthCredentials) (capability : PyStr) : Bool :=
  credentials.capabilities = [] || capability ∈ credentials.capabilities

end AuthCredentials

/-- The tokens that `generate_token` stored. -/
abbrev TokenTable := Dict PyStr AuthCredentials

/-- `verify_signed_token`: the client and the capabilities that a signed token
carries. -/
abbrev SignedTokens := PyStr → Except PyError (Option (PyStr × List PyStr))

def authenticate (signed : SignedTokens) (tokens : TokenTable) (token : PyStr)
    (now : ℤ) : Except PyError (Option AuthCredentials) × TokenTable :=
  match tokens.get? token with
  | some credentials =>
    if credentials.isExpired now then (.ok none, tokens.filterKeys (· ≠ token))
    else (.ok (some credentials), tokens)
  | none =>
    ((signed token).map (Option.map fun found =>
      { clientId := found.1
        token := token
        capabilities := found.2
        expiresAt := none }), tokens)

def validate (tokens : TokenTable) (credentials : AuthCredentials) (now : ℤ) :
    Bool × TokenTable :=
  match tokens.get? credentials.token with
  | none => (false, tokens)
  | some stored =>
    if stored.isExpired now then (false, tokens.filterKeys (· ≠ credentials.token))
    else (stored.clientId = credentials.clientId, tokens)

/-! ## Authorization -/

structure Authorizer where
  methodCaps : Dict PyStr (List PyStr)
  adminCaps : List PyStr

def defaultMethodCapabilities : Dict PyStr (List PyStr) :=
  [(py "case.create", [py "case:write"]),
   (py "case.get", [py "case:read"]),
   (py "case.list", [py "case:read"]),
   (py "case.resume", [py "case:write"]),
   (py "flow.run", [py "flow:execute"]),
   (py "flow.checkpoints", [py "flow:read"]),
   (py "skill.list", [py "skill:read"]),
   (py "skill.get", [py "skill:read"]),
   (py "skill.install", [py "skill:write"]),
   (py "skill.set_default", [py "skill:write"]),
   (py "skill.set_role", [py "skill:write"]),
   (py "skill.enable", [py "skill:write"]),
   (py "skill.disable", [py "skill:write"]),
   (py "tool.invoke", [py "tool:invoke"]),
   (py "tool.list", [py "tool:read"]),
   (py "gateway.subscribe", [py "gateway:subscribe"]),
   (py "gateway.unsubscribe", [py "gateway:subscribe"]),
   (py "gateway.publish", [py "gateway:publish"]),
   (py "system.list_methods", [py "system:read"]),
   (py "system.list_presence", [py "system:read"]),
   (py "system.ping", [py "system:read"])]

def Authorizer.default : Authorizer where
  methodCaps := defaultMethodCapabilities
  adminCaps := [py "admin"]

namespace Authorizer

def isAdmin (authorizer : Authorizer) (credentials : AuthCredentials) : Bool :=
  authorizer.adminCaps.any credentials.hasCapability

/-- A method that the table does not list requires nothing. -/
def requiredCapabilities (authorizer : Authorizer) (method : PyStr) : List PyStr :=
  (authorizer.methodCaps.get? method).getD []

def authorize (authorizer : Authorizer) (credentials : AuthCredentials)
    (method : PyStr) : Bool :=
  authorizer.isAdmin credentials ||
    (authorizer.requiredCapabilities method).all credentials.hasCapability

end Authorizer

/-! ## Requests and responses -/

structure GatewayRequestFrame where
  requestId : PyStr
  method : RequiredStr
  params : Fields

/-- An exception that ends a request: one with a code of its own, or any other. -/
inductive GatewayFailure where
  | gatewayError (code message : PyStr)
  | exception (raised : PyError)

inductive GatewayResult where
  | payload (fields : Fields)
  | toolCall (toolName : PyStr) (result : ToolCallResult)
  | unmodelled

structure GatewayResponseFrame where
  requestId : RequiredStr
  outcome : Except GatewayFailure GatewayResult

/-- What the surroundings contribute to one request: the seconds to wait when
the rate limiter refuses it, the clocks, the behaviour of the handler, and the
tool calls of an agent run. -/
structure RequestEnv where
  retryAfter : Option PyStr
  authenticatedAt : ℤ
  validatedAt : ℤ
  now : PyStr
  outcome : HandlerOutcome
  latencyMs : ℕ
  auditLatencyMs : ℕ
  agentCalls : List GatewayCall
  unmodelled : Except GatewayFailure Unit

/-- `str(params.get(key, default))`. -/
def textParam (std : Stdlib) (params : Fields) (key default : PyStr) : PyStr :=
  ((params.get? key).map (str std)).getD default

/-- `str(params.get("token") or "")`. -/
def tokenOf (std : Stdlib) (params : Fields) : PyStr :=
  truthyText std [params.get? (py "token")]

structure GatewayServer where
  gateway : McpGateway
  authorizer : Authorizer
  authEnabled : Bool
  signed : SignedTokens

structure ServerState (ids : IdSupply) where
  tokens : TokenTable
  tools : GatewayState ids

variable {ids : IdSupply}

def ServerState.withTokens (state : ServerState ids) (tokens : TokenTable) :
    ServerState ids :=
  { state with tokens := tokens }

def ServerState.withTools (state : ServerState ids) (tools : GatewayState ids) :
    ServerState ids :=
  { state with tools := tools }

def unauthorized : GatewayFailure :=
  .gatewayError (py "unauthorized") (py "authentication failed")

def GatewayServer.checkSecurity (std : Stdlib) (server : GatewayServer)
    (tokens : TokenTable) (frame : GatewayRequestFrame) (env : RequestEnv) :
    Except GatewayFailure Unit × TokenTable :=
  match env.retryAfter with
  | some seconds =>
    (.error (.gatewayError (py "rate_limited")
      (py "rate limit exceeded; retry after " ++ seconds ++ py "s")), tokens)
  | none =>
    if !server.authEnabled then (.ok (), tokens)
    else
      let authenticated :=
        authenticate server.signed tokens (tokenOf std frame.params) env.authenticatedAt
      match authenticated.1 with
      | .error raised => (.error (.exception raised), authenticated.2)
      | .ok none => (.error unauthorized, authenticated.2)
      | .ok (some credentials) =>
        let validated := validate authenticated.2 credentials env.validatedAt
        if !validated.1 then (.error unauthorized, validated.2)
        else if !server.authorizer.authorize credentials frame.method.val then
          (.error (.gatewayError (py "forbidden") (py "permission denied")),
            validated.2)
        else (.ok (), validated.2)

/-! ## Methods -/

abbrev MethodOutcome (ids : IdSupply) :=
  Except GatewayFailure GatewayResult × GatewayState ids

/-- `dict(value)`: the entries of an object, or pairs given one by one. -/
def pairOf : Json → Except PyError (Json × Json)
  | .arr [key, value] => .ok (key, value)
  | .str [key, value] => .ok (.str [key], .str [value])
  | .obj [(key, _), (value, _)] => .ok (.str key, .str value)
  | _ => .error .typeError

def dictOf : Json → Except PyError (List (Json × Json))
  | .obj fields => .ok (fields.map fun field => (.str field.1, field.2))
  | .arr items => items.mapM pairOf
  | .str [] => .ok []
  | _ => .error .typeError

/-- A key of the field `arguments`. -/
def argumentKey (entry : Json × Json) : Except PyError (PyStr × Json) :=
  match entry.1 with
  | .str key => if Encodable key then .ok (key, entry.2) else .error .validationError
  | _ => .error .validationError

def toolRequest (std : Stdlib) (params : Fields) (toolName : PyStr) :
    Except PyError ToolCallRequest := do
  let entries ← dictOf ((params.get? (py "arguments")).getD (.obj []))
  let caseId ← RequiredStr.validate (textParam std params (py "case_id") (py "gateway-case"))
  let stepId ← RequiredStr.validate (textParam std params (py "step_id") (py "gateway-step"))
  let name ← RequiredStr.validate toolName
  let arguments ← entries.mapM argumentKey
  pure
    { caseId
      stepId
      skillName := RequiredStr.ofLiteral "gateway" (by decide)
      toolName := name
      arguments := Dict.update [] arguments }

def methodCall (request : ToolCallRequest) (env : RequestEnv) : GatewayCall where
  request := request
  actor := RequiredStr.ofLiteral "gateway-method" (by decide)
  pluginId := some (py "gateway")
  requestId := none
  outcome := env.outcome
  now := env.now
  latencyMs := env.latencyMs
  auditLatencyMs := env.auditLatencyMs

def toolInvoke (std : Stdlib) (gateway : McpGateway) (tools : GatewayState ids)
    (params : Fields) (env : RequestEnv) : MethodOutcome ids :=
  let toolName := textParam std params (py "tool_name") []
  if toolName = [] then
    (.ok (.payload [(py "error", .str (py "tool_name is required")),
      (py "ok", .bool false)]), tools)
  else
    match toolRequest std params toolName with
    | .error raised => (.error (.exception raised), tools)
    | .ok request =>
      let outcome := gateway.invoke std tools (methodCall request env)
      match outcome.1 with
      | .error raised => (.error (.exception raised), outcome.2)
      | .ok result => (.ok (.toolCall toolName result), outcome.2)

def approvalGet (std : Stdlib) (tools : GatewayState ids) (params : Fields) :
    MethodOutcome ids :=
  let approval := tools.approvals.bind fun store =>
    store.get (textParam std params (py "approval_id") [])
  (.ok (.payload [(py "found", .bool approval.isSome),
    (py "approval", (approval.map fun found => .obj found.toPayload).getD .null)]), tools)

/-- `approval.approve` and `approval.reject` differ in the decision. -/
def approvalDecide (std : Stdlib) (decision : ApprovalDecision)
    (tools : GatewayState ids) (params : Fields) (env : RequestEnv) :
    MethodOutcome ids :=
  match tools.approvals with
  | none => (.error (.exception .typeError), tools)
  | some store =>
    match store.decide decision (textParam std params (py "approval_id") [])
        (textParam std params (py "actor") (py "gateway"))
        (textParam std params (py "reason") []) env.now with
    | .error raised => (.error (.exception raised), tools)
    | .ok (approval, next) =>
      (.ok (.payload [(py "approval", .obj approval.toPayload)]),
        tools.withApprovals (some next))

def approvalApprove (std : Stdlib) (tools : GatewayState ids) (params : Fields)
    (env : RequestEnv) : MethodOutcome ids :=
  approvalDecide std .approve tools params env

def approvalReject (std : Stdlib) (tools : GatewayState ids) (params : Fields)
    (env : RequestEnv) : MethodOutcome ids :=
  approvalDecide std .reject tools params env

/-- `case.create` and `flow.run` run an agent, which calls tools. -/
def runAgent (std : Stdlib) (gateway : McpGateway) (tools : GatewayState ids)
    (env : RequestEnv) : MethodOutcome ids :=
  (env.unmodelled.map fun _ => .unmodelled,
    env.agentCalls.foldl (fun tools call => (gateway.invoke std tools call).2) tools)

inductive GatewayMethod where
  | approvalGet
  | approvalApprove
  | approvalReject
  | toolInvoke
  | runAgent
  | unmodelled
  deriving DecidableEq

def registeredMethods : Dict PyStr GatewayMethod :=
  [(py "system.ping", .unmodelled), (py "system.list_methods", .unmodelled),
   (py "gateway.subscribe", .unmodelled),
   (py "gateway.unsubscribe", .unmodelled),
   (py "gateway.publish", .unmodelled),
   (py "approval.list", .unmodelled),
   (py "approval.get", .approvalGet),
   (py "approval.approve", .approvalApprove),
   (py "approval.reject", .approvalReject),
   (py "case.create", .runAgent),
   (py "case.get", .unmodelled),
   (py "case.list", .unmodelled),
   (py "case.resume", .unmodelled),
   (py "flow.run", .runAgent),
   (py "flow.checkpoints", .unmodelled),
   (py "skill.list", .unmodelled),
   (py "skill.get", .unmodelled),
   (py "skill.install", .unmodelled),
   (py "skill.set_default", .unmodelled),
   (py "skill.set_role", .unmodelled),
   (py "skill.enable", .unmodelled),
   (py "skill.disable", .unmodelled),
   (py "system.list_presence", .unmodelled),
   (py "tool.invoke", .toolInvoke),
   (py "tool.list", .unmodelled)]

def invokeMethod (std : Stdlib) (gateway : McpGateway) (tools : GatewayState ids)
    (method : PyStr) (params : Fields) (env : RequestEnv) : MethodOutcome ids :=
  match registeredMethods.get? method with
  | none =>
    (.error (.gatewayError (py "method_not_found")
      (py "gateway method not found: " ++ method)), tools)
  | some .approvalGet => approvalGet std tools params
  | some .approvalApprove => approvalApprove std tools params env
  | some .approvalReject => approvalReject std tools params env
  | some .toolInvoke => toolInvoke std gateway tools params env
  | some .runAgent => runAgent std gateway tools env
  | some .unmodelled => (env.unmodelled.map fun _ => .unmodelled, tools)

/-- The response frame requires a request id; without one the exception leaves
`handle_request`. -/
def respond (frame : GatewayRequestFrame)
    (outcome : Except GatewayFailure GatewayResult) :
    Except PyError GatewayResponseFrame := do
  let requestId ← RequiredStr.validate frame.requestId
  pure { requestId, outcome }

def GatewayServer.handleRequest (std : Stdlib) (server : GatewayServer)
    (state : ServerState ids) (frame : GatewayRequestFrame) (env : RequestEnv) :
    Except PyError GatewayResponseFrame × ServerState ids :=
  let checked := server.checkSecurity std state.tokens frame env
  match checked.1 with
  | .error failure => (respond frame (.error failure), state.withTokens checked.2)
  | .ok () =>
    let called := invokeMethod std server.gateway state.tools frame.method.val frame.params env
    (respond frame called.1, (state.withTokens checked.2).withTools called.2)

end RootSeeker.Gateway
