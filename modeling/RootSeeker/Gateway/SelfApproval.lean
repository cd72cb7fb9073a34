import RootSeeker.Gateway.Server

/-!
# Approving one's own calls

A client that may call tools can only run tools that are not read-only under
an approval.  In runs without a request that approves a stored approval this
never happens.  The method that approves is open to every client, though, since
the capability table does not list it.
-/

namespace RootSeeker.Gateway

open Python Contracts Policies McpPlane

variable {ids : IdSupply}

/-- Nothing is approved, and only read-only tools have run. -/
structure Confined (tools : GatewayState ids) : Prop where
  nothing_approved : ∀ store, tools.approvals = some store →
    ∀ id, store.ledger.verdict? id ≠ some .approve
  only_reads : ∀ handlerRun ∈ tools.executed, handlerRun.spec.permissionLevel = .read

section Steps

variable {std : Stdlib} {gateway : McpGateway} {tools : GatewayState ids}

theorem Confined.admits_read (hrequired : gateway.policy.requireApprovalForWrite = true)
    (hconfined : Confined tools) {request : ToolCallRequest} {spec : ToolSpec}
    (hadmits : gateway.policy.Admits std tools.approvals request spec) :
    spec.permissionLevel = .read := by
  rcases hadmits with hread | ⟨_, hfree | ⟨store, hstore, _, hauthorizes⟩⟩
  · exact hread
  · exact absurd (hrequired.symm.trans hfree) (by simp)
  · rw [ApprovalStore.authorizes_iff] at hauthorizes
    exact absurd hauthorizes.2 (hconfined.nothing_approved store hstore _)

theorem Confined.invoke (hrequired : gateway.policy.requireApprovalForWrite = true)
    (hconfined : Confined tools) (call : GatewayCall) :
    Confined (gateway.invoke std tools call).2 := by
  constructor
  · intro next hnext id
    rcases invoke_approvals std gateway tools call with
      hsame | ⟨store, spec, hstore, hrequested⟩
    · exact hconfined.nothing_approved next (hsame.symm.trans hnext) id
    · obtain rfl := Option.some.inj (hrequested.symm.trans hnext)
      have hledger : (requestedApproval store call.request spec call.now).2.ledger =
          store.ledger ++ [.request _ _] := store.ledger_createManual _ _ _ _ _ _ _
      rw [hledger, Ledger.verdict?_append_request]
      exact hconfined.nothing_approved store hstore id
  · intro handlerRun hmem
    rcases invoke_executed std gateway tools call with
      hsame | ⟨spec, _, hadmits, hran⟩
    · exact hconfined.only_reads handlerRun (hsame ▸ hmem)
    · rw [hran, List.mem_append, List.mem_singleton] at hmem
      rcases hmem with hold | rfl
      · exact hconfined.only_reads handlerRun hold
      · exact hconfined.admits_read hrequired hadmits

/-- A decision keeps the confinement unless it approves a stored approval. -/
theorem Confined.approvalDecide (hconfined : Confined tools)
    (decision : ApprovalDecision) (params : Fields) (env : RequestEnv)
    (hdecision : decision = .approve → ∀ store, tools.approvals = some store →
      store.get (textParam std params (py "approval_id") []) = none) :
    Confined (approvalDecide std decision tools params env).2 := by
  unfold Gateway.approvalDecide
  cases hstore : tools.approvals with
  | none => exact hconfined
  | some store =>
    cases hget : store.get (textParam std params (py "approval_id") []) with
    | none =>
      simp only [ApprovalStore.decide_of_unknown hget]
      exact hconfined
    | some approval =>
      simp only [ApprovalStore.decide_of_get hget]
      constructor
      · intro next hnext id
        obtain rfl := Option.some.inj hnext
        rw [ApprovalStore.ledger_record, Ledger.verdict?_append_decision]
        split
        · intro happroved
          have hunknown := hdecision (Option.some.inj happroved) store hstore
          exact absurd (hget.symm.trans hunknown) (Option.some_ne_none approval)
        · exact hconfined.nothing_approved store hstore id
      · exact hconfined.only_reads

theorem Confined.toolInvoke (hrequired : gateway.policy.requireApprovalForWrite = true)
    (hconfined : Confined tools) (params : Fields) (env : RequestEnv) :
    Confined (toolInvoke std gateway tools params env).2 := by
  simp only [Gateway.toolInvoke]
  split
  · exact hconfined
  · split
    · exact hconfined
    · rename_i request _
      have hinvoked : Confined (gateway.invoke std tools (methodCall request env)).2 :=
        hconfined.invoke hrequired _
      split
      · exact hinvoked
      · exact hinvoked

theorem Confined.runAgent (hrequired : gateway.policy.requireApprovalForWrite = true)
    (hconfined : Confined tools) (env : RequestEnv) : Confined (runAgent std gateway tools env).2 :=
  List.foldlRecOn env.agentCalls _ hconfined
    fun _ hbefore call _ => hbefore.invoke hrequired call

end Steps

/-! ## Requests -/

/-- The security check lets a request through that approves a stored approval. -/
def ApprovesStored (std : Stdlib) (server : GatewayServer) (state : ServerState ids)
    (frame : GatewayRequestFrame) (env : RequestEnv) : Prop :=
  (server.checkSecurity std state.tokens frame env).1 = .ok () ∧
    frame.method.val = py "approval.approve" ∧
    ∃ store approval, state.tools.approvals = some store ∧
      store.get (textParam std frame.params (py "approval_id") []) = some approval

/-- The only method that approves is `approval.approve`. -/
theorem method_eq_of_approvalApprove {method : PyStr}
    (hmethod : registeredMethods.get? method = some .approvalApprove) :
    method = py "approval.approve" := by
  have hmem := Dict.mem_of_get? hmethod
  simp only [registeredMethods, List.mem_cons, Prod.mk.injEq, reduceCtorEq, and_false,
    and_true, false_or, List.not_mem_nil, or_false] at hmem
  exact hmem

theorem Confined.handleRequest {std : Stdlib} {server : GatewayServer} {state : ServerState ids}
    (hrequired : server.gateway.policy.requireApprovalForWrite = true)
    (hconfined : Confined state.tools) (frame : GatewayRequestFrame) (env : RequestEnv)
    (hharmless : ¬ApprovesStored std server state frame env) :
    Confined (server.handleRequest std state frame env).2.tools := by
  simp only [GatewayServer.handleRequest]
  split
  · exact hconfined
  · rename_i hallowed
    change Confined (invokeMethod std server.gateway state.tools frame.method.val
      frame.params env).2
    unfold invokeMethod
    split
    · exact hconfined
    · exact hconfined
    · rename_i hmethod
      apply hconfined.approvalDecide
      intro _ store hstore
      rw [Option.eq_none_iff_forall_ne_some]
      intro approval hget
      exact hharmless ⟨hallowed, method_eq_of_approvalApprove hmethod, store, approval,
        hstore, hget⟩
    · apply hconfined.approvalDecide
      intro hdecision
      exact absurd hdecision (by simp)
    · exact hconfined.toolInvoke hrequired frame.params env
    · exact hconfined.runAgent hrequired env
    · exact hconfined

/-! ## Runs -/

def runRequests (std : Stdlib) (server : GatewayServer) (start : ServerState ids)
    (requests : List (GatewayRequestFrame × RequestEnv)) : ServerState ids :=
  requests.foldl
    (fun state request => (server.handleRequest std state request.1 request.2).2) start

theorem runRequests_append (std : Stdlib) (server : GatewayServer)
    (start : ServerState ids) (requests : List (GatewayRequestFrame × RequestEnv))
    (request : GatewayRequestFrame × RequestEnv) :
    runRequests std server start (requests ++ [request]) =
      (server.handleRequest std (runRequests std server start requests)
        request.1 request.2).2 := by
  rw [runRequests, List.foldl_append]
  rfl

/-- Whoever the clients are: in a run in which no request approves a stored
approval, no tool runs that is not read-only. -/
theorem no_self_approval (std : Stdlib) (server : GatewayServer)
    (hrequired : server.gateway.policy.requireApprovalForWrite = true) (tokens : TokenTable)
    (store : ApprovalStore ids) (hstore : ∀ id, store.ledger.verdict? id ≠ some .approve)
    (requests : List (GatewayRequestFrame × RequestEnv)) (hharmless : ∀ before frame env after,
      requests = before ++ (frame, env) :: after →
        ¬ApprovesStored std server
          (runRequests std server ⟨tokens, startingWith store⟩ before) frame env) :
    ∀ handlerRun ∈
        (runRequests std server ⟨tokens, startingWith store⟩ requests).tools.executed,
      handlerRun.spec.permissionLevel = .read := by
  have hconfined :
      Confined (runRequests std server ⟨tokens, startingWith store⟩ requests).tools := by
    induction requests using List.reverseRecOn with
    | nil =>
      constructor
      · intro next hnext id
        rw [← Option.some.inj hnext]
        exact hstore id
      · intro handlerRun hmem
        exact absurd hmem List.not_mem_nil
    | append_singleton requests request ih =>
      have hbefore := ih fun before frame env after hrequests =>
        hharmless before frame env (after ++ [request]) (by simp [hrequests])
      rw [runRequests_append]
      exact hbefore.handleRequest hrequired request.1 request.2
        (hharmless requests request.1 request.2 [] rfl)
  exact hconfined.only_reads

/-! ## A client with one capability -/

def deploySpec : ToolSpec :=
  toolSpec (RequiredStr.ofLiteral "release.deploy" Fixture.releaseDeploy) .write

def deployServer : GatewayServer where
  gateway := oneToolGateway deploySpec { denyWrite := false, requireApprovalForWrite := true }
  authorizer := .default
  authEnabled := true
  signed _ := .ok none

def toolClient : AuthCredentials where
  clientId := py "client-1"
  token := py "token-1"
  capabilities := [py "tool:invoke"]
  expiresAt := none

def quietEnv : RequestEnv where
  retryAfter := none
  authenticatedAt := 0
  validatedAt := 0
  now := []
  outcome := .returned (.mapping [])
  latencyMs := 0
  auditLatencyMs := 0
  agentCalls := []
  unmodelled := .ok ()

/-- A request of the client. -/
def clientRequest (method : RequiredStr) (params : Fields) :
    GatewayRequestFrame × RequestEnv :=
  ({ requestId := py "gw-req-1"
     method := method
     params := (py "token", .str toolClient.token) :: params }, quietEnv)

def deployRequest (arguments : Fields) : GatewayRequestFrame × RequestEnv :=
  clientRequest (RequiredStr.ofLiteral "tool.invoke" (by decide))
    [(py "tool_name", .str deploySpec.name.val), (py "arguments", .obj arguments)]

/-- Asking twice does not help. -/
theorem asking_twice_runs_nothing :
    List.Forall (fun handlerRun => handlerRun.spec.permissionLevel = .read)
      (runRequests asciiStdlib deployServer
        ⟨[(toolClient.token, toolClient)], startingWith (ApprovalStore.empty unaryIds)⟩
        [deployRequest [], deployRequest []]).tools.executed := by
  rw [List.forall_iff_forall_mem]
  apply no_self_approval asciiStdlib deployServer rfl
  · intro id hverdict
    exact absurd hverdict (by simp [ApprovalStore.ledger, ApprovalStore.empty, ledgerOf,
      Ledger.verdict?])
  · rintro before frame env after hrequests ⟨_, hmethod, _⟩
    have hmem : (frame, env) ∈ [deployRequest [], deployRequest []] := by
      rw [hrequests]
      simp
    rw [List.mem_pair, or_self] at hmem
    have hframe : frame = (deployRequest []).1 := congrArg Prod.fst hmem
    rw [hframe] at hmethod
    exact absurd hmethod (by decide)

/-- Ask, approve, ask again. -/
def selfApproval : List (GatewayRequestFrame × RequestEnv) :=
  [deployRequest [],
   clientRequest (RequiredStr.ofLiteral "approval.approve" (by decide))
     [(py "approval_id", .str (approvalId unaryIds 0))],
   deployRequest [(py "approval_id", .str (approvalId unaryIds 0))]]

/-- A client whose only capability is `tool:invoke` runs a write tool. -/
theorem client_approves_its_own_call :
    toolClient.capabilities = [py "tool:invoke"] ∧
      (∀ request ∈ selfApproval,
        tokenOf asciiStdlib request.1.params = toolClient.token) ∧
      ¬∀ handlerRun ∈
          (runRequests asciiStdlib deployServer
            ⟨[(toolClient.token, toolClient)],
              startingWith (ApprovalStore.empty unaryIds)⟩
            selfApproval).tools.executed,
        handlerRun.spec.permissionLevel = .read := by
  refine ⟨rfl, by decide, ?_⟩
  intro hreads
  exact absurd (hreads ⟨deploySpec, _⟩ List.mem_cons_self) (by decide)

end RootSeeker.Gateway
