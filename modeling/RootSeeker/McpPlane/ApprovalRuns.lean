import RootSeeker.McpPlane.Gateway

/-!
# Runs of calls and decisions

Calls of the gateway and operations on its approval store, in any order.  In
every run a tool that is not read-only runs only under an approval for that
very call whose latest decision is to approve it.
-/

namespace RootSeeker.McpPlane

open Python Contracts Policies

variable {ids : IdSupply}

inductive GatewayOp where
  | invoke (call : GatewayCall)
  | onStore (op : ApprovalStore.Op)

def GatewayOp.apply (std : Stdlib) (gateway : McpGateway) (state : GatewayState ids)
    (op : GatewayOp) : GatewayState ids :=
  match op with
  | .invoke call => (gateway.invoke std state call).2
  | .onStore op => state.withApprovals (state.approvals.map op.apply)

def runOps (std : Stdlib) (gateway : McpGateway) (start : GatewayState ids)
    (ops : List GatewayOp) : GatewayState ids :=
  ops.foldl (GatewayOp.apply std gateway) start

/-! ## One call -/

/-- What one call of a registered tool may do to the approvals and which
handlers it may run. -/
structure GuardedStep (std : Stdlib) (gateway : McpGateway) (store : ApprovalStore ids)
    (before after : GatewayState ids) (call : GatewayCall) (spec : ToolSpec) : Prop where
  /-- Reading never asks for an approval. -/
  read_free : spec.permissionLevel = .read → after.approvals = some store
  /-- When writes are denied, nothing else happens. -/
  write_denied : spec.permissionLevel ≠ .read → gateway.policy.denyWrite = true →
    after.executed = before.executed ∧ after.approvals = some store
  /-- Without a matching approval no handler runs and one is requested. -/
  unapproved : spec.permissionLevel ≠ .read → gateway.policy.denyWrite = false →
    ¬store.Authorizes (approvalIdOf std call.request)
      (ApprovalStore.subjectOf call.request spec) →
    after.executed = before.executed ∧
      ∃ next id approval, after.approvals = some next ∧ store.get id = none ∧
        next.items = store.items ++ [(id, approval)] ∧
        approval.status = .pending ∧
        approval.subject = ApprovalStore.subjectOf call.request spec
  /-- With a matching approval the store stays as it is. -/
  approved : spec.permissionLevel ≠ .read → gateway.policy.denyWrite = false →
    store.Authorizes (approvalIdOf std call.request)
      (ApprovalStore.subjectOf call.request spec) →
    after.approvals = some store

section OneCall

variable {std : Stdlib} {gateway : McpGateway} {state : GatewayState ids}
  {store : ApprovalStore ids} {call : GatewayCall} {spec : ToolSpec}

/-- The guard of a gateway that requires approvals. -/
theorem admits_iff (hrequired : gateway.policy.requireApprovalForWrite = true) :
    gateway.policy.Admits std (some store) call.request spec ↔
      spec.permissionLevel = .read ∨
        (gateway.policy.denyWrite = false ∧
          store.Authorizes (approvalIdOf std call.request)
            (ApprovalStore.subjectOf call.request spec)) := by
  have hguard : (gateway.policy.requireApprovalForWrite = false ∨
      ∃ other, some store = some other ∧ approvalIdOf std call.request ≠ [] ∧
        other.Authorizes (approvalIdOf std call.request)
          (ApprovalStore.subjectOf call.request spec)) ↔
      store.Authorizes (approvalIdOf std call.request)
        (ApprovalStore.subjectOf call.request spec) := by
    constructor
    · rintro (hfree | ⟨other, hother, _, hauthorizes⟩)
      · rw [hrequired] at hfree
        exact absurd hfree (by simp)
      · rw [Option.some.inj hother]
        exact hauthorizes
    · intro hauthorizes
      have hstored := hauthorizes
      obtain ⟨approval, hget, _⟩ := hstored
      exact Or.inr ⟨store, rfl, ApprovalStore.id_ne_nil_of_get hget, hauthorizes⟩
  rw [PolicyGuard.Admits, hguard]

theorem invoke_guarded (hrequired : gateway.policy.requireApprovalForWrite = true)
    (hstore : state.approvals = some store)
    (hspec : gateway.registry.getSpec call.request.toolName.val = some spec) :
    GuardedStep std gateway store state (gateway.invoke std state call).2 call spec := by
  have hadmitsIff : gateway.policy.Admits std state.approvals call.request spec ↔
      spec.permissionLevel = .read ∨
        (gateway.policy.denyWrite = false ∧
          store.Authorizes (approvalIdOf std call.request)
            (ApprovalStore.subjectOf call.request spec)) := by
    rw [hstore]
    exact admits_iff hrequired
  by_cases hadmits : gateway.policy.Admits std state.approvals call.request spec
  · rw [invoke_of_admits hspec hadmits]
    have happrovals := (callTool_state gateway state call spec).1
    rw [hstore] at happrovals
    refine ⟨fun _ => happrovals, ?_, ?_, fun _ _ _ => happrovals⟩
    · intro hwrite hdenied
      rcases hadmitsIff.mp hadmits with hread | ⟨hallowed, _⟩
      · exact absurd hread hwrite
      · exact absurd (hdenied.symm.trans hallowed) (by simp)
    · intro hwrite _ hunauthorized
      rcases hadmitsIff.mp hadmits with hread | ⟨_, hauthorizes⟩
      · exact absurd hread hwrite
      · exact absurd hauthorizes hunauthorized
  · obtain ⟨code, reason, details, retryable, approvals, hinvoke, hexit⟩ :=
      invoke_of_not_admits hspec hadmits
    rw [hinvoke]
    obtain ⟨happrovals, hexecuted⟩ := refuse_state call (state.withApprovals approvals)
      code (py reason ++ call.request.toolName.val) details retryable
    rw [GatewayState.withApprovals_approvals] at happrovals
    rw [hadmitsIff, not_or, not_and] at hadmits
    refine ⟨fun hread => absurd hread hadmits.1, ?_, ?_, ?_⟩
    · intro _ hdenied
      rcases hexit with ⟨rfl, _⟩ | ⟨hallowed, _⟩
      · exact ⟨hexecuted, happrovals.trans hstore⟩
      · exact absurd (hdenied.symm.trans hallowed) (by simp)
    · intro _ hallowed _
      rcases hexit with ⟨_, hdenied | hnone⟩ | ⟨_, found, hfound, rfl⟩
      · exact absurd (hdenied.symm.trans hallowed) (by simp)
      · exact absurd (hstore.symm.trans hnone) (Option.some_ne_none store)
      · obtain rfl := Option.some.inj (hstore.symm.trans hfound)
        exact ⟨hexecuted, _, _, _, happrovals, store.get_next_eq_none,
          store.items_createManual _ _ _ _ _ _ _, rfl, rfl⟩
    · intro _ hallowed hauthorizes
      exact absurd hauthorizes (hadmits.2 hallowed)

end OneCall

/-! ## Runs -/

theorem runOps_append (std : Stdlib) (gateway : McpGateway) (start : GatewayState ids)
    (ops : List GatewayOp) (op : GatewayOp) :
    runOps std gateway start (ops ++ [op]) =
      op.apply std gateway (runOps std gateway start ops) := by
  rw [runOps, List.foldl_append]
  rfl

/-- The store is never taken away. -/
theorem apply_approvals {std : Stdlib} {gateway : McpGateway} {state : GatewayState ids}
    (hstore : ∃ store, state.approvals = some store) (op : GatewayOp) :
    ∃ next, (op.apply std gateway state).approvals = some next := by
  obtain ⟨store, hstore⟩ := hstore
  cases op with
  | invoke call =>
    rcases invoke_approvals std gateway state call with
      hsame | ⟨found, spec, _, hrequested⟩
    · exact ⟨store, hsame.trans hstore⟩
    · exact ⟨_, hrequested⟩
  | onStore op => exact ⟨op.apply store, congrArg (Option.map _) hstore⟩

theorem runOps_approvals (std : Stdlib) (gateway : McpGateway)
    (store : ApprovalStore ids) (ops : List GatewayOp) :
    ∃ next, (runOps std gateway (startingWith store) ops).approvals = some next := by
  induction ops using List.reverseRecOn with
  | nil => exact ⟨store, rfl⟩
  | append_singleton ops op ih =>
    rw [runOps_append]
    exact apply_approvals ih op

/-- Every handler that has run was admitted at its own call. -/
theorem runOps_executed (std : Stdlib) (gateway : McpGateway) (store : ApprovalStore ids)
    (ops : List GatewayOp) :
    ∀ handlerRun ∈ (runOps std gateway (startingWith store) ops).executed,
      ∃ before call after, ops = before ++ .invoke call :: after ∧
        handlerRun.request = call.request ∧
        gateway.policy.Admits std
          (runOps std gateway (startingWith store) before).approvals
          call.request handlerRun.spec := by
  induction ops using List.reverseRecOn with
  | nil =>
    intro handlerRun hmem
    exact absurd hmem List.not_mem_nil
  | append_singleton ops op ih =>
    intro handlerRun hmem
    have hearlier : handlerRun ∈ (runOps std gateway (startingWith store) ops).executed →
        ∃ before call after, ops ++ [op] = before ++ .invoke call :: after ∧
          handlerRun.request = call.request ∧
          gateway.policy.Admits std
            (runOps std gateway (startingWith store) before).approvals
            call.request handlerRun.spec := by
      intro hold
      obtain ⟨before, call, after, rfl, hrequest, hadmits⟩ := ih handlerRun hold
      exact ⟨before, call, after ++ [op], by simp, hrequest, hadmits⟩
    rw [runOps_append] at hmem
    cases op with
    | invoke call =>
      rcases invoke_executed std gateway
          (runOps std gateway (startingWith store) ops) call with
        hsame | ⟨spec, _, hadmits, hran⟩
      · exact hearlier (hsame ▸ hmem)
      · rw [GatewayOp.apply, hran, List.mem_append, List.mem_singleton] at hmem
        rcases hmem with hold | rfl
        · exact hearlier hold
        · exact ⟨ops, call, [], rfl, rfl, hadmits⟩
    | onStore op => exact hearlier hmem

/-- In every run of calls and decisions, handlers of tools that are not
read-only run only under a matching approval, and every call treats the stored
approvals as the guard demands. -/
theorem write_tools_need_matching_approval (std : Stdlib) (gateway : McpGateway)
    (hrequired : gateway.policy.requireApprovalForWrite = true)
    (store : ApprovalStore ids) (ops : List GatewayOp) :
    (∀ handlerRun ∈ (runOps std gateway (startingWith store) ops).executed,
      handlerRun.spec.permissionLevel ≠ .read →
        gateway.policy.denyWrite = false ∧
          ∃ before call after current, ops = before ++ .invoke call :: after ∧
            handlerRun.request = call.request ∧
            (runOps std gateway (startingWith store) before).approvals = some current ∧
            current.Authorizes (approvalIdOf std call.request)
              (ApprovalStore.subjectOf call.request handlerRun.spec)) ∧
      ∀ before call after spec, ops = before ++ .invoke call :: after →
        gateway.registry.getSpec call.request.toolName.val = some spec →
          ∃ current,
            (runOps std gateway (startingWith store) before).approvals = some current ∧
              GuardedStep std gateway current
                (runOps std gateway (startingWith store) before)
                (runOps std gateway (startingWith store) (before ++ [.invoke call]))
                call spec := by
  constructor
  · intro handlerRun hmem hwrite
    obtain ⟨before, call, after, hops, hrequest, hadmits⟩ :=
      runOps_executed std gateway store ops handlerRun hmem
    obtain ⟨current, hcurrent⟩ := runOps_approvals std gateway store before
    rw [hcurrent, admits_iff hrequired] at hadmits
    rcases hadmits with hread | ⟨hallowed, hauthorizes⟩
    · exact absurd hread hwrite
    · exact ⟨hallowed, before, call, after, current, hops, hrequest, hcurrent, hauthorizes⟩
  · intro before call after spec _ hspec
    obtain ⟨current, hcurrent⟩ := runOps_approvals std gateway store before
    rw [runOps_append]
    exact ⟨current, hcurrent, invoke_guarded hrequired hcurrent hspec⟩

/-! ## An approved call -/

def deployTool : RequiredStr := RequiredStr.ofLiteral "release.deploy" Fixture.releaseDeploy

def deployCall (arguments : Fields) : GatewayCall :=
  toolCall deployTool arguments (.returned (.mapping []))

def deployGateway : McpGateway :=
  oneToolGateway (toolSpec deployTool .write)
    { denyWrite := false, requireApprovalForWrite := true }

/-- Ask, have it approved, and call again under the approval. -/
def approvedRun : List GatewayOp :=
  [.invoke (deployCall []),
   .onStore (.approve (approvalId unaryIds 0) (py "operator") [] []),
   .invoke (deployCall [(py "approval_id", .str (approvalId unaryIds 0))])]

theorem approvedRun_executed :
    (runOps asciiStdlib deployGateway (startingWith (ApprovalStore.empty unaryIds))
      approvedRun).executed =
      [⟨toolSpec deployTool .write,
        (deployCall [(py "approval_id", .str (approvalId unaryIds 0))]).request⟩] := by
  rfl

theorem approved_call_runs :
    ∃ before call after current, approvedRun = before ++ .invoke call :: after ∧
      (deployCall [(py "approval_id", .str (approvalId unaryIds 0))]).request =
        call.request ∧
      (runOps asciiStdlib deployGateway (startingWith (ApprovalStore.empty unaryIds))
        before).approvals = some current ∧
      current.Authorizes (approvalIdOf asciiStdlib call.request)
        (ApprovalStore.subjectOf call.request (toolSpec deployTool .write)) :=
  ((write_tools_need_matching_approval asciiStdlib deployGateway rfl
    (ApprovalStore.empty unaryIds) approvedRun).1 _
      (approvedRun_executed ▸ List.mem_singleton_self _) (by decide)).2

end RootSeeker.McpPlane
