import RootSeeker.Policies.Approval

/-!
# Releases under manual override

A report whose quality gate blocks the release may still be released under an
approval.  The approvals of releases and those of tool calls live in one store
and are told apart only by what they were requested for, which the
orchestrator does not look at.
-/

namespace RootSeeker.Governance

open Python Contracts Policies

structure EvaluationReport where
  reportId : PyStr
  suiteName : PyStr
  gatePassed : Bool
  releaseAllowed : Bool
  gateReasons : List PyStr
  gatePolicyName : PyStr

inductive DeploymentDecisionStatus where
  | allowed
  | blocked
  | needsApproval
  deriving DecidableEq

structure DeploymentPolicyDecision where
  status : DeploymentDecisionStatus
  releaseAllowed : Bool
  reasons : List PyStr
  approvalIds : List PyStr
  gatePassed : Bool
  gatePolicyName : PyStr

structure DeploymentPolicyOrchestrator where
  allowManualOverride : Bool

variable {ids : IdSupply}

/-- What an identifier that is neither `None` nor empty names. -/
def givenApproval (store : ApprovalStore ids) : Option PyStr → Option ApprovalRequest
  | none => none
  | some approvalId => if approvalId = [] then none else store.get approvalId

def gateReasons (report : EvaluationReport) : List PyStr :=
  if report.gateReasons = [] then [py "release gate did not allow deployment"]
  else report.gateReasons

/-- The request for an override of the quality gate. -/
def requestOverride (store : ApprovalStore ids) (report : EvaluationReport)
    (now : PyStr) : ApprovalRequest × ApprovalStore ids :=
  store.createManual report.reportId (py "release-gate") (py "release.deploy")
    (py "admin")
    (py "deployment requires manual override because quality gate blocked release")
    [(py "suite_name", .str report.suiteName), (py "gate_policy_name", .str report.gatePolicyName),
     (py "gate_reasons", .arr (report.gateReasons.map Json.str))] now

def DeploymentPolicyOrchestrator.evaluate (orchestrator : DeploymentPolicyOrchestrator)
    (store : ApprovalStore ids) (report : EvaluationReport) (approvalId : Option PyStr)
    (now : PyStr) : DeploymentPolicyDecision × ApprovalStore ids :=
  if report.releaseAllowed then
    ({ status := .allowed
       releaseAllowed := true
       reasons := []
       approvalIds := []
       gatePassed := report.gatePassed
       gatePolicyName := report.gatePolicyName }, store)
  else if !orchestrator.allowManualOverride then
    ({ status := .blocked
       releaseAllowed := false
       reasons := gateReasons report
       approvalIds := []
       gatePassed := report.gatePassed
       gatePolicyName := report.gatePolicyName }, store)
  else
    match (givenApproval store approvalId).map ApprovalRequest.status with
    | some .approved =>
      ({ status := .allowed
         releaseAllowed := true
         reasons := [py "manual release override approved"]
         approvalIds := approvalId.toList
         gatePassed := report.gatePassed
         gatePolicyName := report.gatePolicyName }, store)
    | some .rejected =>
      ({ status := .blocked
         releaseAllowed := false
         reasons := gateReasons report ++ [py "manual release override rejected"]
         approvalIds := approvalId.toList
         gatePassed := report.gatePassed
         gatePolicyName := report.gatePolicyName }, store)
    | _ =>
      let requested := requestOverride store report now
      ({ status := .needsApproval
         releaseAllowed := false
         reasons := gateReasons report
         approvalIds := [requested.1.approvalId]
         gatePassed := report.gatePassed
         gatePolicyName := report.gatePolicyName }, requested.2)

/-! ## One evaluation -/

/-- The approval was requested for the release of this report. -/
def ForRelease (subject : ApprovalSubject) (report : EvaluationReport) : Prop :=
  subject.caseId = report.reportId ∧ subject.stepId = py "release-gate" ∧
    subject.toolName = py "release.deploy"

/-- What an evaluation should do. -/
structure ProperEvaluation (orchestrator : DeploymentPolicyOrchestrator)
    (store : ApprovalStore ids) (report : EvaluationReport) (approvalId : Option PyStr)
    (outcome : DeploymentPolicyDecision × ApprovalStore ids) : Prop where
  /-- A blocked release is allowed only under its own approval. -/
  released : outcome.1.releaseAllowed = true → report.releaseAllowed = false →
    orchestrator.allowManualOverride = true ∧
      ∃ id subject, approvalId = some id ∧ store.Authorizes id subject ∧
        ForRelease subject report
  /-- The stored approvals stay, and at most a pending one for this report is added. -/
  stored : outcome.2.items = store.items ∨
    ∃ id approval, store.get id = none ∧
      outcome.2.items = store.items ++ [(id, approval)] ∧
      approval.status = .pending ∧ ForRelease approval.subject report

/-- A blocked release is evaluated under an approval of something else. -/
def Misdirected (orchestrator : DeploymentPolicyOrchestrator)
    (store : ApprovalStore ids) (report : EvaluationReport)
    (approvalId : Option PyStr) : Prop :=
  report.releaseAllowed = false ∧ orchestrator.allowManualOverride = true ∧
    ∃ id subject, approvalId = some id ∧ store.Authorizes id subject ∧
      ¬ForRelease subject report

theorem givenApproval_eq_approved_iff (store : ApprovalStore ids) (approvalId : Option PyStr) :
    (givenApproval store approvalId).map ApprovalRequest.status = some .approved ↔
      ∃ id subject, approvalId = some id ∧ store.Authorizes id subject := by
  constructor
  · intro hgiven
    cases approvalId with
    | none => exact absurd hgiven (by simp [givenApproval])
    | some id =>
      have hid : id ≠ [] := by
        intro hnil
        simp [givenApproval, hnil] at hgiven
      rw [givenApproval, if_neg hid, Option.map_eq_some_iff] at hgiven
      obtain ⟨approval, hget, hstatus⟩ := hgiven
      rw [(ApprovalStore.standing_of_get hget).2, statusAfter_eq_approved_iff] at hstatus
      exact ⟨id, approval.subject, rfl, approval, hget, rfl, hstatus⟩
  · rintro ⟨id, subject, rfl, approval, hget, _, hverdict⟩
    have hstatus : approval.status = .approved := by
      rw [(ApprovalStore.standing_of_get hget).2, hverdict]
      rfl
    rw [givenApproval, if_neg (ApprovalStore.id_ne_nil_of_get hget), hget, Option.map_some, hstatus]

section OneEvaluation

variable {orchestrator : DeploymentPolicyOrchestrator} {store : ApprovalStore ids}
  {report : EvaluationReport} {approvalId : Option PyStr}

/-- A blocked release is allowed exactly under some approved approval. -/
theorem evaluate_releaseAllowed_iff (hblocked : report.releaseAllowed = false) (now : PyStr) :
    (orchestrator.evaluate store report approvalId now).1.releaseAllowed = true ↔
      orchestrator.allowManualOverride = true ∧
        ∃ id subject, approvalId = some id ∧ store.Authorizes id subject := by
  rw [← givenApproval_eq_approved_iff, DeploymentPolicyOrchestrator.evaluate, hblocked,
    if_neg (by simp)]
  cases horchestrator : orchestrator.allowManualOverride with
  | false => simp
  | true =>
    rw [if_neg (by simp)]
    split
    · rename_i hstatus
      simp [hstatus]
    · rename_i hstatus
      simp [hstatus]
    · rename_i hother _
      simpa using hother

/-- Whatever it decides, an evaluation adds at most its own request. -/
theorem evaluate_items (orchestrator : DeploymentPolicyOrchestrator) (store : ApprovalStore ids)
    (report : EvaluationReport) (approvalId : Option PyStr) (now : PyStr) :
    (orchestrator.evaluate store report approvalId now).2.items = store.items ∨
      ∃ id approval, store.get id = none ∧
        (orchestrator.evaluate store report approvalId now).2.items =
          store.items ++ [(id, approval)] ∧
        approval.status = .pending ∧ ForRelease approval.subject report := by
  rw [DeploymentPolicyOrchestrator.evaluate]
  split
  · exact Or.inl rfl
  · split
    · exact Or.inl rfl
    · split
      · exact Or.inl rfl
      · exact Or.inl rfl
      · apply Or.inr
        exact ⟨_, _, store.get_next_eq_none,
          store.items_createManual _ _ _ _ _ _ _, rfl, rfl, rfl, rfl⟩

theorem evaluate_proper_iff (now : PyStr) :
    ProperEvaluation orchestrator store report approvalId
        (orchestrator.evaluate store report approvalId now) ↔
      ¬Misdirected orchestrator store report approvalId := by
  constructor
  · rintro hproper ⟨hblocked, hoverride, id, subject, rfl, hauthorizes, hother⟩
    have hallowed := (evaluate_releaseAllowed_iff hblocked now).mpr
      ⟨hoverride, id, subject, rfl, hauthorizes⟩
    obtain ⟨_, other, own, hid, howned, hown⟩ := hproper.released hallowed hblocked
    obtain rfl := Option.some.inj hid
    rw [ApprovalStore.authorizes_iff] at hauthorizes howned
    obtain rfl := Option.some.inj (hauthorizes.1.symm.trans howned.1)
    exact hother hown
  · intro hdirected
    constructor
    · intro hallowed hblocked
      obtain ⟨hoverride, id, subject, hid, hauthorizes⟩ :=
        (evaluate_releaseAllowed_iff hblocked now).mp hallowed
      refine ⟨hoverride, id, subject, hid, hauthorizes, ?_⟩
      by_contra hother
      exact hdirected ⟨hblocked, hoverride, id, subject, hid, hauthorizes, hother⟩
    · exact evaluate_items orchestrator store report approvalId now

end OneEvaluation

/-! ## Runs -/

/-- The store is shared with the tool gateway, whose requests and whose
operators' decisions come in between. -/
inductive ReleaseOp where
  | evaluate (report : EvaluationReport) (approvalId : Option PyStr) (now : PyStr)
  | onStore (op : ApprovalStore.Op)

def ReleaseOp.apply (orchestrator : DeploymentPolicyOrchestrator)
    (store : ApprovalStore ids) : ReleaseOp → ApprovalStore ids
  | .evaluate report approvalId now => (orchestrator.evaluate store report approvalId now).2
  | .onStore op => op.apply store

def runReleaseOps (orchestrator : DeploymentPolicyOrchestrator)
    (start : ApprovalStore ids) (ops : List ReleaseOp) : ApprovalStore ids :=
  ops.foldl (ReleaseOp.apply orchestrator) start

/-- A property of the store before an evaluation, its report and the given
identifier holds at every evaluation of a run. -/
def AtEveryEvaluation (orchestrator : DeploymentPolicyOrchestrator)
    (start : ApprovalStore ids) (ops : List ReleaseOp)
    (holds : ApprovalStore ids → EvaluationReport → Option PyStr → PyStr → Prop) : Prop :=
  ∀ before report approvalId now after,
    ops = before ++ .evaluate report approvalId now :: after →
      holds (runReleaseOps orchestrator start before) report approvalId now

/-- In a run every evaluation is proper exactly when none is misdirected. -/
theorem evaluations_proper_iff (orchestrator : DeploymentPolicyOrchestrator)
    (start : ApprovalStore ids) (ops : List ReleaseOp) :
    (AtEveryEvaluation orchestrator start ops fun store report approvalId now =>
        ProperEvaluation orchestrator store report approvalId
          (orchestrator.evaluate store report approvalId now)) ↔
      AtEveryEvaluation orchestrator start ops fun store report approvalId _ =>
        ¬Misdirected orchestrator store report approvalId := by
  constructor
  · intro hproper before report approvalId now after hops
    exact (evaluate_proper_iff now).mp (hproper before report approvalId now after hops)
  · intro hdirected before report approvalId now after hops
    exact (evaluate_proper_iff now).mpr (hdirected before report approvalId now after hops)

/-! ## An approval of something else -/

def blockedReport : EvaluationReport where
  reportId := py "eval-1"
  suiteName := py "default"
  gatePassed := false
  releaseAllowed := false
  gateReasons := []
  gatePolicyName := py "default-release"

def notifyRequest : ToolCallRequest where
  caseId := RequiredStr.ofLiteral "case-1" Fixture.caseOne
  stepId := RequiredStr.ofLiteral "step-1" Fixture.stepOne
  skillName := RequiredStr.ofLiteral "skill" Fixture.skill
  toolName := RequiredStr.ofLiteral "notify.send" Fixture.notifySend
  arguments := []

def notifySpec : ToolSpec where
  name := RequiredStr.ofLiteral "notify.send" Fixture.notifySend
  permissionLevel := .write
  scope := .internal
  serverName := RequiredStr.ofLiteral "internal" Fixture.internal

/-- A tool call is approved, then its approval is given for a release. -/
def borrowedApproval : List ReleaseOp :=
  [.onStore (.createForTool notifyRequest notifySpec [] []),
   .onStore (.approve (approvalId unaryIds 0) (py "operator") [] []),
   .evaluate blockedReport (some (approvalId unaryIds 0)) []]

theorem tool_approval_releases :
    ¬AtEveryEvaluation { allowManualOverride := true } (ApprovalStore.empty unaryIds)
      borrowedApproval fun store report approvalId now =>
        ProperEvaluation { allowManualOverride := true } store report approvalId
          (DeploymentPolicyOrchestrator.evaluate { allowManualOverride := true } store
            report approvalId now) := by
  intro hproper
  have hlast := hproper
    [.onStore (.createForTool notifyRequest notifySpec [] []),
     .onStore (.approve (approvalId unaryIds 0) (py "operator") [] [])]
    blockedReport (some (approvalId unaryIds 0)) [] [] rfl
  obtain ⟨_, id, subject, hid, hauthorizes, hcase, _⟩ := hlast.released rfl rfl
  obtain rfl := Option.some.inj hid
  rw [ApprovalStore.authorizes_iff] at hauthorizes
  obtain rfl := Option.some.inj hauthorizes.1
  exact absurd hcase (by decide)

end RootSeeker.Governance
