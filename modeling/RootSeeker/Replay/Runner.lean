import RootSeeker.ChannelRouting.Webhook
import RootSeeker.Core.Loops
import RootSeeker.Evaluation.QualityGate
import RootSeeker.Governance.DeploymentPolicy

/-!
# Replaying a suite

Each case of a suite is replayed through the default flow, measured, and the
suite is put to the release gate.  The default flow hands out no tool results,
so the gate takes every run for one whose audit is missing.
-/

namespace RootSeeker.Replay

open Python Contracts Analysis Policies ChannelRouting Evaluation Governance

/-- What `run_case_detailed` leaves: its result, and the records of the case in the stores. -/
structure AgentOutcome where
  caseId : RequiredStr
  status : PyStr
  case : Option CaseRecord
  pack : Option EvidencePack
  report : Option CaseReport

/-- A runtime over states of some type. -/
structure DevRuntime (σ : Type) where
  runCaseDetailed : σ → CaseCreateRequest → Except PyError AgentOutcome × σ
  /-- `build_case_report` of a case id, a title and a pack. -/
  buildCaseReport : PyStr → PyStr → EvidencePack → Except PyError CaseReport

section DefaultFlow

variable {σ : Type} (runtime : DevRuntime σ)

/-- The record of a case that is not in the store. -/
def failedCase (caseId : RequiredStr) (caseRequest : CaseCreateRequest) : CaseRecord where
  caseId := caseId
  title := caseRequest.title
  symptom := caseRequest.symptom
  serviceName := caseRequest.serviceName
  source := caseRequest.source
  status := .failed
  selectedSkills := []
  steps := []
  metadata := [(py "error_code", .str (py "SKILL_PLANNER_FAILED"))]

/-- The result of the default flow, with what the stores do not have filled in. -/
def flowResult (caseRequest : CaseCreateRequest) (outcome : AgentOutcome) :
    Except PyError DefaultFlowRunResult := do
  let case := outcome.case.getD (failedCase outcome.caseId caseRequest)
  let pack := outcome.pack.getD { caseId := outcome.caseId, items := [], summary := outcome.status }
  let report ← outcome.report.elim
    (runtime.buildCaseReport outcome.caseId.val case.title.val pack) .ok
  pure { case := case, evidencePack := pack, report := report, toolResults := [] }

def runDefaultFlowFromCaseRequest (state : σ) (caseRequest : CaseCreateRequest) :
    Except PyError DefaultFlowRunResult × σ :=
  let answered := runtime.runCaseDetailed state caseRequest
  (answered.1.bind (flowResult runtime caseRequest), answered.2)

def runDefaultFlowFromPayload (std : NumberStdlib) (analysis : TextAnalysis) (state : σ)
    (payload : Fields) : Except PyError DefaultFlowRunResult × σ :=
  match webhookPayloadToCaseCreate std analysis payload with
  | .error error => (.error error, state)
  | .ok caseRequest => runDefaultFlowFromCaseRequest runtime state caseRequest

theorem toolResults_flowResult {caseRequest : CaseCreateRequest} {outcome : AgentOutcome}
    {run : DefaultFlowRunResult} (hrun : flowResult runtime caseRequest outcome = .ok run) :
    run.toolResults = [] := by
  rw [flowResult] at hrun
  obtain ⟨report, _, hpure⟩ := Loops.exists_of_bind_eq_ok hrun
  rw [← Except.ok.inj hpure]

/-- No run of the default flow has tool results. -/
theorem toolResults_runDefaultFlowFromPayload {std : NumberStdlib} {analysis : TextAnalysis}
    {state : σ} {payload : Fields} {run : DefaultFlowRunResult}
    (hrun : (runDefaultFlowFromPayload runtime std analysis state payload).1 = .ok run) :
    run.toolResults = [] := by
  rw [runDefaultFlowFromPayload] at hrun
  split at hrun
  · exact absurd hrun (by simp)
  · obtain ⟨outcome, _, hresult⟩ := Loops.exists_of_bind_eq_ok hrun
    exact toolResults_flowResult runtime hresult

end DefaultFlow

/-! ## The suite -/

structure ReplayRunSnapshot where
  replayId : RequiredStr
  runId : PyStr
  caseId : RequiredStr
  skillName : RequiredStr
  passed : Bool
  metrics : Dict PyStr ℚ
  errors : List PyStr

section Suite

variable {σ : Type} (runtime : DevRuntime σ) (std : NumberStdlib) (analysis : TextAnalysis)
  (scan : LeakScan) (ids : IdSupply)

/-- The snapshot of a run; the trace, whose texts are checked in the same way, is left out. -/
def snapshotOf (case : ReplayCaseSpec) (runId : PyStr) (run : DefaultFlowRunResult)
    (metrics : Dict PyStr ℚ) : Except PyError ReplayRunSnapshot := do
  let skillName ← RequiredStr.validate (run.case.selectedSkills.headD (py "unknown"))
  pure
    { replayId := case.replayId
      runId := runId
      caseId := run.case.caseId
      skillName := skillName
      passed := run.case.status = .completed
      metrics := metrics
      errors := run.toolResults.filterMap fun result => result.error.map (·.message.val) }

/-- One turn of the inner loop of `run_suite`. -/
def replayOnce (state : σ) (number : ℕ) (case : ReplayCaseSpec) :
    Except PyError ReplayRunSnapshot × σ :=
  let replayed := runDefaultFlowFromPayload runtime std analysis state case.alertPayload
  (replayed.1.bind fun run =>
    snapshotOf case (newId ids (py "replay-run-") number) run
      (evaluateRunMetrics std.toStdlib scan run case), replayed.2)

/-- The loops of `run_suite`, over the cases in the order in which they are replayed. -/
def replayAll : σ → ℕ → List ReplayCaseSpec → Except PyError (List ReplayRunSnapshot)
  | _, _, [] => .ok []
  | state, number, case :: rest => do
    let replayed := replayOnce runtime std analysis scan ids state number case
    let snapshot ← replayed.1
    let snapshots ← replayAll replayed.2 (number + 1) rest
    pure (snapshot :: snapshots)

/-- `build_evaluation_report`. -/
def buildEvaluationReport (reportId suiteName : PyStr) (gateResult : QualityGateResult) :
    EvaluationReport where
  reportId := reportId
  suiteName := suiteName
  gatePassed := gateResult.passed
  releaseAllowed := gateResult.releaseAllowed
  gateReasons := gateResult.reasons
  gatePolicyName := gateResult.policyName

structure ReplaySuiteResult where
  report : EvaluationReport
  snapshots : List ReplayRunSnapshot

def runSuite (policy : Option QualityGatePolicy) (state : σ) (cases : List ReplayCaseSpec)
    (suiteName : PyStr) (repeatEach : ℕ) : Except PyError ReplaySuiteResult :=
  if repeatEach < 1 then .error (.valueError (py "repeat_each must be >= 1"))
  else do
    let replayed := cases.flatMap (List.replicate repeatEach)
    let snapshots ← replayAll runtime std analysis scan ids state 0 replayed
    let aggregate := aggregateSuiteMetrics (snapshots.map (·.metrics))
    pure
      { report := buildEvaluationReport (newId ids (py "eval-") replayed.length) suiteName
          (evaluateQualityGate aggregate policy)
        snapshots := snapshots }

end Suite

/-! ## The verdict -/

section Verdict

variable {σ : Type} {runtime : DevRuntime σ} {std : NumberStdlib} {analysis : TextAnalysis}
  {scan : LeakScan} {ids : IdSupply}

/-- The audit of a replayed run is missing. -/
def AuditMissing (snapshot : ReplayRunSnapshot) : Prop :=
  (snapshot.metrics.get? (py "audit_completeness")).getD 0 = 0

theorem auditMissing_of_replayOnce {state : σ} {number : ℕ} {case : ReplayCaseSpec}
    {snapshot : ReplayRunSnapshot}
    (hreplay : (replayOnce runtime std analysis scan ids state number case).1 = .ok snapshot) :
    AuditMissing snapshot := by
  obtain ⟨run, hrun, hsnapshot⟩ := Loops.exists_of_bind_eq_ok hreplay
  obtain ⟨skillName, _, hpure⟩ := Loops.exists_of_bind_eq_ok hsnapshot
  rw [← Except.ok.inj hpure]
  exact audit_eq_zero (toolResults_runDefaultFlowFromPayload runtime hrun) case

theorem auditMissing_of_replayAll {state : σ} {number : ℕ} {cases : List ReplayCaseSpec}
    {snapshots : List ReplayRunSnapshot}
    (hreplay : replayAll runtime std analysis scan ids state number cases = .ok snapshots) :
    ∀ snapshot ∈ snapshots, AuditMissing snapshot := by
  induction cases generalizing state number snapshots with
  | nil =>
    rw [← Except.ok.inj hreplay]
    exact List.forall_mem_nil _
  | cons case rest ih =>
    obtain ⟨snapshot, hsnapshot, hreplay⟩ := Loops.exists_of_bind_eq_ok hreplay
    obtain ⟨others, hothers, hpure⟩ := Loops.exists_of_bind_eq_ok hreplay
    rw [← Except.ok.inj hpure, List.forall_mem_cons]
    exact ⟨auditMissing_of_replayOnce hsnapshot, ih hothers⟩

/-- The default gate is closed to every suite. -/
theorem not_passed_of_runSuite {state : σ} {cases : List ReplayCaseSpec} {suiteName : PyStr}
    {repeatEach : ℕ} {result : ReplaySuiteResult}
    (hrun : runSuite runtime std analysis scan ids none state cases suiteName repeatEach =
      .ok result) : result.report.gatePassed = false ∧ result.report.releaseAllowed = false := by
  rw [runSuite] at hrun
  split at hrun
  · exact absurd hrun (by simp)
  obtain ⟨snapshots, hsnapshots, hpure⟩ := Loops.exists_of_bind_eq_ok hrun
  have hmissing := auditMissing_of_replayAll hsnapshots
  have hzero : ((aggregateSuiteMetrics (snapshots.map (·.metrics))).get?
      (py "audit_completeness")).getD 0 = 0 := by
    apply aggregate_eq_zero
    intro metrics hmetrics
    obtain ⟨snapshot, hsnapshot, rfl⟩ := List.mem_map.mp hmetrics
    exact hmissing snapshot hsnapshot
  have hclosed : (evaluateQualityGate (aggregateSuiteMetrics (snapshots.map (·.metrics)))
      none).passed = false := by
    have hmem : (py "audit_completeness", toDouble (99 / 100)) ∈
        defaultQualityGatePolicy.minThresholds :=
      List.mem_cons_of_mem _ (List.mem_cons_of_mem _ List.mem_cons_self)
    have hpositive : 0 < toDouble (99 / 100) := by decide +kernel
    exact not_passed_of_tooLow hmem (hzero.trans_lt hpositive)
  rw [← Except.ok.inj hpure]
  refine ⟨hclosed, ?_⟩
  rw [buildEvaluationReport, QualityGateResult.releaseAllowed, hclosed]
  rfl

/-- What a replayed case should look like: it is completed for the expected service, its steps
have succeeded, the expected trace is in the evidence and nothing sensitive is found. -/
structure GoodRun (std : Stdlib) (scan : LeakScan) (case : ReplayCaseSpec)
    (run : DefaultFlowRunResult) : Prop where
  completed : run.case.status = .completed
  service : run.case.serviceName.val = case.caseRequest.serviceName.val
  steps : ∀ step ∈ run.case.steps, step.status = .completed
  traceExpected : expectedTrace std case ≠ []
  trace : traceFound std run (expectedTrace std case) = true
  clean : sensitiveLeaks scan run = 0

end Verdict

/-! ## A good suite -/

def checkoutPayload : Fields :=
  [(py "title", .str (py "Timeouts")), (py "message", .str (py "checkout timed out")),
    (py "service", .str (py "checkout")), (py "trace_id", .str (py "trace-7"))]

def checkoutRequest : CaseCreateRequest where
  title := RequiredStr.ofLiteral "Timeouts" (by decide)
  symptom := RequiredStr.ofLiteral "checkout timed out" (by decide)
  serviceName := RequiredStr.ofLiteral "checkout" Fixture.checkout
  source := RequiredStr.ofLiteral "webhook" Fixture.webhook
  metadata := ⟨[(py "trace_id", .str (py "trace-7"))], by decide⟩

def checkoutCase : ReplayCaseSpec where
  replayId := RequiredStr.ofLiteral "replay-1" (by decide)
  name := RequiredStr.ofLiteral "Timeouts of checkout" (by decide)
  alertPayload := checkoutPayload
  caseRequest := checkoutRequest
  expectedReportBullets := []

/-- A completed run whose only step queried the log of the trace. -/
def checkoutOutcome : AgentOutcome where
  caseId := RequiredStr.ofLiteral "case-1" Fixture.caseOne
  status := py "completed"
  case := some
    { caseId := RequiredStr.ofLiteral "case-1" Fixture.caseOne
      title := RequiredStr.ofLiteral "Timeouts" (by decide)
      symptom := RequiredStr.ofLiteral "checkout timed out" (by decide)
      serviceName := RequiredStr.ofLiteral "checkout" Fixture.checkout
      source := RequiredStr.ofLiteral "webhook" Fixture.webhook
      status := .completed
      selectedSkills := [py "log-triage"]
      steps :=
        [{ stepId := RequiredStr.ofLiteral "step-1" Fixture.stepOne
           name := RequiredStr.ofLiteral "logs" Fixture.logs
           skillName := RequiredStr.ofLiteral "log-triage" (by decide)
           action := RequiredStr.ofLiteral "log.query_by_trace_id" Fixture.queryByTrace
           status := .completed
           toolName := some (py "log.query_by_trace_id")
           inputs := []
           outputs := [] }]
      metadata := [] }
  pack := some
    { caseId := RequiredStr.ofLiteral "case-1" Fixture.caseOne
      items :=
        [{ itemId := RequiredStr.ofLiteral "item-1" (by decide)
           type := .log
           source := RequiredStr.ofLiteral "log.query_by_trace_id" Fixture.queryByTrace
           content := ⟨[(py "trace_id", .str (py "trace-7"))], by decide⟩ }]
      summary := py "one log entry" }
  report := some
    { caseId := RequiredStr.ofLiteral "case-1" Fixture.caseOne
      title := RequiredStr.ofLiteral "Timeouts" (by decide)
      summary := py "the payment service is slow"
      rootCause := none
      evidenceItemIds := [py "item-1"]
      metadata := [] }

def checkoutRuntime : DevRuntime Unit where
  runCaseDetailed _ _ := (.ok checkoutOutcome, ())
  buildCaseReport _ _ _ := .error .validationError

/-- Nothing sensitive is ever found. -/
def cleanScan : LeakScan where
  reportText _ := []
  packText _ := []
  findall _ := 0

/-- Whatever the runtime does, no suite passes the default gate, and none is released without
an approval. -/
theorem release_is_never_allowed {σ : Type} (runtime : DevRuntime σ) (std : NumberStdlib)
    (analysis : TextAnalysis) (scan : LeakScan) (ids : IdSupply) (state : σ)
    (cases : List ReplayCaseSpec) (suiteName : PyStr) (repeatEach : ℕ)
    (orchestrator : DeploymentPolicyOrchestrator) (store : ApprovalStore ids) (now : PyStr) :
    ¬∃ result, runSuite runtime std analysis scan ids none state cases suiteName repeatEach =
        .ok result ∧
      (result.report.gatePassed = true ∨
        (orchestrator.evaluate store result.report none now).1.status = .allowed) := by
  rintro ⟨result, hrun, hverdict⟩
  obtain ⟨hgate, hblocked⟩ := not_passed_of_runSuite hrun
  obtain hpassed | hallowed := hverdict
  · exact absurd (hgate.symm.trans hpassed) Bool.false_ne_true
  · rw [DeploymentPolicyOrchestrator.evaluate, hblocked, if_neg Bool.false_ne_true] at hallowed
    split at hallowed
    · exact DeploymentDecisionStatus.noConfusion hallowed
    · exact DeploymentDecisionStatus.noConfusion hallowed

theorem good_suite_is_blocked :
    ∃ run result,
      (runDefaultFlowFromPayload checkoutRuntime numberStdlib noFindings ()
        checkoutCase.alertPayload).1 = .ok run ∧
      GoodRun numberStdlib.toStdlib cleanScan checkoutCase run ∧
      runSuite checkoutRuntime numberStdlib noFindings cleanScan unaryIds none () [checkoutCase]
        (py "release") 1 = .ok result ∧
      result.report.gatePassed = false := by
  have hsuite : ∃ result, runSuite checkoutRuntime numberStdlib noFindings cleanScan unaryIds none
      () [checkoutCase] (py "release") 1 = .ok result := ⟨_, rfl⟩
  obtain ⟨result, hresult⟩ := hsuite
  refine ⟨_, result, rfl, ?_, hresult, (not_passed_of_runSuite hresult).1⟩
  exact
    { completed := rfl
      service := rfl
      steps := by
        intro step hstep
        rw [List.mem_singleton.mp hstep]
      traceExpected := by decide
      trace := by decide
      clean := rfl }


end RootSeeker.Replay
