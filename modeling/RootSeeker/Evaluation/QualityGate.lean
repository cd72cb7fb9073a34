import RootSeeker.Contracts.Case
import RootSeeker.Contracts.Report
import RootSeeker.Contracts.Tool
import RootSeeker.Python.Doubles
import RootSeeker.Python.Repr

/-!
# Metrics of replayed runs and the release gate

Each replayed run is measured against what its case expects.  The measures are
averaged over the suite and compared with the thresholds of a policy.
-/

namespace RootSeeker.Evaluation

open Python Contracts

/-- A case of the regression suite; its samples and hints, which nothing here reads, are left
out. -/
structure ReplayCaseSpec where
  replayId : RequiredStr
  name : RequiredStr
  alertPayload : Fields
  caseRequest : CaseCreateRequest
  expectedReportBullets : List PyStr

structure DefaultFlowRunResult where
  case : CaseRecord
  evidencePack : EvidencePack
  report : CaseReport
  toolResults : List ToolCallResult

/-- What stands for the texts of whole models and for regular expressions. -/
structure LeakScan where
  /-- `str(report.model_dump(mode="json"))`. -/
  reportText : CaseReport → PyStr
  /-- `str(evidence_pack.model_dump(mode="json"))`. -/
  packText : EvidencePack → PyStr
  /-- The number of matches of the sensitive patterns. -/
  findall : PyStr → ℕ

section Metrics

variable (std : Stdlib) (scan : LeakScan) (run : DefaultFlowRunResult)

def traceFound (traceId : PyStr) : Bool :=
  run.evidencePack.items.any fun item => traceId <:+: str std (.obj item.content.val)

def sensitiveLeaks : ℕ :=
  scan.findall (scan.reportText run.report) + scan.findall (scan.packText run.evidencePack)

def toolFailRate : ℚ :=
  if run.toolResults = [] then 1
  else toDouble (run.toolResults.countP (!·.ok) / run.toolResults.length)

def expectedBulletHit (expected : List PyStr) (text : PyStr) : ℚ :=
  if expected = [] then 1
  else toDouble
    (expected.countP (fun token => lower std token <:+: lower std text) / expected.length)

/-- `1.0 if hit else 0.0`. -/
def hitRate (hit : Bool) : ℚ :=
  if hit then 1 else 0

/-- `str(case.case_request.metadata.get("trace_id", "")).strip()`. -/
def expectedTrace (case : ReplayCaseSpec) : PyStr :=
  strip (str std ((case.caseRequest.metadata.val.get? (py "trace_id")).getD (.str [])))

def evaluateRunMetrics (case : ReplayCaseSpec) : Dict PyStr ℚ :=
  let stepActions := run.case.steps.map (·.action.val)
  let evidenceTypes := run.evidencePack.items.map (·.type)
  let reportText := run.report.title.val ++ py "\n" ++ run.report.summary
  let traceExpected := expectedTrace std case
  [(py "service_accuracy", hitRate (run.case.serviceName.val = case.caseRequest.serviceName.val)),
    (py "trace_id_accuracy",
      hitRate (traceExpected ≠ [] && traceFound std run traceExpected)),
    (py "log_coverage", hitRate (py "log.query_by_trace_id" ∈ stepActions)),
    (py "trace_coverage", hitRate (.trace ∈ evidenceTypes)),
    (py "code_coverage",
      hitRate (py "code.search" ∈ stepActions ∨ .code ∈ evidenceTypes)),
    (py "report_bullet_coverage", expectedBulletHit std case.expectedReportBullets reportText),
    (py "tool_fail_rate", toolFailRate run),
    (py "sensitive_leak_count", sensitiveLeaks scan run),
    (py "audit_completeness", hitRate (run.toolResults ≠ [])),
    (py "stability_score", hitRate (run.case.status = .completed))]

end Metrics

/-- The mean of each metric, in the order of their names. -/
def aggregateSuiteMetrics (caseMetrics : List (Dict PyStr ℚ)) : Dict PyStr ℚ :=
  (sortedTexts (caseMetrics.flatMap Dict.keys).dedup).map fun key =>
    (key, mean (caseMetrics.map fun metrics => (metrics.get? key).getD 0))

/-! ## The gate -/

structure QualityGatePolicy where
  name : PyStr
  minThresholds : Dict PyStr ℚ
  maxThresholds : Dict PyStr ℚ
  blocking : Bool

def defaultQualityGatePolicy : QualityGatePolicy where
  name := py "default-release"
  minThresholds :=
    [(py "service_accuracy", toDouble (95 / 100)), (py "trace_id_accuracy", toDouble (8 / 10)),
      (py "audit_completeness", toDouble (99 / 100)), (py "stability_score", toDouble (95 / 100))]
  maxThresholds :=
    [(py "tool_fail_rate", toDouble (5 / 100)), (py "sensitive_leak_count", 0)]
  blocking := true

structure QualityGateResult where
  passed : Bool
  reasons : List PyStr
  policyName : PyStr
  blocking : Bool

def QualityGateResult.releaseAllowed (result : QualityGateResult) : Bool :=
  result.passed || !result.blocking

/-- `sorted(thresholds.items())`. -/
def sortedItems (thresholds : Dict PyStr ℚ) : List (PyStr × ℚ) :=
  thresholds.insertionSort (·.1 ≤ ·.1)

def evaluateQualityGate (aggregateMetrics : Dict PyStr ℚ) (policy : Option QualityGatePolicy) :
    QualityGateResult :=
  let gatePolicy := policy.getD defaultQualityGatePolicy
  let tooLow := (sortedItems gatePolicy.minThresholds).filterMap fun entry =>
    let value := (aggregateMetrics.get? entry.1).getD 0
    if value < entry.2 then
      some (entry.1 ++ py " too low: " ++ fixed3 value ++ py " < " ++ fixed3 entry.2)
    else none
  let tooHigh := (sortedItems gatePolicy.maxThresholds).filterMap fun entry =>
    let value := (aggregateMetrics.get? entry.1).getD 1
    if entry.2 < value then
      some (entry.1 ++ py " too high: " ++ fixed3 value ++ py " > " ++ fixed3 entry.2)
    else none
  { passed := (tooLow ++ tooHigh).isEmpty
    reasons := tooLow ++ tooHigh
    policyName := gatePolicy.name
    blocking := gatePolicy.blocking }

/-- A metric below its threshold closes the gate. -/
theorem not_passed_of_tooLow {aggregateMetrics : Dict PyStr ℚ}
    {policy : Option QualityGatePolicy} {metric : PyStr} {threshold : ℚ}
    (hmem : (metric, threshold) ∈ (policy.getD defaultQualityGatePolicy).minThresholds)
    (hlow : (aggregateMetrics.get? metric).getD 0 < threshold) :
    (evaluateQualityGate aggregateMetrics policy).passed = false := by
  rw [evaluateQualityGate, List.isEmpty_eq_false_iff]
  apply List.append_ne_nil_of_left_ne_nil
  apply List.ne_nil_of_mem
  apply List.mem_filterMap.mpr
  exact ⟨(metric, threshold), (List.mem_insertionSort _).mpr hmem, if_pos hlow⟩

/-- A metric that is zero in every run is zero on the average. -/
theorem aggregate_eq_zero {caseMetrics : List (Dict PyStr ℚ)} {metric : PyStr}
    (hzero : ∀ metrics ∈ caseMetrics, (metrics.get? metric).getD 0 = 0) :
    ((aggregateSuiteMetrics caseMetrics).get? metric).getD 0 = 0 := by
  cases hget : (aggregateSuiteMetrics caseMetrics).get? metric with
  | none => rfl
  | some value =>
    obtain ⟨key, _, hkey⟩ := List.mem_map.mp (Dict.mem_of_get? hget)
    obtain ⟨rfl, rfl⟩ := Prod.mk.inj hkey
    apply mean_eq_zero
    intro value hvalue
    obtain ⟨metrics, hmetrics, rfl⟩ := List.mem_map.mp hvalue
    exact hzero metrics hmetrics

/-- Without tool results the audit of a run is incomplete. -/
theorem audit_eq_zero {std : Stdlib} {scan : LeakScan} {run : DefaultFlowRunResult}
    (hresults : run.toolResults = []) (case : ReplayCaseSpec) :
    ((evaluateRunMetrics std scan run case).get? (py "audit_completeness")).getD 0 = 0 := by
  have hget : (evaluateRunMetrics std scan run case).get? (py "audit_completeness") =
      some (hitRate (run.toolResults ≠ [])) := rfl
  rw [hget, hresults]
  rfl

end RootSeeker.Evaluation
