import RootSeeker.AgentRuntime.PlanWellFormed
import RootSeeker.Analysis.LlmReport

/-!
# What a language model can make fail

A run reads the text of a language model in two places: the tool plan and the
report.  Neither caller has a handler.  Every coercion expects a wrong type,
none expects an integer beyond the largest double, and the conclusion rejects
texts that cannot be encoded.
-/

namespace RootSeeker.AgentRuntime

open Python Contracts Analysis

/-! ## The plan -/

theorem exists_parseTimeoutSeconds_iff (std : Stdlib) (value : Option Json) :
    (∃ seconds, parseTimeoutSeconds std value = .ok seconds) ↔ ¬OverflowsDouble value := by
  unfold parseTimeoutSeconds
  constructor
  · intro hok hoverflows
    obtain ⟨seconds, hseconds⟩ := hok
    rw [tryFloat_of_overflows hoverflows] at hseconds
    exact absurd hseconds (by simp [bind, Except.bind])
  · intro hfits
    obtain ⟨number, hnumber⟩ := exists_tryFloat_of_not_overflows std hfits
    rw [hnumber]
    exact ⟨_, rfl⟩

theorem exists_buildCall_iff (std : Stdlib) (analysis : TextAnalysis)
    (case : CaseCreateRequest) (item : KeptItem) :
    (∃ call, buildCall std analysis case item = .ok call) ↔
      ¬OverflowsDouble (item.fields.get? (py "timeout_seconds")) := by
  rw [← exists_parseTimeoutSeconds_iff std]
  unfold buildCall
  cases parseTimeoutSeconds std (item.fields.get? (py "timeout_seconds")) with
  | error raised => simp [bind, Except.bind]
  | ok seconds => simp [bind, Except.bind, pure, Except.pure]

/-- A text gives a plan or none unless a kept item has a timeout that no float
can hold. -/
theorem exists_parseToolPlanContent_iff (std : Stdlib) (analysis : TextAnalysis) (content : PyStr)
    (allowedTools : List PyStr) (maxToolCalls : ℤ) (case : CaseCreateRequest) :
    (∃ plan?, parseToolPlanContent std analysis content allowedTools maxToolCalls case =
        .ok plan?) ↔
      ∀ item ∈ keptOf std content allowedTools maxToolCalls,
        ¬OverflowsDouble (item.fields.get? (py "timeout_seconds")) := by
  unfold parseToolPlanContent keptOf
  cases callsNode std content with
  | none =>
    constructor
    · intro _ item hitem
      exact absurd hitem List.not_mem_nil
    · intro _
      exact ⟨none, rfl⟩
  | some node =>
    obtain ⟨parsed, items⟩ := node
    have hcalls := Loops.exists_mapM_ok_iff (buildCall std analysis case)
      (keptItems std allowedTools maxToolCalls items)
    simp only [exists_buildCall_iff] at hcalls
    rw [← hcalls]
    simp only
    cases (keptItems std allowedTools maxToolCalls items).mapM
        (buildCall std analysis case) with
    | error raised => simp [bind, Except.bind]
    | ok calls => simp [bind, Except.bind, pure, Except.pure]

/-! ## Plan and report -/

def beyondDoubles : ℤ := 2 ^ 1024

theorem tooLarge_beyondDoubles : TooLargeForDouble beyondDoubles := by
  rw [TooLargeForDouble, beyondDoubles, Int.natAbs_pow]
  exact Nat.sub_le _ _

def hugeTimeout : Json :=
  plannedObject [.obj
    [(py "tool_name", .str traceTool), (py "timeout_seconds", .int beyondDoubles)]]

def surrogateTitle : Json :=
  .obj [(py "root_cause_title", .str [⟨0xD800, by omega⟩])]

def checkoutReport : CaseReport where
  caseId := RequiredStr.ofLiteral "case-1" Fixture.caseOne
  title := RequiredStr.ofLiteral "checkout fails" Fixture.checkoutFails
  summary := []
  rootCause := none
  evidenceItemIds := []
  metadata := []

def modelResult (content : PyStr) : LlmReportResult where
  ok := true
  skipped := false
  provider := none
  model := none
  elapsedMs := none
  content := content
  parsed := none
  raw := none
  error := none
  reason := none

end RootSeeker.AgentRuntime
