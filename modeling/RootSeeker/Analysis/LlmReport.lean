import RootSeeker.Analysis.LlmContent
import RootSeeker.Contracts.Report

/-!
# The report of a language model

`apply_llm_report_result`: a case report takes over the summary and the root
cause that a language model returned.  Every field of the returned object may be
missing or of any type.
-/

namespace RootSeeker.Analysis

open Python Contracts

structure LlmReportResult where
  ok : Bool
  skipped : Bool
  provider : Option PyStr
  model : Option PyStr
  elapsedMs : Option ℤ
  content : PyStr
  parsed : Option Fields
  raw : Option Fields
  error : Option PyStr
  reason : Option PyStr

/-- The entry of a key, unless its value is `None`. -/
def entryOf (key : String) (value : Option Json) : Fields :=
  match value with
  | none | some .null => []
  | some value => [(py key, value)]

def LlmReportResult.toPayload (result : LlmReportResult)
    (includeContent includeRaw : Bool) : Fields :=
  entryOf "ok" (some (.bool result.ok)) ++
  entryOf "skipped" (some (.bool result.skipped)) ++
  entryOf "provider" (result.provider.map .str) ++
  entryOf "model" (result.model.map .str) ++
  entryOf "elapsed_ms" (result.elapsedMs.map .int) ++
  entryOf "parsed" (some (.bool result.parsed.isSome)) ++
  entryOf "reason" ((result.reason.filter (· ≠ [])).map .str) ++
  entryOf "error" ((result.error.filter (· ≠ [])).map .str) ++
  (if includeContent ∧ result.content ≠ [] then
    entryOf "content" (some (.str result.content)) else []) ++
  entryOf "usage" (result.raw.bind (·.get? (py "usage"))) ++
  (if includeRaw then entryOf "raw" (result.raw.map .obj) else [])

/-! ## Coercions -/

def asText (value : Option Json) : PyStr :=
  match value with
  | some (.str text) => strip text
  | _ => []

def stringList (value : Option Json) : List PyStr :=
  match value with
  | some (.arr items) => (items.map fun item => asText (some item)).filter (· ≠ [])
  | _ => []

/-- `min(1.0, max(0.0, confidence))`; a NaN is not above `0.0`. -/
def clampUnit : PyFloat → PyFloat
  | .nan => .finite false 0
  | .inf true => .finite false 0
  | .inf false => .finite false 1
  | .finite true _ => .finite false 0
  | .finite false magnitude => .finite false (min 1 magnitude)

def coerceConfidence (std : Stdlib) (value : Option Json) (fallback : PyFloat) :
    Except PyError PyFloat := do
  let confidence ← tryFloat std value
  pure (clampUnit (confidence.getD fallback))

/-- `first or second`. -/
def firstTruthy (first second : Option Json) : Option Json :=
  if (first.map Json.truthy).getD false then first else second

/-! ## The root cause -/

def rootNode (parsed : Fields) : Fields :=
  match parsed.get? (py "root_cause") with
  | some (.obj node) => node
  | _ => []

def titleValue (parsed : Fields) : Option Json :=
  firstTruthy ((rootNode parsed).get? (py "title"))
    (parsed.get? (py "root_cause_title"))

def narrativeValue (parsed : Fields) : Option Json :=
  firstTruthy ((rootNode parsed).get? (py "narrative"))
    (parsed.get? (py "root_cause_narrative"))

/-- A key that is there hides the outer one, even if its value is `None`. -/
def confidenceValue (parsed : Fields) : Option Json :=
  ((rootNode parsed).get? (py "confidence")).or (parsed.get? (py "confidence"))

def factorsValue (parsed : Fields) : Option Json :=
  firstTruthy ((rootNode parsed).get? (py "contributing_factors"))
    (parsed.get? (py "contributing_factors"))

/-- `text or fallback`. -/
def orText (text fallback : PyStr) : PyStr :=
  if text = [] then fallback else text

/-- `items or fallback`. -/
def orTexts (texts fallback : List PyStr) : List PyStr :=
  if texts = [] then fallback else texts

/-- What stands in for a missing conclusion. -/
def defaultRootCause : RootCauseConclusion where
  title := RequiredStr.ofLiteral "LLM analysis" (by decide)
  narrative := []
  confidence := .finite false 0
  contributingFactors := []
  narrative_encodable := encodable_nil
  confidence_bounds := by decide
  factors_encodable := by simp

def buildRootCauseFromParsed (std : Stdlib) (parsed : Fields)
    (fallback : Option RootCauseConclusion) : Except PyError RootCauseConclusion := do
  let rule := fallback.getD defaultRootCause
  let confidence ← coerceConfidence std (confidenceValue parsed) rule.confidence
  RootCauseConclusion.validate
    (orText (asText (titleValue parsed)) rule.title)
    (orText (asText (narrativeValue parsed)) rule.narrative)
    confidence
    (orTexts (stringList (factorsValue parsed)) rule.contributingFactors)

/-! ## The report -/

def parseLlmReportContent (std : Stdlib) (content : PyStr) : Option Fields :=
  parseJsonObject std content

/-- `result.parsed or parse_llm_report_content(result.content)`. -/
def parsedOf (std : Stdlib) (result : LlmReportResult) : Option Fields :=
  (result.parsed.filter (!·.isEmpty)).or (parseLlmReportContent std result.content)

/-- The metadata that tells how the report was built. -/
def builtMetadata (report : CaseReport) (result : LlmReportResult) : Fields :=
  report.metadata.set (py "llm") (.obj (result.toPayload false false))

def analyzedMetadata (report : CaseReport) (result : LlmReportResult) (analysis : Json) :
    Fields :=
  ((builtMetadata report result).set (py "llm_analysis") analysis).set (py "builder")
    (.str (py "root_cause_engine+llm"))

def ruleRootCause (rootCause : Option RootCauseConclusion) (metadata : Fields) : Fields :=
  match rootCause with
  | none => metadata
  | some conclusion => metadata.set (py "rule_root_cause") conclusion.modelDump

def applyLlmReportResult (std : Stdlib) (report : CaseReport) (result : LlmReportResult) :
    Except PyError CaseReport :=
  if !result.ok ∨ result.content = [] then
    .ok { report with metadata := builtMetadata report result }
  else
    match parsedOf std result with
    | none => .ok
        { report with
          summary := result.content
          metadata := analyzedMetadata report result
            (.obj [(py "text", .str result.content)]) }
    | some parsed => do
      let rootCause ← buildRootCauseFromParsed std parsed report.rootCause
      pure
        { report with
          summary := orText (asText (parsed.get? (py "summary"))) report.summary
          rootCause := some rootCause
          metadata := ruleRootCause report.rootCause
            (analyzedMetadata report result (.obj parsed)) }

/-! ## When the report can be built -/

theorem inUnitInterval_clampUnit (confidence : PyFloat) :
    InUnitInterval (clampUnit confidence) := by
  cases confidence with
  | nan => simp [clampUnit, InUnitInterval]
  | inf negative => cases negative <;> simp [clampUnit, InUnitInterval]
  | finite negative magnitude => cases negative <;> simp [clampUnit, InUnitInterval]

/-- If the value is a text, it has no unpaired surrogates. -/
def EncodableValue (value : Option Json) : Prop :=
  ∀ text, value = some (.str text) → Encodable text

/-- If the value is a list, none of its texts has unpaired surrogates. -/
def EncodableItems (value : Option Json) : Prop :=
  ∀ items, value = some (.arr items) → ∀ item ∈ items, EncodableValue (some item)

theorem encodable_asText_iff (value : Option Json) :
    Encodable (asText value) ↔ EncodableValue value := by
  unfold asText EncodableValue
  split
  · simp
  · rename_i hother
    constructor
    · intro _ text hvalue
      exact absurd hvalue (hother text)
    · intro _
      exact encodable_nil

theorem encodable_stringList_iff (value : Option Json) :
    (∀ factor ∈ stringList value, Encodable factor) ↔ EncodableItems value := by
  unfold stringList EncodableItems
  split
  · rename_i items
    have hblank : (∀ text ∈ (items.map fun item => asText (some item)).filter (· ≠ []),
        Encodable text) ↔ ∀ text ∈ items.map fun item => asText (some item),
        Encodable text := by
      simp only [List.mem_filter, decide_eq_true_eq, and_imp]
      apply forall_congr'
      intro text
      by_cases hempty : text = []
      · simp [hempty]
      · simp [hempty]
    rw [hblank, List.forall_mem_map]
    simp [encodable_asText_iff]
  · rename_i hother
    constructor
    · intro _ items hvalue
      exact absurd hvalue (hother items)
    · intro _ factor hfactor
      exact absurd hfactor List.not_mem_nil

theorem encodable_orText_iff {text fallback : PyStr} (hfallback : Encodable fallback) :
    Encodable (orText text fallback) ↔ Encodable text := by
  unfold orText
  split
  · rename_i hempty
    simp [hempty, hfallback]
  · rfl

theorem encodable_orTexts_iff {texts fallback : List PyStr}
    (hfallback : ∀ text ∈ fallback, Encodable text) :
    (∀ text ∈ orTexts texts fallback, Encodable text) ↔ ∀ text ∈ texts, Encodable text := by
  unfold orTexts
  split
  · rename_i hempty
    simpa [hempty] using hfallback
  · rfl

theorem orText_ne_nil (text : PyStr) {fallback : PyStr} (hfallback : fallback ≠ []) :
    orText text fallback ≠ [] := by
  unfold orText
  split
  · exact hfallback
  · assumption

/-- The chosen texts can be encoded, and the chosen confidence fits a float. -/
structure ReadableRootCause (parsed : Fields) : Prop where
  confidence : ¬OverflowsDouble (confidenceValue parsed)
  title : EncodableValue (titleValue parsed)
  narrative : EncodableValue (narrativeValue parsed)
  factors : EncodableItems (factorsValue parsed)

theorem exists_coerceConfidence_iff (std : Stdlib) (value : Option Json) (fallback : PyFloat) :
    (∃ confidence, coerceConfidence std value fallback = .ok confidence) ↔
      ¬OverflowsDouble value := by
  unfold coerceConfidence
  constructor
  · intro hok hoverflows
    obtain ⟨confidence, hconfidence⟩ := hok
    rw [tryFloat_of_overflows hoverflows] at hconfidence
    exact absurd hconfidence (by simp [bind, Except.bind])
  · intro hfits
    obtain ⟨number, hnumber⟩ := exists_tryFloat_of_not_overflows std hfits
    rw [hnumber]
    exact ⟨_, rfl⟩

theorem inUnitInterval_of_coerceConfidence {std : Stdlib} {value : Option Json}
    {fallback confidence : PyFloat}
    (hconfidence : coerceConfidence std value fallback = .ok confidence) :
    InUnitInterval confidence := by
  unfold coerceConfidence at hconfidence
  cases hnumber : tryFloat std value with
  | error raised =>
    rw [hnumber] at hconfidence
    exact absurd hconfidence (by simp [bind, Except.bind])
  | ok number =>
    rw [hnumber] at hconfidence
    rw [← Except.ok.inj hconfidence]
    exact inUnitInterval_clampUnit _

/-- The checks of the conclusion that the coerced values can fail. -/
theorem valid_coerced_iff {parsed : Fields} (rule : RootCauseConclusion)
    {confidence : PyFloat} (hbounds : InUnitInterval confidence) :
    RootCauseConclusion.Valid (orText (asText (titleValue parsed)) rule.title)
        (orText (asText (narrativeValue parsed)) rule.narrative) confidence
        (orTexts (stringList (factorsValue parsed)) rule.contributingFactors) ↔
      EncodableValue (titleValue parsed) ∧ EncodableValue (narrativeValue parsed) ∧
        EncodableItems (factorsValue parsed) := by
  rw [RootCauseConclusion.Valid, encodable_orText_iff rule.title.property.2,
    encodable_orText_iff rule.narrative_encodable,
    encodable_orTexts_iff rule.factors_encodable, encodable_asText_iff,
    encodable_asText_iff, encodable_stringList_iff]
  have htitle := orText_ne_nil (asText (titleValue parsed)) rule.title.property.1
  simp only [ne_eq, htitle, not_false_eq_true, true_and, hbounds]

theorem exists_buildRootCause_iff (std : Stdlib) (parsed : Fields)
    (fallback : Option RootCauseConclusion) :
    (∃ rootCause, buildRootCauseFromParsed std parsed fallback = .ok rootCause) ↔
      ReadableRootCause parsed := by
  simp only [buildRootCauseFromParsed]
  by_cases hfits : OverflowsDouble (confidenceValue parsed)
  · constructor
    · intro hok
      obtain ⟨rootCause, hrootCause⟩ := hok
      simp only [coerceConfidence, tryFloat_of_overflows hfits] at hrootCause
      exact absurd hrootCause (by simp [bind, Except.bind])
    · intro hreadable
      exact absurd hfits hreadable.confidence
  · obtain ⟨confidence, hconfidence⟩ := (exists_coerceConfidence_iff std
      (confidenceValue parsed) (fallback.getD defaultRootCause).confidence).mpr hfits
    have hbounds := inUnitInterval_of_coerceConfidence hconfidence
    rw [hconfidence]
    apply RootCauseConclusion.exists_validate_iff.trans
    rw [valid_coerced_iff _ hbounds]
    constructor
    · intro hvalues
      exact ⟨hfits, hvalues.1, hvalues.2.1, hvalues.2.2⟩
    · intro hreadable
      exact ⟨hreadable.title, hreadable.narrative, hreadable.factors⟩

/-- What a report keeps, and what its root cause promises. -/
structure Enriches (report updated : CaseReport) : Prop where
  caseId : updated.caseId = report.caseId
  title : updated.title = report.title
  evidenceItemIds : updated.evidenceItemIds = report.evidenceItemIds
  rootCause : ∀ rootCause, updated.rootCause = some rootCause →
    rootCause.title.val ≠ [] ∧ InUnitInterval rootCause.confidence

theorem enriches_of_kept {report updated : CaseReport}
    (hcase : updated.caseId = report.caseId) (htitle : updated.title = report.title)
    (hids : updated.evidenceItemIds = report.evidenceItemIds) :
    Enriches report updated where
  caseId := hcase
  title := htitle
  evidenceItemIds := hids
  rootCause := by
    intro rootCause _
    exact ⟨rootCause.title.property.1, rootCause.confidence_bounds⟩

/-- The analysis that a result is applied with, if it has one. -/
def appliedAnalysis (std : Stdlib) (result : LlmReportResult) : Option Fields :=
  if !result.ok ∨ result.content = [] then none else parsedOf std result

theorem exists_applyLlmReportResult_iff (std : Stdlib) (report : CaseReport)
    (result : LlmReportResult) :
    (∃ updated, applyLlmReportResult std report result = .ok updated ∧
        Enriches report updated) ↔
      ∀ parsed, appliedAnalysis std result = some parsed → ReadableRootCause parsed := by
  unfold applyLlmReportResult appliedAnalysis
  split
  · constructor
    · intro _ parsed hparsed
      exact absurd hparsed (by simp)
    · intro _
      exact ⟨_, rfl, enriches_of_kept rfl rfl rfl⟩
  · cases hparsed : parsedOf std result with
    | none =>
      constructor
      · intro _ parsed hnone
        exact absurd hnone (by simp)
      · intro _
        exact ⟨_, rfl, enriches_of_kept rfl rfl rfl⟩
    | some parsed =>
      simp only [Option.some.injEq, forall_eq']
      rw [← exists_buildRootCause_iff std parsed report.rootCause]
      cases hbuild : buildRootCauseFromParsed std parsed report.rootCause with
      | error raised =>
        constructor
        · intro hok
          obtain ⟨updated, hupdated, _⟩ := hok
          exact absurd hupdated (by simp [bind, Except.bind])
        · intro hok
          obtain ⟨rootCause, hrootCause⟩ := hok
          exact absurd hrootCause (by simp)
      | ok rootCause =>
        constructor
        · intro _
          exact ⟨rootCause, rfl⟩
        · intro _
          exact ⟨_, rfl, enriches_of_kept rfl rfl rfl⟩

end RootSeeker.Analysis
