import RootSeeker.Analysis.HypothesisValidator
import RootSeeker.Core.Loops

/-!
# The root cause engine

Rounds of hypotheses, validations and weights, with derived evidence between
them, until a round converges or no round is left.
-/

namespace RootSeeker.Analysis

open Python Contracts

/-! ## The conclusion -/

def extractedField (items : List TimedItem) (key : PyStr) : PyStr :=
  (items.findSome? fun item =>
    (objectField item.content.val (py "extracted")).bind fun extracted =>
      match Dict.get? extracted key with
      | some (.str value) => if strip value = [] then none else some (strip value)
      | some (.arr (.str first :: _)) =>
        if key = py "call_chain" ∧ strip first ≠ [] then some (strip first) else none
      | _ => none).getD []

def stripHypothesisHeading (statement : PyStr) : PyStr :=
  let text := strip statement
  let headings := hypothesisTemplates.map fun template => template.heading.dropLast
  match headings.find? (·.isPrefixOf text) with
  | some heading => strip (text.drop heading.length)
  | none => text

def conclusionTitle (items : List TimedItem) (topHypothesis : Hypothesis) : PyStr :=
  let exception := extractedField items (py "exception_summary")
  let cleaned := stripHypothesisHeading topHypothesis.statement.val
  if exception ≠ [] then exception.take 100
  else if cleaned ≠ [] then cleaned.take 100
  else py "初步结论"

def conclusionNarrative (items : List TimedItem) (topHypothesis : Hypothesis)
    (convergence : ConvergenceStatus) : PyStr :=
  let exception := (extractedField items (py "exception_summary")).take 240
  let fault := extractedField items (py "call_chain")
  let cleaned := stripHypothesisHeading topHypothesis.statement.val
  let recommendation := strip convergence.recommendation
  let found := (if exception = [] then [] else [exception]) ++
    (if fault = [] ∨ fault <:+: exception then [] else [py "故障点：" ++ fault.take 160])
  let stated := if found = [] ∧ cleaned ≠ [] then [cleaned.take 240] else found
  let parts := stated ++
    (if convergence.isConverged ∨ recommendation = [] then [] else [recommendation])
  if parts = [] then py "分析未能生成有效假设" else join (py " ") parts

def iterationSource : PyStr := py "root_cause_iteration"

/-- The types of the first items of a list, each once. -/
def typesOf (items : List TimedItem) : List PyStr :=
  (items.map fun item => item.type.value).eraseDups

def contributingFactors (items : List TimedItem) (weighted : List WeightedEvidence) :
    List PyStr :=
  if weighted.isEmpty then typesOf (items.take 5)
  else
    typesOf ((((byWeight weighted).take 5).map (·.item)).filter fun item =>
      item.source.val ≠ iterationSource)

/-- The confidence of the top validation, scaled with the weight of its items. -/
def reportedConfidence (floatSum : List ℚ → ℚ) (validations : List ValidationResult)
    (topHypothesis : Hypothesis) (weighted : List WeightedEvidence) : ℚ :=
  match validations with
  | [] => 1 / 2
  | top :: _ =>
    let evidenceWeight := aggregateWeight floatSum topHypothesis.evidenceItemIds weighted
    if weighted ≠ [] ∧ 0 < evidenceWeight then
      min (toDouble 0.95) (toDouble (top.confidence *
        toDouble (toDouble 0.75 + toDouble (1 / 4 * evidenceWeight))))
    else top.confidence

def topHypothesisOf (hypotheses : List Hypothesis) (validations : List ValidationResult) :
    Option Hypothesis :=
  match validations with
  | [] => hypotheses.head?
  | top :: _ =>
    (hypotheses.find? fun hypothesis => hypothesis.hypothesisId = top.hypothesisId).or
      hypotheses.head?

/-- What a round leaves. -/
structure Round where
  iteration : ℕ
  pack : TimedPack
  hypotheses : List Hypothesis
  validations : List ValidationResult
  weighted : List WeightedEvidence
  convergence : ConvergenceStatus

def buildConclusion (floatSum : List ℚ → ℚ) (round : Round) :
    Except PyError RootCauseConclusion :=
  match topHypothesisOf round.hypotheses round.validations with
  | none =>
    RootCauseConclusion.validate (py "无法确定根因") (py "分析未能生成有效假设")
      (finiteFloat 0) []
  | some top =>
    RootCauseConclusion.validate (conclusionTitle round.pack.items top)
      (conclusionNarrative round.pack.items top round.convergence)
      (finiteFloat (reportedConfidence floatSum round.validations top round.weighted))
      (contributingFactors round.pack.items round.weighted)

/-- Hypotheses up to their ids. -/
def statements (hypotheses : List Hypothesis) : List (RequiredStr × List RequiredStr) :=
  hypotheses.map fun hypothesis => (hypothesis.statement, hypothesis.evidenceItemIds)

/-! ## Rounds -/

section Rounds

variable (lib : AnalysisLib) (settings : EngineSettings)

/-- The items of the highest weights, more of them in later rounds. -/
def focusPack (pack : TimedPack) (weighted : List WeightedEvidence) (iteration : ℕ) :
    TimedPack :=
  let keepCount := max 1 (min (weighted.length : ℤ) (settings.minEvidenceCount + iteration - 1))
  let keptIds := ((byWeight weighted).take keepCount.toNat).map fun entry => entry.item.itemId
  let focused := pack.items.filter fun item => item.itemId ∈ keptIds
  if focused.isEmpty then pack else { pack with items := focused }

/-- `value == n`. -/
def equalsInt (n : ℤ) : Json → Bool
  | .int value => value = n
  | .bool value => (if value then 1 else 0) = n
  | .float (.finite negative magnitude) => PyFloat.signed negative magnitude = n
  | _ => false

/-- `f"{value:.2f}"`. -/
def fixed2 (value : ℚ) : PyStr :=
  let hundredths := (roundHalfEven (|value| * 100)).toNat
  (if value < 0 then py "-" else []) ++ decimal (hundredths / 100) ++ py "." ++
    (decimal (hundredths % 100 + 100)).tail

def iterationSummary (iteration : ℕ) (top : WeightedEvidence) : PyStr :=
  py "第 " ++ decimal iteration ++ py " 轮分析：高权重证据来自 " ++ top.item.source.val ++ py " (" ++
    top.item.type.value ++ py ")，权重 " ++ fixed2 top.weight

def derivedContent (iteration : ℕ) (top : WeightedEvidence) (topHypothesisId : PyStr) : Mapping :=
  ⟨[(py "iteration", .int iteration), (py "summary", .str (iterationSummary iteration top)),
      (py "top_hypothesis_id", .str topHypothesisId),
      (py "top_weight", .float (finiteFloat top.weight))],
    by
      simp only [KeysEncodable, Dict.keys, List.map_cons, List.map_nil, List.forall_mem_cons]
      exact ⟨encodable_py _, encodable_py _, encodable_py _, encodable_py _,
        fun _ hkey => absurd hkey List.not_mem_nil⟩⟩

/-- The evidence that a round adds about the items before it. -/
def derivedItem (iteration : ℕ) (top : WeightedEvidence) (validations : List ValidationResult) :
    TimedItem where
  itemId := lib.derivedId iteration
  type := .other
  source := RequiredStr.ofLiteral "root_cause_iteration" (by decide)
  content := derivedContent iteration top
    ((validations.head?.map fun validation => validation.hypothesisId.val).getD [])
  collectedAt := lib.now iteration

def isFromRound (iteration : ℕ) (item : TimedItem) : Bool :=
  decide (item.source.val = iterationSource) &&
    (Dict.get? item.content.val (py "iteration")).any (equalsInt iteration)

def synthesizeIterationEvidence (pack : TimedPack) (weighted : List WeightedEvidence)
    (validations : List ValidationResult) (iteration : ℕ) : TimedPack :=
  match byWeight weighted with
  | [] => pack
  | top :: _ =>
    if pack.items.any (isFromRound iteration) then pack
    else { pack with items := pack.items ++ [derivedItem lib iteration top validations] }

/-- The pack that the hypotheses of a round are made of. -/
def analysisPack (pack : TimedPack) (weighted : List WeightedEvidence) (iteration : ℕ) :
    TimedPack :=
  if 1 < iteration ∧ weighted ≠ [] then focusPack settings pack weighted iteration else pack

def runRound (maxIterations iteration : ℕ) (pack : TimedPack)
    (weighted : List WeightedEvidence) : Except PyError Round := do
  let hypotheses ← generate lib iteration (analysisPack settings pack weighted iteration)
  let validations := validateAll lib.toStdlib hypotheses pack.items
  let weighted ← weight lib.floatSum pack.items
  return {
    iteration := iteration
    pack := pack
    hypotheses := hypotheses
    validations := validations
    weighted := weighted
    convergence := check settings maxIterations iteration validations pack.items }

/-- The rounds from one on, with so many left after it. -/
def runRounds (maxIterations : ℕ) :
    ℕ → ℕ → TimedPack → List WeightedEvidence → Except PyError Round
  | 0, iteration, pack, weighted => runRound lib settings maxIterations iteration pack weighted
  | remaining + 1, iteration, pack, weighted => do
    let round ← runRound lib settings maxIterations iteration pack weighted
    if round.convergence.isConverged then return round
    else
      runRounds maxIterations remaining (iteration + 1)
        (synthesizeIterationEvidence lib pack round.weighted round.validations iteration)
        round.weighted

structure RootCauseAnalysisResult where
  hypotheses : List Hypothesis
  conclusion : RootCauseConclusion
  isConverged : Bool
  iterationCount : ℕ
  recommendation : PyStr

def emptyResult : Except PyError RootCauseAnalysisResult := do
  let statement ← RequiredStr.validate (py "证据不足，需上游补证")
  let conclusion ← RootCauseConclusion.validate (py "证据不足") (py "未收集到可用于推断根因的证据项")
    (finiteFloat 0) []
  return {
    hypotheses := [{ hypothesisId := lib.hypothesisId 0 0
                     statement := statement
                     evidenceItemIds := [] }]
    conclusion := conclusion
    isConverged := false
    iterationCount := 1
    recommendation := py "需要收集更多证据" }

/-- The last round of an analysis without an expander. -/
def finalRound (pack : TimedPack) (maxIterations : ℤ) : Except PyError Round :=
  let maxIters := (max 1 maxIterations).toNat
  runRounds lib settings maxIters (maxIters - 1) 1 pack []

def analyze (pack : TimedPack) (maxIterations : ℤ) : Except PyError RootCauseAnalysisResult :=
  if pack.items.isEmpty then emptyResult lib
  else do
    let round ← finalRound lib settings pack maxIterations
    let conclusion ← buildConclusion lib.floatSum round
    return {
      hypotheses := round.hypotheses
      conclusion := conclusion
      isConverged := round.convergence.isConverged
      iterationCount := round.iteration
      recommendation := round.convergence.recommendation }

end Rounds

section Rounds

variable {lib : AnalysisLib} {settings : EngineSettings}

/-- What a round computes from its pack and the weights before it. -/
structure IsRound (lib : AnalysisLib) (settings : EngineSettings) (maxIterations iteration : ℕ)
    (pack : TimedPack) (weighted : List WeightedEvidence) (round : Round) : Prop where
  iteration_eq : round.iteration = iteration
  pack_eq : round.pack = pack
  hypotheses : generate lib iteration (analysisPack settings pack weighted iteration) =
    .ok round.hypotheses
  validations : round.validations = validateAll lib.toStdlib round.hypotheses pack.items
  weighted : weight lib.floatSum pack.items = .ok round.weighted
  convergence : round.convergence =
    check settings maxIterations iteration round.validations pack.items

theorem runRound_eq_ok {maxIterations iteration : ℕ} {pack : TimedPack}
    {weighted : List WeightedEvidence} {round : Round}
    (hround : runRound lib settings maxIterations iteration pack weighted = .ok round) :
    IsRound lib settings maxIterations iteration pack weighted round := by
  obtain ⟨hypotheses, hgenerate, hrest⟩ := Loops.exists_of_bind_eq_ok hround
  obtain ⟨weights, hweights, hrest⟩ := Loops.exists_of_bind_eq_ok hrest
  obtain rfl := Except.ok.inj hrest
  exact ⟨rfl, rfl, hgenerate, rfl, hweights, rfl⟩

theorem items_synthesizeIterationEvidence (pack : TimedPack) (weighted : List WeightedEvidence)
    (validations : List ValidationResult) (iteration : ℕ) :
    pack.items <+: (synthesizeIterationEvidence lib pack weighted validations iteration).items := by
  rw [synthesizeIterationEvidence]
  split
  · exact List.prefix_rfl
  · split
    · exact List.prefix_rfl
    · exact List.prefix_append _ _

end Rounds

/-! ## Runs on fixed inputs -/

theorem encodable_decimal (n : ℕ) : Encodable (decimal n) := by
  simpa [py, decimal] using encodable_py (String.ofList (Nat.toDigits 10 n))

def numberedId (kind : String) (n : ℕ) : RequiredStr :=
  ⟨py kind ++ decimal n, List.append_ne_nil_of_right_ne_nil _ (decimal_ne_nil n),
    encodable_append.mpr ⟨encodable_py kind, encodable_decimal n⟩⟩

theorem numberedId_injective (kind : String) : Function.Injective (numberedId kind) :=
  fun _ _ hsame => decimal_injective (List.append_cancel_left (Subtype.mk.inj hsame))

/-- A library for runs on fixed inputs. -/
def analysisLib : AnalysisLib where
  toStdlib := asciiStdlib
  wordChar := fun _ => false
  floatSum := fun values => values.foldl (fun total value => toDouble (total + value)) 0
  hypothesisId := fun _ place => numberedId "hyp-" place
  derivedId := numberedId "ev-derived-"
  now := fun _ => 0
  hypothesisId_injective := fun _ => numberedId_injective "hyp-"

end RootSeeker.Analysis
