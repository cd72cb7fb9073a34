import RootSeeker.Analysis.HypothesisGenerator
import RootSeeker.Python.Doubles

/-!
# Weighing evidence and hypotheses

The weights of evidence items, the support of a hypothesis in a pack, and when
the validations of a round are good enough.  Finite floats are rational numbers.
-/

namespace RootSeeker.Analysis

open Python Contracts

/-- The float of a value that is one. -/
def finiteFloat (value : ℚ) : PyFloat :=
  .finite (decide (value < 0)) ⟨|value|, abs_nonneg value⟩

/-- `value < bound`. -/
def below (value : ℚ) : PyFloat → Bool
  | .nan => false
  | .inf negative => !negative
  | .finite negative magnitude => decide (value < PyFloat.signed negative magnitude)

/-- `value >= bound`. -/
def atLeast (value : ℚ) : PyFloat → Bool
  | .nan => false
  | .inf negative => negative
  | .finite negative magnitude => decide (PyFloat.signed negative magnitude ≤ value)

/-! ## Support -/

structure ValidationResult where
  hypothesisId : RequiredStr
  isValid : Bool
  confidence : ℚ
  supportingCount : ℕ
  contradictingCount : ℕ
  reasons : List PyStr

def stopWords : List PyStr :=
  [py "the", py "a", py "an", py "is", py "are", py "was", py "were", py "by", py "for", py "to",
    py "of", py "and", py "or"]

/-- `text.split()`. -/
def textWords (text : PyStr) : List PyStr :=
  (text.splitOnP isSpace).filter fun word => word ≠ []

def contradictionKeywords : List PyStr :=
  [py "success", py "ok", py "normal", py "healthy", py "resolved"]

def failureKeywords : List PyStr :=
  [py "error", py "fail", py "异常", py "故障"]

section Validation

variable (std : Stdlib)

def extractKeywords (text : PyStr) : List PyStr :=
  (textWords (lower std text)).filter fun word => word ∉ stopWords ∧ 2 < word.length

/-- `_get_item_content`. -/
def itemText (item : EvidenceItem) : PyStr :=
  join (py " ") (item.content.val.flatMap fun entry =>
    match entry.2 with
    | .str text => [text]
    | .obj fields => [repr std (.obj fields)]
    | _ => [])

/-- An item whose text has a keyword of the hypothesis. -/
def matchesKeywords (hypothesis : Hypothesis) (item : TimedItem) : Bool :=
  containsAny (extractKeywords std hypothesis.statement.val)
    (lower std (itemText std item.toEvidenceItem))

def addSupporting (hypothesis : Hypothesis) (supporting : List RequiredStr) (item : TimedItem) :
    List RequiredStr :=
  if item.itemId ∈ supporting then supporting
  else if matchesKeywords std hypothesis item then supporting ++ [item.itemId]
  else supporting

def countSupporting (hypothesis : Hypothesis) (items : List TimedItem) : ℕ :=
  (items.foldl (addSupporting std hypothesis) hypothesis.evidenceItemIds.dedup).length

def suggestsFailure (hypothesis : Hypothesis) : Bool :=
  containsAny failureKeywords (lower std hypothesis.statement.val)

def contradicts (hypothesis : Hypothesis) (item : TimedItem) : Bool :=
  decide (item.itemId ∉ hypothesis.evidenceItemIds) &&
    (containsAny contradictionKeywords (lower std (itemText std item.toEvidenceItem)) &&
      suggestsFailure std hypothesis)

def countContradicting (hypothesis : Hypothesis) (items : List TimedItem) : ℕ :=
  items.countP (contradicts std hypothesis)

/-- `_calculate_confidence` with the default penalty. -/
def calculateConfidence (supporting contradicting : ℕ) : ℚ :=
  if supporting = 0 then 0
  else
    let base := min (toDouble 0.9)
      (toDouble (toDouble 0.3 + toDouble (toDouble 0.15 * toDouble supporting)))
    let penalty := toDouble (toDouble contradicting * toDouble 0.3)
    max 0 (min 1 (toDouble (base - penalty)))

def validate (hypothesis : Hypothesis) (items : List TimedItem) : ValidationResult :=
  let supporting := countSupporting std hypothesis items
  let contradicting := countContradicting std hypothesis items
  let confidence := calculateConfidence supporting contradicting
  let isValid := decide (1 ≤ supporting ∧ toDouble 0.1 < confidence)
  { hypothesisId := hypothesis.hypothesisId
    isValid := isValid
    confidence := confidence
    supportingCount := supporting
    contradictingCount := contradicting
    reasons :=
      (if 2 ≤ supporting then [py "有 " ++ decimal supporting ++ py " 条证据支持"] else []) ++
      (if 0 < contradicting then [py "有 " ++ decimal contradicting ++ py " 条证据可能矛盾"]
        else []) ++
      (if isValid then [] else [py "支持证据不足或矛盾过多"]) }

def byConfidence (validations : List ValidationResult) : List ValidationResult :=
  validations.insertionSort fun left right => right.confidence ≤ left.confidence

def validateAll (hypotheses : List Hypothesis) (items : List TimedItem) :
    List ValidationResult :=
  byConfidence (hypotheses.map fun hypothesis => validate std hypothesis items)

end Validation

/-! ## Weights -/

structure WeightedEvidence where
  item : TimedItem
  weight : ℚ

/-- `DEFAULT_TYPE_WEIGHTS`. -/
def typeWeight : EvidenceType → ℚ
  | .log => 1
  | .trace => toDouble 1.1
  | .code => toDouble 0.9
  | .metric => 1
  | .serviceCatalog => toDouble 0.8
  | .topology => toDouble 0.7
  | .other => toDouble 0.7

/-- `total_seconds()` of a difference in microseconds. -/
def totalSeconds (microseconds : ℤ) : ℚ :=
  toDouble (microseconds / 1000000)

/-- How close the time of an item is to the newest one. -/
def recencyWeight (oldest newest : ℤ) (item : TimedItem) : ℚ :=
  let span := totalSeconds (newest - oldest)
  if span ≤ 0 then 1
  else
    let age := max 0 (totalSeconds (newest - item.collectedAt))
    let fresher := max 0 (min 1 (toDouble (1 - toDouble (age / span))))
    toDouble (1 / 2 + toDouble (1 / 2 * fresher))

/-- Comparing times with and without a zone raises. -/
def Comparable (items : List TimedItem) : Prop :=
  (∀ item ∈ items, item.aware = true) ∨ ∀ item ∈ items, item.aware = false

instance : DecidablePred Comparable := fun _ => inferInstanceAs (Decidable (_ ∨ _))

section Weighting

variable (floatSum : List ℚ → ℚ)

def rawWeight (items : List TimedItem) (item : TimedItem) : ℚ :=
  let times := items.map (·.collectedAt)
  let oldest := times.foldl min item.collectedAt
  let newest := times.foldl max item.collectedAt
  toDouble (floatSum [typeWeight item.type, recencyWeight oldest newest item] / 2)

/-- The combined weights, with one as their sum. -/
def weight (items : List TimedItem) : Except PyError (List WeightedEvidence) :=
  if Comparable items then
    let total := floatSum (items.map (rawWeight floatSum items))
    .ok (items.map fun item =>
      { item := item
        weight :=
          if 0 < total then toDouble (rawWeight floatSum items item / total)
          else rawWeight floatSum items item })
  else .error .typeError

def byWeight (weighted : List WeightedEvidence) : List WeightedEvidence :=
  weighted.insertionSort fun left right => right.weight ≤ left.weight

def aggregateWeight (itemIds : List RequiredStr) (weighted : List WeightedEvidence) : ℚ :=
  let idToWeight : Dict RequiredStr ℚ :=
    Dict.update [] (weighted.map fun entry => (entry.item.itemId, entry.weight))
  floatSum (itemIds.map fun id => (idToWeight.get? id).getD 0)

end Weighting

/-! ## Convergence -/

structure EngineSettings where
  confidenceThreshold : PyFloat := finiteFloat (toDouble 0.7)
  minEvidenceCount : ℤ := 3
  minHypothesisGap : PyFloat := finiteFloat (toDouble 0.2)

structure ConvergenceStatus where
  isConverged : Bool
  confidenceThresholdMet : Bool
  sufficientEvidence : Bool
  topHypothesisGap : ℚ
  recommendation : PyStr
  iterationsRemaining : ℕ

section Convergence

variable (settings : EngineSettings)

def checkConfidence (validations : List ValidationResult) : Bool :=
  validations.head?.any fun top => atLeast top.confidence settings.confidenceThreshold

def checkEvidence (items : List TimedItem) : Bool :=
  decide (settings.minEvidenceCount ≤ items.length)

def hypothesisGap (validations : List ValidationResult) : ℚ :=
  match byConfidence validations with
  | [] => 0
  | [_] => 1
  | first :: second :: _ => toDouble (first.confidence - second.confidence)

/-- The criteria of a round, apart from the number of rounds. -/
def criteriaMet (validations : List ValidationResult) (items : List TimedItem) : Bool :=
  checkConfidence settings validations && checkEvidence settings items &&
    atLeast (hypothesisGap validations) settings.minHypothesisGap

def buildRecommendation (isConverged confidenceMet evidenceSufficient : Bool) (gap : ℚ)
    (iterationsRemaining : ℕ) : PyStr :=
  if isConverged then py "分析已收敛，可以得出结论"
  else
    join (py "; ")
      ((if confidenceMet then [] else [py "需要更多证据提高置信度"]) ++
        (if evidenceSufficient then []
          else [py "证据数量不足（当前需要至少 " ++ intText settings.minEvidenceCount ++
            py " 条）"]) ++
        (if below gap settings.minHypothesisGap
          then [py "假设区分度不够，需要更多差异化证据"] else []) ++
        [if 0 < iterationsRemaining
          then py "剩余 " ++ decimal iterationsRemaining ++ py " 轮迭代"
          else py "已达最大迭代次数，强制收敛"])

def check (maxIterations currentIteration : ℕ) (validations : List ValidationResult)
    (items : List TimedItem) : ConvergenceStatus :=
  let confidenceMet := checkConfidence settings validations
  let evidenceSufficient := checkEvidence settings items
  let gap := hypothesisGap validations
  let iterationsRemaining := maxIterations - currentIteration
  let isConverged :=
    criteriaMet settings validations items || decide (maxIterations ≤ currentIteration)
  { isConverged := isConverged
    confidenceThresholdMet := confidenceMet
    sufficientEvidence := evidenceSufficient
    topHypothesisGap := gap
    recommendation := buildRecommendation settings isConverged confidenceMet evidenceSufficient
      gap iterationsRemaining
    iterationsRemaining := iterationsRemaining }

end Convergence

end RootSeeker.Analysis
