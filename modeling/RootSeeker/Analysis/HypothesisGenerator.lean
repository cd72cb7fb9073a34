import RootSeeker.Contracts.Report
import RootSeeker.Core.Loops
import RootSeeker.Core.Patterns
import RootSeeker.Python.Repr

/-!
# Hypotheses from evidence

The hypotheses that are made of an evidence pack, by keywords and by types of
evidence.  What a backend that is not configured says takes no part in them.
-/

namespace RootSeeker.Analysis

open Python Contracts Patterns

/-- An evidence item with the time of its collection in microseconds, which may lack a
zone. -/
structure TimedItem extends EvidenceItem where
  collectedAt : ℤ
  aware : Bool := true

structure TimedPack where
  caseId : RequiredStr
  items : List TimedItem
  summary : PyStr

structure Hypothesis where
  hypothesisId : RequiredStr
  statement : RequiredStr
  evidenceItemIds : List RequiredStr

/-- The libraries and supplies that an analysis uses. -/
structure AnalysisLib extends Stdlib where
  wordChar : CodePoint → Bool
  /-- `sum` of floats. -/
  floatSum : List ℚ → ℚ
  /-- `new_id("hyp-")` in a round, for each place. -/
  hypothesisId : ℕ → ℕ → RequiredStr
  /-- `new_id("ev-derived-")` in a round. -/
  derivedId : ℕ → RequiredStr
  /-- The time at the end of a round. -/
  now : ℕ → ℤ
  hypothesisId_injective : ∀ round, Function.Injective (hypothesisId round)

/-! ## Templates -/

structure HypothesisTemplate where
  heading : PyStr
  keywords : List PyStr

def hypothesisTemplates : List HypothesisTemplate :=
  [{ heading := py "日志中发现错误: "
     keywords := [py "error", py "exception", py "fail", py "timeout"] },
    { heading := py "调用链异常: "
      keywords := [py "latency", py "slow", py "timeout", py "retry"] },
    { heading := py "代码缺陷: "
      keywords := [py "null", py "nil", py "panic", py "index out of range"] },
    { heading := py "资源耗尽: "
      keywords := [py "oom", py "memory", py "cpu", py "disk", py "connection pool"] },
    { heading := py "配置错误: "
      keywords := [py "config", py "env", py "missing", py "invalid"] },
    { heading := py "依赖服务故障: "
      keywords := [py "downstream", py "upstream", py "service", py "dependency",
        py "unavailable"] }]

def containsAny (keywords : List PyStr) (text : PyStr) : Bool :=
  keywords.any fun keyword => decide (keyword <:+: text)

/-! ## Content of an item -/

def textField (fields : Fields) (key : PyStr) : Option PyStr :=
  match Dict.get? fields key with
  | some (.str text) => some text
  | _ => none

def objectField (fields : Fields) (key : PyStr) : Option Fields :=
  match Dict.get? fields key with
  | some (.obj object) => some object
  | _ => none

def saysUnconfigured (fields : Fields) : Bool :=
  match Dict.get? fields (py "configured") with
  | some (.bool configured) => !configured
  | _ => false

/-- `_is_unconfigured_evidence`. -/
def isUnconfiguredEvidence (item : EvidenceItem) : Bool :=
  saysUnconfigured item.content.val ||
    (objectField item.content.val (py "metadata")).any saysUnconfigured

section Content

variable (lib : AnalysisLib)

/-- The texts of the values of an item that are searched for keywords. -/
def extractContent (item : EvidenceItem) : PyStr :=
  join (py " ") (item.content.val.flatMap fun entry =>
    match entry.2 with
    | .str text => [text]
    | .obj fields => [repr lib.toStdlib (.obj fields)]
    | .arr values => values.map (str lib.toStdlib)
    | _ => [])

def findMatchingItems (pack : TimedPack) (template : HypothesisTemplate) : List TimedItem :=
  pack.items.filter fun item =>
    !isUnconfiguredEvidence item.toEvidenceItem &&
      containsAny template.keywords (lower lib.toStdlib (extractContent lib item.toEvidenceItem))

/-! ## Snippets -/

def skipSnippetKeys : List PyStr :=
  [py "source", py "backend", py "engine", py "index", py "query_key", py "tool_name"]

def skipSnippetValues : List PyStr :=
  [py "zoekt", py "gitnexus", py "qdrant", py "catalog", py "ok", py "true", py "false"]

/-- The characters that a small letter matches, case ignored. -/
def letterClass (letter : CodePoint) : List CodePoint :=
  if letter = CodePoint.ofChar 'i' then py "iIıİ"
  else if letter = CodePoint.ofChar 'k' then py "kKK"
  else if letter = CodePoint.ofChar 's' then py "sSſ"
  else if h : 0x61 ≤ letter.val ∧ letter.val ≤ 0x7A then
    [letter, ⟨letter.val - 0x20, CodePoint.capital_lt h⟩]
  else [letter]

def ignoringCase (word : String) : Pattern CodePoint :=
  sequence ((py word).map fun letter => one fun c => c ∈ letterClass letter)

def atTextStart : Pattern CodePoint := fun cursor =>
  if cursor.before = none then [cursor] else []

def atTextEnd : Pattern CodePoint := fun cursor => if cursor.rest = [] then [cursor] else []

def charOf (symbols : String) : Pattern CodePoint := one fun c => c ∈ py symbols

/-- `_PATH_LIKE_RE`. -/
def pathLike : Pattern CodePoint :=
  choice
    [sequence [choice [atTextStart, charOf "/\\"],
        atLeastOne (one fun c => isWordChar lib.wordChar c || decide (c ∈ py ".-")), charOf ".",
        choice (["java", "kt", "py", "go", "ts", "tsx", "js", "jsx", "cs", "rb"].map ignoringCase),
        atTextEnd],
      sequence [choice [atTextStart, charOf "/"],
        choice (["src", "main", "java", "com", "org"].map ignoringCase), charOf "/"]]

def isPathLike (text : PyStr) : Bool :=
  (searchFrom (pathLike lib) none text).isSome

def usableHypothesisSnippet (value source : PyStr) (preferException : Bool) : Bool :=
  let text := strip value
  let lowered := lower lib.toStdlib text
  decide (text ≠ []) && !(py "缺失字段仅表示").isPrefixOf text &&
    decide (lowered ∉ skipSnippetValues) &&
    decide (lowered ≠ lower lib.toStdlib (strip source)) &&
    !(preferException && isPathLike lib text && !decide (py "exception" <:+: lowered) &&
      !decide (py "error!" <:+: lowered))

def snippetOf (source : PyStr) (preferException : Bool) (value : PyStr) : Option PyStr :=
  if usableHypothesisSnippet lib value source preferException then some ((strip value).take 180)
  else none

def hypothesisSummarySnippet (item : EvidenceItem) : PyStr :=
  let content := item.content.val
  let source := item.source.val
  let fromExtracted := (objectField content (py "extracted")).bind fun extracted =>
    [py "exception_summary", py "symptom", py "code_path"].findSome? fun key =>
      (textField extracted key).bind
        (snippetOf lib source (decide (key ≠ py "exception_summary")))
  let fromFields := [py "exception_summary", py "summary", py "path", py "error"].findSome?
    fun key => (textField content key).bind
      (snippetOf lib source (decide (key ∈ [py "summary", py "path"])))
  let fromOthers := content.findSome? fun entry =>
    match entry.2 with
    | .str text => if entry.1 ∈ skipSnippetKeys then none else snippetOf lib source true text
    | _ => none
  ((fromExtracted.or fromFields).or fromOthers).getD []

/-- Note the exception of an item, or else its snippet. -/
def addSummaryBit (bits : List PyStr × List PyStr) (item : EvidenceItem) :
    List PyStr × List PyStr :=
  let exception := ((objectField item.content.val (py "extracted")).bind
    (textField · (py "exception_summary"))).filter
      (usableHypothesisSnippet lib · item.source.val false)
  match exception with
  | some text => if strip text ∈ bits.1 then bits else (bits.1 ++ [strip text], bits.2)
  | none =>
    let snippet := hypothesisSummarySnippet lib item
    if snippet = [] ∨ snippet ∈ bits.2 ∨ snippet ∈ bits.1 then bits
    else (bits.1, bits.2 ++ [snippet])

def buildSummaryFromItems (items : List EvidenceItem) : PyStr :=
  let bits := (items.take 5).foldl (addSummaryBit lib) ([], [])
  match bits.1 with
  | exception :: _ => exception.take 180
  | [] => join (py "; ") (bits.2.take 2)

/-! ## Hypotheses -/

def buildHypothesis (id : RequiredStr) (template : HypothesisTemplate) (items : List TimedItem)
    (usedItems : List RequiredStr) : Except PyError (Option Hypothesis) :=
  match items.filter fun item => item.itemId ∉ usedItems with
  | [] => .ok none
  | first :: rest => do
    let summary := buildSummaryFromItems lib ((first :: rest).map TimedItem.toEvidenceItem)
    let summary := if summary = [] then py "证据 " ++ first.itemId.val else summary
    let statement ← RequiredStr.validate (template.heading ++ summary)
    return some
      { hypothesisId := id
        statement := statement
        evidenceItemIds := ((first :: rest).take 5).map (·.itemId) }

def addTemplateHypothesis (round : ℕ) (pack : TimedPack) (hypotheses : List Hypothesis)
    (template : HypothesisTemplate) : Except PyError (List Hypothesis) := do
  let built ← buildHypothesis lib (lib.hypothesisId round hypotheses.length) template
    (findMatchingItems lib pack template) (hypotheses.flatMap (·.evidenceItemIds))
  return hypotheses ++ built.toList

/-- The types of several items each that no hypothesis uses yet. -/
def addTypeHypothesis (round : ℕ) (remaining : List TimedItem) (hypotheses : List Hypothesis)
    (type : EvidenceType) : Except PyError (List Hypothesis) :=
  let items := remaining.filter fun item => item.type = type
  if items.length < 2 then .ok hypotheses
  else do
    let statement ← RequiredStr.validate (py "基于 " ++ type.value ++ py " 类型证据的假设")
    return hypotheses ++
      [{ hypothesisId := lib.hypothesisId round hypotheses.length
         statement := statement
         evidenceItemIds := (items.take 5).map (·.itemId) }]

def generateTypeHypotheses (round : ℕ) (pack : TimedPack) (hypotheses : List Hypothesis) :
    Except PyError (List Hypothesis) :=
  let remaining := pack.items.filter fun item =>
    item.itemId ∉ hypotheses.flatMap (·.evidenceItemIds) ∧
      isUnconfiguredEvidence item.toEvidenceItem = false
  (remaining.map (·.type)).eraseDups.foldlM (addTypeHypothesis lib round remaining) hypotheses

def buildCatchAllHypothesis (round : ℕ) (first : TimedItem) (pack : TimedPack) :
    Except PyError Hypothesis := do
  let statement ← RequiredStr.validate (py "疑似由 " ++ first.source.val ++ py " 相关异常导致")
  return {
    hypothesisId := lib.hypothesisId round 0
    statement := statement
    evidenceItemIds := (pack.items.take 3).map (·.itemId) }

def withCatchAll (round : ℕ) (first : TimedItem) (pack : TimedPack)
    (hypotheses : List Hypothesis) : Except PyError (List Hypothesis) :=
  if hypotheses.isEmpty then
    (buildCatchAllHypothesis lib round first pack).map fun hypothesis => [hypothesis]
  else .ok hypotheses

/-- At most five hypotheses, those of most items first. -/
def generate (round : ℕ) (pack : TimedPack) : Except PyError (List Hypothesis) :=
  match pack.items with
  | [] => do
    let statement ← RequiredStr.validate (py "证据不足，需上游补证")
    return [{ hypothesisId := lib.hypothesisId round 0
              statement := statement
              evidenceItemIds := [] }]
  | first :: _ => do
    let matched ← hypothesisTemplates.foldlM (addTemplateHypothesis lib round pack) []
    let typed ← generateTypeHypotheses lib round pack matched
    let hypotheses ← withCatchAll lib round first pack typed
    return (hypotheses.insertionSort fun left right =>
      right.evidenceItemIds.length ≤ left.evidenceItemIds.length).take 5

end Content

theorem generate_ne_nil {lib : AnalysisLib} {round : ℕ} {pack : TimedPack}
    {hypotheses : List Hypothesis}
    (hgenerate : generate lib round pack = .ok hypotheses) : hypotheses ≠ [] := by
  rw [generate] at hgenerate
  split at hgenerate
  · obtain ⟨statement, -, hrest⟩ := Loops.exists_of_bind_eq_ok hgenerate
    obtain rfl := Except.ok.inj hrest
    exact List.cons_ne_nil _ _
  · obtain ⟨matched, -, hrest⟩ := Loops.exists_of_bind_eq_ok hgenerate
    obtain ⟨typed, -, hrest⟩ := Loops.exists_of_bind_eq_ok hrest
    obtain ⟨all, hall, hrest⟩ := Loops.exists_of_bind_eq_ok hrest
    have hne : all ≠ [] := by
      rw [withCatchAll] at hall
      split at hall
      · obtain ⟨hypothesis, -, rfl⟩ := Loops.exists_of_map_eq_ok hall
        exact List.cons_ne_nil _ _
      · next hsome =>
        obtain rfl := Except.ok.inj hall
        exact fun hempty => hsome (List.isEmpty_iff.mpr hempty)
    obtain rfl := Except.ok.inj hrest
    have hlength := List.length_insertionSort
      (fun left right : Hypothesis =>
        right.evidenceItemIds.length ≤ left.evidenceItemIds.length) all
    have hpos := List.length_pos_iff.mpr hne
    refine List.ne_nil_of_length_pos ?_
    rw [List.length_take, hlength]
    omega

end RootSeeker.Analysis
