import RootSeeker.Analysis.CodeSlice
import RootSeeker.Core.Patterns
import RootSeeker.SkillRuntime.RuleStepArguments

/-!
# Arguments of a step after other steps

`RuleStepArgumentResolver.resolve` with the outputs of completed steps: what it
looks up in them, and the arguments that each tool gets.
-/

namespace RootSeeker.SkillRuntime

open Python Contracts Analysis Patterns

/-- The outputs of the completed steps, under their step ids. -/
abbrev StepOutputs := Dict PyStr Fields

/-- The scanners that read free text. -/
structure TextScanners where
  /-- `extract_service_name_from_text` -/
  extractServiceName : PyStr → Option PyStr
  /-- `build_zoekt_search_query` -/
  zoektSearchQuery : PyStr → PyStr
  /-- `extract_code_identifiers` -/
  codeIdentifiers : PyStr → List PyStr
  /-- `extract_code_path` -/
  codePath : PyStr → Option PyStr
  /-- `extract_call_chain_summary` -/
  callChainSummary : PyStr → List PyStr
  /-- `parse_call_chain_frame` -/
  parseFrame : PyStr → Option CallChainFrame
  /-- `\w` on characters outside ASCII. -/
  wordChar : CodePoint → Bool
  notSpace : ∀ c, wordChar c = true → isSpace c = false

/-! ## The symbol of a symptom -/

def isUpper (c : CodePoint) : Bool :=
  0x41 ≤ c.val && c.val ≤ 0x5A

def isLetter (c : CodePoint) : Bool :=
  isUpper c || (0x61 ≤ c.val && c.val ≤ 0x7A)

def dot : CodePoint := CodePoint.ofChar '.'

/-- The class `[\w$]`. -/
def isSymbolChar (wordChar : CodePoint → Bool) (c : CodePoint) : Bool :=
  isWordChar wordChar c || c = CodePoint.ofChar '$'

/-- `\b([A-Z][\w$]+)\.([a-zA-Z_][\w$]*)\b` -/
def symbolPattern (wordChar : CodePoint → Bool) : Pattern CodePoint :=
  sequence [boundary (isWordChar wordChar),
    group (sequence [one isUpper, atLeastOne (one (isSymbolChar wordChar))]),
    one (· = dot),
    group (sequence [one fun c => isLetter c || c = CodePoint.ofChar '_',
      many (one (isSymbolChar wordChar))]),
    boundary (isWordChar wordChar)]

/-- `_symbol_from_symptom`. -/
def symbolFromSymptom (wordChar : CodePoint → Bool) (symptom : PyStr) : Option PyStr :=
  match searchFrom (symbolPattern wordChar) none symptom with
  | some [className, methodName] => some (className ++ py "." ++ methodName)
  | _ => none

theorem isSpace_of_visible {c : CodePoint} (hlow : 0x21 ≤ c.val) (hhigh : c.val ≤ 0x7E) :
    isSpace c = false := by
  simp only [isSpace, Bool.or_eq_false_iff, Bool.and_eq_false_iff, decide_eq_false_iff_not]
  omega

section Symbol

variable {wordChar : CodePoint → Bool}

theorem isSpace_of_isSymbolChar (hspace : ∀ c, wordChar c = true → isSpace c = false)
    {c : CodePoint} (hsymbol : isSymbolChar wordChar c = true) : isSpace c = false := by
  cases Bool.or_eq_true_iff.mp hsymbol with
  | inl hword =>
    rw [isWordChar] at hword
    split at hword
    · simp only [isDigit, Bool.or_eq_true, Bool.and_eq_true, decide_eq_true_eq] at hword
      exact isSpace_of_visible (by omega) (by omega)
    · exact hspace c hword
  | inr hdollar =>
    rw [of_decide_eq_true hdollar]
    decide

theorem symbolPattern_readsOnly (hspace : ∀ c, wordChar c = true → isSpace c = false) :
    ReadsOnly (fun c => isSpace c = false) (symbolPattern wordChar) := by
  have hupper : ∀ c, isUpper c = true → isSpace c = false := by
    intro c hc
    simp only [isUpper, Bool.and_eq_true, decide_eq_true_eq] at hc
    exact isSpace_of_visible (by omega) (by omega)
  have hstart : ∀ c, (isLetter c || c = CodePoint.ofChar '_') = true → isSpace c = false := by
    intro c hc
    cases Bool.or_eq_true_iff.mp hc with
    | inl hletter =>
      simp only [isLetter, isUpper, Bool.or_eq_true, Bool.and_eq_true, decide_eq_true_eq] at hletter
      exact isSpace_of_visible (by omega) (by omega)
    | inr hunderscore =>
      rw [of_decide_eq_true hunderscore]
      decide
  have hdot : ∀ c : CodePoint, decide (c = dot) = true → isSpace c = false := by
    intro c hc
    rw [of_decide_eq_true hc]
    decide
  have hmore := ReadsOnly.one fun c => isSpace_of_isSymbolChar hspace (c := c)
  apply ReadsOnly.sequence
  simp only [List.forall_mem_cons, List.not_mem_nil, false_implies, implies_true, and_true]
  refine ⟨.boundary _, .group (.sequence ?_), .one hdot, .group (.sequence ?_), .boundary _⟩
  · simp only [List.forall_mem_cons, List.not_mem_nil, false_implies, implies_true, and_true]
    exact ⟨.one hupper, hmore.atLeastOne⟩
  · simp only [List.forall_mem_cons, List.not_mem_nil, false_implies, implies_true, and_true]
    exact ⟨.one hstart, hmore.many⟩

/-- The symbol of a symptom is a text without white space. -/
theorem strip_of_symbolFromSymptom (hspace : ∀ c, wordChar c = true → isSpace c = false)
    {symptom symbol : PyStr} (hsymbol : symbolFromSymptom wordChar symptom = some symbol) :
    strip symbol = symbol ∧ symbol ≠ [] := by
  rw [symbolFromSymptom] at hsymbol
  split at hsymbol
  · rename_i className methodName hfound
    obtain rfl := Option.some.inj hsymbol
    have hgroups := (symbolPattern_readsOnly hspace).groups_searchFrom hfound
    have hkept : ∀ c ∈ className ++ py "." ++ methodName, isSpace c = false := by
      intro c hc
      rw [List.mem_append, List.mem_append] at hc
      cases hc with
      | inl hfront =>
        cases hfront with
        | inl hclass => exact hgroups className (by simp) c hclass
        | inr hdot =>
          rw [List.mem_singleton.mp hdot]
          decide
      | inr hmethod => exact hgroups methodName (by simp) c hmethod
    exact ⟨stripBy_eq_self_of_forall hkept, by simp [py]⟩
  · exact absurd hsymbol (by simp)

end Symbol

/-- The findings of the scanners in a symptom alone. -/
def TextScanners.findings (std : Stdlib) (scanners : TextScanners) : TextAnalysis where
  extractServiceName := scanners.extractServiceName
  zoektSearchQuery := scanners.zoektSearchQuery
  codeIdentifiers := scanners.codeIdentifiers
  codePath := scanners.codePath
  chainMethods path symptom :=
    chainMethodsForPath std scanners.parseFrame path (scanners.callChainSummary symptom)
  symbol := symbolFromSymptom scanners.wordChar

/-! ## What is looked up in the outputs -/

/-- The object under a key. -/
def objectAt (payload : Fields) (key : PyStr) : Option Fields :=
  match payload.get? key with
  | some (.obj fields) => some fields
  | _ => none

def hasExtracted (payload : Fields) : Bool :=
  (objectAt payload (py "extracted")).isSome

def hasCase (payload : Fields) : Bool :=
  (objectAt payload (py "case_request")).isSome

def containsText (needle : PyStr) : PyStr → Bool
  | [] => needle.isEmpty
  | c :: rest => needle.isPrefixOf (c :: rest) || containsText needle rest

/-- `"normalize" in step_id.lower()`. -/
def namesNormalize (std : Stdlib) (stepId : PyStr) : Bool :=
  containsText (py "normalize") (lower std stepId)

/-- `_normalize_payload`. -/
def normalizeOutput (std : Stdlib) (outputs : StepOutputs) : Fields :=
  let candidates := outputs.filter fun entry => hasExtracted entry.2 || hasCase entry.2
  let preferred := candidates.find? fun entry => namesNormalize std entry.1 || hasCase entry.2
  ((preferred.or candidates.head?).map Prod.snd).getD []

/-- The texts of a list that are not blank. -/
def trimmedTexts (std : Stdlib) (items : List Json) : List PyStr :=
  (items.map fun item => strip (str std item)).filter (· ≠ [])

def callChainFromOutputs (std : Stdlib) (outputs : StepOutputs) : List PyStr :=
  match (objectAt (normalizeOutput std outputs) (py "extracted")).bind
      (Dict.get? · (py "call_chain")) with
  | some (.arr items) => trimmedTexts std items
  | _ => []

def callChainForCodeRead (std : Stdlib) (scanners : TextScanners) (outputs : StepOutputs)
    (symptom : PyStr) : List PyStr :=
  let chain := callChainFromOutputs std outputs
  if chain = [] then scanners.callChainSummary symptom else chain

def normalizedCaseRequest (std : Stdlib) (outputs : StepOutputs) : Fields :=
  (objectAt (normalizeOutput std outputs) (py "case_request")).getD []

/-- The text before the first place of a frame. -/
def beforeLocation : PyStr → PyStr
  | [] => []
  | c :: rest => if (py " (").isPrefixOf (c :: rest) then [] else c :: beforeLocation rest

def symbolFromCallChain (std : Stdlib) (outputs : StepOutputs) : Option PyStr :=
  ((callChainFromOutputs std outputs).head?.map fun first =>
    strip (beforeLocation first)).filter (· ≠ [])

/-- The text of a value that is not falsy. -/
def truthyField (std : Stdlib) (fields : Fields) (key : PyStr) : Option PyStr :=
  ((fields.get? key).filter Json.truthy).map (str std)

def pathFromNormalizedInput (std : Stdlib) (outputs : StepOutputs) : Option PyStr :=
  (objectAt (normalizeOutput std outputs) (py "extracted")).bind fun extracted =>
    truthyField std extracted (py "code_path")

/-- The first hit of the code search with such a field. -/
def hitText (std : Stdlib) (outputs : StepOutputs) (key : PyStr) : Option PyStr :=
  match (outputs.get? (py "code-search")).bind (Dict.get? · (py "hits")) with
  | some (.arr hits) => hits.findSome? fun hit =>
    match hit with
    | .obj fields => truthyField std fields key
    | _ => none
  | _ => none

def pathFromCodeSearch (std : Stdlib) (outputs : StepOutputs) : Option PyStr :=
  hitText std outputs (py "path")

def repoFromCodeSearch (std : Stdlib) (outputs : StepOutputs) : Option PyStr :=
  hitText std outputs (py "repo")

/-! ## The case as the outputs have normalised it -/

def mergedMetadata (std : Stdlib) (case : CaseCreateRequest) (outputs : StepOutputs) :
    Fields :=
  match objectAt (normalizedCaseRequest std outputs) (py "metadata") with
  | some normalized => Dict.update case.metadata.val normalized
  | none => case.metadata.val

def mergedSymptom (std : Stdlib) (case : CaseCreateRequest) (outputs : StepOutputs) : PyStr :=
  (truthyField std (normalizedCaseRequest std outputs) (py "symptom")).getD case.symptom.val

def mergedService (std : Stdlib) (scanners : TextScanners) (case : CaseCreateRequest)
    (outputs : StepOutputs) : PyStr :=
  resolveServiceName std (scanners.findings std)
    [truthyText std [(normalizedCaseRequest std outputs).get? (py "service_name")],
      case.serviceName.val]
    (mergedSymptom std case outputs) []

/-- The repository of a step: the service, else that of the first search hit. -/
def stepRepo (std : Stdlib) (outputs : StepOutputs) (serviceName : PyStr) : PyStr :=
  if serviceName = [] then (repoFromCodeSearch std outputs).getD [] else serviceName

/-! ## The arguments of a tool -/

def normalizeArguments (std : Stdlib) (case : CaseCreateRequest) (outputs : StepOutputs) :
    Fields :=
  let fields := Dict.update (mergedMetadata std case outputs)
    [(py "title", .str case.title.val), (py "message", .str case.symptom.val),
     (py "source", .str case.source.val)]
  if isPlaceholderServiceName std case.serviceName.val then fields
  else fields.set (py "service_name") (.str case.serviceName.val)

def catalogArguments (std : Stdlib) (metadata : Fields) (serviceName : PyStr) : Fields :=
  [(py "tenant", .str (metadataText std metadata (py "tenant") (py "demo"))),
   (py "environment", .str (metadataText std metadata (py "environment") (py "prod"))),
   (py "service_name",
     .str (if serviceName = [] then py "unknown-service" else serviceName))]

def codeReadStepArguments (std : Stdlib) (scanners : TextScanners) (outputs : StepOutputs)
    (metadata : Fields) (symptom serviceName : PyStr) : Fields :=
  let path := truthyText std [(pathFromCodeSearch std outputs).map Json.str,
    metadata.get? (py "code_path"), (pathFromNormalizedInput std outputs).map Json.str,
    (scanners.codePath symptom).map Json.str]
  if path = [] then
    skip (py "No code search hit, explicit code_path, or file path in symptom.")
  else
    let specs := chainMethodsForPath std scanners.parseFrame path
      (callChainForCodeRead std scanners outputs symptom)
    let specLine := (specs.head?.bind Prod.snd).getD 0
    let line :=
      if specLine = 0 then
        (faultLineForPath std scanners.parseFrame path
          (callChainFromOutputs std outputs)).getD 0
      else specLine
    [(py "path", .str path)] ++ optionalText (py "repo") (stepRepo std outputs serviceName) ++
      (if specs = [] then []
        else [(py "methods", .arr (specs.map fun spec => Json.str spec.1))]) ++
      (if line = 0 then [] else [(py "line", .int line)])

def findCallersStepArguments (std : Stdlib) (outputs : StepOutputs) (serviceName : PyStr) :
    Fields :=
  let callChain := callChainFromOutputs std outputs
  if callChain = [] then skip (py "No call_chain from normalize-incident.")
  else
    [(py "call_chain", .arr (callChain.map Json.str)), (py "max_depth", .int 5),
      (py "limit", .int 30), (py "prefer_graph", .bool true)] ++
    optionalText (py "service_name") serviceName ++
    optionalText (py "repo") (stepRepo std outputs serviceName)

def graphSymbolStepArguments (std : Stdlib) (scanners : TextScanners) (action : PyStr)
    (outputs : StepOutputs) (symptom serviceName : PyStr) : Fields :=
  match (symbolFromCallChain std outputs).or
      (symbolFromSymptom scanners.wordChar symptom) with
  | none => skip (py "No fault symbol from call_chain or symptom.")
  | some symbol =>
    [(py "symbol", .str symbol)] ++
      (if action = py "graph.impact" then [(py "direction", .str (py "upstream"))]
        else []) ++
      optionalText (py "repo") (stepRepo std outputs serviceName)

def graphQueryStepArguments (symptom serviceName : PyStr) : Fields :=
  let query := strip (firstLine symptom)
  if query = [] then skip (py "No symptom text for graph.query.")
  else [(py "search_query", .str (query.take 200))] ++ optionalText (py "repo") serviceName

/-- `_build_step_args`. -/
def resolveStepArgs (std : Stdlib) (scanners : TextScanners) (action : PyStr)
    (case : CaseCreateRequest) (outputs : StepOutputs) : Fields :=
  let metadata := mergedMetadata std case outputs
  let symptom := mergedSymptom std case outputs
  let serviceName := mergedService std scanners case outputs
  let traceId := metadataText std metadata (py "trace_id") (py "trace-unknown")
  if action = py "incident.normalize" then
    [(py "payload", .obj (normalizeArguments std case outputs))]
  else if action = py "catalog.resolve_service" ∨ action = py "catalog.get_log_sources" then
    catalogArguments std metadata serviceName
  else if action = py "log.query_by_trace_id" then
    [(py "trace_id", .str traceId)] ++ optionalText (py "service_name") serviceName
  else if action = py "log.query_by_template" then
    [(py "template_id", .str (py "default.error_window"))] ++
      optionalText (py "service_name") serviceName
  else if action = py "trace.get_chain" then [(py "trace_id", .str traceId)]
  else if action = py "code.search" then
    [(py "query", .str (scanners.zoektSearchQuery symptom))]
  else if action = py "code.semantic_search" then
    let identifiers := scanners.codeIdentifiers symptom
    let query := if identifiers = [] then symptom else join (py " ") (identifiers.take 4)
    [(py "query", .str query), (py "limit", .int 10)]
  else if action = py "code.read" then
    codeReadStepArguments std scanners outputs metadata symptom serviceName
  else if action = py "code.find_callers" then
    findCallersStepArguments std outputs serviceName
  else if action = py "graph.impact" ∨ action = py "graph.context" then
    graphSymbolStepArguments std scanners action outputs symptom serviceName
  else if action = py "graph.query" then graphQueryStepArguments symptom serviceName
  else []

/-! ## Before any step -/

theorem truthyText_middle_none (std : Stdlib) (first last : Option Json) :
    truthyText std [first, none, last] = truthyText std [first, last] := by
  simp only [truthyText, List.findSome?_cons]
  cases Option.filter Json.truthy first <;> rfl

theorem mergedService_nil (std : Stdlib) (scanners : TextScanners) (case : CaseCreateRequest) :
    mergedService std scanners case [] =
      resolveServiceName std (scanners.findings std) [[], case.serviceName.val]
        case.symptom.val [] :=
  rfl

theorem stepRepo_nil (std : Stdlib) (serviceName : PyStr) :
    stepRepo std [] serviceName = serviceName := by
  rw [stepRepo]
  split
  · rename_i hempty
    exact hempty.symm
  · rfl

theorem codeReadStepArguments_nil (std : Stdlib) (scanners : TextScanners)
    (case : CaseCreateRequest) (serviceName : PyStr) :
    codeReadStepArguments std scanners [] case.metadata.val case.symptom.val serviceName =
      codeReadArguments std (scanners.findings std) case serviceName := by
  have hchain : callChainForCodeRead std scanners [] case.symptom.val =
      scanners.callChainSummary case.symptom.val := rfl
  have hfault : ∀ path, faultLineForPath std scanners.parseFrame path
      (callChainFromOutputs std []) = none := by
    intro path
    rw [faultLineForPath, chainMethodsForPath]
    split <;> rfl
  have hpath : ∀ last, truthyText std [(pathFromCodeSearch std []).map Json.str,
      Dict.get? case.metadata.val (py "code_path"),
      (pathFromNormalizedInput std []).map Json.str, last] =
        truthyText std [Dict.get? case.metadata.val (py "code_path"), last] :=
    fun last => truthyText_middle_none std _ last
  have hline : ∀ line : ℕ, (if line = 0 then 0 else line) = line := by
    intro line
    split
    · rename_i hzero
      exact hzero.symm
    · rfl
  rw [codeReadStepArguments, codeReadArguments]
  simp only [hpath, hchain, hfault, hline, stepRepo_nil, Option.getD_none, TextScanners.findings]
  rfl

theorem graphSymbolStepArguments_nil (std : Stdlib) (scanners : TextScanners)
    (action : PyStr) (case : CaseCreateRequest) (serviceName : PyStr) :
    graphSymbolStepArguments std scanners action [] case.symptom.val serviceName =
      graphSymbolArguments (scanners.findings std) action case serviceName := by
  have hsymbol : (symbolFromCallChain std []).or
      (symbolFromSymptom scanners.wordChar case.symptom.val) =
        symbolFromSymptom scanners.wordChar case.symptom.val := rfl
  have hfound : (scanners.findings std).symbol = symbolFromSymptom scanners.wordChar := rfl
  rw [graphSymbolStepArguments, graphSymbolArguments, hsymbol, hfound]
  cases symbolFromSymptom scanners.wordChar case.symptom.val with
  | none => rfl
  | some symbol =>
    exact congrArg (fun repo => [(py "symbol", Json.str symbol)] ++
      (if action = py "graph.impact" then [(py "direction", .str (py "upstream"))] else []) ++
      optionalText (py "repo") repo) (stepRepo_nil std serviceName)

/-- Without outputs these are the defaults that a planned call starts from. -/
theorem resolveStepArgs_nil (std : Stdlib) (scanners : TextScanners) (action : PyStr)
    (case : CaseCreateRequest) :
    resolveStepArgs std scanners action case [] =
      buildStepArgs std (scanners.findings std) action case := by
  have hmetadata : mergedMetadata std case [] = case.metadata.val := rfl
  have hsymptom : mergedSymptom std case [] = case.symptom.val := rfl
  have hcallers : ∀ serviceName, findCallersStepArguments std [] serviceName =
      skip (py "No call_chain from normalize-incident.") := fun _ => rfl
  have hnormalize : normalizeArguments std case [] = normalizePayload std case := rfl
  have hcatalog : catalogArguments std case.metadata.val = serviceArguments std case := rfl
  have hquery : graphQueryStepArguments case.symptom.val = graphQueryArguments case := rfl
  rw [resolveStepArgs, buildStepArgs]
  simp only [mergedService_nil, hmetadata, hsymptom, hcallers, hnormalize, hcatalog, hquery,
    codeReadStepArguments_nil, graphSymbolStepArguments_nil]
  rfl

end RootSeeker.SkillRuntime
