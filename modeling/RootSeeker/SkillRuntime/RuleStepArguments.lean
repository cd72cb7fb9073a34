import RootSeeker.Analysis.ServiceIdentity
import RootSeeker.Contracts.Case

/-!
# Default arguments of a step

`RuleStepArgumentResolver.resolve` before any step has an output: the defaults
that a planned tool call starts from.
-/

namespace RootSeeker.SkillRuntime

open Python Contracts Analysis

/-- `str(metadata.get(key, default))`. -/
def metadataText (std : Stdlib) (metadata : Fields) (key default : PyStr) : PyStr :=
  ((metadata.get? key).map (str std)).getD default

/-- An entry for a text that is not empty. -/
def optionalText (key text : PyStr) : Fields :=
  if text = [] then [] else [(key, .str text)]

def skip (reason : PyStr) : Fields :=
  [(py "_skip_reason", .str reason)]

/-- The payload that the case is normalised from a second time. -/
def normalizePayload (std : Stdlib) (case : CaseCreateRequest) : Fields :=
  let fields := Dict.update case.metadata.val
    [(py "title", .str case.title.val), (py "message", .str case.symptom.val),
     (py "source", .str case.source.val)]
  if isPlaceholderServiceName std case.serviceName.val then fields
  else fields.set (py "service_name") (.str case.serviceName.val)

def serviceArguments (std : Stdlib) (case : CaseCreateRequest) (serviceName : PyStr) :
    Fields :=
  [(py "tenant", .str (metadataText std case.metadata.val (py "tenant") (py "demo"))),
   (py "environment",
     .str (metadataText std case.metadata.val (py "environment") (py "prod"))),
   (py "service_name",
     .str (if serviceName = [] then py "unknown-service" else serviceName))]

def codeReadArguments (std : Stdlib) (analysis : TextAnalysis)
    (case : CaseCreateRequest) (serviceName : PyStr) : Fields :=
  let path := truthyText std [case.metadata.val.get? (py "code_path"),
    (analysis.codePath case.symptom.val).map Json.str]
  if path = [] then
    skip (py "No code search hit, explicit code_path, or file path in symptom.")
  else
    let specs := analysis.chainMethods path case.symptom.val
    let methods := specs.map fun spec => Json.str spec.1
    let line := ((specs.head?.bind Prod.snd).getD 0)
    [(py "path", .str path)] ++ optionalText (py "repo") serviceName ++
      (if specs = [] then [] else [(py "methods", .arr methods)]) ++
      (if line = 0 then [] else [(py "line", .int line)])

def graphSymbolArguments (analysis : TextAnalysis) (action : PyStr)
    (case : CaseCreateRequest) (serviceName : PyStr) : Fields :=
  match analysis.symbol case.symptom.val with
  | none => skip (py "No fault symbol from call_chain or symptom.")
  | some symbol =>
    [(py "symbol", .str symbol)] ++
      (if action = py "graph.impact" then [(py "direction", .str (py "upstream"))]
        else []) ++
      optionalText (py "repo") serviceName

def graphQueryArguments (case : CaseCreateRequest) (serviceName : PyStr) : Fields :=
  let query := strip (firstLine case.symptom.val)
  if query = [] then skip (py "No symptom text for graph.query.")
  else [(py "search_query", .str (query.take 200))] ++ optionalText (py "repo") serviceName

/-- `_build_step_args` with no step outputs. -/
def buildStepArgs (std : Stdlib) (analysis : TextAnalysis) (action : PyStr)
    (case : CaseCreateRequest) : Fields :=
  let symptom := case.symptom.val
  let serviceName := resolveServiceName std analysis [[], case.serviceName.val] symptom []
  let traceId := metadataText std case.metadata.val (py "trace_id") (py "trace-unknown")
  if action = py "incident.normalize" then
    [(py "payload", .obj (normalizePayload std case))]
  else if action = py "catalog.resolve_service" ∨ action = py "catalog.get_log_sources" then
    serviceArguments std case serviceName
  else if action = py "log.query_by_trace_id" then
    [(py "trace_id", .str traceId)] ++ optionalText (py "service_name") serviceName
  else if action = py "log.query_by_template" then
    [(py "template_id", .str (py "default.error_window"))] ++
      optionalText (py "service_name") serviceName
  else if action = py "trace.get_chain" then [(py "trace_id", .str traceId)]
  else if action = py "code.search" then
    [(py "query", .str (analysis.zoektSearchQuery symptom))]
  else if action = py "code.semantic_search" then
    let identifiers := analysis.codeIdentifiers symptom
    let query := if identifiers = [] then symptom else join (py " ") (identifiers.take 4)
    [(py "query", .str query), (py "limit", .int 10)]
  else if action = py "code.read" then codeReadArguments std analysis case serviceName
  else if action = py "code.find_callers" then
    skip (py "No call_chain from normalize-incident.")
  else if action = py "graph.impact" ∨ action = py "graph.context" then
    graphSymbolArguments analysis action case serviceName
  else if action = py "graph.query" then graphQueryArguments case serviceName
  else []

end RootSeeker.SkillRuntime
