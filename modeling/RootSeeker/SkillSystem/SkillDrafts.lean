import RootSeeker.Contracts.Report
import RootSeeker.Python.Doubles
import RootSeeker.Python.Lines

/-!
# Skill drafts

The builder makes a draft of a case report: the root cause gives its slug, its
name and its description.
-/

namespace RootSeeker.SkillSystem

open Python Contracts

/-- The YAML library: `dump` writes a mapping in block style, and `safeLoad` gives nothing for a
text that it cannot read. -/
structure Yaml where
  dump : Fields → PyStr
  safeLoad : PyStr → Option Json

structure SkillDraft where
  slug : PyStr
  name : PyStr
  version : PyStr
  description : PyStr
  triggers : List Fields
  requiredTools : List PyStr
  steps : List Fields
  sourceCaseId : PyStr
  metadata : Fields

namespace SkillDraft

variable (yaml : Yaml) (draft : SkillDraft)

def frontmatter : Fields :=
  [(py "name", .str draft.name), (py "description", .str draft.description)]

def toSkillMd : PyStr :=
  py "---\n" ++ yaml.dump draft.frontmatter ++ py "---\n\n# " ++ draft.name ++ py "\n\n" ++
    draft.description ++
    py ("\n\n## RootSeeker Runtime\n\nRuntime metadata is stored in " ++
      "\x60rootseeker-skill.yaml\x60.\n\n## Source\n\nGenerated from case: \x60") ++
    draft.sourceCaseId ++ py "\x60\n"

def toRootseekerSpecYaml : PyStr :=
  yaml.dump
    [(py "slug", .str draft.slug), (py "version", .str draft.version),
      (py "tags", (draft.metadata.get? (py "tags")).getD (.arr [])),
      (py "triggers", .arr (draft.triggers.map Json.obj)),
      (py "required_tools", .arr (draft.requiredTools.map Json.str)),
      (py "source_kind", .str (py "generated")), (py "metadata", .obj draft.metadata),
      (py "steps", .arr (draft.steps.map Json.obj))]

end SkillDraft

/-! ## Building a draft -/

structure SkillDraftBuilder where
  minEvidenceCount : ℤ
  minConfidence : PyFloat

namespace SkillDraftBuilder

variable (std : Stdlib) (builder : SkillDraftBuilder) (report : CaseReport)

def meetsThresholds : Bool :=
  builder.minEvidenceCount ≤ report.evidenceItemIds.length &&
    report.rootCause.all fun cause => !cause.confidence.lt builder.minConfidence

def replaceChar (old new : Char) (text : PyStr) : PyStr :=
  text.map fun c => if c = CodePoint.ofChar old then CodePoint.ofChar new else c

def generateSlug : PyStr :=
  let service := report.rootCause.elim (py "unknown") fun cause => cause.title.val
  py "generated/" ++
    (replaceChar '/' '-' (replaceChar ' ' '-' (lower std service))).take 30

def generateName : PyStr :=
  match report.rootCause with
  | some cause => py "Auto: " ++ cause.title.val.take 50
  | none => py "Auto-generated Skill"

def generateDescription : PyStr :=
  let narrative := report.rootCause.elim [] RootCauseConclusion.narrative
  if narrative = [] then py "Automatically generated from case " ++ report.caseId.val
  else narrative.take 200

def contributingFactors : List PyStr :=
  (report.rootCause.elim [] RootCauseConclusion.contributingFactors).take 3

def extractTriggers : List Fields :=
  if contributingFactors report = [] then
    [[(py "type", .str (py "manual")), (py "description", .str (py "Manually configure triggers"))]]
  else
    (contributingFactors report).map fun factor =>
      [(py "type", .str (py "keyword")), (py "pattern", .str factor),
        (py "source", .str (py "auto_extracted"))]

def extractTools : List PyStr :=
  [py "catalog.resolve_service", py "log.query_by_trace_id", py "trace.get_chain",
    py "code.search", py "notify.send"]

def step (stepId name action description : String) : Fields :=
  [(py "step_id", .str (py stepId)), (py "name", .str (py name)),
    (py "action", .str (py action)), (py "description", .str (py description))]

def extractSteps : List Fields :=
  [step "resolve-service" "Resolve service" "catalog.resolve_service"
      "Get service catalog entry",
    step "query-logs" "Query logs" "log.query_by_trace_id" "Query logs by trace ID",
    step "get-trace" "Get trace chain" "trace.get_chain" "Fetch trace chain",
    step "search-code" "Search code" "code.search" "Search code for related patterns",
    step "notify" "Send notification" "notify.send" "Send result notification"]

def extractTags : List PyStr :=
  py "auto-generated" :: contributingFactors report

def buildFromReport : Option SkillDraft :=
  if builder.meetsThresholds report then
    some
      { slug := generateSlug std report
        name := generateName report
        version := py "0.1.0-draft"
        description := generateDescription report
        triggers := extractTriggers report
        requiredTools := extractTools
        steps := extractSteps
        sourceCaseId := report.caseId.val
        metadata :=
          [(py "tags", .arr ((extractTags report).map Json.str)), (py "confidence",
              .float (report.rootCause.elim (.finite false 0) RootCauseConclusion.confidence))] }
  else none

end SkillDraftBuilder

end RootSeeker.SkillSystem
