import RootSeeker.AgentRuntime.ToolPlan
import RootSeeker.Analysis.LlmContent
import RootSeeker.SkillRuntime.RuleStepArguments

/-!
# Reading a tool plan

`parse_tool_plan_content`: from the text that a language model returned to a
plan.  Every field of every call may be missing or of any type.
-/

namespace RootSeeker.AgentRuntime

open Python Contracts Analysis SkillRuntime

/-! ## Coercions -/

def parseTimeoutSeconds (std : Stdlib) (value : Option Json) :
    Except PyError (Option PyFloat) := do
  let parsed ← tryFloat std value
  pure (parsed.bind fun seconds => if seconds.nonPositive then none else some seconds)

/-- Append a text that is neither empty nor there yet. -/
def appendNew (texts : List PyStr) (text : PyStr) : List PyStr :=
  if text = [] ∨ text ∈ texts then texts else texts ++ [text]

def parseStringList (std : Stdlib) (value : Option Json) : List PyStr :=
  match value with
  | some (.arr items) => items.foldl (fun texts item => appendNew texts (strip (str std item))) []
  | _ => []

def parseBool (std : Stdlib) (value : Option Json) : Bool :=
  match value with
  | none => true
  | some (.str text) => lower std (strip text) ∉ [py "0", py "false", py "no", py "off"]
  | some value => value.truthy

/-- The names that a text or a list of texts gives. -/
def methodNames (std : Stdlib) (value : Option Json) : List PyStr :=
  match value with
  | some (.str text) => [strip text].filter (· ≠ [])
  | some (.arr items) => (items.map fun item => strip (str std item)).filter (· ≠ [])
  | _ => []

def coerceCodeReadMethods (std : Stdlib) (arguments : Fields) : List PyStr :=
  let aliases := [py "methods", py "focus_method", py "method", py "method_name"]
  ((aliases.map fun key => methodNames std (arguments.get? key)).find? (· ≠ [])).getD []

def normalizePlannedArguments (std : Stdlib) (toolName : PyStr) (arguments : Fields) :
    Fields :=
  if toolName ≠ py "code.read" then arguments
  else
    let explicit := strip (truthyText std
      [arguments.get? (py "file_path"), arguments.get? (py "file")])
    let path := strip (truthyText std [arguments.get? (py "path")])
    let located :=
      if explicit ≠ [] ∧ (path = [] ∨ path ≠ explicit) then
        arguments.set (py "path") (.str explicit)
      else arguments
    let methods := coerceCodeReadMethods std located
    if methods = [] then located
    else located.set (py "methods") (.arr (methods.map Json.str))

/-! ## Step identifiers -/

def hyphen : CodePoint := CodePoint.ofChar '-'

/-- The class `[a-zA-Z0-9_-]`. -/
def isSafe (c : CodePoint) : Bool :=
  (0x61 ≤ c.val && c.val ≤ 0x7A) || (0x41 ≤ c.val && c.val ≤ 0x5A) ||
    (0x30 ≤ c.val && c.val ≤ 0x39) || c.val = 0x5F || c = hyphen

/-- Replace every run of other characters by one hyphen; the flag tells whether
the character before belonged to such a run. -/
def hyphenate : Bool → PyStr → PyStr
  | _, [] => []
  | inRun, c :: rest =>
    if isSafe c then c :: hyphenate false rest
    else if inRun then hyphenate true rest
    else hyphen :: hyphenate true rest

def stepIdFromTool (toolName : PyStr) (index : ℕ) : PyStr :=
  let safeName := stripBy (· = hyphen) (hyphenate false toolName)
  py "llm-" ++ decimal (index + 1) ++ py "-" ++
    (if safeName = [] then py "tool" else safeName)

/-! ## Calls -/

/-- An entry of `tool_calls` that names an allowed tool. -/
structure KeptItem where
  index : ℕ
  toolName : PyStr
  fields : Fields

def keptItem (std : Stdlib) (allowedTools : List PyStr) (item : Json × ℕ) :
    Option KeptItem :=
  match item.1 with
  | .obj fields =>
    let toolName := strip (truthyText std
      [Dict.get? fields (py "tool_name"), Dict.get? fields (py "name")])
    if toolName ∈ allowedTools then some ⟨item.2, toolName, fields⟩ else none
  | _ => none

def keptItems (std : Stdlib) (allowedTools : List PyStr) (maxToolCalls : ℤ)
    (items : List Json) : List KeptItem :=
  (items.take (max 0 maxToolCalls).toNat).zipIdx.filterMap (keptItem std allowedTools)

/-- The step id that the item itself gives, if it is not falsy. -/
def suppliedStepId (std : Stdlib) (item : KeptItem) : Option PyStr :=
  ((item.fields.get? (py "step_id")).filter Json.truthy).map
    fun value => strip (str std value)

def stepIdOf (std : Stdlib) (item : KeptItem) : PyStr :=
  (suppliedStepId std item).getD (strip (stepIdFromTool item.toolName item.index))

def itemArguments (item : KeptItem) : Fields :=
  match item.fields.get? (py "arguments") with
  | some (.obj arguments) => arguments
  | _ => []

def buildCall (std : Stdlib) (analysis : TextAnalysis) (case : CaseCreateRequest)
    (item : KeptItem) : Except PyError ToolPlanCall := do
  let timeoutSeconds ← parseTimeoutSeconds std (item.fields.get? (py "timeout_seconds"))
  pure
    { toolName := item.toolName
      stepId := stepIdOf std item
      arguments := normalizePlannedArguments std item.toolName
        ((buildStepArgs std analysis item.toolName case).update (itemArguments item))
      rationale := strip (truthyText std [item.fields.get? (py "rationale")])
      dependsOn := parseStringList std (item.fields.get? (py "depends_on"))
      timeoutSeconds := timeoutSeconds
      required := parseBool std (item.fields.get? (py "required")) }

/-! ## Dependencies -/

def ToolPlanCall.withDependsOn (call : ToolPlanCall) (dependsOn : List PyStr) :
    ToolPlanCall :=
  { call with dependsOn := dependsOn }

/-- Keep the dependencies on other known steps. -/
def keepKnownDependencies (knownStepIds : List PyStr) (call : ToolPlanCall) :
    ToolPlanCall :=
  call.withDependsOn
    (call.dependsOn.filter fun stepId => stepId ∈ knownStepIds ∧ stepId ≠ call.stepId)

def filterDependencies (calls : List ToolPlanCall) : List ToolPlanCall :=
  calls.map (keepKnownDependencies (calls.map ToolPlanCall.stepId))

def chainDependentTools : List PyStr :=
  [py "code.read", py "code.find_callers"]

def normalizeTool : PyStr := py "incident.normalize"

def requireDependency (normalizeId : PyStr) (call : ToolPlanCall) : ToolPlanCall :=
  if call.toolName ∈ chainDependentTools ∧ call.stepId ≠ normalizeId ∧
      normalizeId ∉ call.dependsOn then
    call.withDependsOn (call.dependsOn ++ [normalizeId])
  else call

def requireNormalizeDependency (calls : List ToolPlanCall) : List ToolPlanCall :=
  match calls.find? (·.toolName = normalizeTool) with
  | none => calls
  | some normalize => calls.map (requireDependency normalize.stepId)

/-! ## The plan -/

def finalAnswerOf (parsed : Fields) : Option PyStr :=
  match parsed.get? (py "final_answer") with
  | some (.str text) => some text
  | _ => none

/-- The plan of an object, from the calls of its kept items. -/
def planFrom (std : Stdlib) (parsed : Fields) (calls : List ToolPlanCall) :
    Option ToolPlan :=
  if calls.isEmpty then none
  else some
    { toolCalls := requireNormalizeDependency (filterDependencies calls)
      rationale := strip (truthyText std [parsed.get? (py "rationale")])
      finalAnswer := finalAnswerOf parsed
      raw := parsed }

/-- The entries of `tool_calls`, if the text holds an object with such a list. -/
def callsNode (std : Stdlib) (content : PyStr) : Option (Fields × List Json) :=
  (parseJsonObject std content).bind fun parsed =>
    match parsed.get? (py "tool_calls") with
    | some (.arr items) => some (parsed, items)
    | _ => none

def parseToolPlanContent (std : Stdlib) (analysis : TextAnalysis) (content : PyStr)
    (allowedTools : List PyStr) (maxToolCalls : ℤ) (case : CaseCreateRequest) :
    Except PyError (Option ToolPlan) :=
  match callsNode std content with
  | none => .ok none
  | some (parsed, items) => do
    let calls ← (keptItems std allowedTools maxToolCalls items).mapM (buildCall std analysis case)
    pure (planFrom std parsed calls)

end RootSeeker.AgentRuntime
