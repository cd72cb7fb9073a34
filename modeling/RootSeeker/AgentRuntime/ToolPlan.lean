import RootSeeker.Contracts.Case

/-!
# Tool plans

The plan a planner returns: an ordered list of tool calls with dependencies
among their step ids, and the payloads under which a case records it.
-/

namespace RootSeeker.AgentRuntime

open Python Contracts

structure ToolPlanCall where
  toolName : PyStr
  stepId : PyStr
  arguments : Fields
  rationale : PyStr
  dependsOn : List PyStr
  timeoutSeconds : Option PyFloat
  required : Bool

structure ToolPlan where
  toolCalls : List ToolPlanCall
  rationale : PyStr
  finalAnswer : Option PyStr
  raw : Fields

structure ToolPlanResult where
  ok : Bool
  plan : Option ToolPlan
  provider : Option PyStr
  model : Option PyStr
  elapsedMs : Option ℤ
  error : Option PyStr

/-- `None` and a value, as JSON. -/
def jsonOrNull {α : Type*} (toJson : α → Json) : Option α → Json
  | some value => toJson value
  | none => .null

def jsonTexts (texts : List PyStr) : Json :=
  .arr (texts.map Json.str)

namespace ToolPlanCall

def toPayload (call : ToolPlanCall) : Fields :=
  [(py "step_id", .str call.stepId), (py "tool_name", .str call.toolName),
    (py "argument_keys", jsonTexts (call.arguments.keys.mergeSort (· ≤ ·))),
    (py "rationale", .str call.rationale),
    (py "depends_on", jsonTexts call.dependsOn),
    (py "required", .bool call.required)] ++
  (call.timeoutSeconds.map fun seconds =>
    (py "timeout_seconds", Json.float seconds)).toList

def toExecutionMetadata (call : ToolPlanCall) : Fields :=
  [(py "depends_on", jsonTexts call.dependsOn), (py "required", .bool call.required),
    (py "timeout_seconds", jsonOrNull Json.float call.timeoutSeconds),
    (py "rationale", .str call.rationale)]

end ToolPlanCall

/-- `{key: value for key, value in fields.items() if value is not None}`. -/
def dropNulls (fields : Fields) : Fields :=
  fields.filter fun entry =>
    match entry.2 with
    | .null => false
    | _ => true

def ToolPlanResult.toPayload (result : ToolPlanResult) : Fields :=
  let calls := (result.plan.map ToolPlan.toolCalls).getD []
  let error := result.error.filter (· ≠ [])
  dropNulls <|
    [(py "ok", Json.bool result.ok), (py "provider", jsonOrNull Json.str result.provider),
      (py "model", jsonOrNull Json.str result.model),
      (py "elapsed_ms", jsonOrNull Json.int result.elapsedMs),
      (py "tool_call_count", .int calls.length)] ++
    (error.map fun text => (py "error", Json.str text)).toList ++
    (match result.plan with
      | some plan =>
        [(py "rationale", .str plan.rationale),
          (py "tools", jsonTexts (calls.map ToolPlanCall.toolName)),
          (py "tool_calls", .arr (calls.map fun call => .obj call.toPayload))]
      | none => [])

end RootSeeker.AgentRuntime
