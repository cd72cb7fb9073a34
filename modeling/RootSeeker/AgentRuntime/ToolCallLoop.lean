import RootSeeker.AgentRuntime.ToolPlan
import RootSeeker.Contracts.Tool

/-!
# Executing tool calls

A batch of requests is passed to the gateway and each result is recorded with
its request and a trace.  The sequential and the concurrent path return the
records in the order of the requests.
-/

namespace RootSeeker.AgentRuntime

open Python Contracts

structure ToolExecutionTrace where
  stepId : PyStr
  toolName : PyStr
  ok : Bool
  latencyMs : ℕ
  contentPreview : Fields
  errorCode : Option PyStr
  errorMessage : Option PyStr
  planMetadata : Fields

structure ToolCallExecution where
  request : ToolCallRequest
  result : ToolCallResult
  trace : ToolExecutionTrace

section

variable (contentPreview : Fields → Fields)

def traceFromResult (stepId : PyStr) (result : ToolCallResult)
    (planMetadata : Fields) : ToolExecutionTrace where
  stepId := stepId
  toolName := result.toolName.val
  ok := result.ok
  latencyMs := result.latencyMs
  contentPreview := contentPreview result.content.val
  errorCode := result.error.map (·.code.val)
  errorMessage := result.error.map (·.message.val)
  planMetadata := dropNulls planMetadata

/-- `invoke` is the gateway; `planMetadata` is read by step id. -/
def executeRecords (invoke : ToolCallRequest → ToolCallResult)
    (planMetadata : PyStr → Fields) (requests : List ToolCallRequest) :
    List ToolCallExecution :=
  requests.map fun request =>
    { request := request
      result := invoke request
      trace := traceFromResult contentPreview request.stepId.val
        (invoke request) (planMetadata request.stepId.val) }

end

end RootSeeker.AgentRuntime
