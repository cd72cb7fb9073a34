import RootSeeker.Contracts.Common

/-!
# Tool contracts

Tool specifications, the request for one tool call and its result.
-/

namespace RootSeeker.Contracts

open Python

inductive ToolPermissionLevel where
  | read
  | write
  | admin
  deriving DecidableEq

def ToolPermissionLevel.value : ToolPermissionLevel → PyStr
  | read => py "read"
  | write => py "write"
  | admin => py "admin"

inductive ToolScope where
  | internal
  | external
  deriving DecidableEq

structure ToolSpec where
  name : RequiredStr
  permissionLevel : ToolPermissionLevel
  scope : ToolScope
  serverName : RequiredStr
  deriving DecidableEq

/-- The texts of a request are validated when it is built; `arguments` may be
assigned again later without a check. -/
structure ToolCallRequest where
  caseId : RequiredStr
  stepId : RequiredStr
  skillName : RequiredStr
  toolName : RequiredStr
  arguments : Fields

structure ToolError where
  code : RequiredStr
  message : RequiredStr
  details : Mapping
  retryable : Bool

/-- The constructor of the model; the text of a code is a literal. -/
def ToolError.build (code : RequiredStr) (message : PyStr) (details : Mapping)
    (retryable : Bool) : Except PyError ToolError := do
  let message ← RequiredStr.validate message
  pure { code, message, details, retryable }

structure ToolCallResult where
  ok : Bool
  toolName : RequiredStr
  content : Mapping
  error : Option ToolError
  latencyMs : ℕ

end RootSeeker.Contracts
