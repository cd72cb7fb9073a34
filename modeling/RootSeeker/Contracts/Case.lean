import RootSeeker.Contracts.Common

/-!
# Cases, steps and their frozen state machine

A case and each of its steps carry a status, and a status may change only
along the transitions listed here.  The two machines differ in their table
only; the check and the text of its error are shared.
-/

namespace RootSeeker.Contracts

open Python

inductive CaseStatus where
  | pending
  | planned
  | running
  | waitingApproval
  | completed
  | failed
  deriving DecidableEq

inductive StepStatus where
  | pending
  | running
  | completed
  | failed
  | skipped
  deriving DecidableEq

def CaseStatus.value : CaseStatus → PyStr
  | pending => py "pending"
  | planned => py "planned"
  | running => py "running"
  | waitingApproval => py "waiting_approval"
  | completed => py "completed"
  | failed => py "failed"

def StepStatus.value : StepStatus → PyStr
  | pending => py "pending"
  | running => py "running"
  | completed => py "completed"
  | failed => py "failed"
  | skipped => py "skipped"

/-- Targets are listed in the order of their values, as the error text sorts
them. -/
def allowedCaseTransitions : CaseStatus → List CaseStatus
  | .pending => [.failed, .planned]
  | .planned => [.failed, .running]
  | .running => [.completed, .failed, .waitingApproval]
  | .waitingApproval => [.completed, .failed, .running]
  | .completed => []
  | .failed => []

def allowedStepTransitions : StepStatus → List StepStatus
  | .pending => [.failed, .running, .skipped]
  | .running => [.completed, .failed]
  | .completed => []
  | .failed => []
  | .skipped => []

section Transition

variable {σ : Type*} [DecidableEq σ]

def illegalTransitionMessage (kind : PyStr) (value : σ → PyStr)
    (allowed : List σ) (current new : σ) : PyStr :=
  py "Illegal " ++ kind ++ py " transition: " ++ value current ++ py " -> " ++
    value new ++ py ". Allowed: [" ++
    join (py ", ") (allowed.map fun status => py "'" ++ value status ++ py "'") ++
    py "]"

def validateTransition (kind : PyStr) (value : σ → PyStr)
    (allowed : σ → List σ) (current new : σ) : Except PyError Unit :=
  if new ∈ allowed current then .ok ()
  else .error (.stateTransitionError
    (illegalTransitionMessage kind value (allowed current) current new))

theorem validateTransition_of_mem {kind : PyStr} {value : σ → PyStr}
    {allowed : σ → List σ} {current new : σ} (hallowed : new ∈ allowed current) :
    validateTransition kind value allowed current new = .ok () :=
  if_pos hallowed

end Transition

def validateCaseTransition : CaseStatus → CaseStatus → Except PyError Unit :=
  validateTransition (py "Case") CaseStatus.value allowedCaseTransitions

def validateStepTransition : StepStatus → StepStatus → Except PyError Unit :=
  validateTransition (py "Step") StepStatus.value allowedStepTransitions

structure CaseCreateRequest where
  title : RequiredStr
  symptom : RequiredStr
  serviceName : RequiredStr
  source : RequiredStr
  metadata : Mapping

/-- A step keeps the texts it was validated with; `inputs` and `outputs` are
assigned again later without a check. -/
structure CaseStep where
  stepId : RequiredStr
  name : RequiredStr
  skillName : RequiredStr
  action : RequiredStr
  status : StepStatus
  toolName : Option PyStr
  inputs : Fields
  outputs : Fields

structure CaseRecord where
  caseId : RequiredStr
  title : RequiredStr
  symptom : RequiredStr
  serviceName : RequiredStr
  source : RequiredStr
  status : CaseStatus
  selectedSkills : List PyStr
  steps : List CaseStep
  metadata : Fields

end RootSeeker.Contracts
