import RootSeeker.Core.Loops
import RootSeeker.McpPlane.Gateway

/-!
# One audit event for each call

The errors that the gateway itself reports can always be built.  A call that
reaches its handler is audited exactly when the handler behaves: it returns a
dictionary whose keys are texts, or raises an exception whose message a model
field accepts.
-/

namespace RootSeeker.McpPlane

open Python Contracts Policies

variable {ids : IdSupply}

/-! ## Behaviours of a handler -/

def ContentKey.Acceptable : ContentKey → Prop
  | text key => Encodable key
  | bytes decoded => decoded.isSome
  | other => False

/-- What the field `content` of a result accepts. -/
def Returned.Acceptable : Returned → Prop
  | mapping entries => ∀ entry ∈ entries, entry.1.Acceptable
  | other => False

/-- A dictionary of texts, or an exception with a message that the field
`message` of an error accepts. -/
def HandlerOutcome.Acceptable : HandlerOutcome → Prop
  | returned value => value.Acceptable
  | raised _ message => message ≠ [] ∧ Encodable message

theorem ContentKey.validate_cases (key : ContentKey) :
    (key.Acceptable ∧ ∃ text, key.validate = .ok text ∧ Encodable text) ∨
      (¬key.Acceptable ∧ key.validate = .error .validationError) := by
  cases key with
  | text key =>
    by_cases hencodable : Encodable key
    · exact Or.inl ⟨hencodable, key, if_pos hencodable, hencodable⟩
    · exact Or.inr ⟨hencodable, if_neg hencodable⟩
  | bytes decoded =>
    cases decoded with
    | none => exact Or.inr ⟨by simp [ContentKey.Acceptable], rfl⟩
    | some key => exact Or.inl ⟨rfl, key.val, rfl, key.property⟩
  | other => exact Or.inr ⟨id, rfl⟩

theorem keysEncodable_update (updates : List (PyStr × Json)) (fields : Fields)
    (hfields : KeysEncodable fields) (hupdates : ∀ entry ∈ updates, Encodable entry.1) :
    KeysEncodable (fields.update updates) := by
  induction updates generalizing fields with
  | nil => exact hfields
  | cons entry rest ih =>
    rw [List.forall_mem_cons] at hupdates
    apply ih (fields.set entry.1 entry.2) _ hupdates.2
    have hentries : ∀ field ∈ fields, Encodable field.1 := by
      intro field hfield
      exact hfields _ (List.mem_map_of_mem hfield)
    intro key hkey
    obtain ⟨field, hfield, rfl⟩ := List.mem_map.mp hkey
    exact Dict.forall_mem_set (fun entry => Encodable entry.1) hentries hupdates.1 field hfield

theorem Returned.validate_of_acceptable {value : Returned}
    (hvalue : value.Acceptable) : ∃ content, value.validate = .ok content := by
  cases value with
  | other => exact hvalue.elim
  | mapping entries =>
    have hkeys : ∀ entry ∈ entries, ∃ key, entry.1.validate = .ok key ∧ Encodable key := by
      intro entry hentry
      rcases entry.1.validate_cases with haccepted | ⟨hnot, _⟩
      · exact haccepted.2
      · exact absurd (hvalue entry hentry) hnot
    obtain ⟨keys, hvalidated, hencodable⟩ := Loops.mapM_ok hkeys
    have hupdates : ∀ entry ∈ keys.zip (entries.map Prod.snd), Encodable entry.1 := by
      intro entry hentry
      exact hencodable _ (List.of_mem_zip hentry).1
    have hcontent := keysEncodable_update _ [] (by simp [KeysEncodable, Dict.keys]) hupdates
    refine ⟨⟨_, hcontent⟩, ?_⟩
    rw [Returned.validate, hvalidated]
    exact Mapping.validate_of_encodable hcontent

theorem Returned.validate_of_not_acceptable {value : Returned}
    (hvalue : ¬value.Acceptable) : value.validate = .error .validationError := by
  cases value with
  | other => rfl
  | mapping entries =>
    have hbody : ∀ entry ∈ entries, (∃ key, entry.1.validate = .ok key) ∨
        entry.1.validate = .error .validationError := by
      intro entry _
      rcases entry.1.validate_cases with ⟨_, key, hkey, _⟩ | ⟨_, herror⟩
      · exact Or.inl ⟨key, hkey⟩
      · exact Or.inr herror
    simp only [Returned.Acceptable, not_forall] at hvalue
    obtain ⟨entry, hentry, hrejected⟩ := hvalue
    have hraises : entry.1.validate = .error .validationError := by
      rcases entry.1.validate_cases with ⟨haccepted, _⟩ | ⟨_, herror⟩
      · exact absurd haccepted hrejected
      · exact herror
    rw [Returned.validate, Loops.mapM_error hbody ⟨entry, hentry, hraises⟩]
    rfl

/-- The `RuntimeError` of a missing handler has a message. -/
theorem findHandler_error_message {gateway : McpGateway} {request : ToolCallRequest}
    {spec : ToolSpec} {message : PyStr} (hfind : gateway.findHandler request spec = .error message) :
    message ≠ [] ∧ Encodable message := by
  unfold McpGateway.findHandler at hfind
  split at hfind
  · split at hfind
    · rw [← Except.error.inj hfind]
      exact ⟨by decide, encodable_py _⟩
    · split at hfind
      · exact absurd hfind (by simp)
      · rw [← Except.error.inj hfind]
        exact ⟨by simp [spec.serverName.property.1],
          encodable_append.mpr ⟨encodable_py _, spec.serverName.property.2⟩⟩
  · split at hfind
    · exact absurd hfind (by simp)
    · rw [← Except.error.inj hfind]
      exact ⟨by decide, encodable_py _⟩

/-! ## Calls that are audited -/

/-- The call returns a result, and the one event it appends is about this call
and agrees with the result. -/
def AuditedOnce (call : GatewayCall) (before : GatewayState ids)
    (outcome : InvokeOutcome ids) : Prop :=
  ∃ result event, outcome.1 = .ok result ∧
    outcome.2.audit = before.audit ++ [event] ∧
    event.category = .toolCall ∧
    event.target = call.request.toolName ∧
    event.detail.caseId = call.request.caseId ∧
    event.detail.stepId = call.request.stepId ∧
    event.detail.ok = result.ok ∧
    (result.ok = false → result.error.isSome)

theorem not_auditedOnce_of_raised {call : GatewayCall} {before after : GatewayState ids}
    {raised : PyError} : ¬AuditedOnce call before (.error raised, after) := by
  rintro ⟨result, event, hresult, _⟩
  exact absurd hresult (by simp)

section Exits

variable {call : GatewayCall} {before state : GatewayState ids}
  (haudit : state.audit = before.audit)

include haudit

theorem refuse_auditedOnce_iff (code : RequiredStr) (message : PyStr) (details : Mapping)
    (retryable : Bool) :
    AuditedOnce call before (refuse call state code message details retryable) ↔
      message ≠ [] ∧ Encodable message := by
  by_cases hmessage : message ≠ [] ∧ Encodable message
  · obtain ⟨error, hbuild⟩ :
        ∃ error, ToolError.build code message details retryable = .ok error := by
      rw [ToolError.build, RequiredStr.validate_of_valid hmessage]
      exact ⟨_, rfl⟩
    rw [refuse, hbuild]
    apply iff_of_true _ hmessage
    refine ⟨_, auditEvent call false (some error) [], rfl, ?_, rfl, rfl, rfl, rfl, rfl,
      fun _ => rfl⟩
    exact congrArg (· ++ _) haudit
  · have hbuild : ToolError.build code message details retryable = .error .validationError := by
      rw [ToolError.build, RequiredStr.validate_of_not_valid hmessage]
      rfl
    rw [refuse, hbuild]
    exact iff_of_false not_auditedOnce_of_raised hmessage

theorem complete_auditedOnce_iff (value : Returned) :
    AuditedOnce call before (complete call state value) ↔ value.Acceptable := by
  by_cases hvalue : value.Acceptable
  · obtain ⟨content, hcontent⟩ := Returned.validate_of_acceptable hvalue
    rw [complete, hcontent]
    apply iff_of_true _ hvalue
    refine ⟨_, auditEvent call true none value.preview, rfl, ?_, rfl, rfl, rfl, rfl, rfl,
      fun hok => absurd hok (by simp)⟩
    exact congrArg (· ++ _) haudit
  · rw [complete, Returned.validate_of_not_acceptable hvalue]
    exact iff_of_false not_auditedOnce_of_raised hvalue

/-- The messages of the gateway itself name a tool or a server. -/
theorem refuse_auditedOnce (code : RequiredStr) (reason : String) (name : RequiredStr)
    (details : Mapping) (retryable : Bool) :
    AuditedOnce call before
      (refuse call state code (py reason ++ name.val) details retryable) := by
  rw [refuse_auditedOnce_iff haudit]
  constructor
  · simp [name.property.1]
  · exact encodable_append.mpr ⟨encodable_py reason, name.property.2⟩

theorem callTool_auditedOnce_iff (gateway : McpGateway) (spec : ToolSpec) :
    AuditedOnce call before (gateway.callTool state call spec) ↔
      (gateway.findHandler call.request spec = .ok () → call.outcome.Acceptable) := by
  have hexecuted : (state.execute ⟨spec, call.request⟩).audit = before.audit := haudit
  unfold McpGateway.callTool
  cases hfind : gateway.findHandler call.request spec with
  | ok found =>
    rw [forall_prop_of_true rfl]
    cases call.outcome with
    | raised typeName message => exact refuse_auditedOnce_iff hexecuted _ message _ _
    | returned value => exact complete_auditedOnce_iff hexecuted value
  | error message =>
    apply iff_of_true _ (fun hok => absurd hok (by simp))
    have hmessage := findHandler_error_message hfind
    exact (refuse_auditedOnce_iff haudit _ message _ _).mpr hmessage

end Exits

/-- There is a handler to call, and the policy guard admits the call. -/
def McpGateway.Reaches (std : Stdlib) (gateway : McpGateway) (state : GatewayState ids)
    (request : ToolCallRequest) : Prop :=
  ∃ spec, gateway.registry.getSpec request.toolName.val = some spec ∧
    gateway.policy.Admits std state.approvals request spec ∧
    gateway.findHandler request spec = .ok ()

end RootSeeker.McpPlane
