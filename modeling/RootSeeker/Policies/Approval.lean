import RootSeeker.Contracts.Tool
import RootSeeker.Core.Ledger
import RootSeeker.Python.Repr

/-!
# The approval store

The store keeps approval requests by identifier and announces each request and
each decision.  Read as a ledger, the announcements are the abstract model of
the store: what an approval stands for is what was requested under its
identifier, and its status is the latest decision.
-/

namespace RootSeeker.Policies

open Python Contracts

inductive ApprovalStatus where
  | pending
  | approved
  | rejected
  deriving DecidableEq

def ApprovalStatus.value : ApprovalStatus → PyStr
  | pending => py "pending"
  | approved => py "approved"
  | rejected => py "rejected"

structure ApprovalRequest where
  approvalId : PyStr
  caseId : PyStr
  stepId : PyStr
  toolName : PyStr
  permissionLevel : PyStr
  reason : PyStr
  status : ApprovalStatus
  requestedAt : PyStr
  decidedAt : Option PyStr
  decidedBy : Option PyStr
  decisionReason : PyStr
  metadata : Fields

/-- What the approval is given for. -/
structure ApprovalSubject where
  caseId : PyStr
  stepId : PyStr
  toolName : PyStr
  permissionLevel : PyStr
  deriving DecidableEq

inductive ApprovalDecision where
  | approve
  | reject
  deriving DecidableEq

/-- A request without a decision is pending. -/
def statusAfter : Option ApprovalDecision → ApprovalStatus
  | none => .pending
  | some .approve => .approved
  | some .reject => .rejected

@[simp]
theorem statusAfter_eq_approved_iff (latest : Option ApprovalDecision) :
    statusAfter latest = .approved ↔ latest = some .approve := by
  cases latest with
  | none => simp [statusAfter]
  | some decision => cases decision <;> simp [statusAfter]

namespace ApprovalRequest

def subject (approval : ApprovalRequest) : ApprovalSubject where
  caseId := approval.caseId
  stepId := approval.stepId
  toolName := approval.toolName
  permissionLevel := approval.permissionLevel

/-- Timestamps are kept in the notation of `isoformat`. -/
def toPayload (approval : ApprovalRequest) : Fields :=
  [(py "approval_id", .str approval.approvalId), (py "case_id", .str approval.caseId),
   (py "step_id", .str approval.stepId),
   (py "tool_name", .str approval.toolName),
   (py "permission_level", .str approval.permissionLevel),
   (py "reason", .str approval.reason),
   (py "status", .str approval.status.value),
   (py "requested_at", .str approval.requestedAt),
   (py "decided_at", (approval.decidedAt.map Json.str).getD .null),
   (py "decided_by", (approval.decidedBy.map Json.str).getD .null),
   (py "decision_reason", .str approval.decisionReason),
   (py "metadata", .obj approval.metadata)]

/-- The fields that `approve` and `reject` assign. -/
def withDecision (approval : ApprovalRequest) (decision : ApprovalDecision)
    (actor reason now : PyStr) : ApprovalRequest :=
  { approval with
    status := statusAfter (some decision)
    decidedAt := some now
    decidedBy := some actor
    decisionReason := reason }

theorem keysEncodable_toPayload (approval : ApprovalRequest) :
    KeysEncodable approval.toPayload := by
  intro key hkey
  simp only [toPayload, Dict.keys, List.map_cons, List.map_nil, List.mem_cons,
    List.not_mem_nil, or_false] at hkey
  rcases hkey with rfl | rfl | rfl | rfl | rfl | rfl | rfl | rfl | rfl | rfl | rfl | rfl <;>
    exact encodable_py _

end ApprovalRequest

/-! ## Announcements -/

inductive ApprovalEventType where
  | requested
  | decided (decision : ApprovalDecision)

/-- The approval is the one announced, as it was at that time. -/
structure ApprovalEvent where
  eventType : ApprovalEventType
  approval : ApprovalRequest
  actor : PyStr
  reason : PyStr

abbrev ApprovalLedger := Ledger PyStr ApprovalSubject ApprovalDecision

def ApprovalEvent.entry (event : ApprovalEvent) :
    LedgerEntry PyStr ApprovalSubject ApprovalDecision :=
  match event.eventType with
  | .requested => .request event.approval.approvalId event.approval.subject
  | .decided decision => .decision event.approval.approvalId decision

/-- What the announcements say about requests and decisions. -/
def ledgerOf (events : List ApprovalEvent) : ApprovalLedger :=
  events.map ApprovalEvent.entry

/-! ## The store -/

def approvalId (ids : IdSupply) (n : ℕ) : PyStr :=
  newId ids (py "approval-") n

/-- What the ledger says about one identifier. -/
def standing? (ledger : ApprovalLedger) (id : PyStr) :
    Option (ApprovalSubject × ApprovalStatus) :=
  (ledger.subject? id).map fun subject => (subject, statusAfter (ledger.verdict? id))

def ApprovalRequest.standing (approval : ApprovalRequest) :
    ApprovalSubject × ApprovalStatus :=
  (approval.subject, approval.status)

structure ApprovalStore (ids : IdSupply) where
  /-- How many identifiers have been drawn. -/
  issued : ℕ
  items : Dict PyStr ApprovalRequest
  /-- What `_emit` announced, oldest first. -/
  events : List ApprovalEvent
  named : ∀ entry ∈ items, entry.2.approvalId = entry.1
  drawn : ∀ entry ∈ items, ∃ n < issued, entry.1 = approvalId ids n
  sound : Ledger.Sound (ledgerOf events)
  recorded : ∀ id,
    (items.get? id).map ApprovalRequest.standing = standing? (ledgerOf events) id

namespace ApprovalStore

variable {ids : IdSupply}

def empty (ids : IdSupply) : ApprovalStore ids where
  issued := 0
  items := []
  events := []
  named := by simp
  drawn := by simp
  sound := .empty
  recorded := by
    intro id
    rfl

def get (store : ApprovalStore ids) (id : PyStr) : Option ApprovalRequest :=
  store.items.get? id

def ledger (store : ApprovalStore ids) : ApprovalLedger :=
  ledgerOf store.events

variable {store : ApprovalStore ids} {approval : ApprovalRequest} {id : PyStr}

theorem approvalId_of_get (hget : store.get id = some approval) : approval.approvalId = id :=
  store.named (id, approval) (Dict.mem_of_get? hget)

/-- The identifier drawn next names nothing yet. -/
theorem get_next_eq_none (store : ApprovalStore ids) :
    store.get (approvalId ids store.issued) = none := by
  rw [Option.eq_none_iff_forall_ne_some]
  intro approval hget
  obtain ⟨n, hn, heq⟩ := store.drawn _ (Dict.mem_of_get? hget)
  have hsame : store.issued = n := newId_injective ids _ heq
  omega

theorem subject?_eq_none_iff (store : ApprovalStore ids) (id : PyStr) :
    store.ledger.subject? id = none ↔ store.get id = none := by
  have hrecorded := store.recorded id
  rw [standing?] at hrecorded
  rw [← Option.map_eq_none_iff, ledger, ← hrecorded, Option.map_eq_none_iff, get]

/-- The status of an approval is its latest decision. -/
theorem standing_of_get (hget : store.get id = some approval) :
    store.ledger.subject? id = some approval.subject ∧
      approval.status = statusAfter (store.ledger.verdict? id) := by
  have hrecorded := store.recorded id
  rw [standing?, show store.items.get? id = some approval from hget, Option.map_some,
    eq_comm, Option.map_eq_some_iff] at hrecorded
  obtain ⟨subject, hsubject, hpair⟩ := hrecorded
  rw [ApprovalRequest.standing, Prod.mk.injEq] at hpair
  exact ⟨hsubject.trans (congrArg some hpair.1), hpair.2.symm⟩

/-- The approval that `create_manual` stores. -/
def newApproval (store : ApprovalStore ids)
    (caseId stepId toolName permissionLevel reason : PyStr) (metadata : Fields)
    (now : PyStr) : ApprovalRequest where
  approvalId := approvalId ids store.issued
  caseId := caseId
  stepId := stepId
  toolName := toolName
  permissionLevel := permissionLevel
  reason := reason
  status := .pending
  requestedAt := now
  decidedAt := none
  decidedBy := none
  decisionReason := []
  metadata := metadata

/-- Store a pending approval under the next identifier and announce it. -/
def add (store : ApprovalStore ids) (approval : ApprovalRequest)
    (hid : approval.approvalId = approvalId ids store.issued)
    (hpending : approval.status = .pending) : ApprovalStore ids where
  issued := store.issued + 1
  items := store.items.set approval.approvalId approval
  events := store.events ++
    [{ eventType := .requested
       approval := approval
       actor := py "system"
       reason := approval.reason }]
  named := by
    have hfresh := store.get_next_eq_none
    rw [← hid] at hfresh
    rw [Dict.set_eq_append approval hfresh, List.forall_mem_append]
    exact ⟨store.named, by simp⟩
  drawn := by
    have hfresh := store.get_next_eq_none
    rw [← hid] at hfresh
    rw [Dict.set_eq_append approval hfresh, List.forall_mem_append]
    constructor
    · intro entry hentry
      obtain ⟨n, hn, heq⟩ := store.drawn entry hentry
      exact ⟨n, by omega, heq⟩
    · intro entry hentry
      rw [List.mem_singleton.mp hentry]
      exact ⟨store.issued, by omega, hid⟩
  sound := by
    rw [ledgerOf, List.map_append]
    apply Ledger.Sound.request _ _ store.sound
    rw [hid]
    exact (store.subject?_eq_none_iff _).mpr store.get_next_eq_none
  recorded := by
    intro id
    have hledger : ∀ entry, ledgerOf (store.events ++ [entry]) =
        store.ledger ++ [entry.entry] := fun _ => List.map_append
    have hnone := (store.subject?_eq_none_iff _).mpr store.get_next_eq_none
    rw [← hid] at hnone
    rw [hledger, ApprovalEvent.entry, standing?, Ledger.subject?_append_request,
      Ledger.verdict?_append_request]
    by_cases hsame : approval.approvalId = id
    · subst hsame
      have hundecided : store.ledger.verdict? approval.approvalId = none :=
        Ledger.Sound.verdict?_eq_none store.sound hnone
      rw [Dict.get?_set_self, hnone, if_pos rfl, hundecided]
      simp [ApprovalRequest.standing, hpending, statusAfter]
    · rw [Dict.get?_set_of_ne _ _ (Ne.symm hsame), if_neg hsame, Option.or_none]
      exact store.recorded id

def createManual (store : ApprovalStore ids)
    (caseId stepId toolName permissionLevel reason : PyStr) (metadata : Fields)
    (now : PyStr) : ApprovalRequest × ApprovalStore ids :=
  (store.newApproval caseId stepId toolName permissionLevel reason metadata now,
    store.add
      (store.newApproval caseId stepId toolName permissionLevel reason metadata now)
      rfl rfl)

def createForTool (store : ApprovalStore ids) (request : ToolCallRequest)
    (spec : ToolSpec) (reason now : PyStr) : ApprovalRequest × ApprovalStore ids :=
  store.createManual request.caseId.val request.stepId.val request.toolName.val
    spec.permissionLevel.value reason
    [(py "argument_keys", .arr ((sortedTexts request.arguments.keys).map Json.str))] now

/-- Replace a stored approval by the decided one and announce the decision. -/
def record (store : ApprovalStore ids) (id : PyStr) (approval : ApprovalRequest)
    (hget : store.get id = some approval) (decision : ApprovalDecision)
    (actor reason now : PyStr) : ApprovalStore ids where
  issued := store.issued
  items := store.items.set id (approval.withDecision decision actor reason now)
  events := store.events ++
    [{ eventType := .decided decision
       approval := approval.withDecision decision actor reason now
       actor := actor
       reason := reason }]
  named := by
    have hid := approvalId_of_get hget
    exact Dict.forall_mem_set _ store.named hid
  drawn := by
    have hdrawn := store.drawn _ (Dict.mem_of_get? hget)
    exact Dict.forall_mem_set _ store.drawn hdrawn
  sound := by
    rw [ledgerOf, List.map_append]
    apply Ledger.Sound.decision _ _ store.sound
    intro hnone
    have habsent := (store.subject?_eq_none_iff _).mp hnone
    rw [ApprovalRequest.withDecision, approvalId_of_get hget, hget] at habsent
    exact Option.some_ne_none _ habsent
  recorded := by
    intro other
    have hledger : ∀ entry, ledgerOf (store.events ++ [entry]) =
        store.ledger ++ [entry.entry] := fun _ => List.map_append
    have hid := approvalId_of_get hget
    have hdecided : (approval.withDecision decision actor reason now).approvalId = id := hid
    rw [hledger, ApprovalEvent.entry, standing?, Ledger.subject?_append_decision,
      Ledger.verdict?_append_decision, hdecided]
    by_cases hsame : id = other
    · subst hsame
      rw [Dict.get?_set_self, if_pos rfl, (standing_of_get hget).1]
      rfl
    · rw [Dict.get?_set_of_ne _ _ (Ne.symm hsame), if_neg hsame]
      exact store.recorded other

def decide (decision : ApprovalDecision) (store : ApprovalStore ids)
    (id actor reason now : PyStr) :
    Except PyError (ApprovalRequest × ApprovalStore ids) :=
  match hget : store.get id with
  | none => .error (.keyError (py "approval not found: " ++ id))
  | some approval =>
    .ok (approval.withDecision decision actor reason now,
      store.record id approval hget decision actor reason now)

def approve (store : ApprovalStore ids) (id actor reason now : PyStr) :
    Except PyError (ApprovalRequest × ApprovalStore ids) :=
  store.decide .approve id actor reason now

def reject (store : ApprovalStore ids) (id actor reason now : PyStr) :
    Except PyError (ApprovalRequest × ApprovalStore ids) :=
  store.decide .reject id actor reason now

def isApprovedFor (store : ApprovalStore ids) (id : PyStr)
    (request : ToolCallRequest) (spec : ToolSpec) : Bool :=
  match store.get id with
  | none => false
  | some approval =>
    if approval.status ≠ .approved then false
    else
      approval.caseId = request.caseId.val && approval.stepId = request.stepId.val &&
        approval.toolName = request.toolName.val &&
        approval.permissionLevel = spec.permissionLevel.value

/-! ## What the operations do -/

/-- A new approval goes to the end; everything stored before stays. -/
theorem items_createManual (store : ApprovalStore ids)
    (caseId stepId toolName permissionLevel reason : PyStr) (metadata : Fields) (now : PyStr) :
    (store.createManual caseId stepId toolName permissionLevel reason metadata
        now).2.items =
      store.items ++ [(approvalId ids store.issued,
        store.newApproval caseId stepId toolName permissionLevel reason metadata now)] :=
  Dict.set_eq_append _ store.get_next_eq_none

theorem ledger_createManual (store : ApprovalStore ids)
    (caseId stepId toolName permissionLevel reason : PyStr) (metadata : Fields) (now : PyStr) :
    (store.createManual caseId stepId toolName permissionLevel reason metadata
        now).2.ledger =
      store.ledger ++ [.request (approvalId ids store.issued)
        { caseId, stepId, toolName, permissionLevel }] :=
  List.map_append

/-- A decision on a stored approval is the only change it makes. -/
theorem decide_of_get (hget : store.get id = some approval) (decision : ApprovalDecision)
    (actor reason now : PyStr) :
    store.decide decision id actor reason now =
      .ok (approval.withDecision decision actor reason now,
        store.record id approval hget decision actor reason now) := by
  rw [decide]
  split
  · rename_i hnone
    rw [hget] at hnone
    exact absurd hnone (Option.some_ne_none _)
  · rename_i found hfound
    have hsame : found = approval := Option.some.inj (hfound.symm.trans hget)
    subst hsame
    rfl

theorem decide_of_unknown (hget : store.get id = none) (decision : ApprovalDecision)
    (actor reason now : PyStr) :
    store.decide decision id actor reason now =
      .error (.keyError (py "approval not found: " ++ id)) := by
  rw [decide]
  split
  · rfl
  · rename_i found hfound
    exact absurd (hget.symm.trans hfound) (Option.some_ne_none _).symm

theorem ledger_record (store : ApprovalStore ids) (hget : store.get id = some approval)
    (decision : ApprovalDecision) (actor reason now : PyStr) :
    (store.record id approval hget decision actor reason now).ledger =
      store.ledger ++ [.decision id decision] := by
  have hid := approvalId_of_get hget
  have hledger : (store.record id approval hget decision actor reason now).ledger =
      store.ledger ++ [.decision approval.approvalId decision] := List.map_append
  rw [hledger, hid]

/-- The stored approval was requested for this subject and its latest decision
is to approve it. -/
def Authorizes (store : ApprovalStore ids) (id : PyStr) (subject : ApprovalSubject) :
    Prop :=
  ∃ approval, store.get id = some approval ∧ approval.subject = subject ∧
    store.ledger.verdict? id = some .approve

theorem authorizes_iff (store : ApprovalStore ids) (id : PyStr) (subject : ApprovalSubject) :
    store.Authorizes id subject ↔
      store.ledger.subject? id = some subject ∧ store.ledger.verdict? id = some .approve := by
  constructor
  · rintro ⟨approval, hget, hsubject, hverdict⟩
    rw [(standing_of_get hget).1, hsubject]
    exact ⟨rfl, hverdict⟩
  · rintro ⟨hsubject, hverdict⟩
    cases hget : store.get id with
    | none =>
      rw [(store.subject?_eq_none_iff id).mpr hget] at hsubject
      exact absurd hsubject (Option.some_ne_none _).symm
    | some approval =>
      rw [(standing_of_get hget).1, Option.some.injEq] at hsubject
      exact ⟨approval, hget, hsubject, hverdict⟩

/-- What a tool call needs an approval for. -/
def subjectOf (request : ToolCallRequest) (spec : ToolSpec) : ApprovalSubject where
  caseId := request.caseId.val
  stepId := request.stepId.val
  toolName := request.toolName.val
  permissionLevel := spec.permissionLevel.value

theorem isApprovedFor_iff (store : ApprovalStore ids) (id : PyStr)
    (request : ToolCallRequest) (spec : ToolSpec) :
    store.isApprovedFor id request spec = true ↔ store.Authorizes id (subjectOf request spec) := by
  rw [isApprovedFor, Authorizes]
  cases hget : store.get id with
  | none => simp
  | some approval =>
    have hstatus := (standing_of_get hget).2
    by_cases happroved : approval.status = .approved
    · have hverdict : store.ledger.verdict? id = some .approve := by
        rw [hstatus, statusAfter_eq_approved_iff] at happroved
        exact happroved
      simp [happroved, hverdict, ApprovalRequest.subject, subjectOf, and_assoc]
    · have hverdict : store.ledger.verdict? id ≠ some .approve := by
        rw [hstatus] at happroved
        intro hverdict
        exact happroved ((statusAfter_eq_approved_iff _).mpr hverdict)
      simp [happroved, hverdict]

/-- No approval is stored under the empty identifier. -/
theorem id_ne_nil_of_get (hget : store.get id = some approval) : id ≠ [] := by
  obtain ⟨n, _, hid⟩ := store.drawn _ (Dict.mem_of_get? hget)
  intro hnil
  have happend : py "approval-" ++ ids.uuid n = [] := hid.symm.trans hnil
  exact absurd (List.append_eq_nil_iff.mp happend).1 (by decide)

/-- The operations that callers other than the tool gateway apply to a store. -/
inductive Op where
  | approve (approvalId actor reason now : PyStr)
  | reject (approvalId actor reason now : PyStr)
  | createManual (caseId stepId toolName permissionLevel reason : PyStr)
      (metadata : Fields) (now : PyStr)
  | createForTool (request : ToolCallRequest) (spec : ToolSpec) (reason now : PyStr)

/-- The store after a decision; `KeyError` leaves it as it was. -/
def afterDecision (store : ApprovalStore ids)
    (outcome : Except PyError (ApprovalRequest × ApprovalStore ids)) :
    ApprovalStore ids :=
  match outcome with
  | .ok (_, next) => next
  | .error _ => store

def Op.apply (store : ApprovalStore ids) : Op → ApprovalStore ids
  | .approve approvalId actor reason now =>
    store.afterDecision (store.approve approvalId actor reason now)
  | .reject approvalId actor reason now =>
    store.afterDecision (store.reject approvalId actor reason now)
  | .createManual caseId stepId toolName permissionLevel reason metadata now =>
    (store.createManual caseId stepId toolName permissionLevel reason metadata now).2
  | .createForTool request spec reason now => (store.createForTool request spec reason now).2

end ApprovalStore

end RootSeeker.Policies
