import RootSeeker.Storage.ChannelStores

/-!
# The stores of the message templates

A store holds the templates of the notifications, one of them built in.  An
upsert looks for the template to change by its identifier and then by its name,
the file store in the order of the file and the SQLite store in the order in
which the templates are listed.
-/

namespace RootSeeker.Storage

open Python Contracts

/-! ## Templates -/

inductive TemplateKind where
  | system
  | custom
  deriving DecidableEq

def TemplateKind.value : TemplateKind → PyStr
  | system => py "system"
  | custom => py "custom"

structure MessageTemplate where
  templateId : PyStr
  name : PyStr
  kind : TemplateKind
  body : PyStr
  description : PyStr
  createdAt : PyStr
  updatedAt : PyStr
  deriving DecidableEq

def systemTemplateId : PyStr :=
  py "system-default"

def systemDefaultTemplateBody : PyStr :=
  py "【RootSeeker】\x7b\x7bheadline\x7d\x7d\n" ++
  py "\x7b\x7b#problem\x7d\x7d问题：\x7b\x7bproblem\x7d\x7d\n\x7b\x7b/problem\x7d\x7d" ++
  py "\x7b\x7b#service\x7d\x7d服务：\x7b\x7bservice\x7d\x7d\n\x7b\x7b/service\x7d\x7d" ++
  py "\x7b\x7b#cause\x7d\x7d结论：\x7b\x7bcause\x7d\x7d\n\x7b\x7b/cause\x7d\x7d" ++
  py "\x7b\x7b#narrative\x7d\x7d说明：\x7b\x7bnarrative\x7d\x7d\n\x7b\x7b/narrative\x7d\x7d" ++
  py "\x7b\x7b#confidence\x7d\x7d置信度：\x7b\x7bconfidence\x7d\x7d\n\x7b\x7b/confidence\x7d\x7d" ++
  py "Case：\x7b\x7bcase_id\x7d\x7d"

/-- `_system_template_payload`. -/
def systemTemplatePayload (now : PlainText) : MessageTemplate where
  templateId := systemTemplateId
  name := py "默认通知"
  kind := .system
  body := systemDefaultTemplateBody
  description := py "系统内置默认通知模板"
  createdAt := now.val
  updatedAt := now.val

def templateSortKey (template : MessageTemplate) : ℕ ×ₗ PyStr :=
  toLex (if template.kind = .system then 0 else 1, template.name)

/-- `_sort_templates`. -/
def sortTemplates (templates : List MessageTemplate) : List MessageTemplate :=
  templates.insertionSort fun left right => templateSortKey left ≤ templateSortKey right

/-- What a call draws: an identifier and the time. -/
structure TemplateDraw where
  uuid : PlainText
  now : PlainText
  uuid_length : uuid.val.length = 36

section Normalize

variable (std : NumberStdlib)

/-- `str(template.get("template_id") or "").strip()`. -/
def lookupTemplateId (template : Fields) : PyStr :=
  strip (truthyText std.toStdlib [template.get? (py "template_id")])

/-- `str(template.get("name") or "").strip()`. -/
def lookupTemplateName (template : Fields) : PyStr :=
  strip (truthyText std.toStdlib [template.get? (py "name")])

/-- A blank identifier is replaced. -/
def normalizeTemplateId (template : Fields) (existing : Option MessageTemplate)
    (draw : TemplateDraw) : PyStr :=
  let given := strip (textOrInherited std template "template_id"
    (existing.map MessageTemplate.templateId) draw.uuid.val)
  if given = [] then draw.uuid.val else given

/-- The identifier and the kind. -/
def normalizeKind (template : Fields) (existing : Option MessageTemplate)
    (templateId : PyStr) : Except PyError (PyStr × TemplateKind) :=
  if templateId = systemTemplateId ∨ existing.map MessageTemplate.kind = some .system then
    .ok (systemTemplateId, .system)
  else if lower std.toStdlib (strip (truthyText std.toStdlib [template.get? (py "kind")])) =
      py "system" then
    .error (.valueError (py "cannot create additional system templates"))
  else .ok (templateId, .custom)

/-- The description is not stripped. -/
def normalizeDescription (template : Fields) (existing : Option MessageTemplate) : PyStr :=
  match template.get? (py "description") with
  | some value => str std.toStdlib value
  | none => (existing.map MessageTemplate.description).getD []

/-- `_normalize_template_payload`. -/
def normalizeTemplatePayload (template : Fields) (existing : Option MessageTemplate)
    (draw : TemplateDraw) : Except PyError MessageTemplate := do
  let name ← required "name"
    (strip (textOrInherited std template "name" (existing.map MessageTemplate.name) []))
  let body ← required "body" (givenText std template "body" (existing.map MessageTemplate.body))
  let (templateId, kind) ← normalizeKind std template existing
    (normalizeTemplateId std template existing draw)
  pure
    { templateId, name, kind, body
      description := normalizeDescription std template existing
      createdAt := truthyText std.toStdlib
        [existing.map fun found => .str found.createdAt, template.get? (py "created_at"),
          some (.str draw.now.val)]
      updatedAt := draw.now.val }

end Normalize

/-- The parameters of `INSERT OR REPLACE`. -/
def MessageTemplate.parameters (template : MessageTemplate) : List SqlParameter :=
  [.text template.templateId, .text template.name, .text template.kind.value,
    .text template.body, .text template.description, .text template.createdAt,
    .text template.updatedAt]

/-- The JSON text of the template can be encoded. -/
def MessageTemplate.Encodable (template : MessageTemplate) : Prop :=
  bindError template.parameters = none

instance (template : MessageTemplate) : Decidable template.Encodable :=
  inferInstanceAs (Decidable (_ = none))

/-! ## Calls -/

inductive TemplateOp where
  | upsert (template : Fields)
  | delete (templateId : PyStr)
  | get (templateId : PyStr)

structure TemplateCall where
  op : TemplateOp
  draw : TemplateDraw

/-- What a call returns. -/
inductive TemplateAnswer where
  | template (stored : MessageTemplate)
  | found (template : Option MessageTemplate)
  | done

/-- The template with the identifier. -/
def templateById (templateId : PyStr) (items : List MessageTemplate) : Option MessageTemplate :=
  items.find? fun item => item.templateId = templateId

/-- The first template with the name. -/
def templateByName (name : PyStr) (items : List MessageTemplate) : Option MessageTemplate :=
  items.find? fun item => item.name = name

/-- The templates without the identifier. -/
def withoutTemplate (templateId : PyStr) (items : List MessageTemplate) : List MessageTemplate :=
  items.filter fun item => item.templateId ≠ templateId

def cannotDelete : PyError :=
  .valueError (py "cannot delete system template")

/-! ## The file store -/

/-- The templates in the file; none where a write that failed left the file empty. -/
structure FileMessageTemplateStore where
  document : Option (List MessageTemplate)

namespace FileMessageTemplateStore

def new (now : PlainText) : FileMessageTemplateStore where
  document := some [systemTemplatePayload now]

def load (store : FileMessageTemplateStore) : Except PyError (List MessageTemplate) :=
  match store.document with
  | some items => .ok items
  | none => .error .jsonDecodeError

/-- `write_text` empties the file before it encodes the text. -/
def save (items : List MessageTemplate) : Except PyError Unit × FileMessageTemplateStore :=
  if ∀ item ∈ items, item.Encodable then (.ok (), { document := some items })
  else (.error .unicodeEncodeError, { document := none })

def ensureSystemTemplate (store : FileMessageTemplateStore) (now : PlainText) :
    Except PyError Unit × FileMessageTemplateStore :=
  match store.load with
  | .error raised => (.error raised, store)
  | .ok items =>
    if ∃ item ∈ items, item.templateId = systemTemplateId then (.ok (), store)
    else save (systemTemplatePayload now :: items)

/-- The templates in the order of the file, after the system template was ensured. -/
def ensured (store : FileMessageTemplateStore) (now : PlainText) :
    Except PyError (List MessageTemplate) × FileMessageTemplateStore :=
  match store.ensureSystemTemplate now with
  | (.error raised, after) => (.error raised, after)
  | (.ok (), after) => (after.load, after)

def listTemplates (store : FileMessageTemplateStore) (now : PlainText) :
    Except PyError (List MessageTemplate) × FileMessageTemplateStore :=
  let (items, after) := store.ensured now
  (items.map sortTemplates, after)

def getTemplate (store : FileMessageTemplateStore) (templateId : PyStr) (now : PlainText) :
    Except PyError (Option MessageTemplate) × FileMessageTemplateStore :=
  let (items, after) := store.listTemplates now
  (items.map (templateById (strip templateId)), after)

/-- The template that an upsert finds: by its identifier, else by its name. -/
def existing (std : NumberStdlib) (template : Fields) (items : List MessageTemplate) :
    Option MessageTemplate :=
  (templateById (lookupTemplateId std template) items).or
    (templateByName (lookupTemplateName std template) items)

def upsertTemplate (std : NumberStdlib) (store : FileMessageTemplateStore) (template : Fields)
    (draw : TemplateDraw) : Except PyError MessageTemplate × FileMessageTemplateStore :=
  match store.ensured draw.now with
  | (.error raised, after) => (.error raised, after)
  | (.ok items, after) =>
    match normalizeTemplatePayload std template (existing std template items) draw with
    | .error raised => (.error raised, after)
    | .ok normalized =>
      let (saved, written) := save (withoutTemplate normalized.templateId items ++ [normalized])
      (saved.map fun _ => normalized, written)

def deleteTemplate (store : FileMessageTemplateStore) (templateId : PyStr) (now : PlainText) :
    Except PyError Unit × FileMessageTemplateStore :=
  let tid := strip templateId
  if tid = systemTemplateId then (.error cannotDelete, store)
  else
    match store.getTemplate tid now with
    | (.error raised, after) => (.error raised, after)
    | (.ok found, after) =>
      if found.map MessageTemplate.kind = some .system then (.error cannotDelete, after)
      else
        match after.load with
        | .error raised => (.error raised, after)
        | .ok items =>
          match save (withoutTemplate tid items) with
          | (.error raised, written) => (.error raised, written)
          | (.ok (), written) => written.ensureSystemTemplate now

def perform (std : NumberStdlib) (store : FileMessageTemplateStore) (call : TemplateCall) :
    Except PyError TemplateAnswer × FileMessageTemplateStore :=
  match call.op with
  | .upsert template =>
    let (answer, after) := store.upsertTemplate std template call.draw
    (answer.map .template, after)
  | .delete templateId =>
    let (answer, after) := store.deleteTemplate templateId call.draw.now
    (answer.map fun _ => .done, after)
  | .get templateId =>
    let (answer, after) := store.getTemplate templateId call.draw.now
    (answer.map .found, after)

end FileMessageTemplateStore

/-! ## The SQLite store -/

/-- The rows of the table in the order in which they were written. -/
structure SqliteMessageTemplateStore where
  rows : List MessageTemplate

namespace SqliteMessageTemplateStore

def new (now : PlainText) : SqliteMessageTemplateStore where
  rows := [systemTemplatePayload now]

def getTemplate (store : SqliteMessageTemplateStore) (templateId : PyStr) :
    Except PyError (Option MessageTemplate) :=
  match bindError [.text (strip templateId)] with
  | some raised => .error raised
  | none => .ok (templateById (strip templateId) store.rows)

def ensureSystemTemplate (store : SqliteMessageTemplateStore) (now : PlainText) :
    SqliteMessageTemplateStore :=
  match templateById systemTemplateId store.rows with
  | some _ => store
  | none => { rows := store.rows ++ [systemTemplatePayload now] }

def listTemplates (store : SqliteMessageTemplateStore) (now : PlainText) :
    List MessageTemplate :=
  sortTemplates (store.ensureSystemTemplate now).rows

/-- The template that an upsert finds: by its identifier, else by its name. -/
def existing (std : NumberStdlib) (store : SqliteMessageTemplateStore) (template : Fields) :
    Except PyError (Option MessageTemplate) := do
  let byId ←
    if lookupTemplateId std template = [] then .ok none
    else store.getTemplate (lookupTemplateId std template)
  pure (byId.or (templateByName (lookupTemplateName std template) (sortTemplates store.rows)))

def upsertTemplate (std : NumberStdlib) (store : SqliteMessageTemplateStore)
    (template : Fields) (draw : TemplateDraw) :
    Except PyError MessageTemplate × SqliteMessageTemplateStore :=
  let ensured := store.ensureSystemTemplate draw.now
  match ensured.existing std template with
  | .error raised => (.error raised, ensured)
  | .ok found =>
    match normalizeTemplatePayload std template found draw with
    | .error raised => (.error raised, ensured)
    | .ok normalized =>
      match bindError normalized.parameters with
      | some raised => (.error raised, ensured)
      | none =>
        (.ok normalized,
          { rows := withoutTemplate normalized.templateId ensured.rows ++ [normalized] })

def deleteTemplate (store : SqliteMessageTemplateStore) (templateId : PyStr)
    (now : PlainText) : Except PyError Unit × SqliteMessageTemplateStore :=
  let tid := strip templateId
  if tid = systemTemplateId then (.error cannotDelete, store)
  else
    match store.getTemplate tid with
    | .error raised => (.error raised, store)
    | .ok found =>
      if found.map MessageTemplate.kind = some .system then (.error cannotDelete, store)
      else
        let deleted : SqliteMessageTemplateStore := { rows := withoutTemplate tid store.rows }
        (.ok (), deleted.ensureSystemTemplate now)

def perform (std : NumberStdlib) (store : SqliteMessageTemplateStore) (call : TemplateCall) :
    Except PyError TemplateAnswer × SqliteMessageTemplateStore :=
  match call.op with
  | .upsert template =>
    let (answer, after) := store.upsertTemplate std template call.draw
    (answer.map .template, after)
  | .delete templateId =>
    let (answer, after) := store.deleteTemplate templateId call.draw.now
    (answer.map fun _ => .done, after)
  | .get templateId => ((store.getTemplate templateId).map .found, store)

end SqliteMessageTemplateStore

end RootSeeker.Storage
