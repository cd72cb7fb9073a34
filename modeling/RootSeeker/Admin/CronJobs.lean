import RootSeeker.Core.DictUpdate
import RootSeeker.Storage.ChannelPayload
import RootSeeker.Storage.McpServers

/-!
# The cron jobs of the admin document

The document keeps a list of jobs.  Loading it puts the builtin jobs in front and
restores the fields of theirs that nobody may change; an upsert and a deletion
do so again with the list they are about to write.
-/

namespace RootSeeker.Admin

open Python Contracts Storage
open Dict (Amendment amendAll)

/-- An entry of `BUILTIN_CRON_JOBS`, with the texts that seeding needs filled in. -/
structure BuiltinCronJob where
  jobId : PyStr
  name : PyStr
  handler : PyStr
  schedule : PyStr
  timezone : PyStr
  enabled : Bool
  notes : PyStr
  metadata : Fields
  filled : strip name ≠ [] ∧ strip schedule ≠ [] ∧ strip timezone ≠ [] ∧ notes ≠ []

def BuiltinCronJob.job (builtin : BuiltinCronJob) : Fields :=
  [(py "job_id", .str builtin.jobId), (py "name", .str builtin.name),
    (py "handler", .str builtin.handler), (py "schedule", .str builtin.schedule),
    (py "timezone", .str builtin.timezone), (py "enabled", .bool builtin.enabled),
    (py "builtin", .bool true), (py "deletable", .bool false), (py "notes", .str builtin.notes),
    (py "metadata", .obj builtin.metadata)]

def builtinCronJobs : List BuiltinCronJob :=
  [{ jobId := py "cron.repo-sync-changed"
     name := py "仓库增量同步"
     handler := py "repo.sync_changed"
     schedule := py "@hourly"
     timezone := py "UTC"
     enabled := true
     notes := py "默认每小时执行：仅同步有变更的仓库，并对变更仓强制重建 GitNexus 知识图谱。"
     metadata := []
     filled := by decide },
   { jobId := py "cron.default-flow-replay"
     name := py "默认 Flow 回放评估"
     handler := py "replay.default_flow"
     schedule := py "@hourly"
     timezone := py "UTC"
     enabled := false
     notes := py "默认 Flow 回放评估任务（默认关闭）。"
     metadata := [(py "suite_name", .str (py "cron-default-flow")), (py "repeat_each", .int 1)]
     filled := by decide }]

def builtinIds : List PyStr :=
  builtinCronJobs.map BuiltinCronJob.jobId

def allowedCronHandlers : List PyStr :=
  [py "repo.sync_changed", py "repo.sync_all", py "replay.default_flow"]

/-! ## Comparing values -/

/-- `value == text`. -/
def equalsText (text : PyStr) : Option Json → Bool
  | some (.str found) => found = text
  | _ => false

/-- `value == flag`, which also holds of the number that the flag counts as. -/
def equalsFlag (flag : Bool) : Option Json → Bool
  | some (.bool found) => found = flag
  | some (.int found) => found = flag.toNat
  | some (.float (.finite negative magnitude)) =>
    magnitude = flag.toNat && (!negative || magnitude = 0)
  | _ => false

/-- `value is False`. -/
def isFalse : Option Json → Bool
  | some (.bool false) => true
  | _ => false

/-- `bool(fields.get(key, default))`. -/
def flagOf (fields : Fields) (key : String) (default : Bool) : Bool :=
  ((fields.get? (py key)).map Json.truthy).getD default

section Seeding

variable (std : Stdlib)

/-- `str(fields.get(key) or default).strip()`. -/
def textOf (fields : Fields) (key : String) (default : PyStr) : PyStr :=
  strip (truthyText std [fields.get? (py key), some (.str default)])

/-- The fields of a job that is accepted. -/
def normalizedJob (raw metadata : Fields) : Fields :=
  let jobId := textOf std raw "job_id" []
  [(py "job_id", .str jobId), (py "name", .str (orText (textOf std raw "name" jobId) jobId)),
    (py "handler", .str (textOf std raw "handler" [])),
    (py "schedule", .str (textOf std raw "schedule" [])),
    (py "timezone", .str (orText (textOf std raw "timezone" (py "UTC")) (py "UTC"))),
    (py "enabled", .bool (flagOf raw "enabled" true)),
    (py "builtin", .bool (flagOf raw "builtin" false)),
    (py "deletable", .bool (flagOf raw "deletable" !flagOf raw "builtin" false)),
    (py "notes", .str (textOf std raw "notes" [])), (py "metadata", .obj metadata)]

/-- `_normalize_cron_job`. -/
def normalizeCronJob (raw : Fields) (requireHandler : Bool) : Except PyError Fields :=
  let jobId := textOf std raw "job_id" []
  let handler := textOf std raw "handler" []
  if jobId = [] then .error (.valueError (py "job_id is required"))
  else if requireHandler = true ∧ handler = [] then
    .error (.valueError (py "handler is required"))
  else if handler ≠ [] ∧ handler ∉ allowedCronHandlers then
    .error (.valueError (py "unsupported cron handler: " ++ handler))
  else if textOf std raw "schedule" [] = [] then
    .error (.valueError (py "schedule is required"))
  else
    match raw.get? (py "metadata") with
    | none | some .null => .ok (normalizedJob std raw [])
    | some (.obj metadata) => .ok (normalizedJob std raw metadata)
    | some _ => .error (.valueError (py "metadata must be an object"))

/-- `not str(value or "").strip()`. -/
def isBlank (value : Option Json) : Bool :=
  strip (truthyText std [value]) = []

/-- What seeding does to the fields of a builtin job that is there. -/
def builtinAmendments (builtin : BuiltinCronJob) : List (Amendment PyStr Json) :=
  [⟨py "handler", fun value => !equalsText builtin.handler value, .str builtin.handler⟩,
    ⟨py "builtin", fun value => !equalsFlag true value, .bool true⟩,
    ⟨py "deletable", fun value => !equalsFlag false value, .bool false⟩,
    ⟨py "enabled", Option.isNone, .bool builtin.enabled⟩,
    ⟨py "schedule", isBlank std, .str builtin.schedule⟩,
    ⟨py "name", isBlank std, .str builtin.name⟩,
    ⟨py "timezone", isBlank std, .str builtin.timezone⟩,
    ⟨py "notes", fun value => value.isNone && builtin.notes ≠ [], .str builtin.notes⟩]

/-- `str(item.get("job_id"))`. -/
def idText (job : Fields) : PyStr :=
  str std ((job.get? (py "job_id")).getD .null)

def seedBuiltin (state : Dict PyStr Fields × Bool) (builtin : BuiltinCronJob) :
    Dict PyStr Fields × Bool :=
  match state.1.get? builtin.jobId with
  | none => (state.1.set builtin.jobId builtin.job, true)
  | some existing =>
    let merged := amendAll (builtinAmendments std builtin) existing
    (state.1.set builtin.jobId merged.1, state.2 || merged.2)

/-- The last job of each identifier. -/
def jobsById (jobs : List Fields) : Dict PyStr Fields :=
  Dict.update [] (jobs.map fun job => (idText std job, job))

/-- The builtin jobs, then the others. -/
def orderedJobs (byId : Dict PyStr Fields) : List Fields :=
  builtinIds.filterMap byId.get? ++ (byId.filterKeys (· ∉ builtinIds)).map Prod.snd

/-- `_seed_builtin_cron_jobs`. -/
def seedBuiltinCronJobs (jobs : List Fields) : List Fields × Bool :=
  let seeded := builtinCronJobs.foldl (seedBuiltin std) (jobsById std jobs, false)
  (orderedJobs seeded.1, seeded.2)

end Seeding

/-! ## The store -/

/-- `setdefault` for every key of the defaults. -/
def setDefaults (fields defaults : Fields) : Fields :=
  defaults.foldl (fun fields entry => fields.setDefault entry.1 entry.2) fields

/-- A hexadecimal digit of a UUID. -/
def isHexChar (c : CodePoint) : Bool :=
  isDigit c || (0x61 ≤ c.val && c.val ≤ 0x66)

/-- What `uuid.uuid4().hex[:12]` gives. -/
abbrev HexText := {text : PyStr // text.all isHexChar = true}

/-- A file that a failed write left behind is empty and cannot be read. -/
inductive Stored where
  | absent
  | unreadable
  | document (data : Fields)

/-- A file, or a row of a database, which keeps its value where it refuses a write. -/
inductive Backend where
  | file
  | mysql (refusal : Fields → Option PyError)

/-- `_empty_admin_data`. -/
def emptyAdminData : Fields :=
  [(py "repos", .arr []), (py "catalog", .arr []), (py "skills", .arr []),
    (py "settings", .obj []), (py "env_vars", .arr []), (py "ai_providers", .arr []),
    (py "error_chat", .arr []), (py "repo_remotes", .arr []), (py "cron_jobs", .arr [])]

/-- `[item for item in value if isinstance(item, dict)]`. -/
def objectsIn : Option Json → Except PyError (List Fields)
  | some (.arr items) => .ok <| items.filterMap fun
      | .obj fields => some fields
      | _ => none
  | some (.str _) | some (.obj _) => .ok []
  | _ => .error .typeError

def withCronJobs (data : Fields) (jobs : List Fields) : Fields :=
  data.set (py "cron_jobs") (.arr (jobs.map .obj))

section Store

variable (std : Stdlib) (backend : Backend)

/-- `AdminConfigStore.save`: the file is emptied before the text is encoded. -/
def save (stored : Stored) (data : Fields) : Stored × Option PyError :=
  match backend with
  | .file =>
    if fieldsEncodable data then (.document data, none)
    else (.unreadable, some .unicodeEncodeError)
  | .mysql refusal =>
    match refusal data with
    | none => (.document data, none)
    | some error => (stored, some error)

/-- Write the data, and return a value if that works. -/
def saving {α : Type} (stored : Stored) (data : Fields) (value : α) :
    Stored × Except PyError α :=
  match save backend stored data with
  | (next, none) => (next, .ok value)
  | (next, some error) => (next, .error error)

/-- `AdminConfigStore.load`: the data and its jobs. -/
def load (stored : Stored) : Stored × Except PyError (Fields × List Fields) :=
  match stored with
  | .unreadable => (.unreadable, .error .jsonDecodeError)
  | .absent =>
    let jobs := (seedBuiltinCronJobs std []).1
    let data := withCronJobs emptyAdminData jobs
    saving backend stored data (data, jobs)
  | .document data =>
    match objectsIn ((setDefaults data emptyAdminData).get? (py "cron_jobs")) with
    | .error error => (stored, .error error)
    | .ok items =>
      let seeded := seedBuiltinCronJobs std items
      let data := withCronJobs (setDefaults data emptyAdminData) seeded.1
      if seeded.2 then saving backend stored data (data, seeded.1)
      else (stored, .ok (data, seeded.1))

/-- The fields of a builtin job that a payload changes. -/
def builtinEdits (existing incoming : Fields) (jobId : PyStr) : List (Option (PyStr × Json)) :=
  let edited (key : String) (value : PyStr) : Option (PyStr × Json) :=
    (incoming.get? (py key)).map fun _ => (py key, .str value)
  let name := orText (strip (truthyText std
    [incoming.get? (py "name"), existing.get? (py "name"), some (.str jobId)])) jobId
  let metadata : Option (PyStr × Json) := match incoming.get? (py "metadata") with
    | some (.obj fields) => some (py "metadata", .obj fields)
    | _ => none
  [edited "name" name, edited "schedule" (textOf std incoming "schedule" []),
    edited "timezone" (orText (textOf std incoming "timezone" (py "UTC")) (py "UTC")),
    (incoming.get? (py "enabled")).map fun value => (py "enabled", .bool value.truthy),
    edited "notes" (textOf std incoming "notes" []), metadata]

def editBuiltin (existing incoming : Fields) (jobId : PyStr) : Fields :=
  existing.update (builtinEdits std existing incoming jobId).reduceOption

/-- `value or default`. -/
def orValue (value : Option Json) (default : Json) : Json :=
  (value.filter Json.truthy).getD default

/-- What a payload takes from the job that it replaces. -/
def existingDefaults (existing : Fields) : Fields :=
  let kept (key : String) : Json := (existing.get? (py key)).getD .null
  [(py "builtin", .bool (flagOf existing "builtin" false)),
    (py "deletable", .bool (flagOf existing "deletable" true)),
    (py "handler", kept "handler"), (py "schedule", kept "schedule"), (py "name", kept "name"),
    (py "timezone", kept "timezone"),
    (py "enabled", (existing.get? (py "enabled")).getD (.bool true)),
    (py "notes", orValue (existing.get? (py "notes")) (.str [])),
    (py "metadata", orValue (existing.get? (py "metadata")) (.obj []))]

def newJobDefaults : Fields :=
  [(py "builtin", .bool false), (py "deletable", .bool true)]

/-- The identifier that an upsert is about: a new one where the payload has none. -/
def targetOf (job : Fields) (generated : HexText) : PyStr :=
  let jobId := textOf std job "job_id" []
  if jobId = [] then py "cron." ++ generated else jobId

def findJob (jobs : List Fields) (jobId : PyStr) : Option Fields :=
  jobs.find? fun item => equalsText jobId (item.get? (py "job_id"))

/-- Normalise a job that is not builtin. -/
def createdJob (incoming : Fields) : Except PyError Fields :=
  match normalizeCronJob std incoming true with
  | .error error => .error error
  | .ok normalized =>
    if flagOf normalized "builtin" false then
      .error (.valueError (py "cannot create a builtin cron job via API"))
    else .ok normalized

/-- The normalised job with the identity fields of the builtin job it replaces. -/
def lockedJob (existing normalized : Fields) : Fields :=
  ((normalized.set (py "builtin") (.bool true)).set (py "deletable") (.bool false)).set
    (py "handler")
    (.str (truthyText std [existing.get? (py "handler"), normalized.get? (py "handler")]))

/-- The job that an upsert stores. -/
def upsertedJob (jobs : List Fields) (job : Fields) (generated : HexText) :
    Except PyError Fields :=
  let jobId := textOf std job "job_id" []
  match findJob jobs jobId with
  | none =>
    let incoming := if jobId = [] then
      job.set (py "job_id") (.str (py "cron." ++ generated)) else job
    createdJob std (setDefaults incoming newJobDefaults)
  | some existing =>
    if flagOf existing "builtin" false then
      match normalizeCronJob std (editBuiltin std existing job jobId) true with
      | .error error => .error error
      | .ok normalized => .ok (lockedJob std existing normalized)
    else createdJob std (setDefaults job (existingDefaults existing))

/-- The list without the job of an identifier. -/
def withoutJob (jobs : List Fields) (jobId : PyStr) : List Fields :=
  jobs.filter fun item => !equalsText jobId (item.get? (py "job_id"))

/-- `AdminConfigStore.upsert_cron_job`. -/
def upsertCronJob (stored : Stored) (job : Fields) (generated : HexText) :
    Stored × Except PyError Fields :=
  match load std backend stored with
  | (stored, .error error) => (stored, .error error)
  | (stored, .ok (data, jobs)) =>
    match upsertedJob std jobs job generated with
    | .error error => (stored, .error error)
    | .ok normalized =>
      let kept := withoutJob jobs (textOf std normalized "job_id" [])
      saving backend stored
        (withCronJobs data (seedBuiltinCronJobs std (kept ++ [normalized])).1) normalized

/-- The jobs that a deletion leaves. -/
def remainingJobs (jobs : List Fields) (jobId : PyStr) : Except PyError (List Fields) :=
  match findJob jobs jobId with
  | none => .error (.keyError (py "cron job not found: " ++ jobId))
  | some target =>
    if flagOf target "builtin" false || isFalse (target.get? (py "deletable")) then
      .error (.valueError (py "builtin cron job cannot be deleted: " ++ jobId))
    else .ok (withoutJob jobs jobId)

/-- `AdminConfigStore.delete_cron_job`. -/
def deleteCronJob (stored : Stored) (jobId : PyStr) : Stored × Except PyError Unit :=
  match load std backend stored with
  | (stored, .error error) => (stored, .error error)
  | (stored, .ok (data, jobs)) =>
    match remainingJobs jobs jobId with
    | .error error => (stored, .error error)
    | .ok remaining =>
      saving backend stored
        (withCronJobs data (seedBuiltinCronJobs std remaining).1) ()

end Store

end RootSeeker.Admin
