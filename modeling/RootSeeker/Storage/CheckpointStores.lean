import RootSeeker.Core.Windows
import RootSeeker.Storage.ChannelStores

/-!
# The checkpoint stores

One store keeps the checkpoints in memory, the other in a SQLite table.  Both
keep the last payload of every flow run with its revision, and both list the
checkpoints that match a filter.
-/

namespace RootSeeker.Storage

open Python Contracts

/-- `isoformat` of an instant in UTC; the texts sort as the instants do. -/
structure UtcFormat (τ : Type) [LinearOrder τ] where
  isoformat : τ → PyStr
  fromisoformat : PyStr → τ
  fromisoformat_isoformat : ∀ instant, fromisoformat (isoformat instant) = instant
  isoformat_strictMono : StrictMono isoformat

structure FlowCheckpointRecord (τ : Type) where
  flowRunId : PyStr
  revision : ℕ
  payload : Fields
  updatedAt : τ

/-- A call of `save` with the time at which it happens. -/
structure Save (τ : Type) where
  flowRunId : PyStr
  payload : Fields
  now : τ

/-- The arguments of `list_records`. -/
structure ListRecords where
  caseId : Option PyStr
  status : Option PyStr
  limit : ℤ

/-- `items[start:]`. -/
def sliceFrom {α : Type} (start : ℤ) (items : List α) : List α :=
  items.drop (if start < 0 then start + items.length else start).toNat

/-- `payload.get(key) == wanted`. -/
def hasText (payload : Fields) (key : String) (wanted : PyStr) : Bool :=
  match payload.get? (py key) with
  | some (.str text) => text = wanted
  | _ => false

/-! ## The store in memory -/

structure FlowCheckpointStore (τ : Type) where
  items : Dict PyStr (FlowCheckpointRecord τ)

namespace FlowCheckpointStore

variable {τ : Type} [LinearOrder τ]

def new : FlowCheckpointStore τ where
  items := []

def getRecord (store : FlowCheckpointStore τ) (flowRunId : PyStr) :
    Option (FlowCheckpointRecord τ) :=
  store.items.get? flowRunId

def get (store : FlowCheckpointStore τ) (flowRunId : PyStr) : Option Fields :=
  (store.getRecord flowRunId).map FlowCheckpointRecord.payload

def save (store : FlowCheckpointStore τ) (call : Save τ) : FlowCheckpointStore τ :=
  let revision :=
    match store.items.get? call.flowRunId with
    | none => 1
    | some existing => existing.revision + 1
  { items := store.items.set call.flowRunId
      { flowRunId := call.flowRunId
        revision := revision
        payload := call.payload
        updatedAt := call.now } }

def listRecords (store : FlowCheckpointStore τ) (query : ListRecords) :
    List (FlowCheckpointRecord τ) :=
  let records := store.items.map Prod.snd
  let records := query.caseId.elim records fun caseId =>
    records.filter fun record => hasText record.payload "case_id" caseId
  let records := query.status.elim records fun status =>
    records.filter fun record => hasText record.payload "status" status
  let records := records.insertionSort fun left right => left.updatedAt ≤ right.updatedAt
  if query.limit < 0 then records else sliceFrom (-query.limit) records

end FlowCheckpointStore

/-! ## The SQLite store -/

/-- What SQLite's JSON functions make of a list or an object: its minified text. -/
structure SqliteJson where
  text : Json → PyStr

/-- The value of an SQL expression. -/
inductive SqlValue where
  | null
  | integer (value : ℤ)
  | real (value : PyFloat)
  | text (value : PyStr)
  deriving DecidableEq

/-- `json_extract(payload, '$.key')`. -/
def jsonExtract (json : SqliteJson) (payload : Fields) (key : String) : SqlValue :=
  match payload.get? (py key) with
  | none => .null
  | some .null => .null
  | some (.bool value) => .integer (if value then 1 else 0)
  | some (.int value) => .integer value
  | some (.float value) => .real value
  | some (.str value) => .text value
  | some (.arr items) => .text (json.text (.arr items))
  | some (.obj fields) => .text (json.text (.obj fields))

/-- A row of the table; the column of the payload holds its JSON text, which reads back as
the payload. -/
structure CheckpointRow where
  flowRunId : PyStr
  revision : ℕ
  payload : Fields
  updatedAt : PyStr

structure SqliteCheckpointStore where
  rows : List CheckpointRow

namespace SqliteCheckpointStore

variable {τ : Type} [LinearOrder τ] (format : UtcFormat τ) (json : SqliteJson)

def new : SqliteCheckpointStore where
  rows := []

def record (row : CheckpointRow) : FlowCheckpointRecord τ where
  flowRunId := row.flowRunId
  revision := row.revision
  payload := row.payload
  updatedAt := format.fromisoformat row.updatedAt

def getRecord (store : SqliteCheckpointStore) (flowRunId : PyStr) :
    Except PyError (Option (FlowCheckpointRecord τ)) :=
  match bindError [.text flowRunId] with
  | some raised => .error raised
  | none => .ok ((store.rows.find? fun row => row.flowRunId = flowRunId).map (record format))

def get (store : SqliteCheckpointStore) (flowRunId : PyStr) : Except PyError (Option Fields) :=
  (store.getRecord format flowRunId).map (Option.map FlowCheckpointRecord.payload)

/-- `INSERT OR REPLACE`: the row with the primary key goes. -/
def insertOrReplace (row : CheckpointRow) (rows : List CheckpointRow) : List CheckpointRow :=
  rows.filter (fun other => other.flowRunId ≠ row.flowRunId) ++ [row]

/-- The store after a call of `save`; a call that raises changes nothing. -/
def save (store : SqliteCheckpointStore) (call : Save τ) : SqliteCheckpointStore :=
  match store.getRecord format call.flowRunId with
  | .error _ => store
  | .ok existing =>
    { rows := insertOrReplace
        { flowRunId := call.flowRunId
          revision := existing.elim 1 fun found => found.revision + 1
          payload := call.payload
          updatedAt := format.isoformat call.now } store.rows }

/-- The conditions after `WHERE`. -/
def selects (query : ListRecords) (payload : Fields) : Bool :=
  (query.caseId.elim true fun caseId => jsonExtract json payload "case_id" = .text caseId) &&
    query.status.elim true fun status => jsonExtract json payload "status" = .text status

/-- The bound parameters. -/
def parameters (query : ListRecords) : List SqlParameter :=
  (query.caseId.map SqlParameter.text).toList ++ (query.status.map SqlParameter.text).toList

/-- A limit that is no 64-bit integer is a real number in SQL. -/
def limitError (limit : ℤ) : Option PyError :=
  if limit < 2 ^ 63 then none else some (.sqliteError (py "datatype mismatch"))

def listRecords (store : SqliteCheckpointStore) (query : ListRecords) :
    Except PyError (List (FlowCheckpointRecord τ)) :=
  match (bindError (parameters query)).or (limitError query.limit) with
  | some raised => .error raised
  | none =>
    let rows := store.rows.filter fun row => selects json query row.payload
    let rows := rows.insertionSort fun left right => right.updatedAt ≤ left.updatedAt
    let rows := if 0 < query.limit then rows.take query.limit.toNat else rows
    .ok (rows.map (record format))

end SqliteCheckpointStore

end RootSeeker.Storage
