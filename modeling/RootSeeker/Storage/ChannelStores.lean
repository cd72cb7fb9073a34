import RootSeeker.Storage.ChannelPayload

/-!
# The stores of the notification channels

The file store keeps one JSON document and rejects a name that another channel
has.  The SQLite store relies on the constraints of its table: a row that is
inserted replaces every row with its identifier or its name.
-/

namespace RootSeeker.Storage

open Python Contracts

inductive ChannelCall where
  | upsert (channel : Fields) (draw : Draw)
  | delete (channelId : PyStr)
  | updateSettings (patch : Fields)

/-- What a call returns. -/
inductive ChannelAnswer where
  | channel (stored : Channel)
  | done
  | settings (updated : Fields)

def defaultSettings : Fields :=
  [(py "broadcast_enabled", .bool true)]

/-- `settings.setdefault("broadcast_enabled", True)`. -/
def withBroadcast (settings : Fields) : Fields :=
  settings.setDefault (py "broadcast_enabled") (.bool true)

/-! ## The file store -/

structure ChannelDocument where
  channels : List Channel
  settings : Fields

def ChannelDocument.encodable (document : ChannelDocument) : Bool :=
  document.channels.all Channel.encodable && fieldsEncodable document.settings

/-- The document in the file; none where a write that failed left the file empty. -/
structure FileNotificationChannelStore where
  document : Option ChannelDocument

namespace FileNotificationChannelStore

def new : FileNotificationChannelStore where
  document := some { channels := [], settings := defaultSettings }

def load (store : FileNotificationChannelStore) : Except PyError ChannelDocument :=
  match store.document with
  | some document => .ok document
  | none => .error .jsonDecodeError

/-- `write_text` empties the file before it encodes the text. -/
def save (document : ChannelDocument) : Except PyError Unit × FileNotificationChannelStore :=
  if document.encodable then (.ok (), { document := some document })
  else (.error .unicodeEncodeError, { document := none })

def listChannels (store : FileNotificationChannelStore) : Except PyError (List Channel) :=
  store.load.map fun document => sortChannels document.channels

def getSettings (store : FileNotificationChannelStore) : Except PyError Fields :=
  store.load.map fun document => withBroadcast document.settings

/-- The channel that an upsert finds: by its identifier, else by its name. -/
def existing (std : NumberStdlib) (channel : Fields) (items : List Channel) :
    Option Channel :=
  let byId :=
    if lookupId std channel = [] then none
    else items.find? fun item => item.channelId = lookupId std channel
  byId.or (items.find? fun item => item.name = lookupName std channel)

/-- Another channel has the name. -/
def nameTaken (normalized : Channel) (items : List Channel) : Bool :=
  items.any fun other =>
    other.name = normalized.name ∧ other.channelId ≠ normalized.channelId

/-- The channels after the upsert of a channel. -/
def withChannel (normalized : Channel) (items : List Channel) : List Channel :=
  items.filter (fun item => item.channelId ≠ normalized.channelId) ++ [normalized]

def upsertChannel (std : NumberStdlib) (channel : Fields) (draw : Draw)
    (document : ChannelDocument) (store : FileNotificationChannelStore) :
    Except PyError Channel × FileNotificationChannelStore :=
  match normalizeChannelPayload std channel (existing std channel document.channels) draw with
  | .error raised => (.error raised, store)
  | .ok normalized =>
    if nameTaken normalized document.channels then
      (.error (.valueError (py "channel name already exists: " ++ normalized.name)), store)
    else
      let (saved, after) :=
        save { document with channels := withChannel normalized document.channels }
      (saved.map fun _ => normalized, after)

def perform (std : NumberStdlib) (store : FileNotificationChannelStore) (call : ChannelCall) :
    Except PyError ChannelAnswer × FileNotificationChannelStore :=
  match store.load with
  | .error raised => (.error raised, store)
  | .ok document =>
    match call with
    | .upsert channel draw =>
      let (answer, after) := upsertChannel std channel draw document store
      (answer.map .channel, after)
    | .delete channelId =>
      let (saved, after) :=
        save { document with
          channels := document.channels.filter fun item => item.channelId ≠ channelId }
      (saved.map fun _ => .done, after)
    | .updateSettings patch =>
      let settings := document.settings.update patch
      let (saved, after) := save { document with settings := settings }
      (saved.map fun _ => .settings settings, after)

end FileNotificationChannelStore

/-! ## The SQLite store -/

/-- A row of the table. -/
structure ChannelRow where
  channelId : PyStr
  name : PyStr
  channelType : PyStr
  endpointUrl : PyStr
  secret : PyStr
  enabled : ℤ
  sortOrder : ℤ
  templateId : PyStr
  metadata : Fields
  createdAt : PyStr
  updatedAt : PyStr

/-- A parameter of a statement; a dictionary is bound as its JSON text. -/
inductive SqlParameter where
  | text (value : PyStr)
  | integer (value : ℤ)
  | json (value : Fields)

/-- The exception that binding the parameter raises. -/
def SqlParameter.bindError : SqlParameter → Option PyError
  | .text value => if Encodable value then none else some .unicodeEncodeError
  | .integer value => if -2 ^ 63 ≤ value ∧ value < 2 ^ 63 then none else some .overflowError
  | .json value => if fieldsEncodable value then none else some .unicodeEncodeError

/-- Parameters are bound in their order. -/
def bindError (parameters : List SqlParameter) : Option PyError :=
  parameters.findSome? SqlParameter.bindError

/-- The parameters of `INSERT OR REPLACE`. -/
def Channel.parameters (channel : Channel) : List SqlParameter :=
  [.text channel.channelId, .text channel.name, .text channel.channelType,
    .text channel.endpointUrl, .text channel.secret,
    .integer (if channel.enabled then 1 else 0), .integer channel.sortOrder,
    .text channel.templateId, .json channel.metadata, .text channel.createdAt,
    .text channel.updatedAt]

def Channel.row (channel : Channel) : ChannelRow where
  channelId := channel.channelId
  name := channel.name
  channelType := channel.channelType
  endpointUrl := channel.endpointUrl
  secret := channel.secret
  enabled := if channel.enabled then 1 else 0
  sortOrder := channel.sortOrder
  templateId := channel.templateId
  metadata := channel.metadata
  createdAt := channel.createdAt
  updatedAt := channel.updatedAt

/-- `_row_to_channel`. -/
def rowToChannel (row : ChannelRow) : Channel where
  channelId := row.channelId
  name := row.name
  channelType := row.channelType
  endpointUrl := row.endpointUrl
  secret := row.secret
  enabled := row.enabled ≠ 0
  sortOrder := row.sortOrder
  templateId := row.templateId
  metadata := row.metadata
  createdAt := row.createdAt
  updatedAt := row.updatedAt

@[simp]
theorem rowToChannel_row (channel : Channel) : rowToChannel channel.row = channel := by
  obtain ⟨_, _, _, _, _, enabled, _, _, _, _, _⟩ := channel
  cases enabled <;> rfl

/-- Every row that violates the primary key or the unique name goes. -/
def insertOrReplace (row : ChannelRow) (rows : List ChannelRow) : List ChannelRow :=
  rows.filter (fun other => other.channelId ≠ row.channelId ∧ other.name ≠ row.name) ++ [row]

structure SqliteNotificationChannelStore where
  rows : List ChannelRow
  settings : Fields

namespace SqliteNotificationChannelStore

def new : SqliteNotificationChannelStore where
  rows := []
  settings := defaultSettings

def listChannels (store : SqliteNotificationChannelStore) : List Channel :=
  sortChannels (store.rows.map rowToChannel)

def getChannel (store : SqliteNotificationChannelStore) (channelId : PyStr) :
    Except PyError (Option Channel) :=
  match bindError [.text channelId] with
  | some raised => .error raised
  | none => .ok ((store.rows.find? fun row => row.channelId = channelId).map rowToChannel)

def getSettings (store : SqliteNotificationChannelStore) : Fields :=
  withBroadcast store.settings

/-- The channel that an upsert finds: by its identifier, else by its name. -/
def existing (std : NumberStdlib) (channel : Fields)
    (store : SqliteNotificationChannelStore) : Except PyError (Option Channel) := do
  let byId ← if lookupId std channel = [] then .ok none else store.getChannel (lookupId std channel)
  pure (byId.or (store.listChannels.find? fun item => item.name = lookupName std channel))

def upsertChannel (std : NumberStdlib) (store : SqliteNotificationChannelStore)
    (channel : Fields) (draw : Draw) :
    Except PyError Channel × SqliteNotificationChannelStore :=
  match store.existing std channel with
  | .error raised => (.error raised, store)
  | .ok found =>
    match normalizeChannelPayload std channel found draw with
    | .error raised => (.error raised, store)
    | .ok normalized =>
      match bindError normalized.parameters with
      | some raised => (.error raised, store)
      | none =>
        (.ok normalized,
          { store with rows := insertOrReplace normalized.row store.rows })

def perform (std : NumberStdlib) (store : SqliteNotificationChannelStore)
    (call : ChannelCall) : Except PyError ChannelAnswer × SqliteNotificationChannelStore :=
  match call with
  | .upsert channel draw =>
    let (answer, after) := store.upsertChannel std channel draw
    (answer.map .channel, after)
  | .delete channelId =>
    match bindError [.text channelId] with
    | some raised => (.error raised, store)
    | none =>
      (.ok .done,
        { store with rows := store.rows.filter fun row => row.channelId ≠ channelId })
  | .updateSettings patch =>
    let settings := store.getSettings.update patch
    match bindError [.json settings] with
    | some raised => (.error raised, store)
    | none => (.ok (.settings settings), { store with settings := settings })

end SqliteNotificationChannelStore

end RootSeeker.Storage
