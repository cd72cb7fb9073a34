import RootSeeker.Contracts.Numbers

/-!
# Notification channels

The record of a channel and what the stores make of the payload of an upsert.
-/

namespace RootSeeker.Storage

open Python Contracts

structure Channel where
  channelId : PyStr
  name : PyStr
  channelType : PyStr
  endpointUrl : PyStr
  secret : PyStr
  enabled : Bool
  sortOrder : ℤ
  templateId : PyStr
  metadata : Fields
  createdAt : PyStr
  updatedAt : PyStr

def allowedChannelTypes : List PyStr :=
  [py "webhook", py "feishu", py "dingtalk", py "wechat_work", py "slack", py "discord"]

/-- What an upsert draws: the identifier for a new channel and the time. -/
structure Draw where
  uuid : PyStr
  now : PyStr

def required (field : String) (text : PyStr) : Except PyError PyStr :=
  if text = [] then .error (.valueError (py field ++ py " is required")) else .ok text

section Normalize

variable (std : NumberStdlib)

def validateChannelType (channelType : PyStr) : Except PyError PyStr :=
  let normalized := lower std.toStdlib (strip channelType)
  if normalized ∈ allowedChannelTypes then .ok normalized
  else .error (.valueError (py "unsupported channel_type: " ++ channelType))

/-- `str(channel.get(key) or existing.get(key) or default)`. -/
def textOrInherited (channel : Fields) (key : String) (inherited : Option PyStr)
    (default : PyStr) : PyStr :=
  truthyText std.toStdlib
    [channel.get? (py key), inherited.map Json.str, some (.str default)]

/-- `str(channel.get(key) if key in channel else existing.get(key) or "").strip()`: a key
that is present with the value `None` reads as the text `None`. -/
def givenText (channel : Fields) (key : String) (inherited : Option PyStr) : PyStr :=
  match channel.get? (py key) with
  | some value => strip (str std.toStdlib value)
  | none => strip (inherited.getD [])

/-- A blank secret keeps the one of the existing channel. -/
def normalizeSecret (channel : Fields) (existing : Option Channel) : PyStr :=
  let raw := (channel.get? (py "secret")).getD .null
  let given := truthyText std.toStdlib [some raw]
  match existing, raw with
  | none, _ => given
  | some found, .null => found.secret
  | some found, value => if strip (str std.toStdlib value) = [] then found.secret else given

def normalizeMetadata (channel : Fields) (existing : Option Channel) : Except PyError Fields :=
  match channel.get? (py "metadata"), existing with
  | some .null, _ => .ok []
  | some (.obj fields), _ => .ok fields
  | some _, _ => .error (.valueError (py "metadata must be an object"))
  | none, some found => .ok found.metadata
  | none, none => .ok []

def normalizeEnabled (channel : Fields) (existing : Option Channel) : Bool :=
  match channel.get? (py "enabled") with
  | some value => value.truthy
  | none => existing.elim true Channel.enabled

def normalizeSortOrder (channel : Fields) (existing : Option Channel) : Except PyError ℤ :=
  match channel.get? (py "sort_order") with
  | some _ => intOrZero std channel (py "sort_order")
  | none => .ok (existing.elim 0 Channel.sortOrder)

/-- The identifier is not stripped here. -/
def normalizeChannelId (channel : Fields) (existing : Option Channel) (draw : Draw) : PyStr :=
  textOrInherited std channel "channel_id" (existing.map Channel.channelId) draw.uuid

/-- `_normalize_channel_payload`. -/
def normalizeChannelPayload (channel : Fields) (existing : Option Channel) (draw : Draw) :
    Except PyError Channel := do
  let name ← required "name"
    (strip (textOrInherited std channel "name" (existing.map Channel.name) []))
  let channelType ← validateChannelType std
    (textOrInherited std channel "channel_type" (existing.map Channel.channelType)
      (py "webhook"))
  let endpointUrl ← required "endpoint_url"
    (givenText std channel "endpoint_url" (existing.map Channel.endpointUrl))
  let metadata ← normalizeMetadata channel existing
  let sortOrder ← normalizeSortOrder std channel existing
  pure
    { channelId := normalizeChannelId std channel existing draw
      name := name
      channelType := channelType
      endpointUrl := endpointUrl
      secret := normalizeSecret std channel existing
      enabled := normalizeEnabled channel existing
      sortOrder := sortOrder
      templateId := givenText std channel "template_id" (existing.map Channel.templateId)
      metadata := metadata
      createdAt := truthyText std.toStdlib
        [existing.map fun found => .str found.createdAt, channel.get? (py "created_at"),
          some (.str draw.now)]
      updatedAt := draw.now }

/-- The identifier by which an upsert looks for the existing channel is stripped. -/
def lookupId (channel : Fields) : PyStr :=
  strip (truthyText std.toStdlib [channel.get? (py "channel_id")])

def lookupName (channel : Fields) : PyStr :=
  strip (truthyText std.toStdlib [channel.get? (py "name")])

end Normalize

/-! ## Sorting -/

def sortKey (channel : Channel) : ℤ ×ₗ PyStr :=
  toLex (channel.sortOrder, channel.name)

/-- `_sort_channels`. -/
def sortChannels (channels : List Channel) : List Channel :=
  channels.insertionSort fun left right => sortKey left ≤ sortKey right

/-! ## What can be written -/

mutual

/-- The JSON text of the value can be encoded as UTF-8: no text in it has an unpaired
surrogate. -/
def jsonEncodable : Json → Bool
  | .str text => Encodable text
  | .arr items => itemsEncodable items
  | .obj fields => fieldsEncodable fields
  | _ => true

def itemsEncodable : List Json → Bool
  | [] => true
  | item :: rest => jsonEncodable item && itemsEncodable rest

def fieldsEncodable : List (PyStr × Json) → Bool
  | [] => true
  | (key, value) :: rest => Encodable key && jsonEncodable value && fieldsEncodable rest

end

def Channel.encodable (channel : Channel) : Bool :=
  Encodable channel.channelId && Encodable channel.name && Encodable channel.channelType &&
    Encodable channel.endpointUrl && Encodable channel.secret &&
    Encodable channel.templateId && fieldsEncodable channel.metadata &&
    Encodable channel.createdAt && Encodable channel.updatedAt

end RootSeeker.Storage
