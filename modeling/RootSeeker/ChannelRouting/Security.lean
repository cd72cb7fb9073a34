import RootSeeker.ChannelRouting.Normalizer
import RootSeeker.Python.ReprReading

/-!
# Channel security and the webhook endpoint

A channel may be restricted to source addresses and to signed payloads.  The
endpoint adds the channel to the payload, checks the message, normalises it and
builds the case request.
-/

namespace RootSeeker.ChannelRouting

open Python Contracts Analysis

/-- `hmac.new(secret, text, sha256).hexdigest()`, taken to be injective. -/
structure Hmac where
  hexDigest : PyStr → PyStr → PyStr
  injective : ∀ secret, Function.Injective (hexDigest secret)
  ascii : ∀ secret text, ∀ c ∈ hexDigest secret text, isAscii c = true ∧ isSpace c = false
  nonempty : ∀ secret text, hexDigest secret text ≠ []

/-- `repr` of a key and its value as a tuple. -/
def reprPair (std : Stdlib) (entry : PyStr × Json) : PyStr :=
  py "(" ++ reprText std entry.1 ++ py ", " ++ repr std entry.2 ++ py ")"

/-- `sorted(payload.items())`: the keys of a dictionary differ, so no two values
are compared. -/
def sortedItems (payload : Fields) : Fields :=
  payload.insertionSort fun left right => left.1 ≤ right.1

/-- `str(sorted(payload.items()))`. -/
def signingText (std : Stdlib) (payload : Fields) : PyStr :=
  py "[" ++ join (py ", ") ((sortedItems payload).map (reprPair std)) ++ py "]"

/-- `hmac.compare_digest` of two texts. -/
def compareDigest (supplied expected : PyStr) : Except PyError Bool :=
  if supplied.all isAscii ∧ expected.all isAscii then .ok (supplied = expected)
  else .error .typeError

structure ChannelSecurity where
  allowlistIps : List PyStr
  signingSecret : Option PyStr

def ChannelSecurity.validate (std : Stdlib) (hmac : Hmac) (security : ChannelSecurity)
    (message : ChannelMessage) : Except PyError Unit :=
  if security.allowlistIps ≠ [] ∧ message.remoteIp ∉ security.allowlistIps.map some then
    .error (.valueError (py "source ip is not allowed"))
  else
    match security.signingSecret.filter (· ≠ []) with
    | none => .ok ()
    | some secret => do
      let supplied := (message.headers.get? (py "x-signature")).getD []
      let same ← compareDigest supplied
        (hmac.hexDigest secret (signingText std message.payload.val))
      if same then pure () else throw (.valueError (py "invalid signature"))

def ingestChannelMessage (std : NumberStdlib) (analysis : TextAnalysis) (hmac : Hmac)
    (message : ChannelMessage) (security : Option ChannelSecurity) :
    Except PyError NormalizedInboundMessage := do
  security.forM (ChannelSecurity.validate std.toStdlib hmac · message)
  normalizeInbound std analysis message

/-! ## Case requests -/

/-- What the message carried, and its trace id. -/
def tracedMetadata (normalized : NormalizedInboundMessage) : Fields :=
  match normalized.traceId.filter (· ≠ []) with
  | none => normalized.metadata.val
  | some traceId => normalized.metadata.val.set (py "trace_id") (.str traceId)

/-- The routing fields that the message did not carry are added. -/
def caseMetadata (normalized : NormalizedInboundMessage) : Fields :=
  ((((tracedMetadata normalized).setDefault
    (py "tenant") (.str normalized.tenant)).setDefault
    (py "environment") (.str normalized.environment)).setDefault
    (py "severity") (.str normalized.severity)).setDefault
    (py "team") (.str normalized.team)

def caseCreateRequest (normalized : NormalizedInboundMessage) (source : PyStr) :
    Except PyError CaseCreateRequest := do
  let source ← RequiredStr.validate source
  let metadata ← Mapping.validate (caseMetadata normalized)
  pure
    { title := normalized.title
      symptom := normalized.symptom
      serviceName := normalized.serviceName
      source := source
      metadata := metadata }

/-! ## The endpoint -/

/-- The headers of a request: their names are tokens and all differ, and they are
decoded from bytes. -/
structure RequestHeaders where
  fields : Dict PyStr PyStr
  names_distinct : fields.keys.Nodup
  names_tokens : ∀ name ∈ fields.keys, ∀ c ∈ name, isAscii c = true ∧ isSpace c = false
  values_bytes : ∀ entry ∈ fields, ∀ c ∈ entry.2, c.val < 0x100

structure WebhookRequest where
  channel : PyStr
  body : Option Json
  headers : RequestHeaders
  remoteIp : Option PyStr
  remoteIp_encodable : ∀ ip ∈ remoteIp, Encodable ip

/-- How the endpoint answers, up to the run it then starts. -/
inductive WebhookReply where
  | created (case : CaseCreateRequest)
  | forbidden (raised : PyError)
  | serverError (raised : PyError)

/-- A body that cannot be decoded counts as an empty object. -/
def requestPayload (body : Option Json) : Except PyError Fields :=
  match body with
  | none => .ok []
  | some (.obj fields) => .ok fields
  | some _ => .error .typeError

/-- The message that the endpoint builds before it checks anything. -/
def requestMessage (request : WebhookRequest) : Except PyError ChannelMessage := do
  let payload ← requestPayload request.body
  ChannelMessage.validate request.channel
    (payload.set (py "_channel") (.str request.channel)) request.headers.fields
    request.remoteIp

def handleWebhook (std : NumberStdlib) (analysis : TextAnalysis) (hmac : Hmac)
    (security : Option ChannelSecurity) (request : WebhookRequest) : WebhookReply :=
  match requestMessage request with
  | .error raised => .serverError raised
  | .ok message =>
    match ingestChannelMessage std analysis hmac message security with
    | .error raised => if raised.isValueError then .forbidden raised else .serverError raised
    | .ok normalized =>
      match caseCreateRequest normalized request.channel with
      | .error raised => .serverError raised
      | .ok case => .created case

end RootSeeker.ChannelRouting
