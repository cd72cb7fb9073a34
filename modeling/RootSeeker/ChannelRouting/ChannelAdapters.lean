import RootSeeker.Contracts.Common
import RootSeeker.Python.Repr

/-!
# Channel adapters

An adapter turns a target and a message into an HTTP request and the outcome of
the exchange into a result.  What the request is made of comes from the free
metadata of the channel.  Five adapters report every exception of the exchange
as a failure; the webhook adapter reports the exceptions it lists.
-/

namespace RootSeeker.ChannelRouting

open Python Contracts

structure OutboundTarget where
  channel : RequiredStr
  endpoint : RequiredStr
  team : RequiredStr
  metadata : Mapping

def OutboundTarget.validate (channel endpoint team : PyStr) (metadata : Fields) :
    Except PyError OutboundTarget := do
  let channel ← RequiredStr.validate (trim channel)
  let endpoint ← RequiredStr.validate (trim endpoint)
  let team ← RequiredStr.validate (trim team)
  let metadata ← Mapping.validate (trimKeys metadata)
  pure { channel, endpoint, team, metadata }

/-! ## Exchanges -/

/-- The object that is sent as JSON; a key that is no text comes from the metadata. -/
abbrev JsonPayload := List (Json × Json)

structure HttpRequest where
  url : PyStr
  json : JsonPayload
  headers : Option Fields

/-- The exceptions of the HTTP client, as the webhook adapter tells them apart. -/
inductive ClientFailure where
  | timeout
  | requestError
  | other (raised : PyError)

/-- What comes of posting a request: a response, whose body may not be JSON, or an exception
with its text. -/
inductive HttpOutcome where
  | response (status : ℕ) (text : PyStr) (json : Except PyStr Json)
  | raised (failure : ClientFailure) (text : PyStr)

/-- One exchange: its outcome, and the time that a signature carries. -/
structure HttpExchange where
  outcome : HttpOutcome
  timestampMs : PyStr

/-- The error of a rejected message is what the service says, whatever its type. -/
structure SendResult where
  ok : Bool
  channel : PyStr
  message : PyStr
  error : Option Json
  metadata : Fields

/-! ## Requests -/

inductive ChannelAdapter where
  | webhook
  | feishu
  | dingtalk
  | wechatWork
  | slack
  | discord
  deriving DecidableEq

/-- `get_production_channel_registry`. -/
def productionRegistry : Dict PyStr ChannelAdapter :=
  [(py "webhook", .webhook), (py "feishu", .feishu), (py "dingtalk", .dingtalk),
   (py "wechat_work", .wechatWork), (py "slack", .slack), (py "discord", .discord)]

/-- `metadata.get(key, default)`. -/
def metadataOr (metadata : Fields) (key : String) (default : Json) : Json :=
  (metadata.get? (py key)).getD default

/-- `value == literal`. -/
def isLiteral (value : Json) (literal : String) : Bool :=
  match value with
  | .str text => text = py literal
  | _ => false

/-- A list or a dictionary is no key. -/
def hashable : Json → Bool
  | .arr _ => false
  | .obj _ => false
  | _ => true

def textKeys (fields : Fields) : JsonPayload :=
  fields.map fun field => (.str field.1, field.2)

/-- `{**self._headers, **metadata.get("headers", {})}`. -/
def webhookHeaders (metadata : Fields) : Except PyError Fields :=
  match metadataOr metadata "headers" (.obj []) with
  | .obj headers => .ok (Dict.update [(py "Content-Type", .str (py "application/json"))] headers)
  | _ => .error .typeError

def webhookPayload (target : OutboundTarget) (message : PyStr) : Fields :=
  Dict.update
    [(py "message", .str message), (py "channel", .str target.channel.val),
      (py "team", .str target.team.val)]
    target.metadata.val

def feishuContent (msgType : Json) (message : PyStr) (metadata : Fields) : Fields :=
  if isLiteral msgType "post" then
    [(py "post", .obj [(py "zh_cn", .obj
      [(py "title", metadataOr metadata "title" (.str (py "Notification"))),
        (py "content", .arr [.arr [.obj
          [(py "tag", .str (py "text")), (py "text", .str message)]]])])])]
  else [(py "text", .str message)]

def dingtalkContent (msgType : Json) (message : PyStr) (metadata : Fields) : Fields :=
  let titled := [(py "title", metadataOr metadata "title" (.str (py "Notification"))),
    (py "text", .str message)]
  if isLiteral msgType "markdown" then titled
  else if isLiteral msgType "link" then
    titled ++ [(py "messageUrl", metadataOr metadata "url" (.str []))]
  else [(py "content", .str message)]

def wechatWorkContent (msgType : Json) (message : PyStr) (metadata : Fields) : Fields :=
  if isLiteral msgType "image" then
    [(py "base64", metadataOr metadata "base64" (.str [])),
      (py "md5", metadataOr metadata "md5" (.str []))]
  else [(py "content", .str message)]

/-- `{"msgtype": msg_type, msg_type: content}`, which the adapters build before they guard
against exceptions. -/
def typedPayload (msgType : Json) (content : Fields) : Except PyError JsonPayload :=
  if !hashable msgType then .error .typeError
  else if isLiteral msgType "msgtype" then .ok [(.str (py "msgtype"), .obj content)]
  else .ok [(.str (py "msgtype"), msgType), (msgType, .obj content)]

/-- The text that signs a request to DingTalk. -/
def dingtalkSecret (std : Stdlib) (metadata : Fields) : PyStr :=
  strip (truthyText std [metadata.get? (py "secret")])

/-- `build_dingtalk_signed_url`; `sign` makes the quoted signature of a text under a secret. -/
def buildDingtalkSignedUrl (sign : PyStr → PyStr → PyStr) (endpoint secret timestampMs : PyStr) :
    Except PyError PyStr :=
  if Encodable secret then
    let separator := if CodePoint.ofChar '?' ∈ endpoint then py "&" else py "?"
    .ok (endpoint ++ separator ++ py "timestamp=" ++ timestampMs ++ py "&sign=" ++
      sign secret (timestampMs ++ py "\n" ++ secret))
  else .error .unicodeEncodeError

/-- The endpoint, signed if the target has a secret. -/
def dingtalkUrl (std : Stdlib) (sign : PyStr → PyStr → PyStr) (endpoint : PyStr)
    (metadata : Fields) (timestampMs : PyStr) : Except PyError PyStr :=
  let secret := dingtalkSecret std metadata
  if secret = [] then .ok endpoint else buildDingtalkSignedUrl sign endpoint secret timestampMs

def slackPayload (message : PyStr) (metadata : Fields) : Fields :=
  let blocks := metadataOr metadata "blocks" .null
  let payload : Fields :=
    if blocks.truthy then [(py "blocks", blocks), (py "text", .str message)]
    else [(py "text", .str message)]
  match metadata.get? (py "channel") with
  | some channel => payload.set (py "channel") channel
  | none => payload

def discordPayload (message : PyStr) (metadata : Fields) : Fields :=
  let embeds := metadataOr metadata "embeds" .null
  let payload : Fields :=
    if embeds.truthy then [(py "embeds", embeds)] else [(py "content", .str message)]
  match metadata.get? (py "username") with
  | some username => payload.set (py "username") username
  | none => payload

section Adapters

variable (std : Stdlib) (sign : PyStr → PyStr → PyStr) (adapter : ChannelAdapter)
  (target : OutboundTarget) (message : PyStr)

/-- What the adapter posts; `headers` are given by the webhook adapter only. -/
def ChannelAdapter.request (timestampMs : PyStr) : Except PyError HttpRequest :=
  let metadata := target.metadata.val
  let msgType := metadataOr metadata "msg_type" (.str (py "text"))
  let url := target.endpoint.val
  match adapter with
  | webhook => do
    let headers ← webhookHeaders metadata
    pure { url, json := textKeys (webhookPayload target message), headers := some headers }
  | feishu =>
    .ok
      { url
        json := [(.str (py "msg_type"), msgType),
          (.str (py "content"), .obj (feishuContent msgType message metadata))]
        headers := none }
  | dingtalk => do
    let json ← typedPayload msgType (dingtalkContent msgType message metadata)
    let url ← dingtalkUrl std sign url metadata timestampMs
    pure { url, json, headers := none }
  | wechatWork => do
    let json ← typedPayload msgType (wechatWorkContent msgType message metadata)
    pure { url, json, headers := none }
  | slack => .ok { url, json := textKeys (slackPayload message metadata), headers := none }
  | discord => .ok { url, json := textKeys (discordPayload message metadata), headers := none }

end Adapters

/-! ## Results -/

/-- `value == 0`: the boolean false is equal to zero. -/
def equalsZero : Json → Bool
  | .int value => value = 0
  | .bool value => value = false
  | .float (.finite _ magnitude) => magnitude = 0
  | _ => false

def fieldIsZero (fields : Fields) (key : String) : Bool :=
  equalsZero (metadataOr fields key .null)

/-- `type(value).__name__`. -/
def typeName : Json → PyStr
  | .null => py "NoneType"
  | .bool _ => py "bool"
  | .int _ => py "int"
  | .float _ => py "float"
  | .str _ => py "str"
  | .arr _ => py "list"
  | .obj _ => py "dict"

/-- The rule of an adapter whose service answers with a status. -/
def statusRule : ChannelAdapter → ℕ → PyStr → Bool
  | .slack, status, text => status = 200 && text = py "ok"
  | .discord, status, _ => status = 200 || status = 204
  | _, status, _ => 200 ≤ status && status < 300

/-- The rule of an adapter whose service answers with an object. -/
def objectRule : ChannelAdapter → Fields → Bool
  | .feishu, result => fieldIsZero result "StatusCode" || fieldIsZero result "code"
  | _, result => fieldIsZero result "errcode"

/-- `result.get(key)`, where a missing key reads as `None`. -/
def serviceError (result : Fields) (key : String) : Option Json :=
  match metadataOr result key .null with
  | .null => none
  | value => some value

section Results

variable (target : OutboundTarget) (message : PyStr)

def failure (error : PyStr) : SendResult where
  ok := false
  channel := target.channel.val
  message := message
  error := some (.str error)
  metadata := []

/-- The adapters whose service answers with an object: `key` names its error text. -/
def objectAnswer (adapter : ChannelAdapter) (key : String) : HttpOutcome → SendResult
  | .response _ _ (.ok (.obj result)) =>
    { ok := objectRule adapter result
      channel := target.channel.val
      message := message
      error := if objectRule adapter result then none else serviceError result key
      metadata := [(py "response", .obj result)] }
  | .response _ _ (.ok value) =>
    failure target message
      (py "'" ++ typeName value ++ py "' object has no attribute 'get'")
  | .response _ _ (.error text) => failure target message text
  | .raised _ text => failure target message text

/-- The adapters whose service answers with a status. -/
def statusAnswer (adapter : ChannelAdapter) : HttpOutcome → SendResult
  | .response status text _ =>
    { ok := statusRule adapter status text
      channel := target.channel.val
      message := message
      error :=
        if statusRule adapter status text then none
        else some (.str (py "HTTP " ++ decimal status))
      metadata := [(py "status_code", .int status)] }
  | .raised _ text => failure target message text

def webhookAnswer : HttpOutcome → Except PyError SendResult
  | .response status text _ =>
    .ok
      { ok := statusRule .webhook status text
        channel := target.channel.val
        message := message
        error :=
          if statusRule .webhook status text then none
          else some (.str (py "HTTP " ++ decimal status ++ py ": " ++ text.take 200))
        metadata :=
          [(py "endpoint", .str target.endpoint.val), (py "status_code", .int status),
            (py "response_body", if text = [] then .null else .str (text.take 500))] }
  | .raised .timeout _ => .ok (failure target message (py "Request timeout"))
  | .raised .requestError text => .ok (failure target message (py "Request error: " ++ text))
  | .raised (.other raised) _ => .error raised

def ChannelAdapter.answer (adapter : ChannelAdapter) (outcome : HttpOutcome) :
    Except PyError SendResult :=
  match adapter with
  | webhook => webhookAnswer target message outcome
  | feishu => .ok (objectAnswer target message .feishu "msg" outcome)
  | dingtalk => .ok (objectAnswer target message .dingtalk "errmsg" outcome)
  | wechatWork => .ok (objectAnswer target message .wechatWork "errmsg" outcome)
  | slack => .ok (statusAnswer target message .slack outcome)
  | discord => .ok (statusAnswer target message .discord outcome)

end Results

/-! ## What an adapter asks for -/

/-- The exchange succeeded by the rule of the adapter. -/
def ChannelAdapter.Succeeds (adapter : ChannelAdapter) (outcome : HttpOutcome) : Prop :=
  match adapter with
  | webhook | slack | discord =>
    ∃ status text json, outcome = .response status text json ∧
      statusRule adapter status text = true
  | feishu | dingtalk | wechatWork =>
    ∃ status text result, outcome = .response status text (.ok (.obj result)) ∧
      objectRule adapter result = true

/-- The request can be built: the headers of a webhook are an object, the message type of a
typed payload is no list or object, and the secret of DingTalk can be encoded. -/
def ChannelAdapter.Buildable (std : Stdlib) (adapter : ChannelAdapter) (metadata : Fields) :
    Prop :=
  match adapter with
  | webhook => ∃ headers, metadataOr metadata "headers" (.obj []) = .obj headers
  | dingtalk =>
    hashable (metadataOr metadata "msg_type" (.str (py "text"))) = true ∧
      Encodable (dingtalkSecret std metadata)
  | wechatWork => hashable (metadataOr metadata "msg_type" (.str (py "text"))) = true
  | feishu | slack | discord => True

/-- The exception of the exchange is one that the adapter reports. -/
def ChannelAdapter.Reported (adapter : ChannelAdapter) (outcome : HttpOutcome) : Prop :=
  adapter = webhook → ∀ raised text, outcome ≠ .raised (.other raised) text

end RootSeeker.ChannelRouting
