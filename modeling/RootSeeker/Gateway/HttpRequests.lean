import RootSeeker.Core.Loops
import RootSeeker.Gateway.Server

/-!
# Requests over HTTP

A request arrives as a JSON object and is answered by a response frame.  The
frame names the request it answers and carries what the method returned, or what
went wrong.  Both the frame and its JSON form can fail to be built, and then the
request is not answered.
-/

namespace RootSeeker.Gateway

open Python Contracts

/-! ## Frames -/

inductive GatewayFrameType where
  | request
  | response
  | event
  | connected
  | ping
  | pong
  | subscribe
  | subscribed
  | unsubscribe
  | unsubscribed
  deriving DecidableEq

def GatewayFrameType.value : GatewayFrameType → PyStr
  | request => py "request"
  | response => py "response"
  | event => py "event"
  | connected => py "connected"
  | ping => py "ping"
  | pong => py "pong"
  | subscribe => py "subscribe"
  | subscribed => py "subscribed"
  | unsubscribe => py "unsubscribe"
  | unsubscribed => py "unsubscribed"

def GatewayFrameType.all : List GatewayFrameType :=
  [request, response, event, connected, ping, pong, subscribe, subscribed, unsubscribe,
    unsubscribed]

/-- The request frame of the HTTP entry, with all its fields. -/
structure HttpRequestFrame where
  frameType : GatewayFrameType
  requestId : PyStr
  method : RequiredStr
  params : Fields
  clientId : Option PyStr
  protocolVersion : PyStr

def requestFields : List PyStr :=
  [py "frame_type", py "request_id", py "method", py "params", py "client_id",
    py "protocol_version"]

/-- A field with a default, which is not validated. -/
def fieldOr {α : Type} (payload : Fields) (key : PyStr) (default : α)
    (check : Json → Except PyError α) : Except PyError α :=
  match payload.get? key with
  | none => .ok default
  | some value => check value

def frameTypeField : Json → Except PyError GatewayFrameType
  | .str text =>
    match GatewayFrameType.all.find? (·.value = text) with
    | some frameType => .ok frameType
    | none => .error .validationError
  | _ => .error .validationError

def textField : Json → Except PyError PyStr
  | .str text => validateText text
  | _ => .error .validationError

def optionalTextField : Json → Except PyError (Option PyStr)
  | .null => .ok none
  | value => (textField value).map some

def requiredTextField : Json → Except PyError RequiredStr
  | .str text => RequiredStr.validate (trim text)
  | _ => .error .validationError

def mappingField : Json → Except PyError Fields
  | .obj fields => (Mapping.validate (trimKeys fields)).map Subtype.val
  | _ => .error .validationError

/-- The identifier that a request without one gets. -/
def defaultRequestId (uuid : PlainText) : PyStr :=
  py "gw-req-" ++ uuid.val

/-- `GatewayRequestFrame.model_validate`. -/
def HttpRequestFrame.validate (uuid : PlainText) (payload : Fields) :
    Except PyError HttpRequestFrame :=
  if ∃ key ∈ payload.keys, key ∉ requestFields then .error .validationError
  else do
    let frameType ← fieldOr payload (py "frame_type") .request frameTypeField
    let requestId ← fieldOr payload (py "request_id") (defaultRequestId uuid) textField
    let method ← requiredTextField ((payload.get? (py "method")).getD .null)
    let params ← fieldOr payload (py "params") [] mappingField
    let clientId ← fieldOr payload (py "client_id") none optionalTextField
    let protocolVersion ← fieldOr payload (py "protocol_version") (py "1.0") textField
    pure { frameType, requestId, method, params, clientId, protocolVersion }

/-- The values of a field of type `dict[str, Any]`: each by its JSON form, if it has one. -/
abbrev Values := Dict PyStr (Option Json)

/-- The values under their stripped keys. -/
def Values.trimmed (values : Values) : Values :=
  Dict.update [] (values.map fun entry => (trim entry.1, entry.2))

def Values.validate (values : Values) : Except PyError Values :=
  if ∀ key ∈ values.keys, Encodable key then .ok values.trimmed
  else .error .validationError

def Values.dump (values : Values) : Except PyError Fields :=
  values.mapM fun entry =>
    match entry.2 with
    | some value => .ok (entry.1, value)
    | none => .error (.valueError (py "Unable to serialize"))

def dumpOptional : Option Values → Except PyError Json
  | none => .ok .null
  | some values => values.dump.map .obj

structure HttpResponseFrame where
  requestId : RequiredStr
  ok : Bool
  result : Values
  error : Option Values

/-- `model_dump(mode="json")`. -/
def HttpResponseFrame.dump (frame : HttpResponseFrame) : Except PyError Fields := do
  let result ← frame.result.dump
  let error ← dumpOptional frame.error
  pure
    [(py "frame_type", .str GatewayFrameType.response.value),
     (py "request_id", .str frame.requestId.val),
     (py "ok", .bool frame.ok),
     (py "result", .obj result),
     (py "error", error),
     (py "protocol_version", .str (py "1.0"))]

/-! ## The server -/

/-- What the security check or a handler can raise. -/
inductive Raised where
  /-- A `GatewayError`, with the JSON forms of its code and its message, if they have any. -/
  | gatewayError (code message : Option Json)
  /-- Another `Exception`, with what `str` makes of it. -/
  | exception (text : Except PyError PyStr)
  /-- What `except Exception` does not catch. -/
  | baseException (raised : PyError)

/-- What a handler returns, as a field of type `dict[str, Any]` reads it: a mapping from texts,
or something else. -/
inductive HandlerReturn where
  | mapping (values : Values)
  | other

/-- The behaviour of a registered handler. -/
abbrev Handler := Fields → Except Raised HandlerReturn

structure AuthProvider where
  authenticate : PyStr → Except Raised (Option AuthCredentials)
  validate : AuthCredentials → Except Raised Bool

/-- The server at the time of a request, with the texts of the validation errors. -/
structure HttpServer where
  rateLimiter : Option (PyStr → Option PyStr)
  authProvider : Option AuthProvider
  authorizer : Authorizer
  methods : Dict PyStr Handler
  requestErrorText : Fields → PyStr
  responseErrorText : HandlerReturn → PyStr

def gatewayError (code : String) (message : PyStr) : Raised :=
  .gatewayError (some (.str (py code))) (some (.str message))

def errorValues (code message : Option Json) : Values :=
  [(py "code", code), (py "message", message)]

/-- `_error_response`. -/
def errorResponse (requestId : Json) (code message : Option Json) :
    Except PyError HttpResponseFrame := do
  let requestId ← requiredTextField requestId
  pure { requestId, ok := false, result := [], error := some (errorValues code message) }

/-- The two `except` clauses of `handle_request`. -/
def answerRaised (requestId : PyStr) : Raised → Except PyError HttpResponseFrame
  | .gatewayError code message => errorResponse (.str requestId) code message
  | .exception text => do
    let message ← text
    errorResponse (.str requestId) (some (.str (py "gateway_error"))) (some (.str message))
  | .baseException raised => .error raised

/-- The response frame of a handler that returned. -/
def resultFrame (requestId : PyStr) : HandlerReturn → Except PyError HttpResponseFrame
  | .other => .error .validationError
  | .mapping values => do
    let requestId ← RequiredStr.validate (trim requestId)
    let result ← values.validate
    pure { requestId, ok := true, result, error := none }

section Server

variable (std : Stdlib) (server : HttpServer)

/-- `frame.client_id or "anonymous"`. -/
def HttpRequestFrame.client (frame : HttpRequestFrame) : PyStr :=
  match frame.clientId with
  | none => py "anonymous"
  | some clientId => if clientId = [] then py "anonymous" else clientId

/-- `_check_security`. -/
def HttpServer.checkSecurity (frame : HttpRequestFrame) : Except Raised Unit := do
  match server.rateLimiter.bind (· frame.client) with
  | some seconds =>
    throw (gatewayError "rate_limited"
      (py "rate limit exceeded; retry after " ++ seconds ++ py "s"))
  | none =>
    match server.authProvider with
    | none => pure ()
    | some provider =>
      match ← provider.authenticate (tokenOf std frame.params) with
      | none => throw (gatewayError "unauthorized" (py "authentication failed"))
      | some credentials =>
        if !(← provider.validate credentials) then
          throw (gatewayError "unauthorized" (py "authentication failed"))
        else if !server.authorizer.authorize credentials frame.method.val then
          throw (gatewayError "forbidden" (py "permission denied"))
        else pure ()

/-- What follows the handler. -/
def HttpServer.answer (requestId : PyStr) :
    Except Raised HandlerReturn → Except PyError HttpResponseFrame
  | .error raised => answerRaised requestId raised
  | .ok returned =>
    match resultFrame requestId returned with
    | .ok response => .ok response
    | .error _ => answerRaised requestId (.exception (.ok (server.responseErrorText returned)))

/-- The answer to a request that passed the check, and whether the handler was run. -/
def HttpServer.invoke (frame : HttpRequestFrame) : Except PyError HttpResponseFrame × Bool :=
  match server.methods.get? frame.method.val with
  | none =>
    (answerRaised frame.requestId (gatewayError "method_not_found"
      (py "gateway method not found: " ++ frame.method.val)), false)
  | some handler => (server.answer frame.requestId (handler frame.params), true)

/-- `handle_request`, and whether the handler was run. -/
def HttpServer.handleRequest (frame : HttpRequestFrame) :
    Except PyError HttpResponseFrame × Bool :=
  match server.checkSecurity std frame with
  | .error raised => (answerRaised frame.requestId raised, false)
  | .ok () => server.invoke frame

/-- `handle_http_request`, and whether the handler was run. -/
def HttpServer.handleHttpRequest (uuid : PlainText) (payload : Fields) :
    Except PyError Fields × Bool :=
  match HttpRequestFrame.validate uuid payload with
  | .error _ =>
    (errorResponse ((payload.get? (py "request_id")).getD (.str (py "unknown")))
      (some (.str (py "validation_error"))) (some (.str (server.requestErrorText payload))) >>=
      HttpResponseFrame.dump, false)
  | .ok frame =>
    let handled := server.handleRequest std frame
    (handled.1 >>= HttpResponseFrame.dump, handled.2)

end Server

/-! ## When a request is answered -/

/-- A text that names a response. -/
def NamesResponse (text : PyStr) : Prop :=
  trim text ≠ [] ∧ Encodable text

/-- Without an identifier the request gets one. -/
def ProperId (payload : Fields) : Prop :=
  ∀ value, payload.get? (py "request_id") = some value →
    ∃ text, value = .str text ∧ NamesResponse text

def Values.Serializable (values : Values) : Prop :=
  ∀ entry ∈ values, entry.2.isSome = true

def Raised.Presentable : Raised → Prop
  | .gatewayError code message => code.isSome = true ∧ message.isSome = true
  | .exception text => ∃ message, text = .ok message
  | .baseException _ => False

/-- What is returned in place of a mapping is an error, which can be presented. -/
def HandlerReturn.Presentable : HandlerReturn → Prop
  | .other => True
  | .mapping values => (∀ key ∈ values.keys, Encodable key) → values.trimmed.Serializable

def OutcomePresentable : Except Raised HandlerReturn → Prop
  | .error raised => raised.Presentable
  | .ok returned => returned.Presentable

section Answers

variable (std : Stdlib) (server : HttpServer)

/-- What the check raises, or else what the handler returns or raises, has a JSON form. -/
def HttpServer.Presents (frame : HttpRequestFrame) : Prop :=
  match server.checkSecurity std frame with
  | .error raised => raised.Presentable
  | .ok () => ∀ handler, server.methods.get? frame.method.val = some handler →
      OutcomePresentable (handler frame.params)

/-- A response frame under the identifier of the request. -/
def Answered (payload : Fields) (answer : Except PyError Fields) : Prop :=
  ∃ frame response, HttpResponseFrame.dump frame = .ok response ∧ answer = .ok response ∧
    ∀ text, payload.get? (py "request_id") = some (.str text) → frame.requestId.val = trim text

/-- The handler of a request that the check rejects is not run. -/
def RejectedUnrun (uuid : PlainText) (payload : Fields) : Prop :=
  ∀ frame raised, HttpRequestFrame.validate uuid payload = .ok frame →
    server.checkSecurity std frame = .error raised →
      (server.handleHttpRequest std uuid payload).2 = false

end Answers

section Proofs

variable {std : Stdlib} {server : HttpServer}

/-- The frame is built and has a JSON form. -/
def Sent (answer : Except PyError HttpResponseFrame) : Prop :=
  ∃ response, (answer >>= HttpResponseFrame.dump) = .ok response

theorem not_sent_error (raised : PyError) : ¬Sent (.error raised) := by
  rintro ⟨response, hsent⟩
  exact absurd hsent (by simp [bind, Except.bind])

theorem exists_dumpValues_iff (values : Values) :
    (∃ fields, values.dump = .ok fields) ↔ values.Serializable := by
  rw [Values.dump, Loops.exists_mapM_ok_iff]
  apply forall₂_congr
  intro entry _
  cases entry.2 with
  | none => simp
  | some value => simp

theorem serializable_errorValues (code message : Option Json) :
    (errorValues code message).Serializable ↔ code.isSome = true ∧ message.isSome = true := by
  simp [Values.Serializable, errorValues]

theorem exists_of_serializable {values : Values} (hvalues : values.Serializable) :
    ∃ fields, values.dump = .ok fields :=
  (exists_dumpValues_iff values).mpr hvalues

theorem sent_ok_iff (frame : HttpResponseFrame) :
    Sent (.ok frame) ↔
      frame.result.Serializable ∧ ∀ error ∈ frame.error, Values.Serializable error := by
  constructor
  · rintro ⟨response, hsent⟩
    change frame.dump = .ok response at hsent
    obtain ⟨result, hresult, hrest⟩ := Loops.exists_of_bind_eq_ok hsent
    obtain ⟨error, herror, _⟩ := Loops.exists_of_bind_eq_ok hrest
    refine ⟨(exists_dumpValues_iff _).mp ⟨result, hresult⟩, ?_⟩
    intro values hvalues
    rw [Option.mem_def.mp hvalues] at herror
    obtain ⟨fields, hfields, _⟩ := Loops.exists_of_map_eq_ok herror
    exact (exists_dumpValues_iff _).mp ⟨fields, hfields⟩
  · rintro ⟨hresult, herror⟩
    obtain ⟨result, hresult⟩ := exists_of_serializable hresult
    change ∃ response, frame.dump = .ok response
    rw [HttpResponseFrame.dump, hresult]
    cases hframe : frame.error with
    | none => exact ⟨_, rfl⟩
    | some values =>
      obtain ⟨fields, hfields⟩ := exists_of_serializable (herror values hframe)
      have hdumped : dumpOptional (some values) = .ok (.obj fields) := by
        rw [dumpOptional, hfields]
        rfl
      rw [hdumped]
      exact ⟨_, rfl⟩

/-! ### The error responses -/

variable {value : Json} {code message : Option Json} {text : PyStr}
  {frame : HttpResponseFrame}

theorem requiredTextField_of_names (hnames : NamesResponse text) :
    ∃ field : RequiredStr, requiredTextField (.str text) = .ok field ∧ field.val = trim text :=
  ⟨_, RequiredStr.validate_of_valid (hnames.imp_right encodable_trim_iff.mpr), rfl⟩

theorem requiredTextField_eq_ok {field : RequiredStr} (hfield : requiredTextField value = .ok field) :
    ∃ text, value = .str text ∧ NamesResponse text ∧ field.val = trim text := by
  cases value with
  | str text =>
    obtain ⟨hval, hnames⟩ := trimmedField_eq_ok hfield
    exact ⟨text, rfl, hnames, hval⟩
  | null => exact absurd hfield (by simp [requiredTextField])
  | bool value => exact absurd hfield (by simp [requiredTextField])
  | int value => exact absurd hfield (by simp [requiredTextField])
  | float value => exact absurd hfield (by simp [requiredTextField])
  | arr items => exact absurd hfield (by simp [requiredTextField])
  | obj fields => exact absurd hfield (by simp [requiredTextField])

theorem names_of_errorResponse (hframe : errorResponse value code message = .ok frame) :
    ∃ text, value = .str text ∧ NamesResponse text ∧ frame.requestId.val = trim text := by
  obtain ⟨field, hfield, hrest⟩ := Loops.exists_of_bind_eq_ok hframe
  obtain rfl := Except.ok.inj hrest
  exact requiredTextField_eq_ok hfield

theorem sent_errorResponse_iff :
    Sent (errorResponse value code message) ↔
      (∃ text, value = .str text ∧ NamesResponse text) ∧
        code.isSome = true ∧ message.isSome = true := by
  constructor
  · intro hsent
    cases hframe : errorResponse value code message with
    | error raised =>
      rw [hframe] at hsent
      exact absurd hsent (not_sent_error raised)
    | ok frame =>
      obtain ⟨text, hvalue, hnames, _⟩ := names_of_errorResponse hframe
      refine ⟨⟨text, hvalue, hnames⟩, ?_⟩
      rw [hframe, sent_ok_iff] at hsent
      obtain ⟨field, _, hrest⟩ := Loops.exists_of_bind_eq_ok hframe
      obtain rfl := Except.ok.inj hrest
      exact (serializable_errorValues code message).mp (hsent.2 _ rfl)
  · rintro ⟨⟨text, rfl, hnames⟩, hpresent⟩
    obtain ⟨field, hfield, _⟩ := requiredTextField_of_names hnames
    rw [errorResponse, hfield]
    apply (sent_ok_iff _).mpr
    refine ⟨fun entry hentry => absurd hentry List.not_mem_nil, ?_⟩
    intro error herror
    rw [← Option.some.inj herror]
    exact (serializable_errorValues code message).mpr hpresent

theorem sent_errorText_iff :
    Sent (errorResponse (.str text) code message) ↔
      NamesResponse text ∧ code.isSome = true ∧ message.isSome = true := by
  rw [sent_errorResponse_iff]
  apply and_congr_left'
  constructor
  · rintro ⟨other, hother, hnames⟩
    rw [Json.str.inj hother]
    exact hnames
  · exact fun hnames => ⟨text, rfl, hnames⟩

theorem sent_answerRaised_iff (raised : Raised) :
    Sent (answerRaised text raised) ↔ NamesResponse text ∧ raised.Presentable := by
  cases raised with
  | gatewayError code message => exact sent_errorText_iff
  | exception shown =>
    cases shown with
    | error other =>
      exact iff_of_false (not_sent_error other)
        (fun hboth => absurd hboth.2 (by simp [Raised.Presentable]))
    | ok message =>
      change Sent (errorResponse (.str text) _ _) ↔ _
      rw [sent_errorText_iff]
      simp [Raised.Presentable]
  | baseException other => exact iff_of_false (not_sent_error other) (fun hboth => hboth.2)

theorem requestId_of_answerRaised {raised : Raised}
    (hframe : answerRaised text raised = .ok frame) : frame.requestId.val = trim text := by
  have herror : ∀ {code message}, errorResponse (.str text) code message = .ok frame →
      frame.requestId.val = trim text := by
    intro code message hresponse
    obtain ⟨other, hother, _, hid⟩ := names_of_errorResponse hresponse
    rw [Json.str.inj hother]
    exact hid
  cases raised with
  | gatewayError code message => exact herror hframe
  | exception shown =>
    obtain ⟨message, _, hrest⟩ := Loops.exists_of_bind_eq_ok hframe
    exact herror hrest
  | baseException other => exact absurd hframe (by simp [answerRaised])

/-! ### The answers of the server -/

theorem resultFrame_mapping {values : Values} (hnames : NamesResponse text) :
    ∃ requestId : RequiredStr, requestId.val = trim text ∧
      resultFrame text (.mapping values) =
        values.validate.map fun result => { requestId, ok := true, result, error := none } := by
  obtain ⟨requestId, hfield, hid⟩ := requiredTextField_of_names hnames
  refine ⟨requestId, hid, ?_⟩
  change RequiredStr.validate (trim text) = _ at hfield
  rw [resultFrame, hfield]
  cases values.validate with
  | error raised => rfl
  | ok result => rfl

theorem names_of_resultFrame {returned : HandlerReturn}
    (hframe : resultFrame text returned = .ok frame) :
    NamesResponse text ∧ frame.requestId.val = trim text := by
  cases returned with
  | other => exact absurd hframe (by simp [resultFrame])
  | mapping values =>
    obtain ⟨requestId, hfield, hrest⟩ := Loops.exists_of_bind_eq_ok hframe
    obtain ⟨result, _, hrest⟩ := Loops.exists_of_bind_eq_ok hrest
    obtain rfl := Except.ok.inj hrest
    obtain ⟨hval, hnames⟩ := trimmedField_eq_ok hfield
    exact ⟨hnames, hval⟩

theorem sent_answer_iff (outcome : Except Raised HandlerReturn) :
    Sent (server.answer text outcome) ↔ NamesResponse text ∧ OutcomePresentable outcome := by
  cases outcome with
  | error raised => exact sent_answerRaised_iff raised
  | ok returned =>
    by_cases hnames : NamesResponse text
    · rw [and_iff_right hnames, HttpServer.answer]
      have hshown : ∀ message, Sent (answerRaised text (.exception (.ok message))) :=
        fun message => (sent_answerRaised_iff _).mpr ⟨hnames, message, rfl⟩
      cases returned with
      | other => exact iff_of_true (hshown _) trivial
      | mapping values =>
        obtain ⟨requestId, _, hresult⟩ := @resultFrame_mapping text values hnames
        rw [hresult, Values.validate]
        by_cases hkeys : ∀ key ∈ values.keys, Encodable key
        · rw [if_pos hkeys]
          have hmapping : (HandlerReturn.mapping values).Presentable ↔
              values.trimmed.Serializable := imp_iff_right hkeys
          change Sent (.ok _) ↔ (HandlerReturn.mapping values).Presentable
          rw [sent_ok_iff, hmapping]
          simp
        · rw [if_neg hkeys]
          exact iff_of_true (hshown _) (fun hall => absurd hall hkeys)
    · refine iff_of_false ?_ (fun hboth => hnames hboth.1)
      rw [HttpServer.answer]
      cases hresult : resultFrame text returned with
      | error raised => exact fun hsent => hnames ((sent_answerRaised_iff _).mp hsent).1
      | ok frame => exact absurd (names_of_resultFrame hresult).1 hnames

theorem requestId_of_answer {outcome : Except Raised HandlerReturn}
    (hframe : server.answer text outcome = .ok frame) : frame.requestId.val = trim text := by
  cases outcome with
  | error raised => exact requestId_of_answerRaised hframe
  | ok returned =>
    rw [HttpServer.answer] at hframe
    cases hresult : resultFrame text returned with
    | error raised =>
      rw [hresult] at hframe
      exact requestId_of_answerRaised hframe
    | ok response =>
      rw [hresult] at hframe
      rw [← Except.ok.inj hframe]
      exact (names_of_resultFrame hresult).2

theorem sent_invoke_iff (frame : HttpRequestFrame) :
    Sent (server.invoke frame).1 ↔ NamesResponse frame.requestId ∧
      ∀ handler, server.methods.get? frame.method.val = some handler →
        OutcomePresentable (handler frame.params) := by
  cases hmethod : server.methods.get? frame.method.val with
  | none =>
    rw [HttpServer.invoke, hmethod]
    dsimp only
    rw [sent_answerRaised_iff]
    simp [Raised.Presentable, gatewayError]
  | some handler =>
    rw [HttpServer.invoke, hmethod]
    dsimp only
    rw [sent_answer_iff]
    simp

theorem sent_handleRequest_iff (frame : HttpRequestFrame) :
    Sent (server.handleRequest std frame).1 ↔
      NamesResponse frame.requestId ∧ server.Presents std frame := by
  rw [HttpServer.handleRequest, HttpServer.Presents]
  cases server.checkSecurity std frame with
  | error raised => exact sent_answerRaised_iff raised
  | ok _ => exact sent_invoke_iff frame

theorem requestId_of_handleRequest {frame : HttpRequestFrame} {response : HttpResponseFrame}
    (hresponse : (server.handleRequest std frame).1 = .ok response) :
    response.requestId.val = trim frame.requestId := by
  rw [HttpServer.handleRequest] at hresponse
  cases hcheck : server.checkSecurity std frame with
  | error raised =>
    rw [hcheck] at hresponse
    exact requestId_of_answerRaised hresponse
  | ok _ =>
    rw [hcheck] at hresponse
    dsimp only at hresponse
    cases hmethod : server.methods.get? frame.method.val with
    | none =>
      rw [HttpServer.invoke, hmethod] at hresponse
      dsimp only at hresponse
      exact requestId_of_answerRaised hresponse
    | some handler =>
      rw [HttpServer.invoke, hmethod] at hresponse
      dsimp only at hresponse
      exact requestId_of_answer hresponse

/-! ### The identifier of the request -/

theorem names_unknown : NamesResponse (py "unknown") :=
  ⟨by decide, encodable_py _⟩

theorem names_defaultRequestId (uuid : PlainText) : NamesResponse (defaultRequestId uuid) := by
  constructor
  · apply List.ne_nil_of_mem
    exact mem_stripBy_of_mem
      (List.mem_append_left _ (show CodePoint.ofChar 'g' ∈ py "gw-req-" by decide)) (by decide)
  · exact encodable_append.mpr ⟨encodable_py _, uuid.encodable⟩

theorem requestId_of_validate {uuid : PlainText} {payload : Fields} {frame : HttpRequestFrame}
    (hframe : HttpRequestFrame.validate uuid payload = .ok frame) :
    fieldOr payload (py "request_id") (defaultRequestId uuid) textField = .ok frame.requestId := by
  rw [HttpRequestFrame.validate] at hframe
  split at hframe
  · exact absurd hframe (by simp)
  · obtain ⟨frameType, _, hrest⟩ := Loops.exists_of_bind_eq_ok hframe
    obtain ⟨requestId, hrequestId, hrest⟩ := Loops.exists_of_bind_eq_ok hrest
    obtain ⟨method, _, hrest⟩ := Loops.exists_of_bind_eq_ok hrest
    obtain ⟨params, _, hrest⟩ := Loops.exists_of_bind_eq_ok hrest
    obtain ⟨clientId, _, hrest⟩ := Loops.exists_of_bind_eq_ok hrest
    obtain ⟨protocolVersion, _, hrest⟩ := Loops.exists_of_bind_eq_ok hrest
    obtain rfl := Except.ok.inj hrest
    exact hrequestId

theorem textField_eq_ok (htext : textField value = .ok text) :
    ∃ given, value = .str given ∧ text = trim given ∧ Encodable given := by
  cases value with
  | str given => exact ⟨given, rfl, validateText_eq_ok htext⟩
  | null => exact absurd htext (by simp [textField])
  | bool value => exact absurd htext (by simp [textField])
  | int value => exact absurd htext (by simp [textField])
  | float value => exact absurd htext (by simp [textField])
  | arr items => exact absurd htext (by simp [textField])
  | obj fields => exact absurd htext (by simp [textField])

/-- The identifier of a valid request names a response if the payload gives a proper one. -/
theorem names_requestId_iff {uuid : PlainText} {payload : Fields} {frame : HttpRequestFrame}
    (hframe : HttpRequestFrame.validate uuid payload = .ok frame) :
    NamesResponse frame.requestId ↔ ProperId payload := by
  have hid := requestId_of_validate hframe
  rw [fieldOr] at hid
  cases hvalue : payload.get? (py "request_id") with
  | none =>
    rw [hvalue] at hid
    rw [← Except.ok.inj hid]
    refine iff_of_true (names_defaultRequestId uuid) ?_
    intro value hother
    exact absurd (hvalue.symm.trans hother) (by simp)
  | some value =>
    rw [hvalue] at hid
    obtain ⟨given, rfl, htrimmed, hencodable⟩ := textField_eq_ok hid
    rw [htrimmed, NamesResponse, trim_trim, encodable_trim_iff]
    constructor
    · intro hnames other hother
      rw [hvalue] at hother
      exact ⟨given, (Option.some.inj hother).symm, hnames⟩
    · intro hproper
      obtain ⟨other, hother, hnames⟩ := hproper _ hvalue
      rw [Json.str.inj hother]
      exact hnames

/-- So does what an invalid request names. -/
theorem names_given_iff (payload : Fields) :
    (∃ text, (payload.get? (py "request_id")).getD (.str (py "unknown")) = .str text ∧
      NamesResponse text) ↔ ProperId payload := by
  rw [ProperId]
  cases payload.get? (py "request_id") with
  | none => exact iff_of_true ⟨_, rfl, names_unknown⟩ (by simp)
  | some value =>
    constructor
    · rintro hgiven other hother
      rw [← Option.some.inj hother]
      exact hgiven
    · exact fun hproper => hproper value rfl

end Proofs

/-! ## Requests with a blank identifier -/

/-- A server that asks for nothing and knows one method. -/
def openServer : HttpServer where
  rateLimiter := none
  authProvider := none
  authorizer := .default
  methods := [(py "system.ping", fun _ => .ok (.mapping [(py "pong", some (.bool true))]))]
  requestErrorText _ := []
  responseErrorText _ := []

def sampleUuid : PlainText :=
  ⟨py "5b0c", by decide⟩

def blankRequest : Fields :=
  [(py "request_id", .str []), (py "method", .str (py "system.ping"))]

/-- A request is answered by a response frame under its identifier, its handler not run if the
check rejects it, exactly if the payload gives no identifier or one that names a response, and
what a valid request leads to has a JSON form. -/
theorem request_answered_iff (std : Stdlib) (server : HttpServer) (uuid : PlainText)
    (payload : Fields) :
    (Answered payload (server.handleHttpRequest std uuid payload).1 ∧
        RejectedUnrun std server uuid payload) ↔
      ProperId payload ∧ ∀ frame, HttpRequestFrame.validate uuid payload = .ok frame →
        server.Presents std frame := by
  have hunrun : RejectedUnrun std server uuid payload := by
    intro frame raised hframe hcheck
    rw [HttpServer.handleHttpRequest, hframe]
    dsimp only
    rw [HttpServer.handleRequest, hcheck]
  have hanswered : ∀ (answer : Except PyError HttpResponseFrame),
      (∀ frame, answer = .ok frame → ∀ text,
        payload.get? (py "request_id") = some (.str text) → frame.requestId.val = trim text) →
      (Answered payload (answer >>= HttpResponseFrame.dump) ↔ Sent answer) := by
    intro answer hid
    constructor
    · rintro ⟨frame, response, _, hresponse, _⟩
      exact ⟨response, hresponse⟩
    · rintro ⟨response, hresponse⟩
      obtain ⟨frame, hframe, hdumped⟩ := Loops.exists_of_bind_eq_ok hresponse
      exact ⟨frame, response, hdumped, hresponse, hid frame hframe⟩
  rw [and_iff_left hunrun, HttpServer.handleHttpRequest]
  cases hvalid : HttpRequestFrame.validate uuid payload with
  | error raised =>
    dsimp only
    rw [hanswered, sent_errorResponse_iff, names_given_iff]
    · simp
    · intro frame hframe text htext
      obtain ⟨given, hgiven, _, hid⟩ := names_of_errorResponse hframe
      rw [htext] at hgiven
      rw [hid, Json.str.inj hgiven]
  | ok frame =>
    dsimp only
    rw [hanswered, sent_handleRequest_iff, names_requestId_iff hvalid]
    · simp
    · intro response hresponse text htext
      rw [requestId_of_handleRequest hresponse]
      have hid := requestId_of_validate hvalid
      rw [fieldOr, htext] at hid
      rw [(validateText_eq_ok hid).1, trim_trim]

/-- A blank identifier is valid in a request but not in a response: the handler is run, and no
frame comes back. -/
theorem blank_request_is_not_answered :
    (openServer.handleHttpRequest asciiStdlib sampleUuid blankRequest).2 = true ∧
      ¬Answered blankRequest
        (openServer.handleHttpRequest asciiStdlib sampleUuid blankRequest).1 := by
  refine ⟨rfl, ?_⟩
  rintro ⟨frame, response, _, hresponse, _⟩
  have hraised : (openServer.handleHttpRequest asciiStdlib sampleUuid blankRequest).1 =
      .error .validationError := rfl
  rw [hraised] at hresponse
  exact absurd hresponse (by simp)

end RootSeeker.Gateway
