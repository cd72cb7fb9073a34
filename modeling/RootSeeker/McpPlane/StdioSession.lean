import RootSeeker.Core.Streams
import RootSeeker.Python.Repr

/-!
# Sessions with an MCP server on stdio

A session writes one request at a time to the standard input of its server
process and reads messages from the standard output until one has the id of the
request.  The server frames its messages by lines or by a length header, as it
likes.  The requests made are kept as a history, each with the output that was
unread when it was written.
-/

namespace RootSeeker.McpPlane

open Python Streams

/-- What a server process writes to its standard output, with the pauses that outlast the
timeout of a read. -/
abbrev Output := Streams.Stream UInt8

def newline : UInt8 := 10

/-- The conversions of the standard library; nothing stands for their exceptions. -/
structure Codec where
  /-- `bytes.decode("utf-8", errors="replace")`. -/
  replacing : List UInt8 → PyStr
  /-- `bytes.decode("utf-8")`. -/
  strict : List UInt8 → Option PyStr
  /-- `int(text)`. -/
  int : PyStr → Option ℤ

/-- What a session raises. -/
inductive SessionError where
  /-- A `McpStdioSessionError` with a text of the session. -/
  | mcp (text : PyStr)
  /-- A `McpStdioSessionError` with the message of an error response. -/
  | response (text : PyStr)
  | jsonDecodeError
  | unicodeDecodeError
  | valueError
  | brokenPipe

/-- How reading a message ends. -/
inductive Read where
  | message (fields : Fields)
  | raised (error : SessionError)
  | timedOut

section Reading

variable (std : Stdlib) (codec : Codec) (stderrTail : PyStr)

def processEnded : SessionError :=
  .mcp (py "MCP process ended: " ++
    if strip stderrTail = [] then py "stdout closed" else strip stderrTail)

/-- `json.loads`, and the check that it gives an object. -/
def loadMessage (text : PyStr) : Read :=
  match std.jsonLoads text with
  | none => .raised .jsonDecodeError
  | some (.obj fields) => .message fields
  | some _ => .raised (.mcp (py "invalid MCP JSON response"))

/-- The headers with the one of this line. -/
def addHeader (headers : Dict PyStr PyStr) (line : PyStr) : Dict PyStr PyStr :=
  let header := splitHeader line
  headers.set (lower std (strip header.1)) (strip header.2)

/-- One turn of the loop over the header lines. -/
def headerTurn (state : Dict PyStr PyStr × Output) :
    (Dict PyStr PyStr × Output) ⊕ (Except Read (Dict PyStr PyStr) × Output) :=
  match readline newline state.2 with
  | none => .inr (.error .timedOut, state.2)
  | some (line, rest) =>
    if line = [] then .inr (.error (.raised (processEnded stderrTail)), rest)
    else
      let stripped := strip (codec.replacing line)
      if stripped = [] then .inr (.ok state.1, rest)
      else if colonChar ∈ stripped then .inl (addHeader std state.1 stripped, rest)
      else .inl (state.1, rest)

def readHeaders (headers : Dict PyStr PyStr) (output : Output) :
    Except Read (Dict PyStr PyStr) × Output :=
  loop (fun state => state.2.length) (headerTurn std codec stderrTail)
    (fun state => (.error .timedOut, state.2)) (headers, output)

/-- `_read_content_length_message` behind the headers. -/
def readBody (headers : Dict PyStr PyStr) (output : Output) : Read × Output :=
  match codec.int ((headers.get? (py "content-length")).getD (py "0")) with
  | none => (.raised .valueError, output)
  | some length =>
    if length ≤ 0 then (.raised (.mcp (py "missing Content-Length in MCP response")), output)
    else
      match Streams.read length.toNat output with
      | none => (.timedOut, output)
      | some (body, rest) =>
        match codec.strict body with
        | none => (.raised .unicodeDecodeError, rest)
        | some text => (loadMessage std text, rest)

def readContentLengthMessage (firstHeaderLine : PyStr) (output : Output) : Read × Output :=
  match readHeaders std codec stderrTail (addHeader std [] firstHeaderLine) output with
  | (.error ended, rest) => (ended, rest)
  | (.ok headers, rest) => readBody std codec headers rest

/-- One turn of the loop of `_read_message`. -/
def messageTurn (output : Output) : Output ⊕ (Read × Output) :=
  match readline newline output with
  | none => .inr (.timedOut, output)
  | some (line, rest) =>
    if line = [] then .inr (.raised (processEnded stderrTail), rest)
    else
      let stripped := strip (codec.replacing line)
      if stripped = [] then .inl rest
      else if (py "\x7b").isPrefixOf stripped then .inr (loadMessage std stripped, rest)
      else if (py "content-length:").isPrefixOf (lower std stripped) then
        .inr (readContentLengthMessage std codec stderrTail stripped rest)
      else if colonChar ∉ stripped then .inl rest
      else .inr (.raised (.mcp (py "unexpected MCP stdout line: " ++ stripped)), rest)

def readMessage (output : Output) : Read × Output :=
  loop List.length (messageTurn std codec stderrTail) (fun output => (.timedOut, output)) output

/-- `value == number` on a decoded value. -/
def equalsNumber (value : Option Json) (number : ℕ) : Bool :=
  match value with
  | some (.int other) => other = number
  | some (.bool other) => (if other then 1 else 0) = number
  | some (.float (.finite false magnitude)) => magnitude = number
  | some (.float (.finite true magnitude)) => magnitude = 0 && number = 0
  | _ => false

/-- One turn of the loop of `_request_unlocked`: a message with another id is skipped. -/
def answerTurn (msgId : ℕ) (output : Output) : Output ⊕ (Read × Output) :=
  match readMessage std codec stderrTail output with
  | (.message fields, rest) =>
    if equalsNumber (fields.get? (py "id")) msgId then .inr (.message fields, rest)
    else .inl rest
  | ended => .inr ended

def readAnswer (msgId : ℕ) (output : Output) : Read × Output :=
  loop List.length (answerTurn std codec stderrTail msgId) (fun output => (.timedOut, output))
    output

end Reading

/-- What a request returns, or raises, on the message taken as its response. -/
def responseOutcome (std : Stdlib) (fields : Fields) : Except SessionError Fields :=
  match fields.get? (py "error") with
  | some error =>
    let message :=
      match error with
      | .obj details => truthyText std [Dict.get? details (py "message"),
          some (.str (py "MCP request failed"))]
      | other => truthyText std [some (.str (str std other)), some (.str (py "MCP request failed"))]
    .error (.response message)
  | none =>
    match fields.get? (py "result") with
    | some (.obj result) => .ok result
    | _ => .ok []

/-! ## Sessions -/

/-- A message of the client; only a request has an id. -/
structure ClientMessage where
  id : Option ℕ
  method : PyStr
  params : Option Fields

/-- A server process. -/
structure Proc where
  /-- What is still to be read from its standard output. -/
  stdout : Output
  /-- Whether its standard input takes the message with this number. -/
  stdin : ℕ → Bool
  stderrTail : PyStr
  written : List ClientMessage

/-- A request that was made. -/
structure Exchange where
  msgId : ℕ
  unread : Output
  outcome : Except SessionError Fields
  left : Output

structure McpStdioSession where
  command : PyStr
  timeoutSeconds : PyFloat
  proc : Option Proc
  nextId : ℕ
  initialized : Bool
  exchanges : List Exchange

namespace McpStdioSession

variable (std : Stdlib) (codec : Codec) (session : McpStdioSession)

/-- A new session. -/
def create (command : PyStr) (timeoutSeconds : PyFloat) : McpStdioSession where
  command := strip command
  timeoutSeconds := timeoutSeconds
  proc := none
  nextId := 1
  initialized := false
  exchanges := []

def notConnected : SessionError :=
  .mcp (py "MCP process is not connected")

/-- `connect`, with the process that a spawn gives, or the text of its `OSError`. -/
def connect (spawned : Except PyStr Proc) : Except SessionError Unit × McpStdioSession :=
  match session.proc with
  | some _ => (.ok (), session)
  | none =>
    if session.command = [] then
      (.error (.mcp (py "command is required for stdio transport")), session)
    else
      match spawned with
      | .error text => (.error (.mcp (py "failed to spawn MCP process: " ++ text)), session)
      | .ok proc => (.ok (), { session with proc := some proc, initialized := false })

def close : McpStdioSession :=
  { session with proc := none, initialized := false }

def writeMessage (message : ClientMessage) : Except SessionError Unit × McpStdioSession :=
  match session.proc with
  | none => (.error notConnected, session)
  | some proc =>
    if proc.stdin proc.written.length then
      (.ok (), { session with proc := some { proc with written := proc.written ++ [message] } })
    else (.error .brokenPipe, session)

/-- The error of a read that timed out. -/
def timeoutError : SessionError :=
  .mcp (py "MCP response timed out after " ++ std.floatRepr session.timeoutSeconds ++ py "s")

/-- Reading the response to a request that is written. -/
def awaitResponse (msgId : ℕ) : Except SessionError Fields × McpStdioSession :=
  match session.proc with
  | none => (.error notConnected, session)
  | some proc =>
    let answer := readAnswer std codec proc.stderrTail msgId proc.stdout
    let outcome : Except SessionError Fields :=
      match answer.1 with
      | .message fields => responseOutcome std fields
      | .raised error => .error error
      | .timedOut => .error (session.timeoutError std)
    let read : McpStdioSession := { session with
      proc := some { proc with stdout := answer.2 }
      exchanges := session.exchanges ++
        [{ msgId := msgId, unread := proc.stdout, outcome := outcome, left := answer.2 }] }
    match answer.1 with
    | .timedOut => (outcome, read.close)
    | _ => (outcome, read)

def requestUnlocked (method : PyStr) (params : Option Fields) :
    Except SessionError Fields × McpStdioSession :=
  let msgId := session.nextId
  let session := { session with nextId := session.nextId + 1 }
  let sent := session.writeMessage { id := some msgId, method := method, params := params }
  match sent.1 with
  | .error error => (.error error, sent.2)
  | .ok _ => sent.2.awaitResponse std codec msgId

def initializeParams : Fields :=
  [(py "protocolVersion", .str (py "2024-11-05")), (py "capabilities", .obj []),
    (py "clientInfo",
      .obj [(py "name", .str (py "rootseeker")), (py "version", .str (py "0.1.0"))])]

/-- The handshake of a session that is not initialized. -/
def handshake : Except SessionError Unit × McpStdioSession :=
  if session.initialized then (.ok (), session)
  else
    let answered := session.requestUnlocked std codec (py "initialize") (some initializeParams)
    match answered.1 with
    | .error error => (.error error, answered.2)
    | .ok _ =>
      let notified := answered.2.writeMessage
        { id := none, method := py "notifications/initialized", params := none }
      match notified.1 with
      | .error error => (.error error, notified.2)
      | .ok _ => (.ok (), { notified.2 with initialized := true })

/-- `_request`. -/
def request (method : PyStr) (params : Option Fields) (spawned : Except PyStr Proc) :
    Except SessionError Fields × McpStdioSession :=
  let connected := session.connect spawned
  match connected.1 with
  | .error error => (.error error, connected.2)
  | .ok _ =>
    let ready := connected.2.handshake std codec
    match ready.1 with
    | .error error => (.error error, ready.2)
    | .ok _ => ready.2.requestUnlocked std codec method params

/-- The text of a content block, if it is one of text. -/
def blockText (block : Json) : Option PyStr :=
  match block with
  | .obj fields =>
    match Dict.get? fields (py "type") with
    | some (.str kind) =>
      if kind = py "text" then some (truthyText std [Dict.get? fields (py "text")]) else none
    | _ => none
  | _ => none

/-- `normalize_tool_call_result`. -/
def normalizeToolCallResult (result : Fields) (toolName : PyStr) : Fields :=
  let contentBlocks :=
    match result.get? (py "content") with
    | some (.arr items) => items
    | _ => []
  let isError :=
    match result.get? (py "isError") with
    | some value => value.truthy
    | none => false
  [(py "ok", .bool !isError), (py "tool", .str toolName),
    (py "text", .str (join (py "\n") (contentBlocks.filterMap (blockText std)))),
    (py "content", .arr contentBlocks),
    (py "structuredContent", (result.get? (py "structuredContent")).getD .null),
    (py "isError", .bool isError)]

def toolCallParams (name : PyStr) (arguments : Fields) : Fields :=
  [(py "name", .str name), (py "arguments", .obj arguments)]

def callTool (name : PyStr) (arguments : Fields) (spawned : Except PyStr Proc) :
    Except SessionError Fields × McpStdioSession :=
  let answered := session.request std codec (py "tools/call")
    (some (toolCallParams name arguments)) spawned
  (answered.1.map (normalizeToolCallResult std · name), answered.2)

/-- What is asked of a session, with the process that a spawn would give. -/
inductive Call where
  | connect (spawned : Except PyStr Proc)
  | close
  | request (method : PyStr) (params : Option Fields) (spawned : Except PyStr Proc)

def Call.spawned : Call → Except PyStr Proc
  | connect spawned | request _ _ spawned => spawned
  | close => .error []

def perform : Call → McpStdioSession
  | .connect spawned => (session.connect spawned).2
  | .close => session.close
  | .request method params spawned => (session.request std codec method params spawned).2

def performAll (calls : List Call) : McpStdioSession :=
  calls.foldl (perform std codec) session

/-! ## Ids -/

theorem writeMessage_exchanges (session : McpStdioSession) (message : ClientMessage) :
    (session.writeMessage message).2.exchanges = session.exchanges ∧
      (session.writeMessage message).2.nextId = session.nextId := by
  rw [McpStdioSession.writeMessage]
  split
  · exact ⟨rfl, rfl⟩
  · split
    · exact ⟨rfl, rfl⟩
    · exact ⟨rfl, rfl⟩

theorem nextId_awaitResponse (session : McpStdioSession) (msgId : ℕ) :
    (session.awaitResponse std codec msgId).2.nextId = session.nextId := by
  rw [awaitResponse]
  split
  · rfl
  · dsimp only
    split
    · rfl
    · rfl

theorem nextId_requestUnlocked (session : McpStdioSession) (method : PyStr) (params : Option Fields) :
    (session.requestUnlocked std codec method params).2.nextId = session.nextId + 1 := by
  have hsent := (writeMessage_exchanges { session with nextId := session.nextId + 1 }
    { id := some session.nextId, method := method, params := params }).2
  rw [requestUnlocked]
  split
  · exact hsent
  · exact (nextId_awaitResponse std codec _ session.nextId).trans hsent

end McpStdioSession

end RootSeeker.McpPlane
