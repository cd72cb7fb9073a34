import RootSeeker.Core.Transition
import RootSeeker.McpPlane.ServerManager
import RootSeeker.McpPlane.StdioSession
import RootSeeker.Storage.McpServers

/-!
# Recovery from a dead server

The manager keeps one session for each server.  A session whose read times out
drops its process, but one whose process has ended, or writes what cannot be
read, keeps it: the next call to the server goes to the same process, unless a
new environment has closed all sessions in between.
-/

namespace RootSeeker.McpPlane

open Python Streams Transition

/-- The process has ended, or what it writes cannot be read. -/
def SessionError.broken : SessionError → Bool
  | .mcp text =>
    (py "MCP process ended: ").isPrefixOf text || text = py "invalid MCP JSON response" ||
      text = py "missing Content-Length in MCP response" ||
      (py "unexpected MCP stdout line: ").isPrefixOf text
  | .response _ => false
  | .jsonDecodeError | .unicodeDecodeError | .valueError | .brokenPipe => true

inductive InvokeError where
  | runtimeError (text : PyStr)
  | session (error : SessionError)

def InvokeError.broken : InvokeError → Bool
  | .runtimeError _ => false
  | .session error => error.broken

/-- The manager with its sessions; the overlay of a run is empty. -/
structure StdioServerManager where
  extraEnv : Environment
  servers : Dict PyStr Storage.McpServer
  registeredToolNames : Dict PyStr PyStr
  sessions : Dict PyStr McpStdioSession

structure ToolInvocation where
  serverId : PyStr
  toolName : PyStr
  arguments : Fields
  /-- The environment that the provider gives, if there is one and it does not raise. -/
  loaded : Option Environment
  /-- The process that a spawn would give, or the text of its `OSError`. -/
  spawned : Except PyStr Proc

/-- `_build_stdio_session`. -/
def buildStdioSession (server : Storage.McpServer) : McpStdioSession :=
  McpStdioSession.create server.val.config.command
    (if server.val.timeoutSeconds.truthy then server.val.timeoutSeconds else .finite false 120)

namespace StdioServerManager

/-- The manager after a reload: each server has a session with its process. -/
def reloaded (extraEnv : Environment) (servers : Dict PyStr Storage.McpServer)
    (registeredToolNames : Dict PyStr PyStr) (procs : PyStr → Proc) : StdioServerManager where
  extraEnv := extraEnv
  servers := servers
  registeredToolNames := registeredToolNames
  sessions := servers.map fun entry =>
    (entry.1, ((buildStdioSession entry.2).connect (.ok (procs entry.1))).2)

section Invoke

variable (std : Stdlib) (codec : Codec) (manager : StdioServerManager) (call : ToolInvocation)

def closeAllSessions : StdioServerManager :=
  { manager with sessions := [] }

/-- The provider gives another environment than before. -/
def environmentChanges : Bool :=
  call.loaded.any fun loaded => !Dict.sameEntries loaded manager.extraEnv

/-- `_refresh_extra_env_locked`. -/
def refreshExtraEnvLocked : StdioServerManager :=
  match call.loaded with
  | none => manager
  | some loaded =>
    if Dict.sameEntries loaded manager.extraEnv then manager
    else { manager with extraEnv := loaded }.closeAllSessions

/-- The session that a call is made on, connected if it is new. -/
def sessionFor (server : Storage.McpServer) : Except SessionError McpStdioSession :=
  match manager.sessions.get? call.serverId with
  | some session => .ok session
  | none =>
    let connected := (buildStdioSession server).connect call.spawned
    match connected.1 with
    | .error error => .error error
    | .ok _ => .ok connected.2

def mcpToolName : PyStr :=
  (manager.registeredToolNames.get? call.toolName).getD call.toolName

/-- The tool call on a session, which is kept. -/
def callOn (session : McpStdioSession) : Except InvokeError Fields × StdioServerManager :=
  let answered := session.callTool std codec (manager.mcpToolName call) call.arguments call.spawned
  (answered.1.mapError .session,
    { manager with sessions := manager.sessions.set call.serverId answered.2 })

def invoke : Except InvokeError Fields × StdioServerManager :=
  let refreshed := manager.refreshExtraEnvLocked call
  match refreshed.servers.get? call.serverId with
  | none => (.error (.runtimeError (py "MCP server not loaded: " ++ call.serverId)), refreshed)
  | some server =>
    let transport := lower std (strip server.val.transport)
    if transport ≠ py "stdio" then
      (.error (.runtimeError (py "unsupported MCP transport: " ++ transport)), refreshed)
    else
      match refreshed.sessionFor call server with
      | .error error => (.error (.session error), refreshed)
      | .ok session => refreshed.callOn std codec call session

end Invoke

end StdioServerManager

/-! ## Failures of a session -/

namespace McpStdioSession

section Failures

variable {std : Stdlib} {codec : Codec} {session : McpStdioSession} {error : SessionError}

theorem not_broken_connect {spawned : Except PyStr Proc}
    (hconnect : (session.connect spawned).1 = .error error) : error.broken = false := by
  simp only [connect] at hconnect
  split at hconnect
  · exact absurd hconnect (by simp)
  split at hconnect
  · rw [← Except.error.inj hconnect]
    decide
  split at hconnect
  next text =>
    rw [← Except.error.inj hconnect]
    rfl
  · exact absurd hconnect (by simp)

theorem proc_writeMessage_of_broken {message : ClientMessage}
    (hwrite : (session.writeMessage message).1 = .error error) (hbroken : error.broken = true) :
    (session.writeMessage message).2.proc ≠ none := by
  rw [writeMessage] at hwrite ⊢
  cases hproc : session.proc with
  | none =>
    rw [hproc] at hwrite
    rw [← Except.error.inj hwrite] at hbroken
    exact absurd hbroken (by decide)
  | some proc =>
    dsimp only
    split
    · exact Option.some_ne_none _
    · rw [hproc]
      exact Option.some_ne_none _

theorem not_broken_timeoutError (session : McpStdioSession) :
    (session.timeoutError std).broken = false := rfl

theorem proc_awaitResponse_of_broken {msgId : ℕ}
    (hawait : (session.awaitResponse std codec msgId).1 = .error error)
    (hbroken : error.broken = true) : (session.awaitResponse std codec msgId).2.proc ≠ none := by
  rw [awaitResponse] at hawait ⊢
  cases hproc : session.proc with
  | none =>
    rw [hproc] at hawait
    rw [← Except.error.inj hawait] at hbroken
    exact absurd hbroken (by decide)
  | some proc =>
    rw [hproc] at hawait
    dsimp only at hawait ⊢
    cases hanswer : readAnswer std codec proc.stderrTail msgId proc.stdout with
    | mk read left =>
      rw [hanswer] at hawait
      cases read with
      | message fields => exact Option.some_ne_none _
      | raised error => exact Option.some_ne_none _
      | timedOut =>
        rw [← Except.error.inj hawait] at hbroken
        rw [not_broken_timeoutError] at hbroken
        exact absurd hbroken (by simp)

theorem proc_requestUnlocked_of_broken {method : PyStr} {params : Option Fields}
    (hrequest : (session.requestUnlocked std codec method params).1 = .error error)
    (hbroken : error.broken = true) :
    (session.requestUnlocked std codec method params).2.proc ≠ none := by
  rw [requestUnlocked] at hrequest ⊢
  split at hrequest
  next raised hwrite =>
    obtain rfl := Except.error.inj hrequest
    exact proc_writeMessage_of_broken hwrite hbroken
  next hwrite =>
    exact proc_awaitResponse_of_broken hrequest hbroken

theorem proc_handshake_of_broken (hready : (session.handshake std codec).1 = .error error)
    (hbroken : error.broken = true) : (session.handshake std codec).2.proc ≠ none := by
  rw [handshake] at hready ⊢
  split at hready
  · exact absurd hready (by simp)
  next hdone =>
    rw [if_neg hdone]
    dsimp only at hready ⊢
    split at hready
    next raised hrequest =>
      obtain rfl := Except.error.inj hready
      exact proc_requestUnlocked_of_broken hrequest hbroken
    next result hrequest =>
      split at hready
      next raised hwrite =>
        obtain rfl := Except.error.inj hready
        exact proc_writeMessage_of_broken hwrite hbroken
      · exact absurd hready (by simp)

/-- A session that fails because its process has ended, or cannot be read, keeps it. -/
theorem proc_request_of_broken {method : PyStr} {params : Option Fields}
    {spawned : Except PyStr Proc}
    (hrequest : (session.request std codec method params spawned).1 = .error error)
    (hbroken : error.broken = true) :
    (session.request std codec method params spawned).2.proc ≠ none := by
  rw [request] at hrequest ⊢
  split at hrequest
  next raised hconnect =>
    obtain rfl := Except.error.inj hrequest
    rw [not_broken_connect hconnect] at hbroken
    exact absurd hbroken (by simp)
  next hconnect =>
    dsimp only at hrequest ⊢
    split at hrequest
    next raised hready =>
      obtain rfl := Except.error.inj hrequest
      exact proc_handshake_of_broken hready hbroken
    next hready =>
      exact proc_requestUnlocked_of_broken hrequest hbroken

end Failures

end McpStdioSession

/-! ## What a new process gets -/

namespace McpStdioSession

def initializeMessage (msgId : ℕ) : ClientMessage :=
  { id := some msgId, method := py "initialize", params := some initializeParams }

def initializedMessage : ClientMessage :=
  { id := none, method := py "notifications/initialized", params := none }

/-- The handshake and then the request, from this id on. -/
def conversation (msgId : ℕ) (method : PyStr) (params : Option Fields) : List ClientMessage :=
  [initializeMessage msgId, initializedMessage,
    { id := some (msgId + 1), method := method, params := params }]

/-- A process that takes what it is sent and answers the handshake and the request. -/
structure Works (std : Stdlib) (codec : Codec) (proc : Proc) (msgId : ℕ) (result : Fields) :
    Prop where
  takes : ∀ number, proc.stdin number = true
  answers : ∃ ready capabilities between response left,
    readAnswer std codec proc.stderrTail msgId proc.stdout = (.message ready, between) ∧
      responseOutcome std ready = .ok capabilities ∧
      readAnswer std codec proc.stderrTail (msgId + 1) between = (.message response, left) ∧
      responseOutcome std response = .ok result

section Written

variable {std : Stdlib} {codec : Codec} {session : McpStdioSession} {proc : Proc}

theorem connect_of_new (hnone : session.proc = none) (hcommand : session.command ≠ [])
    (proc : Proc) : session.connect (.ok proc) =
      (.ok (), { session with proc := some proc, initialized := false }) := by
  simp only [connect, hnone]
  rw [if_neg hcommand]

theorem writeMessage_of_proc (hproc : session.proc = some proc) (message : ClientMessage) :
    session.writeMessage message =
      if proc.stdin proc.written.length then
        (.ok (),
          { session with proc := some { proc with written := proc.written ++ [message] } })
      else (.error .brokenPipe, session) := by
  rw [writeMessage, hproc]

/-- The process, if it is still there, has been sent a part of the messages; all of them if
the outcome is a success. -/
def Sends (proc : Proc) (messages : List ClientMessage) {α : Type}
    (done : Except SessionError α × McpStdioSession) : Prop :=
  (∀ after, done.2.proc = some after → after.written <+: proc.written ++ messages) ∧
    ∀ result, done.1 = .ok result →
      ∃ after, done.2.proc = some after ∧ after.written = proc.written ++ messages

theorem sends_writeMessage (hproc : session.proc = some proc) (message : ClientMessage) :
    Sends proc [message] (session.writeMessage message) := by
  rw [writeMessage_of_proc hproc]
  split
  · constructor
    · intro after hafter
      rw [← Option.some.inj hafter]
    · exact fun _ _ => ⟨_, rfl, rfl⟩
  · constructor
    · intro after hafter
      rw [Option.some.inj (hproc.symm.trans hafter)]
      exact List.prefix_append _ _
    · exact fun _ hok => absurd hok (by simp)

/-- Reading changes nothing of what was written. -/
theorem sends_awaitResponse (hproc : session.proc = some proc) (msgId : ℕ) :
    Sends proc [] (session.awaitResponse std codec msgId) := by
  rw [awaitResponse, hproc, Sends, List.append_nil]
  dsimp only
  cases hanswer : readAnswer std codec proc.stderrTail msgId proc.stdout with
  | mk read left =>
    cases read with
    | message fields =>
      constructor
      · intro after hafter
        rw [← Option.some.inj hafter]
      · exact fun _ _ => ⟨_, rfl, rfl⟩
    | raised error =>
      constructor
      · intro after hafter
        rw [← Option.some.inj hafter]
      · exact fun _ hok => absurd hok (by simp)
    | timedOut =>
      constructor
      · exact fun _ hafter => absurd hafter (by simp [close])
      · exact fun _ hok => absurd hok (by simp)

/-- One part after the other. -/
theorem Sends.trans {middle : Proc} {first second : List ClientMessage} {α : Type}
    {done : Except SessionError α × McpStdioSession}
    (hmiddle : middle.written = proc.written ++ first) (hdone : Sends middle second done) :
    Sends proc (first ++ second) done := by
  rw [Sends, hmiddle, List.append_assoc] at hdone
  exact hdone

theorem Sends.of_error {messages : List ClientMessage} (more : List ClientMessage) {α β : Type}
    {done : Except SessionError α × McpStdioSession} (hdone : Sends proc messages done)
    (error : SessionError) :
    Sends proc (messages ++ more) ((.error error, done.2) : Except SessionError β × _) := by
  constructor
  · intro after hafter
    rw [← List.append_assoc]
    exact (hdone.1 after hafter).trans (List.prefix_append _ _)
  · exact fun _ hok => absurd hok (by simp)

theorem sends_requestUnlocked (hproc : session.proc = some proc) (method : PyStr)
    (params : Option Fields) :
    Sends proc [{ id := some session.nextId, method := method, params := params }]
      (session.requestUnlocked std codec method params) := by
  have hproc' : ({ session with nextId := session.nextId + 1 } : McpStdioSession).proc =
      some proc := hproc
  have hsent := sends_writeMessage hproc'
    { id := some session.nextId, method := method, params := params }
  rw [requestUnlocked]
  split
  next error hwrite => exact hsent.of_error [] error
  next hwrite =>
    obtain ⟨after, hafter, hwritten⟩ := hsent.2 _ hwrite
    exact Sends.trans hwritten (sends_awaitResponse hafter session.nextId)

theorem sends_handshake (hproc : session.proc = some proc) (hnew : session.initialized = false) :
    Sends proc [initializeMessage session.nextId, initializedMessage]
        (session.handshake std codec) ∧
      ∀ result, (session.handshake std codec).1 = .ok result →
        (session.handshake std codec).2.nextId = session.nextId + 1 := by
  have hrequest := @sends_requestUnlocked std codec session proc hproc (py "initialize")
    (some initializeParams)
  have hnextId := nextId_requestUnlocked std codec session (py "initialize") (some initializeParams)
  rw [handshake, hnew, if_neg Bool.false_ne_true]
  dsimp only
  split
  next error hfails => exact ⟨hrequest.of_error _ error, fun _ hok => absurd hok (by simp)⟩
  next result hok =>
    obtain ⟨middle, hmiddle, hwritten⟩ := hrequest.2 _ hok
    have hsent := sends_writeMessage hmiddle initializedMessage
    have hsame := (writeMessage_exchanges (session.requestUnlocked std codec (py "initialize")
      (some initializeParams)).2 initializedMessage).2
    split
    next error hfails =>
      have hpart := Sends.trans hwritten hsent
      exact ⟨hpart.of_error [] error, fun _ hok => absurd hok (by simp)⟩
    next hwrite =>
      have hpart := Sends.trans hwritten hsent
      exact ⟨⟨hpart.1, fun _ _ => hpart.2 _ hwrite⟩, fun _ _ => hsame.trans hnextId⟩

/-- A session without a process starts one, and sends it the handshake before the request. -/
theorem sends_request (hnone : session.proc = none) (hcommand : session.command ≠ [])
    (proc : Proc) (method : PyStr) (params : Option Fields) :
    Sends proc (conversation session.nextId method params)
      (session.request std codec method params (.ok proc)) := by
  have hready := @sends_handshake std codec
    { session with proc := some proc, initialized := false } proc rfl rfl
  rw [request, connect_of_new hnone hcommand]
  dsimp only
  split
  next error hfails =>
    exact hready.1.of_error [{ id := some (session.nextId + 1), method := method, params := params }]
      error
  next hok =>
    obtain ⟨middle, hmiddle, hwritten⟩ := hready.1.2 _ hok
    have hrequest := @sends_requestUnlocked std codec _ middle hmiddle method params
    rw [hready.2 _ hok] at hrequest
    exact Sends.trans hwritten hrequest

theorem requestUnlocked_of_answer (hproc : session.proc = some proc)
    (htakes : proc.stdin proc.written.length = true) {response result : Fields} {left : Output}
    (hread : readAnswer std codec proc.stderrTail session.nextId proc.stdout =
      (.message response, left)) (hok : responseOutcome std response = .ok result)
    (method : PyStr) (params : Option Fields) :
    (session.requestUnlocked std codec method params).1 = .ok result ∧
      ∃ written, (session.requestUnlocked std codec method params).2.proc =
        some { proc with stdout := left, written := written } := by
  have hproc' : ({ session with nextId := session.nextId + 1 } : McpStdioSession).proc =
      some proc := hproc
  rw [requestUnlocked, writeMessage_of_proc hproc', if_pos htakes]
  dsimp only
  rw [awaitResponse]
  dsimp only
  rw [hread]
  exact ⟨hok, _, rfl⟩

/-- A process that works answers the first request of the session that starts it. -/
theorem request_of_works (hnone : session.proc = none) (hcommand : session.command ≠ [])
    {result : Fields} (hworks : Works std codec proc session.nextId result) (method : PyStr)
    (params : Option Fields) :
    (session.request std codec method params (.ok proc)).1 = .ok result := by
  obtain ⟨ready, capabilities, between, response, left, hready, hcapabilities, hresponse,
    hresult⟩ := hworks.answers
  have hnextId := nextId_requestUnlocked std codec
    { session with proc := some proc, initialized := false } (py "initialize")
    (some initializeParams)
  obtain ⟨hhandshake, written, hmiddle⟩ := @requestUnlocked_of_answer std codec
    { session with proc := some proc, initialized := false } proc rfl (hworks.takes _) _ _ _
    hready hcapabilities (py "initialize") (some initializeParams)
  have hnotify := writeMessage_of_proc hmiddle initializedMessage
  rw [if_pos (hworks.takes _)] at hnotify
  rw [request, connect_of_new hnone hcommand]
  dsimp only
  rw [handshake, if_neg Bool.false_ne_true]
  dsimp only
  rw [hhandshake]
  dsimp only
  rw [initializedMessage] at hnotify
  rw [hnotify]
  dsimp only
  refine (@requestUnlocked_of_answer std codec _
    { proc with stdout := between, written := written ++ [initializedMessage] } rfl
    (hworks.takes _) response result left ?_ hresult method params).1
  rw [hnextId]
  exact hresponse

/-- A session that is connected goes on from there. -/
theorem request_connect (hnone : session.proc = none) (hcommand : session.command ≠ [])
    (proc : Proc) (method : PyStr) (params : Option Fields) :
    (session.connect (.ok proc)).2.request std codec method params (.ok proc) =
      session.request std codec method params (.ok proc) := by
  have hagain : ({ session with proc := some proc, initialized := false } :
      McpStdioSession).connect (.ok proc) =
        (.ok (), { session with proc := some proc, initialized := false }) := rfl
  rw [request, request, connect_of_new hnone hcommand, hagain]

end Written

end McpStdioSession

/-! ## Calls through the manager -/

namespace StdioServerManager

section Calls

variable (std : Stdlib) (codec : Codec) (manager : StdioServerManager) (call : ToolInvocation)

/-- No process of the server is there when the session is asked. -/
def StartsAfresh : Prop :=
  ∀ session, (manager.refreshExtraEnvLocked call).sessions.get? call.serverId = some session →
    session.proc = none

/-- The id of the next message to the server. -/
def nextId : ℕ :=
  (((manager.refreshExtraEnvLocked call).sessions.get? call.serverId).map (·.nextId)).getD 1

/-- The call starts a process and sends it the handshake before the request; if the process
works, it has the result. -/
def Recovers : Prop :=
  manager.StartsAfresh call ∧ ∀ proc, call.spawned = .ok proc →
    (∀ session after,
      (manager.invoke std codec call).2.sessions.get? call.serverId = some session →
        session.proc = some after →
          after.written <+: proc.written ++
            McpStdioSession.conversation (manager.nextId call) (py "tools/call")
              (some (McpStdioSession.toolCallParams (manager.mcpToolName call) call.arguments))) ∧
      ∀ result, McpStdioSession.Works std codec proc (manager.nextId call) result →
        (manager.invoke std codec call).1 =
          .ok (McpStdioSession.normalizeToolCallResult std result (manager.mcpToolName call))

end Calls

section Rules

variable {std : Stdlib} {codec : Codec} {manager : StdioServerManager} {call : ToolInvocation}

theorem sessions_refreshExtraEnvLocked (manager : StdioServerManager) (call : ToolInvocation) :
    (manager.refreshExtraEnvLocked call).sessions =
      if manager.environmentChanges call then [] else manager.sessions := by
  rw [refreshExtraEnvLocked, environmentChanges]
  cases call.loaded with
  | none => rfl
  | some loaded =>
    rw [Option.any_some]
    dsimp only
    by_cases hsame : Dict.sameEntries loaded manager.extraEnv = true
    · rw [if_pos hsame, if_neg (by simp [hsame])]
    · rw [if_neg hsame, if_pos (by simp [hsame])]
      rfl

@[simp]
theorem servers_refreshExtraEnvLocked (manager : StdioServerManager) (call : ToolInvocation) :
    (manager.refreshExtraEnvLocked call).servers = manager.servers := by
  rw [refreshExtraEnvLocked]
  split
  · rfl
  · split
    · rfl
    · rfl

@[simp]
theorem mcpToolName_refreshExtraEnvLocked (manager : StdioServerManager)
    (call other : ToolInvocation) :
    (manager.refreshExtraEnvLocked call).mcpToolName other = manager.mcpToolName other := by
  rw [refreshExtraEnvLocked]
  split
  · rfl
  · split
    · rfl
    · rfl

/-- A stored server is reached by stdio. -/
theorem invoke_of_server {server : Storage.McpServer}
    (hserver : manager.servers.get? call.serverId = some server) :
    manager.invoke std codec call =
      match (manager.refreshExtraEnvLocked call).sessionFor call server with
      | .error error => (.error (.session error), manager.refreshExtraEnvLocked call)
      | .ok session => (manager.refreshExtraEnvLocked call).callOn std codec call session := by
  have htransport : lower std (strip server.val.transport) = py "stdio" := by
    rw [server.property.transport]
    rfl
  rw [← servers_refreshExtraEnvLocked manager call] at hserver
  rw [invoke]
  dsimp only
  rw [hserver]
  dsimp only
  rw [htransport, if_neg (not_not_intro rfl)]

theorem invoke_of_no_server (hserver : manager.servers.get? call.serverId = none) :
    manager.invoke std codec call =
      (.error (.runtimeError (py "MCP server not loaded: " ++ call.serverId)),
        manager.refreshExtraEnvLocked call) := by
  rw [← servers_refreshExtraEnvLocked manager call] at hserver
  rw [invoke]
  dsimp only
  rw [hserver]

/-- A call leaves the servers and the sessions of other servers to the refresh. -/
theorem frame_invoke (manager : StdioServerManager) (call : ToolInvocation) :
    (manager.invoke std codec call).2.servers = manager.servers ∧
      ∀ serverId, serverId ≠ call.serverId →
        (manager.invoke std codec call).2.sessions.get? serverId =
          (manager.refreshExtraEnvLocked call).sessions.get? serverId := by
  cases hserver : manager.servers.get? call.serverId with
  | none =>
    rw [invoke_of_no_server hserver]
    exact ⟨servers_refreshExtraEnvLocked manager call, fun _ _ => rfl⟩
  | some server =>
    rw [invoke_of_server hserver]
    split
    · exact ⟨servers_refreshExtraEnvLocked manager call, fun _ _ => rfl⟩
    · exact ⟨servers_refreshExtraEnvLocked manager call,
        fun serverId hne => Dict.get?_set_of_ne _ _ hne⟩

/-- After a failure of the process the manager has the session with it. -/
theorem session_of_broken {error : InvokeError}
    (hinvoke : (manager.invoke std codec call).1 = .error error) (hbroken : error.broken = true) :
    (manager.servers.get? call.serverId).isSome ∧
      ∃ session, (manager.invoke std codec call).2.sessions.get? call.serverId = some session ∧
        session.proc ≠ none := by
  cases hserver : manager.servers.get? call.serverId with
  | none =>
    rw [invoke_of_no_server hserver] at hinvoke
    rw [← Except.error.inj hinvoke, InvokeError.broken] at hbroken
    exact absurd hbroken Bool.false_ne_true
  | some server =>
    refine ⟨rfl, ?_⟩
    rw [invoke_of_server hserver] at hinvoke ⊢
    split at hinvoke
    next raised hsession =>
      rw [← Except.error.inj hinvoke] at hbroken
      rw [sessionFor] at hsession
      split at hsession
      · exact absurd hsession (by simp)
      · dsimp only at hsession
        split at hsession
        next other hconnect =>
          rw [← Except.error.inj hsession, InvokeError.broken,
            McpStdioSession.not_broken_connect hconnect] at hbroken
          exact absurd hbroken (by simp)
        · exact absurd hsession (by simp)
    next session hsession =>
      refine ⟨_, Dict.get?_set_self _ _ _, ?_⟩
      rw [callOn, McpStdioSession.callTool] at hinvoke
      dsimp only at hinvoke
      cases hrequest : (session.request std codec (py "tools/call")
          (some (McpStdioSession.toolCallParams
            ((manager.refreshExtraEnvLocked call).mcpToolName call) call.arguments))
          call.spawned).1 with
      | ok result =>
        rw [hrequest] at hinvoke
        exact absurd hinvoke (by simp [Except.map, Except.mapError])
      | error raised =>
        rw [hrequest] at hinvoke
        rw [← Except.error.inj hinvoke] at hbroken
        exact McpStdioSession.proc_request_of_broken hrequest hbroken

/-- Without a session the server gets a new one, with a new process. -/
theorem recovers_of_no_session (hserver : (manager.servers.get? call.serverId).isSome)
    (hnone : (manager.refreshExtraEnvLocked call).sessions.get? call.serverId = none) :
    manager.Recovers std codec call := by
  obtain ⟨server, hserver⟩ := Option.isSome_iff_exists.mp hserver
  constructor
  · intro session hsession
    exact absurd (hnone.symm.trans hsession) (by simp)
  · intro proc hspawned
    have hcommand : (buildStdioSession server).command ≠ [] := by
      rw [show (buildStdioSession server).command = strip server.val.config.command from rfl,
        server.property.command.1]
      exact server.property.command.2
    have hsession : (manager.refreshExtraEnvLocked call).sessionFor call server =
        .ok ((buildStdioSession server).connect (.ok proc)).2 := by
      rw [sessionFor, hnone, hspawned, McpStdioSession.connect_of_new rfl hcommand]
    have hnextId : manager.nextId call = 1 := by
      rw [nextId, hnone]
      rfl
    rw [invoke_of_server hserver, hsession, hnextId]
    dsimp only
    rw [callOn, McpStdioSession.callTool, hspawned,
      McpStdioSession.request_connect rfl hcommand, mcpToolName_refreshExtraEnvLocked]
    constructor
    · intro session after hkept hafter
      rw [Dict.get?_set_self] at hkept
      rw [← Option.some.inj hkept] at hafter
      exact (McpStdioSession.sends_request rfl hcommand proc _ _).1 after hafter
    · intro result hworks
      rw [McpStdioSession.request_of_works rfl hcommand hworks]
      rfl

end Rules

end StdioServerManager

/-! ## Runs of calls -/

/-- The manager, with the servers whose last call failed because the process had ended or could
not be read, and those of them whose session is not closed since. -/
structure WatchedManager where
  manager : StdioServerManager
  failed : PyStr → Bool
  stale : PyStr → Bool

namespace WatchedManager

def start (manager : StdioServerManager) : WatchedManager where
  manager := manager
  failed _ := false
  stale _ := false

def breaks (outcome : Except InvokeError Fields) : Bool :=
  match outcome with
  | .error error => error.broken
  | .ok _ => false

def after (std : Stdlib) (codec : Codec) (watched : WatchedManager) (call : ToolInvocation) :
    WatchedManager :=
  let invoked := watched.manager.invoke std codec call
  { manager := invoked.2
    failed := Function.update watched.failed call.serverId (breaks invoked.1)
    stale := Function.update
      (fun serverId => watched.stale serverId && !watched.manager.environmentChanges call)
      call.serverId (breaks invoked.1) }

/-- A stale server has its session with the process; a failed one that is not stale has none. -/
structure Sound (watched : WatchedManager) : Prop where
  within : ∀ serverId, watched.stale serverId = true → watched.failed serverId = true
  kept : ∀ serverId, watched.stale serverId = true → ∃ session,
    watched.manager.sessions.get? serverId = some session ∧ session.proc ≠ none
  closed : ∀ serverId, watched.failed serverId = true → watched.stale serverId = false →
    watched.manager.sessions.get? serverId = none
  loaded : ∀ serverId, watched.failed serverId = true →
    (watched.manager.servers.get? serverId).isSome

section Runs

variable {std : Stdlib} {codec : Codec} {watched : WatchedManager}

theorem sound_start (manager : StdioServerManager) : Sound (start manager) where
  within _ hstale := absurd hstale Bool.false_ne_true
  kept _ hstale := absurd hstale Bool.false_ne_true
  closed _ hfailed := absurd hfailed Bool.false_ne_true
  loaded _ hfailed := absurd hfailed Bool.false_ne_true

/-- What a call leaves to the refresh. -/
theorem sessions_of_ne (call : ToolInvocation) {serverId : PyStr} (hne : serverId ≠ call.serverId) :
    (watched.after std codec call).manager.sessions.get? serverId =
      if watched.manager.environmentChanges call then none
      else watched.manager.sessions.get? serverId := by
  rw [after]
  dsimp only
  rw [(StdioServerManager.frame_invoke watched.manager call).2 serverId hne,
    StdioServerManager.sessions_refreshExtraEnvLocked]
  split
  · rfl
  · rfl

theorem Sound.after (hsound : Sound watched) (call : ToolInvocation) :
    Sound (watched.after std codec call) := by
  have hcalled : breaks (watched.manager.invoke std codec call).1 = true →
      (watched.manager.servers.get? call.serverId).isSome ∧ ∃ session,
        (watched.manager.invoke std codec call).2.sessions.get? call.serverId = some session ∧
          session.proc ≠ none := by
    intro hbreaks
    cases houtcome : (watched.manager.invoke std codec call).1 with
    | ok result =>
      rw [houtcome] at hbreaks
      exact absurd hbreaks Bool.false_ne_true
    | error error =>
      rw [houtcome] at hbreaks
      exact StdioServerManager.session_of_broken houtcome hbreaks
  have hservers := (@StdioServerManager.frame_invoke std codec watched.manager call).1
  constructor
  · intro serverId hstale
    by_cases hsame : serverId = call.serverId
    · subst hsame
      simpa only [WatchedManager.after, Function.update_self] using hstale
    · simp only [WatchedManager.after, Function.update_of_ne hsame, Bool.and_eq_true] at hstale ⊢
      exact hsound.within serverId hstale.1
  · intro serverId hstale
    by_cases hsame : serverId = call.serverId
    · subst hsame
      simp only [WatchedManager.after, Function.update_self] at hstale
      exact (hcalled hstale).2
    · rw [sessions_of_ne call hsame]
      simp only [WatchedManager.after, Function.update_of_ne hsame, Bool.and_eq_true,
        Bool.not_eq_true'] at hstale
      rw [if_neg (by simp [hstale.2])]
      exact hsound.kept serverId hstale.1
  · intro serverId hfailed hstale
    by_cases hsame : serverId = call.serverId
    · subst hsame
      simp only [WatchedManager.after, Function.update_self] at hfailed hstale
      exact absurd (hstale.symm.trans hfailed) Bool.false_ne_true
    · rw [sessions_of_ne call hsame]
      simp only [WatchedManager.after, Function.update_of_ne hsame] at hfailed hstale
      split
      · rfl
      next hchanges =>
        rw [Bool.not_eq_true] at hchanges
        rw [hchanges, Bool.not_false, Bool.and_true] at hstale
        exact hsound.closed serverId hfailed hstale
  · intro serverId hfailed
    rw [show (watched.after std codec call).manager.servers = watched.manager.servers from hservers]
    by_cases hsame : serverId = call.serverId
    · subst hsame
      simp only [WatchedManager.after, Function.update_self] at hfailed
      exact (hcalled hfailed).1
    · simp only [WatchedManager.after, Function.update_of_ne hsame] at hfailed
      exact hsound.loaded serverId hfailed

/-- A call after a failed one recovers if and only if the session was closed since, or is closed
by the refresh of this call. -/
theorem Sound.recovers_iff (hsound : Sound watched) {call : ToolInvocation}
    (hfailed : watched.failed call.serverId = true) :
    watched.manager.Recovers std codec call ↔
      (watched.stale call.serverId = true → watched.manager.environmentChanges call = true) := by
  constructor
  · intro hrecovers hstale
    by_contra hchanges
    obtain ⟨session, hsession, hproc⟩ := hsound.kept call.serverId hstale
    apply hproc
    apply hrecovers.1 session
    rw [StdioServerManager.sessions_refreshExtraEnvLocked, if_neg hchanges]
    exact hsession
  · intro hclosed
    apply StdioServerManager.recovers_of_no_session (hsound.loaded call.serverId hfailed)
    rw [StdioServerManager.sessions_refreshExtraEnvLocked]
    split
    · rfl
    next hchanges =>
      apply hsound.closed call.serverId hfailed
      rw [← Bool.not_eq_true]
      exact fun hstale => hchanges (hclosed hstale)

end Runs

/-! ## A process that ends -/

def endedServer : Storage.McpServer :=
  ⟨{ serverId := py "echo"
     name := py "echo"
     transport := py "stdio"
     config := { command := py "echo-server", args := [], env := [], cwd := [] }
     enabled := true
     tools := []
     timeoutSeconds := .finite false 120
     lastError := []
     discoveryStatus := .ready },
    { serverId := by decide
      name := by decide
      transport := rfl
      command := by decide
      cwd := by decide }⟩

/-- A process without any output. -/
def endedProc : Proc where
  stdout := []
  stdin _ := true
  stderrTail := []
  written := []

def endedManager : StdioServerManager :=
  .reloaded [] [(py "echo", endedServer)] [] fun _ => endedProc

def echoCall (spawned : Except PyStr Proc) : ToolInvocation where
  serverId := py "echo"
  toolName := py "echo"
  arguments := []
  loaded := none
  spawned := spawned

/-- No byte is read in the run below. -/
def silentCodec : Codec where
  replacing _ := []
  strict _ := none
  int _ := none

end WatchedManager

end RootSeeker.McpPlane
