import RootSeeker.Contracts.Common

/-!
# Sessions of external tool servers

The manager starts a session of a server with the extra environment of the
moment: a base, which a provider may refresh, under an overlay.  Whatever
changes the environment closes all sessions.
-/

namespace RootSeeker.McpPlane

open Python Contracts

abbrev Environment := Dict PyStr PyStr

/-- A callable that loads an environment; `none` stands for an exception. -/
structure EnvProvider where
  load : Option Environment

/-- The fields of a server's configuration that starting a session reads. -/
structure McpServer where
  transport : PyStr
  env : Environment

structure McpServerManager where
  extraEnv : Environment
  extraEnvProvider : Option EnvProvider
  runEnvOverlay : Environment
  servers : Dict PyStr McpServer
  /-- The environment that each open session was started with. -/
  sessions : Dict PyStr Environment

/-- `McpServerManager(extra_env, extra_env_provider)` with its servers loaded. -/
def newManager (extraEnv : Environment) (provider : Option EnvProvider)
    (servers : Dict PyStr McpServer) : McpServerManager where
  extraEnv := extraEnv
  extraEnvProvider := provider
  runEnvOverlay := []
  servers := servers
  sessions := []

/-- `merge_stdio_env`: the environment of the server overrides. -/
def mergeStdioEnv (extraEnv serverEnv : Environment) : Environment :=
  Dict.update [] ((extraEnv ++ serverEnv).filterMap fun entry =>
    let name := strip entry.1
    if name = [] then none else some (name, entry.2))

namespace McpServerManager

variable (manager : McpServerManager)

def closeAllSessions : McpServerManager :=
  { manager with sessions := [] }

/-- What the provider answers, if there is one and it does not raise. -/
def answer : Option Environment :=
  manager.extraEnvProvider.bind EnvProvider.load

def base : Environment :=
  manager.answer.getD manager.extraEnv

/-- A provider's answer becomes the base; a new one closes the sessions. -/
def refresh : McpServerManager :=
  match manager.answer with
  | none => manager
  | some loaded =>
    if Dict.sameEntries loaded manager.extraEnv then manager
    else { manager with extraEnv := loaded }.closeAllSessions

/-- `_refresh_extra_env_locked`: the environment, with the base refreshed. -/
def refreshExtraEnvLocked : Environment × McpServerManager :=
  (Dict.update manager.base manager.runEnvOverlay, manager.refresh)

/-- The value of the property `extra_env`. -/
def effectiveEnv : Environment :=
  manager.refreshExtraEnvLocked.1

def setExtraEnv (extraEnv : Environment) : McpServerManager :=
  { manager with extraEnv := extraEnv }.closeAllSessions

def setExtraEnvProvider (provider : Option EnvProvider) : McpServerManager :=
  { manager with extraEnvProvider := provider }

def setRunEnvOverlay (overlay : Environment) : McpServerManager :=
  { manager with runEnvOverlay := overlay }.closeAllSessions

/-- The session of a server, started if it is not open yet. -/
def openSession (connect : McpServer → Environment → Except PyError Unit)
    (extraEnv : Environment) (serverId : PyStr) (server : McpServer) :
    Except PyError Environment × McpServerManager :=
  match manager.sessions.get? serverId with
  | some started => (.ok started, manager)
  | none =>
    let env := mergeStdioEnv extraEnv server.env
    match connect server env with
    | .error raised => (.error raised, manager)
    | .ok () => (.ok env, { manager with sessions := manager.sessions.set serverId env })

/-- `invoke` up to the call of the tool: the environment its session runs in. -/
def invoke (std : Stdlib) (connect : McpServer → Environment → Except PyError Unit)
    (serverId : PyStr) : Except PyError Environment × McpServerManager :=
  let (extraEnv, refreshed) := manager.refreshExtraEnvLocked
  match refreshed.servers.get? serverId with
  | none => (.error (.runtimeError (py "MCP server not loaded: " ++ serverId)), refreshed)
  | some server =>
    if lower std (strip server.transport) = py "stdio" then
      refreshed.openSession connect extraEnv serverId server
    else
      (.error (.runtimeError (py "unsupported MCP transport: " ++
        lower std (strip server.transport))), refreshed)

/-! ## What the operations leave alone -/

@[simp]
theorem refresh_extraEnvProvider : manager.refresh.extraEnvProvider = manager.extraEnvProvider := by
  unfold refresh
  split
  · rfl
  · split <;> rfl

@[simp]
theorem refresh_runEnvOverlay : manager.refresh.runEnvOverlay = manager.runEnvOverlay := by
  unfold refresh
  split
  · rfl
  · split <;> rfl

/-- Without an answer the base stays as it is. -/
theorem refresh_of_no_answer (hanswer : manager.answer = none) : manager.refresh = manager := by
  rw [refresh, hanswer]

/-- Opening a session changes the sessions only. -/
theorem openSession_frame (connect : McpServer → Environment → Except PyError Unit)
    (extraEnv : Environment) (serverId : PyStr) (server : McpServer) :
    ∃ sessions, (manager.openSession connect extraEnv serverId server).2 =
      { manager with sessions := sessions } := by
  unfold openSession
  split
  · exact ⟨manager.sessions, rfl⟩
  · simp only
    split
    · exact ⟨manager.sessions, rfl⟩
    · exact ⟨_, rfl⟩

/-- A tool invocation refreshes the base and otherwise changes the sessions only. -/
theorem invoke_frame (std : Stdlib)
    (connect : McpServer → Environment → Except PyError Unit) (serverId : PyStr) :
    ∃ sessions, (manager.invoke std connect serverId).2 =
      { manager.refresh with sessions := sessions } := by
  simp only [invoke, refreshExtraEnvLocked]
  split
  · exact ⟨manager.refresh.sessions, rfl⟩
  · split
    · exact openSession_frame _ connect _ serverId _
    · exact ⟨manager.refresh.sessions, rfl⟩

end McpServerManager

end RootSeeker.McpPlane
