import RootSeeker.McpPlane.Gateway

/-!
# Tools of external servers

A reload reads the stored servers, starts a session for each one that is
enabled and discovered, and registers its tools under names that carry the id
of the server.  The server table, the table of tool names, the registry and the
invokers of the external client are written on different paths; how the session
of a server starts is part of the reload.
-/

namespace RootSeeker.McpPlane

open Python Contracts

namespace ToolRegistry

variable (registry : ToolRegistry)

def registerExternal (spec : ToolSpec) : Except PyError ToolRegistry :=
  match registry.specs.get? spec.name.val with
  | some _ => .error (.valueError (py "Tool already registered: " ++ spec.name.val))
  | none =>
    .ok
      { specs := registry.specs.set spec.name.val spec
        handlers := registry.handlers
        named := Dict.forall_mem_set (fun entry : PyStr × ToolSpec => entry.2.name.val = entry.1)
          registry.named rfl }

def unregister (toolName : PyStr) : ToolRegistry where
  specs := registry.specs.erase toolName
  handlers := registry.handlers.filter (· ≠ toolName)
  named entry hentry := registry.named entry (Dict.mem_of_mem_erase hentry)

/-- An external tool of the server. -/
def ownedBy (serverName : PyStr) (spec : ToolSpec) : Bool :=
  spec.serverName.val = serverName ∧ spec.scope = .external

def unregisterByServer (serverName : PyStr) : ToolRegistry :=
  registry.specs.keys.foldl
    (fun current name =>
      match current.getSpec name with
      | some spec => if ownedBy serverName spec then current.unregister name else current
      | none => current)
    registry

@[simp]
theorem getSpec_unregister_self (name : PyStr) : (registry.unregister name).getSpec name = none :=
  Dict.get?_erase_self registry.specs name

theorem getSpec_unregister_of_ne {name other : PyStr} (hne : other ≠ name) :
    (registry.unregister name).getSpec other = registry.getSpec other :=
  Dict.get?_erase_of_ne registry.specs hne

theorem registerExternal_of_fresh {spec : ToolSpec} (hfresh : registry.getSpec spec.name.val = none) :
    ∃ after, registry.registerExternal spec = .ok after ∧
      after.getSpec spec.name.val = some spec ∧
        ∀ name, name ≠ spec.name.val → after.getSpec name = registry.getSpec name := by
  have hget : registry.specs.get? spec.name.val = none := hfresh
  rw [registerExternal, hget]
  refine ⟨_, rfl, ?_, ?_⟩
  · exact Dict.get?_set_self _ _ _
  · exact fun name hne => Dict.get?_set_of_ne _ _ hne

/-- Unregistering a server takes away its external tools and nothing else. -/
theorem getSpec_unregisterByServer (serverName name : PyStr) :
    (registry.unregisterByServer serverName).getSpec name =
      (registry.getSpec name).filter fun spec => !ownedBy serverName spec := by
  have hloop : ∀ (names : List PyStr) (current : ToolRegistry),
      (names.foldl (fun current name =>
        match current.getSpec name with
        | some spec => if ownedBy serverName spec then current.unregister name else current
        | none => current) current).getSpec name =
        if name ∈ names then (current.getSpec name).filter fun spec => !ownedBy serverName spec
        else current.getSpec name := by
    intro names
    induction names with
    | nil => exact fun current => rfl
    | cons head rest ih =>
      intro current
      rw [List.foldl_cons, ih]
      rcases hhead : current.getSpec head with _ | spec
      · by_cases hname : name = head
        · simp [hname, hhead]
        · simp [hname]
      · dsimp only
        by_cases howned : ownedBy serverName spec = true
        · rw [if_pos howned]
          by_cases hname : name = head
          · rw [hname, getSpec_unregister_self]
            simp [hhead, Option.filter_some, howned]
          · rw [getSpec_unregister_of_ne _ hname]
            simp [hname]
        · rw [if_neg howned]
          by_cases hname : name = head
          · rw [Bool.not_eq_true] at howned
            simp [hname, hhead, Option.filter_some, howned]
          · simp [hname]
  rw [unregisterByServer, hloop]
  split
  · rfl
  next habsent =>
    rw [Dict.mem_keys_iff, Bool.not_eq_true, Option.isSome_eq_false_iff,
      Option.isNone_iff_eq_none] at habsent
    have hnone : registry.getSpec name = none := habsent
    rw [hnone]
    rfl

end ToolRegistry

/-! ## Stored servers -/

/-- A stored server, and how starting its session goes in this reload: building the session
and spawning its process. -/
structure StoredServer where
  fields : Fields
  start : Except PyError Unit

variable (std : Stdlib)

namespace StoredServer

variable (server : StoredServer)

/-- `str(server.get("server_id") or "").strip()`. -/
def serverId : PyStr :=
  strip (truthyText std [server.fields.get? (py "server_id")])

/-- `bool(server.get("enabled", True))`. -/
def enabled : Bool :=
  match server.fields.get? (py "enabled") with
  | some value => value.truthy
  | none => true

def discoveryStatus : PyStr :=
  lower std (strip (truthyText std
    [server.fields.get? (py "discovery_status"), some (.str (py "ready"))]))

def transport : PyStr :=
  lower std (strip (truthyText std
    [server.fields.get? (py "transport"), some (.str (py "stdio"))]))

/-- The items of `server.get("tools")`, when it is a list. -/
def tools : List Json :=
  match server.fields.get? (py "tools") with
  | some (.arr items) => items
  | _ => []

end StoredServer

def buildExternalToolName (serverId mcpToolName : PyStr) : PyStr :=
  py "ext." ++ serverId ++ py "." ++ mcpToolName

/-- The tools that the registration does not pass over, by their names. -/
def toolOf : Json → Option (PyStr × Fields)
  | .obj fields =>
    let name := strip (truthyText std [Dict.get? fields (py "name")])
    if name = [] then none else some (name, fields)
  | _ => none

/-- `_parameters_schema`. -/
def parametersSchema (tool : Fields) : Fields :=
  match tool.get? (py "inputSchema") with
  | some (.obj schema) => schema
  | _ => [(py "type", .str (py "object")), (py "properties", .obj [])]

/-- The specification of a tool; its fields are validated. -/
def buildSpec (serverId : PyStr) (tool : PyStr × Fields) : Except PyError ToolSpec := do
  let name ← RequiredStr.validate (buildExternalToolName serverId tool.1)
  let _ ← validateText (truthyText std [tool.2.get? (py "description")])
  let _ ← Mapping.validate (parametersSchema tool.2)
  let serverName ← RequiredStr.validate serverId
  pure { name, permissionLevel := .read, scope := .external, serverName }

/-! ## Reloading -/

/-- The stores that a reload writes. -/
structure ExternalTools where
  registry : ToolRegistry
  servers : Dict PyStr Fields
  registeredToolNames : Dict PyStr PyStr
  client : McpExternalClient

inductive ReloadOutcome where
  | skipped (reason : Option PyStr)
  | failed (error : PyStr)
  | loaded (tools : ℕ)
  deriving DecidableEq

/-- The loop of `_register_server` over the tools. -/
def registerTools (serverId : PyStr) :
    List Json → ExternalTools → Except PyError Unit × ExternalTools
  | [], state => (.ok (), state)
  | item :: rest, state =>
    match toolOf std item with
    | none => registerTools serverId rest state
    | some tool =>
      match buildSpec std serverId tool with
      | .error e => (.error e, state)
      | .ok spec =>
        match state.registry.registerExternal spec with
        | .error e => (.error e, state)
        | .ok registry =>
          registerTools serverId rest
            { state with
              registry := registry
              registeredToolNames :=
                state.registeredToolNames.set spec.name.val tool.1 }

/-- `_register_server`, for a server with an id and with tools. -/
def registerServer (server : StoredServer) (state : ExternalTools) :
    Except PyError Unit × ExternalTools :=
  let serverId := server.serverId std
  if server.transport std ≠ py "stdio" then
    (.error (.valueError (py "unsupported transport: " ++ server.transport std)), state)
  else
    let cleared := { state with registry := state.registry.unregisterByServer serverId }
    match server.start with
    | .error e => (.error e, cleared)
    | .ok () =>
      let registered := registerTools std serverId server.tools
        { cleared with servers := cleared.servers.set serverId server.fields }
      match registered.1 with
      | .error e => (.error e, registered.2)
      | .ok () =>
        (.ok (),
          { registered.2 with client := ⟨serverId :: registered.2.client.servers⟩ })

/-- One turn of `reload_from_store`; a server without an id is passed over. -/
def reloadServer (errorText : PyError → PyStr) (server : StoredServer)
    (state : ExternalTools) : Option ReloadOutcome × ExternalTools :=
  let status := server.discoveryStatus std
  if server.serverId std = [] then (none, state)
  else if !server.enabled then (some (.skipped none), state)
  else if status = py "discovering" then (some (.skipped (some (py "discovering"))), state)
  else if status = py "failed" then
    (some (.failed (truthyText std
      [server.fields.get? (py "last_error"), some (.str (py "discovery failed"))])), state)
  else if status ≠ py "ready" then (some (.skipped (some status)), state)
  else if server.tools = [] then (some (.skipped (some (py "no_tools"))), state)
  else
    let registered := registerServer std server state
    match registered.1 with
    | .error e => (some (.failed (errorText e)), registered.2)
    | .ok () => (some (.loaded server.tools.length), registered.2)

/-- The reports of a reload with the servers they are about, and the stores afterwards. -/
def reloadFrom (errorText : PyError → PyStr) :
    List StoredServer → ExternalTools → List (StoredServer × ReloadOutcome) × ExternalTools
  | [], state => ([], state)
  | server :: rest, state =>
    let turn := reloadServer std errorText server state
    let others := reloadFrom errorText rest turn.2
    (turn.1.toList.map (fun outcome => (server, outcome)) ++ others.1, others.2)

/-- `reload_from_store`. -/
def reloadFromStore (errorText : PyError → PyStr) (store : List StoredServer)
    (state : ExternalTools) : List (StoredServer × ReloadOutcome) × ExternalTools :=
  reloadFrom std errorText store { state with servers := [], registeredToolNames := [] }

/-- Where a call of an external tool ends: the stored server, and the name that is asked of
it. -/
def routeOf (state : ExternalTools) (spec : ToolSpec) : Option (Fields × PyStr) :=
  if spec.serverName.val ∈ state.client.servers then
    (state.servers.get? spec.serverName.val).map fun server =>
      (server, (state.registeredToolNames.get? spec.name.val).getD spec.name.val)
  else none

end RootSeeker.McpPlane
