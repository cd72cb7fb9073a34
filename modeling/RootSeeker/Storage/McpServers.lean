import RootSeeker.Core.KeyedList
import RootSeeker.Python.Json

/-!
# The store of external MCP servers

Each record is written through `_normalize_server_payload`, so what the file
holds is normalised.  A write finds the record it replaces by its id, or by its
name when the id is not stored, and is refused when another server has the
name.  The time stamps of a record, which nothing here reads, are left out.
-/

namespace RootSeeker.Storage

open Python

inductive DiscoveryStatus where
  | pending
  | discovering
  | ready
  | failed
  deriving DecidableEq

/-- The seconds before a call times out, unless a server says otherwise. -/
instance timeoutBound : Nat.AtLeastTwo 120 := ⟨by decide⟩

/-- What the process of a server is started with. -/
structure LaunchConfig where
  command : PyStr
  args : List PyStr
  env : Dict PyStr PyStr
  cwd : PyStr
  deriving DecidableEq

/-- The payload of a write; a missing or null text is empty. -/
structure McpServerPayload where
  serverId : PyStr
  name : PyStr
  transport : PyStr
  config : LaunchConfig
  enabled : Bool
  tools : List Json
  timeoutSeconds : PyFloat
  lastError : PyStr
  discoveryStatus : DiscoveryStatus

/-- A text without spaces at its ends that is not empty. -/
def Trimmed (text : PyStr) : Prop :=
  strip text = text ∧ text ≠ []

instance (text : PyStr) : Decidable (Trimmed text) :=
  inferInstanceAs (Decidable (_ ∧ _))

structure McpServerPayload.Normal (server : McpServerPayload) : Prop where
  serverId : Trimmed server.serverId
  name : Trimmed server.name
  transport : server.transport = py "stdio"
  command : Trimmed server.config.command
  cwd : strip server.config.cwd = server.config.cwd

/-- A stored record. -/
abbrev McpServer := {server : McpServerPayload // server.Normal}

abbrev McpServer.serverId (server : McpServer) : PyStr := server.val.serverId

/-- What `uuid.uuid4()` gives. -/
abbrev FreshId := {text : PyStr // Trimmed text}

/-! ## Normalising a payload -/

/-- `first or second` on texts. -/
def orText (first second : PyStr) : PyStr :=
  if first = [] then second else first

@[simp]
theorem orText_of_ne {first : PyStr} (hne : first ≠ []) (second : PyStr) :
    orText first second = first :=
  if_neg hne

/-- A text of the existing record, empty when there is none. -/
def priorText (field : McpServerPayload → PyStr) (existing : Option McpServer) : PyStr :=
  (existing.map fun server => field server.val).getD []

/-- The record that a payload asks for over the existing one. -/
def normalFields (std : Stdlib) (server : McpServerPayload) (existing : Option McpServer)
    (uuid : FreshId) : McpServerPayload :=
  let serverId := orText (strip (orText server.serverId (priorText (·.serverId) existing))) uuid.val
  { serverId := serverId
    name := strip (orText server.name (orText (priorText (·.name) existing) serverId))
    transport := lower std (strip (orText server.transport
      (orText (priorText (·.transport) existing) (py "stdio"))))
    config :=
      { command := strip
          (orText server.config.command (priorText (·.config.command) existing))
        args := server.config.args
        env := server.config.env
        cwd := strip (orText server.config.cwd (priorText (·.config.cwd) existing)) }
    enabled := server.enabled
    tools := server.tools
    timeoutSeconds :=
      if server.timeoutSeconds.truthy then server.timeoutSeconds else .finite false 120
    lastError := orText server.lastError (priorText (·.lastError) existing)
    discoveryStatus := server.discoveryStatus }

theorem trimmed_of_strip {text : PyStr} (hne : strip text ≠ []) : Trimmed (strip text) :=
  ⟨stripBy_idem isSpace text, hne⟩

theorem trimmed_serverId_normalFields (std : Stdlib) (server : McpServerPayload)
    (existing : Option McpServer) (uuid : FreshId) :
    Trimmed (normalFields std server existing uuid).serverId := by
  dsimp only [normalFields]
  by_cases hempty : strip (orText server.serverId (priorText (·.serverId) existing)) = []
  · rw [hempty]
    exact uuid.property
  · rw [orText_of_ne hempty]
    exact trimmed_of_strip hempty

/-- `_normalize_server_payload`; an error is the text of a `ValueError`. -/
def normalizeServerPayload (std : Stdlib) (server : McpServerPayload)
    (existing : Option McpServer) (uuid : FreshId) : Except PyStr McpServer :=
  let fields := normalFields std server existing uuid
  if hname : fields.name = [] then .error (py "name is required")
  else if htransport : fields.transport ≠ py "stdio" then
    .error (py "unsupported transport: " ++ orText server.transport
      (orText (priorText (·.transport) existing) (py "stdio")))
  else if hcommand : fields.config.command = [] then
    .error (py "command is required for stdio transport")
  else
    .ok ⟨fields, trimmed_serverId_normalFields std server existing uuid, trimmed_of_strip hname,
      not_not.mp htransport, trimmed_of_strip hcommand, stripBy_idem isSpace _⟩

variable {server : McpServerPayload}

theorem eq_normalFields_of_ok {std : Stdlib} {existing : Option McpServer} {uuid : FreshId}
    {saved : McpServer} (hsaved : normalizeServerPayload std server existing uuid = .ok saved) :
    saved.val = normalFields std server existing uuid := by
  simp only [normalizeServerPayload] at hsaved
  split at hsaved
  · exact absurd hsaved (by simp)
  split at hsaved
  · exact absurd hsaved (by simp)
  split at hsaved
  · exact absurd hsaved (by simp)
  rw [← Except.ok.inj hsaved]

/-- A normalised payload keeps its fields; only its working directory and its error, where
they are empty, are those of the existing record. -/
theorem normalFields_of_normal (std : Stdlib) (hnormal : server.Normal)
    (existing : Option McpServer) (uuid : FreshId) :
    normalFields std server existing uuid =
      { server with
        config := { server.config with
          cwd := strip (orText server.config.cwd (priorText (·.config.cwd) existing)) }
        timeoutSeconds :=
          if server.timeoutSeconds.truthy then server.timeoutSeconds else .finite false 120
        lastError := orText server.lastError (priorText (·.lastError) existing) } := by
  have htransport : lower std (strip (orText server.transport
      (orText (priorText (·.transport) existing) (py "stdio")))) = server.transport := by
    rw [hnormal.transport]
    rfl
  simp only [normalFields, orText_of_ne hnormal.serverId.2, hnormal.serverId.1,
    orText_of_ne hnormal.name.2, hnormal.name.1, orText_of_ne hnormal.command.2,
    hnormal.command.1, htransport]

theorem serverId_normalFields (std : Stdlib) (htrimmed : Trimmed server.serverId)
    (existing : Option McpServer) (uuid : FreshId) :
    (normalFields std server existing uuid).serverId = server.serverId := by
  simp only [normalFields, orText_of_ne htrimmed.2, htrimmed.1]

/-- A payload with the configuration of the existing record leaves it as it is. -/
theorem config_normalFields_of_same (std : Stdlib) {existing : McpServer}
    (hconfig : server.config = existing.val.config) (uuid : FreshId) :
    (normalFields std server (some existing) uuid).config = existing.val.config := by
  have hcwd : orText existing.val.config.cwd existing.val.config.cwd = existing.val.config.cwd :=
    ite_self _
  have hnormal := existing.property
  simp only [normalFields, priorText, Option.map_some, Option.getD_some, hconfig,
    orText_of_ne hnormal.command.2, hnormal.command.1, hcwd, hnormal.cwd]

/-- A normalised payload is never refused by the normalisation. -/
theorem normalize_of_normal (std : Stdlib) (hnormal : server.Normal) (existing : Option McpServer)
    (uuid : FreshId) : ∃ saved, normalizeServerPayload std server existing uuid = .ok saved := by
  have hfields := normalFields_of_normal std hnormal existing uuid
  have hname : (normalFields std server existing uuid).name ≠ [] := by
    rw [hfields]
    exact hnormal.name.2
  have htransport : (normalFields std server existing uuid).transport = py "stdio" := by
    rw [hfields]
    exact hnormal.transport
  have hcommand : (normalFields std server existing uuid).config.command ≠ [] := by
    rw [hfields]
    exact hnormal.command.2
  exact ⟨_, by
    rw [normalizeServerPayload, dif_neg hname, dif_neg (not_not.mpr htransport), dif_neg hcommand]⟩

/-! ## The store -/

/-- The records of the file.  Ids are distinct, so that the order in which `list_servers`
lists them does not matter to a lookup. -/
structure McpServerStore where
  servers : List McpServer
  distinct : (servers.map (·.serverId)).Nodup

namespace McpServerStore

variable (std : Stdlib) (store : McpServerStore)

def getServer (serverId : PyStr) : Option McpServer :=
  store.servers.find? fun server => server.serverId = serverId

/-- The record that a payload replaces. -/
def existingFor (server : McpServerPayload) : Option McpServer :=
  (if strip server.serverId = [] then none else store.getServer (strip server.serverId)).or
    (store.servers.find? fun other => other.val.name = strip server.name)

/-- Another server has the name. -/
def NameTaken (server : McpServer) : Prop :=
  ∃ other ∈ store.servers,
    other.val.name = server.val.name ∧ other.serverId ≠ server.serverId

instance (server : McpServer) : Decidable (store.NameTaken server) :=
  inferInstanceAs (Decidable (∃ other ∈ store.servers, _))

def deleteServer (serverId : PyStr) : McpServerStore where
  servers := store.servers.filter fun server => server.serverId ≠ serverId
  distinct := store.distinct.sublist (List.filter_sublist.map _)

/-- Replace the record with the id of `server`. -/
def put (server : McpServer) : McpServerStore where
  servers := (store.deleteServer server.serverId).servers ++ [server]
  distinct := by
    rw [List.map_append, List.nodup_append]
    refine ⟨(store.deleteServer server.serverId).distinct, List.nodup_singleton _, ?_⟩
    intro left hleft right hright heq
    obtain ⟨other, hother, rfl⟩ := List.mem_map.mp hleft
    have hne := of_decide_eq_true (List.mem_filter.mp hother).2
    rw [List.map_singleton, List.mem_singleton] at hright
    exact hne (heq.trans hright)

def upsertServer (server : McpServerPayload) (uuid : FreshId) :
    Except PyStr (McpServer × McpServerStore) :=
  match normalizeServerPayload std server (store.existingFor server) uuid with
  | .error text => .error text
  | .ok saved =>
    if store.NameTaken saved then
      .error (py "MCP server name already exists: " ++ saved.val.name)
    else .ok (saved, store.put saved)

variable {std store}

variable {serverId : PyStr} {payload : McpServerPayload}

theorem getServer_eq_some_iff {server : McpServer} :
    store.getServer serverId = some server ↔ server ∈ store.servers ∧ server.serverId = serverId :=
  KeyedList.find?_eq_some_iff store.distinct serverId server

theorem getServer_eq_none_iff :
    store.getServer serverId = none ↔ ∀ server ∈ store.servers, server.serverId ≠ serverId := by
  simp [getServer]

theorem mem_put_iff {server other : McpServer} :
    other ∈ (store.put server).servers ↔
      (other ∈ store.servers ∧ other.serverId ≠ server.serverId) ∨ other = server := by
  simp [put, deleteServer]

theorem mem_deleteServer_iff {server : McpServer} :
    server ∈ (store.deleteServer serverId).servers ↔
      server ∈ store.servers ∧ server.serverId ≠ serverId := by
  simp [deleteServer]

@[simp]
theorem getServer_deleteServer_self (store : McpServerStore) (serverId : PyStr) :
    (store.deleteServer serverId).getServer serverId = none := by
  rw [getServer_eq_none_iff]
  intro server hserver
  exact (mem_deleteServer_iff.mp hserver).2

/-- A write brings no other id into the store than its own. -/
theorem getServer_put_eq_none {server : McpServer} (hne : serverId ≠ server.serverId)
    (hnone : store.getServer serverId = none) : (store.put server).getServer serverId = none := by
  rw [getServer_eq_none_iff] at hnone ⊢
  intro other hother
  rcases mem_put_iff.mp hother with ⟨hmem, _⟩ | rfl
  · exact hnone other hmem
  · exact Ne.symm hne

theorem getServer_deleteServer_eq_none (other : PyStr) (hnone : store.getServer serverId = none) :
    (store.deleteServer other).getServer serverId = none := by
  rw [getServer_eq_none_iff] at hnone ⊢
  intro server hserver
  exact hnone server (mem_deleteServer_iff.mp hserver).1

/-- A payload with the id of a stored server replaces that server. -/
theorem existingFor_of_stored {server : McpServer} (hid : payload.serverId = server.serverId)
    (hstored : store.getServer server.serverId = some server) :
    store.existingFor payload = some server := by
  have htrimmed := server.property.serverId
  rw [existingFor, hid, htrimmed.1, if_neg htrimmed.2, hstored]
  rfl

theorem mem_of_existingFor {server : McpServer}
    (hexisting : store.existingFor payload = some server) : server ∈ store.servers := by
  rw [existingFor, Option.or_eq_some_iff] at hexisting
  rcases hexisting with hid | ⟨_, hname⟩
  · split at hid
    · exact absurd hid (by simp)
    · exact (getServer_eq_some_iff.mp hid).1
  · exact List.mem_of_find?_eq_some hname

/-- What a write that goes through has saved and where. -/
theorem of_upsertServer_eq_ok {uuid : FreshId} {result : McpServer × McpServerStore}
    (hok : store.upsertServer std payload uuid = .ok result) :
    result.2 = store.put result.1 ∧
      result.1.val = normalFields std payload (store.existingFor payload) uuid := by
  rw [upsertServer] at hok
  split at hok
  · exact absurd hok (by simp)
  next saved hsaved =>
    split at hok
    · exact absurd hok (by simp)
    · rw [← Except.ok.inj hok]
      exact ⟨rfl, eq_normalFields_of_ok hsaved⟩

/-- A normalised payload is refused only for its name. -/
theorem upsertServer_of_normal (payload : McpServer) (uuid : FreshId)
    (hname : ¬store.NameTaken payload) :
    ∃ result, store.upsertServer std payload.val uuid = .ok result := by
  obtain ⟨saved, hsaved⟩ := normalize_of_normal std payload.property
    (store.existingFor payload.val) uuid
  have hfields := eq_normalFields_of_ok hsaved
  rw [normalFields_of_normal std payload.property] at hfields
  have hfree : ¬store.NameTaken saved := by
    simpa only [NameTaken, McpServer.serverId, hfields] using hname
  exact ⟨(saved, store.put saved), by rw [upsertServer, hsaved]; exact if_neg hfree⟩

end McpServerStore

end RootSeeker.Storage
