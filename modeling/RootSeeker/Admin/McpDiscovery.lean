import RootSeeker.Contracts.Common
import RootSeeker.Storage.McpServers

/-!
# Discovery of external tools

A request of the admin interface that changes how a server is started schedules
a background job, which reads the record, marks it, asks the server for its
tools and writes them back.  The jobs and the requests meet in the store only,
and each of their reads and writes is one step.  The checks that refuse a
deletion read the store and change nothing, so they are part of the deletion.
-/

namespace RootSeeker.Admin

open Python Contracts Storage

/-! ## Requests -/

structure AdminMcpServerRequest where
  name : RequiredStr
  transport : PyStr
  command : RequiredStr
  args : List PyStr
  env : Dict PyStr PyStr
  cwd : PyStr
  enabled : Bool
  timeoutSeconds : PyFloat

/-- The outer option tells whether the field is set, the inner one whether it is null. -/
structure AdminMcpServerUpdateRequest where
  name : Option (Option PyStr)
  transport : Option (Option PyStr)
  command : Option (Option PyStr)
  args : Option (Option (List PyStr))
  env : Option (Option (Dict PyStr PyStr))
  cwd : Option (Option PyStr)
  enabled : Option (Option Bool)
  timeoutSeconds : Option (Option PyFloat)

def createPayload (req : AdminMcpServerRequest) : McpServerPayload where
  serverId := []
  name := req.name.val
  transport := req.transport
  config := { command := req.command.val, args := req.args, env := req.env, cwd := req.cwd }
  enabled := req.enabled
  tools := []
  timeoutSeconds := req.timeoutSeconds
  lastError := []
  discoveryStatus := .discovering

/-- A masked value stands for the stored one. -/
def mergeMcpEnv (updates : Option (Dict PyStr PyStr)) (existing : Dict PyStr PyStr) :
    Dict PyStr PyStr :=
  match updates with
  | none => existing
  | some updates =>
    updates.map fun entry =>
      (entry.1,
        if entry.2 = py "******" then (existing.get? entry.1).getD entry.2 else entry.2)

/-- The value of a field after an update; `null` is written as a falsy value. -/
def updated {α : Type} (update : Option (Option α)) (null current : α) : α :=
  update.elim current (·.getD null)

namespace AdminMcpServerUpdateRequest

variable (req : AdminMcpServerUpdateRequest)

def rediscover : Bool :=
  req.command.isSome || req.args.isSome || req.env.isSome || req.cwd.isSome ||
    req.transport.isSome || req.timeoutSeconds.isSome

def unsupportedTransport : Bool :=
  req.transport.any (· ≠ some (py "stdio"))

/-- The record as it was read with the updates over it. -/
def payload (existing : McpServer) : McpServerPayload :=
  let server := existing.val
  { serverId := server.serverId
    name := updated req.name [] server.name
    transport := updated req.transport [] server.transport
    config :=
      { command := updated req.command [] server.config.command
        args := updated req.args [] server.config.args
        env := req.env.elim server.config.env fun updates => mergeMcpEnv updates server.config.env
        cwd := updated req.cwd [] server.config.cwd }
    enabled := updated req.enabled false server.enabled
    tools := if req.rediscover then [] else server.tools
    timeoutSeconds := updated req.timeoutSeconds (.finite false 0) server.timeoutSeconds
    lastError := if req.rediscover then [] else server.lastError
    discoveryStatus := if req.rediscover then .discovering else server.discoveryStatus }

end AdminMcpServerUpdateRequest

/-- What a job writes before it asks the server. -/
def discovering (server : McpServer) : McpServer :=
  ⟨{ server.val with lastError := [], discoveryStatus := .discovering },
    server.property.serverId, server.property.name, server.property.transport,
    server.property.command, server.property.cwd⟩

/-- What a job writes after it: the tools, or the text of the exception. -/
def withOutcome (server : McpServer) : Except PyStr (List Json) → McpServer
  | .ok tools =>
    ⟨{ server.val with tools := tools, lastError := [], discoveryStatus := .ready },
      server.property.serverId, server.property.name, server.property.transport,
      server.property.command, server.property.cwd⟩
  | .error text =>
    ⟨{ server.val with lastError := text, discoveryStatus := .failed },
      server.property.serverId, server.property.name, server.property.transport,
      server.property.command, server.property.cwd⟩

/-! ## Jobs -/

/-- Where a job stands; `server` is the record it was started with, `back` the one that it
has read back. -/
inductive Phase where
  | scheduled
  | fetched (server : McpServer)
  | marked (server : McpServer)
  | discovered (server : McpServer) (outcome : Except PyStr (List Json))
  | writing (server back : McpServer) (outcome : Except PyStr (List Json))
  | reloading (server : McpServer)
  | finished

def Phase.started : Phase → Bool
  | .scheduled => false
  | _ => true

structure DiscoveryJob where
  serverId : PyStr
  phase : Phase
  /-- The server was deleted after the start of the job. -/
  deletedSince : Bool

namespace DiscoveryJob

variable (job : DiscoveryJob)

def markDeleted (serverId : PyStr) : DiscoveryJob :=
  if job.serverId = serverId && job.phase.started then { job with deletedSince := true }
  else job

@[simp]
theorem serverId_markDeleted (serverId : PyStr) :
    (job.markDeleted serverId).serverId = job.serverId := by
  rw [markDeleted]
  split
  · rfl
  · rfl

@[simp]
theorem phase_markDeleted (serverId : PyStr) : (job.markDeleted serverId).phase = job.phase := by
  rw [markDeleted]
  split
  · rfl
  · rfl

/-- The next operation of a job on the store.  A `ValueError` of the first write ends the job,
one of the result's write is the outcome that is written instead. -/
def nextOperation (std : Stdlib) (store : McpServerStore) (uuid : FreshId) :
    Option (McpServerStore × Phase) :=
  match job.phase with
  | .scheduled =>
    match store.getServer job.serverId with
    | none => some (store, .finished)
    | some server => some (store, .fetched server)
  | .fetched server =>
    match store.upsertServer std (discovering server).val uuid with
    | .error _ => some (store, .finished)
    | .ok result => some (result.2, .marked server)
  | .discovered server outcome =>
    some (store, .writing server ((store.getServer job.serverId).getD server) outcome)
  | .writing server back outcome =>
    match store.upsertServer std (withOutcome back outcome).val uuid, outcome with
    | .ok result, .ok _ => some (result.2, .reloading server)
    | .error text, .ok _ => some (store, .discovered server (.error text))
    | .ok result, .error _ => some (result.2, .finished)
    | .error _, .error _ => some (store, .finished)
  | .marked _ | .reloading _ | .finished => none

end DiscoveryJob

/-! ## Steps -/

/-- A request that has read its record and has yet to write it. -/
structure PendingWrite where
  server : McpServer
  payload : McpServerPayload
  sameServer : payload.serverId = server.serverId
  schedules : Bool

/-- The tools that a server has given when started with a configuration. -/
structure Discovery where
  serverId : PyStr
  config : LaunchConfig
  tools : List Json

structure ServerAdmin where
  store : McpServerStore
  jobs : List DiscoveryJob
  requests : List PendingWrite
  discoveries : List Discovery

inductive Action where
  | createMcpServer (req : AdminMcpServerRequest)
  | readForUpdate (serverId : PyStr) (req : AdminMcpServerUpdateRequest)
  | readForSync (serverId : PyStr)
  | writeBack (request : ℕ)
  | deleteMcpServer (serverId : PyStr)
  | runJob (job : ℕ)
  | discoverTools (job : ℕ) (outcome : Except PyStr (List Json))
  | reloadServers (job : ℕ) (outcome : Except PyStr Unit)

/-- An action, with the id that `uuid4` would give during it. -/
structure Step where
  uuid : FreshId
  action : Action

namespace ServerAdmin

variable (std : Stdlib) (admin : ServerAdmin)

def scheduleDiscovery (serverId : PyStr) : ServerAdmin :=
  { admin with jobs := admin.jobs ++ [⟨serverId, .scheduled, false⟩] }

def createMcpServer (req : AdminMcpServerRequest) (uuid : FreshId) : ServerAdmin :=
  if req.transport ≠ py "stdio" then admin
  else
    match admin.store.upsertServer std (createPayload req) uuid with
    | .error _ => admin
    | .ok result => { admin with store := result.2 }.scheduleDiscovery result.1.serverId

/-- The first half of `update_mcp_server`. -/
def readForUpdate (serverId : PyStr) (req : AdminMcpServerUpdateRequest) : ServerAdmin :=
  match admin.store.getServer serverId with
  | none => admin
  | some server =>
    if req.unsupportedTransport then admin
    else
      { admin with requests := admin.requests ++
          [⟨server, req.payload server, rfl, req.rediscover⟩] }

/-- The first half of `sync_mcp_server_tools`. -/
def readForSync (serverId : PyStr) : ServerAdmin :=
  match admin.store.getServer serverId with
  | none => admin
  | some server =>
    { admin with requests := admin.requests ++
        [⟨server, (discovering server).val, rfl, true⟩] }

/-- The second half of both. -/
def writeBack (request : PendingWrite) (uuid : FreshId) : ServerAdmin :=
  match admin.store.upsertServer std request.payload uuid with
  | .error _ => admin
  | .ok result =>
    if request.schedules then
      { admin with store := result.2 }.scheduleDiscovery request.server.serverId
    else { admin with store := result.2 }

def deleteMcpServer (serverId : PyStr) : ServerAdmin :=
  match admin.store.getServer serverId with
  | none => admin
  | some _ =>
    { admin with
      store := admin.store.deleteServer serverId
      jobs := admin.jobs.map (·.markDeleted serverId) }

def setPhase (index : ℕ) (job : DiscoveryJob) (phase : Phase) : ServerAdmin :=
  { admin with jobs := admin.jobs.set index { job with phase := phase } }

def runJob (index : ℕ) (uuid : FreshId) : Option ServerAdmin :=
  admin.jobs[index]?.bind fun job =>
    (job.nextOperation std admin.store uuid).map fun next =>
      { admin with store := next.1 }.setPhase index job next.2

/-- `discover_stdio_tools` on the record the job was started with. -/
def discoverTools (index : ℕ) (outcome : Except PyStr (List Json)) : Option ServerAdmin :=
  admin.jobs[index]?.bind fun job =>
    match job.phase with
    | .marked server =>
      let found := outcome.toOption.map fun tools =>
        { serverId := job.serverId, config := server.val.config, tools := tools : Discovery }
      some ({ admin with discoveries := admin.discoveries ++ found.toList }.setPhase index job
        (.discovered server outcome))
    | _ => none

/-- `_reload_mcp_servers` at the end of a job; an exception is written as its outcome. -/
def reloadServers (index : ℕ) (outcome : Except PyStr Unit) : Option ServerAdmin :=
  admin.jobs[index]?.bind fun job =>
    match job.phase, outcome with
    | .reloading _, .ok _ => some (admin.setPhase index job .finished)
    | .reloading server, .error text =>
      some (admin.setPhase index job (.discovered server (.error text)))
    | _, _ => none

/-- The ids that `uuid4` does not give again. -/
def usedIds : List PyStr :=
  admin.store.servers.map (·.serverId) ++ admin.jobs.map (·.serverId) ++
    admin.requests.map (·.server.serverId)

def step (step : Step) : Option ServerAdmin :=
  if step.uuid.val ∈ admin.usedIds then none
  else
    match step.action with
    | .createMcpServer req => some (admin.createMcpServer std req step.uuid)
    | .readForUpdate serverId req => some (admin.readForUpdate serverId req)
    | .readForSync serverId => some (admin.readForSync serverId)
    | .writeBack index =>
      admin.requests[index]?.map fun request =>
        { admin with requests := admin.requests.eraseIdx index }.writeBack std request step.uuid
    | .deleteMcpServer serverId => some (admin.deleteMcpServer serverId)
    | .runJob index => admin.runJob std index step.uuid
    | .discoverTools index outcome => admin.discoverTools index outcome
    | .reloadServers index outcome => admin.reloadServers index outcome

end ServerAdmin

end RootSeeker.Admin
