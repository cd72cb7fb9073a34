import RootSeeker.Core.Loops
import RootSeeker.Core.Transition
import RootSeeker.Storage.ChannelPayload
import RootSeeker.Storage.McpServers

/-!
# The file of the MCP servers, field by field

A payload names any of the fields of a record.  What it does not name is taken
from the record that it replaces; some fields are also taken from there when
the payload names them with an empty value.
-/

namespace RootSeeker.Storage.McpServerFile

open Python Contracts

structure Record where
  serverId : PyStr
  name : PyStr
  transport : PyStr
  command : PyStr
  args : List PyStr
  env : Dict PyStr PyStr
  cwd : PyStr
  enabled : Bool
  tools : List Json
  timeoutSeconds : PyFloat
  lastSyncAt : Json
  lastError : PyStr
  discoveryStatus : PyStr
  createdAt : PyStr
  updatedAt : PyStr

def discoveryStatuses : List PyStr :=
  [py "pending", py "discovering", py "ready", py "failed"]

section Normalize

variable (std : Stdlib)

/-- `str(server.get(key) or existing.get(key) or default)`. -/
def textOrPrevious (server : Fields) (key : String) (previous : Option PyStr)
    (default : PyStr) : PyStr :=
  truthyText std [server.get? (py key), previous.map Json.str, some (.str default)]

def validateTransport (transport : PyStr) : Except PyError PyStr :=
  let normalized := lower std (strip (orText transport (py "stdio")))
  if normalized = py "stdio" then .ok normalized
  else .error (.valueError (py "unsupported transport: " ++ transport))

def normalizeCommand (server : Fields) (existing : Option Record) : Except PyError PyStr :=
  let command := strip (textOrPrevious std server "command" (existing.map Record.command) [])
  if command = [] then .error (.valueError (py "command is required for stdio transport"))
  else .ok command

def normalizeArgs (server : Fields) (existing : Option Record) : List PyStr :=
  match server.get? (py "args") with
  | some (.arr items) => items.map (str std)
  | some _ => []
  | none => existing.elim [] Record.args

def normalizeEnv (server : Fields) (existing : Option Record) :
    Except PyError (Dict PyStr PyStr) :=
  match server.get? (py "env") with
  | some .null => .ok []
  | some (.obj fields) => .ok (fields.map fun entry => (entry.1, str std entry.2))
  | some _ => .error (.valueError (py "env must be an object"))
  | none => .ok (existing.elim [] Record.env)

def normalizeEnabled (server : Fields) (existing : Option Record) : Bool :=
  match server.get? (py "enabled") with
  | some value => value.truthy
  | none => existing.elim true Record.enabled

def normalizeTools (server : Fields) (existing : Option Record) : Except PyError (List Json) :=
  match server.get? (py "tools") with
  | some .null => .ok []
  | some (.arr items) => .ok items
  | some _ => .error (.valueError (py "tools must be an array"))
  | none => .ok (existing.elim [] Record.tools)

/-- `float(value or 120.0)`. -/
def timeoutOf (value : Json) : Except PyError PyFloat :=
  if value.truthy then
    match value with
    | .bool _ => .ok (.finite false 1)
    | .int n => (floatOfInt n).elim (.error .overflowError) .ok
    | .float number => .ok number
    | .str text =>
      (std.floatOfText text).elim
        (.error (.valueError (py "could not convert string to float: " ++ reprText std text)))
        .ok
    | _ => .error .typeError
  else .ok (.finite false 120)

def normalizeTimeout (server : Fields) (existing : Option Record) : Except PyError PyFloat :=
  timeoutOf std ((server.get? (py "timeout_seconds")).getD
    (existing.elim (.float (.finite false 120)) fun found => .float found.timeoutSeconds))

/-- A status that is not set tells whether there are tools. -/
def statusOr (status : PyStr) (tools : List Json) : PyStr :=
  if status ≠ [] then status else if tools.isEmpty then py "pending" else py "ready"

/-- `str(value or "").strip().lower()`. -/
def statusText (value : Json) : PyStr :=
  lower std (strip (truthyText std [some value]))

def normalizeDiscoveryStatus (server : Fields) (existing : Option Record)
    (tools : List Json) : Except PyError PyStr :=
  let raw := (server.get? (py "discovery_status")).getD
    (existing.elim .null fun found => .str found.discoveryStatus)
  let status := statusOr (statusText std raw) tools
  if status ∈ discoveryStatuses then .ok status
  else .error (.valueError (py "unsupported discovery_status: " ++ status))

/-- `_normalize_server_payload`. -/
def normalizeServerPayload (server : Fields) (existing : Option Record) (draw : Draw) :
    Except PyError Record := do
  let serverId := orText
    (strip (textOrPrevious std server "server_id" (existing.map Record.serverId) [])) draw.uuid
  let name ← required "name"
    (strip (textOrPrevious std server "name" (existing.map Record.name) serverId))
  let transport ← validateTransport std
    (textOrPrevious std server "transport" (existing.map Record.transport) (py "stdio"))
  let command ← normalizeCommand std server existing
  let env ← normalizeEnv std server existing
  let tools ← normalizeTools server existing
  let discoveryStatus ← normalizeDiscoveryStatus std server existing tools
  let timeoutSeconds ← normalizeTimeout std server existing
  pure
    { serverId := serverId
      name := name
      transport := transport
      command := command
      args := normalizeArgs std server existing
      env := env
      cwd := strip (textOrPrevious std server "cwd" (existing.map Record.cwd) [])
      enabled := normalizeEnabled server existing
      tools := tools
      timeoutSeconds := timeoutSeconds
      lastSyncAt := (server.get? (py "last_sync_at")).getD
        (existing.elim .null Record.lastSyncAt)
      lastError := textOrPrevious std server "last_error" (existing.map Record.lastError) []
      discoveryStatus := discoveryStatus
      createdAt := truthyText std
        [existing.map fun found => .str found.createdAt, server.get? (py "created_at"),
          some (.str draw.now)]
      updatedAt := draw.now }

end Normalize

/-! ## The store -/

def Record.encodable (record : Record) : Bool :=
  Encodable record.serverId && Encodable record.name && Encodable record.transport &&
    Encodable record.command && record.args.all (Encodable ·) &&
    record.env.all (fun entry => Encodable entry.1 && Encodable entry.2) &&
    Encodable record.cwd && itemsEncodable record.tools && jsonEncodable record.lastSyncAt &&
    Encodable record.lastError && Encodable record.discoveryStatus &&
    Encodable record.createdAt && Encodable record.updatedAt

/-- The text by which an upsert looks for the existing record. -/
def lookupText (std : Stdlib) (server : Fields) (key : String) : PyStr :=
  strip (truthyText std [server.get? (py key)])

/-- The record that a payload replaces. -/
def existingFor (std : Stdlib) (servers : List Record) (server : Fields) : Option Record :=
  let byId :=
    if lookupText std server "server_id" = [] then none
    else servers.find? fun item => item.serverId = lookupText std server "server_id"
  byId.or (servers.find? fun item => item.name = lookupText std server "name")

/-- Another server has the name. -/
def nameTaken (normalized : Record) (servers : List Record) : Bool :=
  servers.any fun other =>
    other.name = normalized.name ∧ other.serverId ≠ normalized.serverId

/-- The servers after the upsert of a record. -/
def withRecord (normalized : Record) (servers : List Record) : List Record :=
  servers.filter (fun item => item.serverId ≠ normalized.serverId) ++ [normalized]

/-- `upsert_server`: the answer and the servers in the file, none where a write that failed
left the file empty. -/
def upsertServer (std : Stdlib) (servers : List Record) (server : Fields) (draw : Draw) :
    Except PyError Record × Option (List Record) :=
  match normalizeServerPayload std server (existingFor std servers server) draw with
  | .error raised => (.error raised, some servers)
  | .ok normalized =>
    if nameTaken normalized servers then
      (.error (.valueError (py "MCP server name already exists: " ++ normalized.name)),
        some servers)
    else if (withRecord normalized servers).all Record.encodable then
      (.ok normalized, some (withRecord normalized servers))
    else (.error .unicodeEncodeError, none)

/-- What the store has written before. -/
structure Record.Normal (record : Record) : Prop where
  serverId : Trimmed record.serverId
  name : Trimmed record.name
  transport : record.transport = py "stdio"
  command : Trimmed record.command
  cwd : strip record.cwd = record.cwd
  discoveryStatus : record.discoveryStatus ∈ discoveryStatuses
  createdAt : record.createdAt ≠ []
  encodable : record.encodable = true

/-- The server lists that the store keeps. -/
structure Stored (servers : List Record) : Prop where
  normal : ∀ record ∈ servers, record.Normal
  distinctIds : (servers.map Record.serverId).Nodup
  distinctNames : (servers.map Record.name).Nodup

/-! ## What an upsert promises -/

section Promise

variable (std : Stdlib)

/-- `str(value or "")`. -/
def plainText (value : Json) : PyStr :=
  truthyText std [some value]

/-- A field has what the payload says, or what it was. -/
def Follows {α : Type} (server : Fields) (key : String) (previous : Option Record)
    (field : Record → α) (means : Json → α) (saved : Record) : Prop :=
  match server.get? (py key) with
  | some value => field saved = means value
  | none => ∀ old ∈ previous, field saved = field old

def listed (value : Json) : List Json :=
  match value with
  | .arr items => items
  | _ => []

def entriesOf (value : Json) : Fields :=
  match value with
  | .obj fields => fields
  | _ => []

/-- Every field but the time of the update, which no payload sets. -/
structure FollowsPayload (server : Fields) (previous : Option Record) (saved : Record) :
    Prop where
  serverId : Follows server "server_id" previous (·.serverId)
    (fun value => strip (plainText std value)) saved
  name : Follows server "name" previous (·.name) (fun value => strip (plainText std value)) saved
  transport : Follows server "transport" previous (·.transport)
    (fun value => lower std (strip (orText (plainText std value) (py "stdio")))) saved
  command : Follows server "command" previous (·.command)
    (fun value => strip (plainText std value)) saved
  args : Follows server "args" previous (·.args) (fun value => (listed value).map (str std)) saved
  env : Follows server "env" previous (·.env)
    (fun value => (entriesOf value).map fun entry => (entry.1, str std entry.2)) saved
  cwd : Follows server "cwd" previous (·.cwd) (fun value => strip (plainText std value)) saved
  enabled : Follows server "enabled" previous (·.enabled) Json.truthy saved
  tools : Follows server "tools" previous (·.tools) listed saved
  timeoutSeconds : Follows server "timeout_seconds" previous (fun record =>
    (.ok record.timeoutSeconds : Except PyError PyFloat)) (timeoutOf std) saved
  lastSyncAt : Follows server "last_sync_at" previous (·.lastSyncAt) id saved
  lastError : Follows server "last_error" previous (·.lastError) (plainText std) saved
  discoveryStatus : Follows server "discovery_status" previous (·.discoveryStatus)
    (fun value => statusOr (statusText std value) saved.tools) saved
  createdAt : Follows server "created_at" previous (·.createdAt) (plainText std) saved

/-- The record with the returned identifier follows the payload, the others are what they
were, and identifiers and names stay distinct. -/
structure Updated (before : List Record) (server : Fields) (saved : Record)
    (after : List Record) : Prop where
  stored : saved ∈ after
  follows : FollowsPayload std server
    (before.find? fun record => record.serverId = saved.serverId) saved
  others : after.filter (fun record => record.serverId ≠ saved.serverId) =
    before.filter fun record => record.serverId ≠ saved.serverId
  distinctIds : (after.map Record.serverId).Nodup
  distinctNames : (after.map Record.name).Nodup

/-- A call that succeeds updates the file, one that raises leaves it alone. -/
def UpdatesOrKeeps (before : List Record) (server : Fields)
    (result : Except PyError Record × Option (List Record)) : Prop :=
  match result.1 with
  | .ok saved => ∃ after, result.2 = some after ∧ Updated std before server saved after
  | .error _ => result.2 = some before

/-- A field is not named with an empty value while there is one to keep. -/
def NotEmptied (server : Fields) (key : String) (kept : PyStr) : Prop :=
  ∀ value ∈ server.get? (py key), value.truthy = false → kept = []

/-- The record keeps the time of its creation, and a new one has to be given one. -/
def CreatedAtAgrees (existing : Option Record) (value : Json) : Prop :=
  match existing with
  | some found => found.createdAt = plainText std value
  | none => value.truthy = true

/-- No field is named with a value that the merge passes over. -/
structure MergedAsNamed (server : Fields) (existing : Option Record) : Prop where
  serverId : ∀ value ∈ server.get? (py "server_id"), strip (plainText std value) ≠ []
  name : ∀ value ∈ server.get? (py "name"), value.truthy = true
  command : NotEmptied server "command" (existing.elim [] Record.command)
  cwd : NotEmptied server "cwd" (existing.elim [] Record.cwd)
  timeoutSeconds : server.get? (py "timeout_seconds") = none →
    ∀ old ∈ existing, old.timeoutSeconds.truthy = true
  lastError : NotEmptied server "last_error" (existing.elim [] Record.lastError)
  createdAt : ∀ value ∈ server.get? (py "created_at"), CreatedAtAgrees std existing value

end Promise

/-! ## The merge of one field -/

section Merge

variable {std : Stdlib} {server : Fields} {existing : Option Record} {draw : Draw}
  {saved : Record}

variable {value : Json} {key : String}

theorem plainText_truthy (htruthy : value.truthy = true) : plainText std value = str std value :=
  truthyText_truthy std htruthy []

theorem plainText_falsy (hfalsy : value.truthy = false) : plainText std value = [] := by
  rw [plainText, truthyText_falsy std hfalsy]
  rfl

theorem textOrPrevious_absent (hkey : server.get? (py key) = none) (previous : Option PyStr)
    (default : PyStr) :
    textOrPrevious std server key previous default = orText (previous.getD []) default := by
  have hdefault : truthyText std [some (.str default)] = default := by
    by_cases hempty : default = []
    · rw [hempty]
      rfl
    · exact truthyText_text std hempty []
  rw [textOrPrevious, hkey, truthyText_none]
  cases previous with
  | none => rw [Option.map_none, truthyText_none, hdefault]; rfl
  | some text =>
    by_cases hempty : text = []
    · rw [Option.map_some, hempty, truthyText_empty, hdefault]
      rfl
    · rw [Option.map_some, truthyText_text std hempty]
      exact (orText_of_ne hempty default).symm

theorem textOrPrevious_truthy (hkey : server.get? (py key) = some value)
    (htruthy : value.truthy = true) (previous : Option PyStr) (default : PyStr) :
    textOrPrevious std server key previous default = plainText std value := by
  rw [textOrPrevious, hkey, truthyText_truthy std htruthy, plainText_truthy htruthy]

theorem textOrPrevious_falsy (hkey : server.get? (py key) = some value)
    (hfalsy : value.truthy = false) (previous : Option PyStr) (default : PyStr) :
    textOrPrevious std server key previous default = orText (previous.getD []) default := by
  have habsent : Dict.get? ([] : Fields) (py key) = none := rfl
  have hrest : textOrPrevious std [] key previous default =
      orText (previous.getD []) default := textOrPrevious_absent habsent previous default
  rw [← hrest, textOrPrevious, textOrPrevious, hkey, truthyText_falsy std hfalsy, habsent,
    truthyText_none]

/-- What a payload that passes the normalisation is made into. -/
structure Normalized (std : Stdlib) (server : Fields) (existing : Option Record) (draw : Draw)
    (saved : Record) : Prop where
  serverId : saved.serverId = orText
    (strip (textOrPrevious std server "server_id" (existing.map Record.serverId) [])) draw.uuid
  name : saved.name =
    strip (textOrPrevious std server "name" (existing.map Record.name) saved.serverId)
  named : saved.name ≠ []
  transport : validateTransport std (textOrPrevious std server "transport"
    (existing.map Record.transport) (py "stdio")) = .ok saved.transport
  command : saved.command =
    strip (textOrPrevious std server "command" (existing.map Record.command) [])
  commanded : saved.command ≠ []
  args : saved.args = normalizeArgs std server existing
  env : normalizeEnv std server existing = .ok saved.env
  cwd : saved.cwd = strip (textOrPrevious std server "cwd" (existing.map Record.cwd) [])
  enabled : saved.enabled = normalizeEnabled server existing
  tools : normalizeTools server existing = .ok saved.tools
  timeoutSeconds : normalizeTimeout std server existing = .ok saved.timeoutSeconds
  lastSyncAt : saved.lastSyncAt =
    (server.get? (py "last_sync_at")).getD (existing.elim .null Record.lastSyncAt)
  lastError : saved.lastError =
    textOrPrevious std server "last_error" (existing.map Record.lastError) []
  discoveryStatus : normalizeDiscoveryStatus std server existing saved.tools =
    .ok saved.discoveryStatus
  createdAt : saved.createdAt = truthyText std
    [existing.map fun found => .str found.createdAt, server.get? (py "created_at"),
      some (.str draw.now)]

theorem required_eq_ok {field : String} {text result : PyStr}
    (hok : required field text = .ok result) : result = text ∧ text ≠ [] := by
  rw [required] at hok
  split at hok
  · exact absurd hok (by simp)
  · next hne => exact ⟨(Except.ok.inj hok).symm, hne⟩

theorem normalizeCommand_eq_ok {command : PyStr}
    (hok : normalizeCommand std server existing = .ok command) :
    command = strip (textOrPrevious std server "command" (existing.map Record.command) []) ∧
      command ≠ [] := by
  simp only [normalizeCommand] at hok
  split at hok
  · exact absurd hok (by simp)
  · next hne =>
    obtain rfl := Except.ok.inj hok
    exact ⟨rfl, hne⟩

theorem normalized_of_ok (hok : normalizeServerPayload std server existing draw = .ok saved) :
    Normalized std server existing draw saved := by
  obtain ⟨name, hname, hok⟩ := Loops.exists_of_bind_eq_ok hok
  obtain ⟨transport, htransport, hok⟩ := Loops.exists_of_bind_eq_ok hok
  obtain ⟨command, hcommand, hok⟩ := Loops.exists_of_bind_eq_ok hok
  obtain ⟨env, henv, hok⟩ := Loops.exists_of_bind_eq_ok hok
  obtain ⟨tools, htools, hok⟩ := Loops.exists_of_bind_eq_ok hok
  obtain ⟨discoveryStatus, hstatus, hok⟩ := Loops.exists_of_bind_eq_ok hok
  obtain ⟨timeoutSeconds, htimeout, hok⟩ := Loops.exists_of_bind_eq_ok hok
  obtain rfl := Except.ok.inj hok
  obtain ⟨hname, hnamed⟩ := required_eq_ok hname
  obtain ⟨hcommand, hcommanded⟩ := normalizeCommand_eq_ok hcommand
  exact
    { serverId := rfl
      name := hname
      named := hname ▸ hnamed
      transport := htransport
      command := hcommand
      commanded := hcommanded
      args := rfl
      env := henv
      cwd := rfl
      enabled := rfl
      tools := htools
      timeoutSeconds := htimeout
      lastSyncAt := rfl
      lastError := rfl
      discoveryStatus := hstatus
      createdAt := rfl }

theorem follows_of {α : Type} {field : Record → α} {means : Json → α}
    (hgiven : ∀ value, server.get? (py key) = some value → field saved = means value)
    (hkept : server.get? (py key) = none → ∀ old, existing = some old →
      field saved = field old) : Follows server key existing field means saved := by
  unfold Follows
  cases hkey : server.get? (py key) with
  | none => exact hkept hkey
  | some value => exact hgiven value hkey

/-- A field that is merged by truthiness, perhaps stripped. -/
theorem follows_text_iff {field : Record → PyStr} (clean : PyStr → PyStr) (hempty : clean [] = [])
    (hprevious : ∀ old ∈ existing, clean (field old) = field old) (hsaved : field saved =
      clean (textOrPrevious std server key (existing.map field) [])) :
    Follows server key existing field (fun value => clean (plainText std value)) saved ↔
      NotEmptied server key (existing.elim [] field) := by
  have hkept : clean (orText ((existing.map field).getD []) []) = existing.elim [] field := by
    cases existing with
    | none => exact hempty
    | some old =>
      have hsame : orText (field old) [] = field old := by
        rw [orText]
        split
        · next hnone => exact hnone.symm
        · rfl
      exact (congrArg clean hsame).trans (hprevious old rfl)
  unfold Follows NotEmptied
  cases hkey : server.get? (py key) with
  | none =>
    refine iff_of_true ?_ (by simp)
    intro old hold
    rw [hsaved, textOrPrevious_absent hkey, hkept]
    obtain rfl := hold
    rfl
  | some value =>
    simp only [Option.mem_some_iff, forall_eq']
    cases htruthy : value.truthy with
    | true =>
      rw [hsaved, textOrPrevious_truthy hkey htruthy]
      exact iff_of_true rfl (by simp)
    | false =>
      rw [hsaved, textOrPrevious_falsy hkey htruthy, hkept, plainText_falsy htruthy, hempty]
      exact ⟨fun hkeeps _ => hkeeps, fun hkeeps => hkeeps rfl⟩

/-- The status of a stored record is read as it is. -/
theorem statusOr_statusText {status : PyStr} (hstatus : status ∈ discoveryStatuses)
    (tools : List Json) : statusOr (statusText std (.str status)) tools = status := by
  simp only [discoveryStatuses, List.mem_cons, List.not_mem_nil, or_false] at hstatus
  obtain rfl | rfl | rfl | rfl := hstatus <;> rfl

section Saved

variable (hsaved : Normalized std server existing draw saved)

include hsaved

theorem follows_serverId_iff (hdraw : draw.uuid ≠ []) (hnormal : ∀ old ∈ existing, old.Normal) :
    Follows server "server_id" existing (·.serverId) (fun value => strip (plainText std value))
        saved ↔
      ∀ value ∈ server.get? (py "server_id"), strip (plainText std value) ≠ [] := by
  have hid := hsaved.serverId
  have hsome : saved.serverId ≠ [] := by
    rw [hid, orText]
    split
    · exact hdraw
    · next hne => exact hne
  unfold Follows
  cases hkey : server.get? (py "server_id") with
  | none =>
    refine iff_of_true ?_ (by simp)
    intro old hold
    obtain rfl := hold
    have htrimmed := (hnormal old rfl).serverId
    rw [textOrPrevious_absent hkey, Option.map_some, Option.getD_some,
      orText_of_ne htrimmed.2, htrimmed.1, orText_of_ne htrimmed.2] at hid
    exact hid
  | some value =>
    simp only [Option.mem_some_iff, forall_eq']
    constructor
    · intro hfollows
      exact hfollows ▸ hsome
    · intro hgiven
      have htruthy : value.truthy = true := by
        by_contra hfalsy
        rw [plainText_falsy (Bool.eq_false_of_not_eq_true hfalsy)] at hgiven
        exact hgiven rfl
      rw [textOrPrevious_truthy hkey htruthy, orText_of_ne hgiven] at hid
      exact hid

theorem follows_name_iff (hnormal : ∀ old ∈ existing, old.Normal) :
    Follows server "name" existing (·.name) (fun value => strip (plainText std value)) saved ↔
      ∀ value ∈ server.get? (py "name"), value.truthy = true := by
  have hname := hsaved.name
  unfold Follows
  cases hkey : server.get? (py "name") with
  | none =>
    refine iff_of_true ?_ (by simp)
    intro old hold
    obtain rfl := hold
    have htrimmed := (hnormal old rfl).name
    rw [textOrPrevious_absent hkey, Option.map_some, Option.getD_some,
      orText_of_ne htrimmed.2, htrimmed.1] at hname
    exact hname
  | some value =>
    simp only [Option.mem_some_iff, forall_eq']
    constructor
    · intro hfollows
      by_contra hfalsy
      rw [plainText_falsy (Bool.eq_false_of_not_eq_true hfalsy)] at hfollows
      exact hsaved.named hfollows
    · intro htruthy
      rw [textOrPrevious_truthy hkey htruthy] at hname
      exact hname

theorem follows_transport (hnormal : ∀ old ∈ existing, old.Normal) :
    Follows server "transport" existing (·.transport)
      (fun value => lower std (strip (orText (plainText std value) (py "stdio")))) saved := by
  have htransport := hsaved.transport
  simp only [validateTransport] at htransport
  split at htransport
  · next hstdio =>
    have hsame := Except.ok.inj htransport
    apply follows_of
    · intro value hkey
      cases htruthy : value.truthy with
      | true =>
        rw [textOrPrevious_truthy hkey htruthy] at hsame
        exact hsame.symm
      | false =>
        rw [plainText_falsy htruthy, ← hsame, hstdio]
        rfl
    · intro _ old hold
      rw [← hsame, hstdio, (hnormal old hold).transport]
  · exact absurd htransport (by simp)

theorem follows_command_iff (hnormal : ∀ old ∈ existing, old.Normal) :
    Follows server "command" existing (·.command) (fun value => strip (plainText std value))
        saved ↔
      NotEmptied server "command" (existing.elim [] Record.command) :=
  follows_text_iff strip rfl (fun old hold => (hnormal old hold).command.1) hsaved.command

theorem follows_cwd_iff (hnormal : ∀ old ∈ existing, old.Normal) :
    Follows server "cwd" existing (·.cwd) (fun value => strip (plainText std value)) saved ↔
      NotEmptied server "cwd" (existing.elim [] Record.cwd) :=
  follows_text_iff strip rfl (fun old hold => (hnormal old hold).cwd) hsaved.cwd

theorem follows_lastError_iff :
    Follows server "last_error" existing (·.lastError) (plainText std) saved ↔
      NotEmptied server "last_error" (existing.elim [] Record.lastError) :=
  follows_text_iff id rfl (fun _ _ => rfl) hsaved.lastError

theorem follows_args :
    Follows server "args" existing (·.args) (fun value => (listed value).map (str std)) saved := by
  have hargs := hsaved.args
  rw [normalizeArgs] at hargs
  apply follows_of
  · intro value hkey
    rw [hkey] at hargs
    cases value <;> exact hargs
  · rintro hkey old rfl
    rw [hkey] at hargs
    exact hargs

theorem follows_env :
    Follows server "env" existing (·.env)
      (fun value => (entriesOf value).map fun entry => (entry.1, str std entry.2)) saved := by
  have henv := hsaved.env
  rw [normalizeEnv] at henv
  apply follows_of
  · intro value hkey
    rw [hkey] at henv
    cases value with
    | null => exact (Except.ok.inj henv).symm
    | obj fields => exact (Except.ok.inj henv).symm
    | bool value => exact absurd henv (by simp)
    | int value => exact absurd henv (by simp)
    | float value => exact absurd henv (by simp)
    | str value => exact absurd henv (by simp)
    | arr items => exact absurd henv (by simp)
  · rintro hkey old rfl
    rw [hkey] at henv
    exact (Except.ok.inj henv).symm

theorem follows_enabled : Follows server "enabled" existing (·.enabled) Json.truthy saved := by
  have henabled := hsaved.enabled
  rw [normalizeEnabled] at henabled
  apply follows_of
  · intro value hkey
    rw [hkey] at henabled
    exact henabled
  · rintro hkey old rfl
    rw [hkey] at henabled
    exact henabled

theorem follows_tools : Follows server "tools" existing (·.tools) listed saved := by
  have htools := hsaved.tools
  rw [normalizeTools] at htools
  apply follows_of
  · intro value hkey
    rw [hkey] at htools
    cases value with
    | null => exact (Except.ok.inj htools).symm
    | arr items => exact (Except.ok.inj htools).symm
    | bool value => exact absurd htools (by simp)
    | int value => exact absurd htools (by simp)
    | float value => exact absurd htools (by simp)
    | str value => exact absurd htools (by simp)
    | obj fields => exact absurd htools (by simp)
  · rintro hkey old rfl
    rw [hkey] at htools
    exact (Except.ok.inj htools).symm

theorem follows_timeoutSeconds_iff :
    Follows server "timeout_seconds" existing (fun record =>
        (.ok record.timeoutSeconds : Except PyError PyFloat)) (timeoutOf std) saved ↔
      (server.get? (py "timeout_seconds") = none →
        ∀ old ∈ existing, old.timeoutSeconds.truthy = true) := by
  have htimeout := hsaved.timeoutSeconds
  rw [normalizeTimeout] at htimeout
  unfold Follows
  cases hkey : server.get? (py "timeout_seconds") with
  | some value =>
    rw [hkey] at htimeout
    exact iff_of_true htimeout.symm (by simp)
  | none =>
    rw [hkey] at htimeout
    simp only [forall_const]
    apply forall₂_congr
    rintro old rfl
    have hread : timeoutOf std (.float old.timeoutSeconds) = .ok saved.timeoutSeconds := htimeout
    rw [← hread]
    cases htruthy : old.timeoutSeconds.truthy with
    | true => exact iff_of_true (if_pos htruthy) rfl
    | false =>
      have hdefault : timeoutOf std (.float old.timeoutSeconds) = .ok (.finite false 120) :=
        if_neg (by simp [Json.truthy, htruthy])
      refine iff_of_false ?_ (by simp)
      rw [hdefault]
      intro hsame
      rw [← Except.ok.inj hsame] at htruthy
      exact absurd htruthy (by decide)

theorem follows_lastSyncAt : Follows server "last_sync_at" existing (·.lastSyncAt) id saved := by
  have hsync := hsaved.lastSyncAt
  apply follows_of
  · intro value hkey
    rw [hkey] at hsync
    exact hsync
  · rintro hkey old rfl
    rw [hkey] at hsync
    exact hsync

theorem follows_discoveryStatus (hnormal : ∀ old ∈ existing, old.Normal) :
    Follows server "discovery_status" existing (·.discoveryStatus)
      (fun value => statusOr (statusText std value) saved.tools) saved := by
  have hstatus := hsaved.discoveryStatus
  simp only [normalizeDiscoveryStatus] at hstatus
  split at hstatus
  · next hlisted =>
    have hsame := Except.ok.inj hstatus
    apply follows_of
    · intro value hkey
      rw [hkey] at hsame
      exact hsame.symm
    · rintro hkey old rfl
      rw [hkey] at hsame
      exact hsame.symm.trans (statusOr_statusText (hnormal old rfl).discoveryStatus _)
  · exact absurd hstatus (by simp)

theorem follows_createdAt_iff (hdraw : draw.now ≠ []) (hnormal : ∀ old ∈ existing, old.Normal) :
    Follows server "created_at" existing (·.createdAt) (plainText std) saved ↔
      ∀ value ∈ server.get? (py "created_at"), CreatedAtAgrees std existing value := by
  have hcreated := hsaved.createdAt
  cases existing with
  | some found =>
    have hfound := (hnormal found rfl).createdAt
    rw [Option.map_some, truthyText_text std hfound] at hcreated
    unfold Follows
    cases hkey : server.get? (py "created_at") with
    | none =>
      refine iff_of_true ?_ (by simp)
      rintro old ⟨⟩
      exact hcreated
    | some value => simp only [Option.mem_some_iff, forall_eq', CreatedAtAgrees, hcreated]
  | none =>
    rw [Option.map_none, truthyText_none] at hcreated
    unfold Follows
    cases hkey : server.get? (py "created_at") with
    | none => exact iff_of_true (by simp) (by simp)
    | some value =>
      rw [hkey] at hcreated
      simp only [Option.mem_some_iff, forall_eq', CreatedAtAgrees]
      constructor
      · intro hfollows
        by_contra hfalsy
        have hfalsy := Bool.eq_false_of_not_eq_true hfalsy
        rw [truthyText_falsy std hfalsy, truthyText_text std hdraw] at hcreated
        rw [hcreated, plainText_falsy hfalsy] at hfollows
        exact hdraw hfollows
      · intro htruthy
        rw [hcreated, truthyText_truthy std htruthy, plainText_truthy htruthy]

/-- Which fields follow the payload is a matter of those that are merged by truthiness. -/
theorem followsPayload_iff (huuid : draw.uuid ≠ []) (hnow : draw.now ≠ [])
    (hnormal : ∀ old ∈ existing, old.Normal) :
    FollowsPayload std server existing saved ↔ MergedAsNamed std server existing := by
  constructor
  · intro hfollows
    exact
      { serverId := (follows_serverId_iff hsaved huuid hnormal).mp hfollows.serverId
        name := (follows_name_iff hsaved hnormal).mp hfollows.name
        command := (follows_command_iff hsaved hnormal).mp hfollows.command
        cwd := (follows_cwd_iff hsaved hnormal).mp hfollows.cwd
        timeoutSeconds := (follows_timeoutSeconds_iff hsaved).mp hfollows.timeoutSeconds
        lastError := (follows_lastError_iff hsaved).mp hfollows.lastError
        createdAt := (follows_createdAt_iff hsaved hnow hnormal).mp hfollows.createdAt }
  · intro hmerged
    exact
      { serverId := (follows_serverId_iff hsaved huuid hnormal).mpr hmerged.serverId
        name := (follows_name_iff hsaved hnormal).mpr hmerged.name
        transport := follows_transport hsaved hnormal
        command := (follows_command_iff hsaved hnormal).mpr hmerged.command
        args := follows_args hsaved
        env := follows_env hsaved
        cwd := (follows_cwd_iff hsaved hnormal).mpr hmerged.cwd
        enabled := follows_enabled hsaved
        tools := follows_tools hsaved
        timeoutSeconds := (follows_timeoutSeconds_iff hsaved).mpr hmerged.timeoutSeconds
        lastSyncAt := follows_lastSyncAt hsaved
        lastError := (follows_lastError_iff hsaved).mpr hmerged.lastError
        discoveryStatus := follows_discoveryStatus hsaved hnormal
        createdAt := (follows_createdAt_iff hsaved hnow hnormal).mpr hmerged.createdAt }

end Saved

/-! ## The whole file -/

section File

variable {servers : List Record}

theorem mem_of_existingFor {old : Record}
    (hexisting : existingFor std servers server = some old) : old ∈ servers := by
  rw [existingFor, Option.or_eq_some_iff] at hexisting
  rcases hexisting with hid | ⟨_, hname⟩
  · split at hid
    · exact absurd hid (by simp)
    · exact List.mem_of_find?_eq_some hid
  · exact List.mem_of_find?_eq_some hname

theorem given_of_lookupText (hlookup : lookupText std server key ≠ []) :
    ∃ value, server.get? (py key) = some value ∧ value.truthy = true ∧
      lookupText std server key = strip (plainText std value) := by
  rw [lookupText] at hlookup
  cases hkey : server.get? (py key) with
  | none =>
    rw [hkey] at hlookup
    exact absurd rfl hlookup
  | some value =>
    have htruthy : value.truthy = true := by
      by_contra hfalsy
      rw [hkey, truthyText_falsy std (Bool.eq_false_of_not_eq_true hfalsy)] at hlookup
      exact hlookup rfl
    exact ⟨value, rfl, htruthy, by rw [lookupText, hkey]; rfl⟩

/-- A name that is looked for is the name of the record. -/
theorem Normalized.name_eq (hsaved : Normalized std server existing draw saved)
    (hlookup : lookupText std server "name" ≠ []) : saved.name = lookupText std server "name" := by
  obtain ⟨value, hkey, htruthy, hvalue⟩ := given_of_lookupText hlookup
  rw [hsaved.name, textOrPrevious_truthy hkey htruthy, hvalue]

/-- The record with the name that is looked for has the identifier of the new one. -/
theorem serverId_of_name (hsaved : Normalized std server existing draw saved)
    (hstored : Stored servers) (hfree : nameTaken saved servers = false) {old : Record}
    (hold : (servers.find? fun item => item.name = lookupText std server "name") = some old) :
    old.serverId = saved.serverId := by
  have hmem := List.mem_of_find?_eq_some hold
  have hname : old.name = lookupText std server "name" := by
    simpa using List.find?_some hold
  have hsame := hsaved.name_eq (hname ▸ (hstored.normal old hmem).name.2)
  by_contra hne
  have htaken : nameTaken saved servers = true :=
    List.any_eq_true.mpr ⟨old, hmem, by simp [hname, hsame, hne]⟩
  rw [htaken] at hfree
  exact absurd hfree (by simp)

/-- The record that a payload replaces is the one with the returned identifier. -/
theorem find?_serverId (hstored : Stored servers)
    (hfresh : ∀ record ∈ servers, record.serverId ≠ draw.uuid)
    (hsaved : Normalized std server (existingFor std servers server) draw saved)
    (hfree : nameTaken saved servers = false) :
    (servers.find? fun record => record.serverId = saved.serverId) =
      existingFor std servers server := by
  have hbyName : ∀ old, (servers.find? fun item =>
      item.name = lookupText std server "name") = some old →
      (servers.find? fun record => record.serverId = saved.serverId) = some old := by
    intro old hold
    rw [← serverId_of_name hsaved hstored hfree hold]
    exact (KeyedList.find?_eq_some_iff hstored.distinctIds _ _).mpr
      ⟨List.mem_of_find?_eq_some hold, rfl⟩
  have hid := hsaved.serverId
  by_cases hlookup : lookupText std server "server_id" = []
  · have hexisting : existingFor std servers server =
        servers.find? fun item => item.name = lookupText std server "name" := by
      rw [existingFor, if_pos hlookup, Option.none_or]
    cases hname : servers.find? fun item => item.name = lookupText std server "name" with
    | some old => rw [hexisting, hname, hbyName old hname]
    | none =>
      have hblank : strip (textOrPrevious std server "server_id" none []) = [] := by
        have hsame : textOrPrevious std server "server_id" none [] =
            truthyText std [server.get? (py "server_id")] := by
          cases hkey : server.get? (py "server_id") with
          | none => rw [textOrPrevious_absent hkey]; rfl
          | some value =>
            cases htruthy : value.truthy with
            | true => rw [textOrPrevious_truthy hkey htruthy]; rfl
            | false =>
              rw [textOrPrevious_falsy hkey htruthy, truthyText_falsy std htruthy]
              rfl
        rw [hsame]
        exact hlookup
      rw [hexisting, hname, Option.map_none, hblank] at hid
      rw [hexisting, hname, List.find?_eq_none]
      intro record hrecord
      rw [hid]
      simpa [orText] using hfresh record hrecord
  · obtain ⟨value, hkey, htruthy, hvalue⟩ := given_of_lookupText hlookup
    rw [textOrPrevious_truthy hkey htruthy, ← hvalue, orText_of_ne hlookup] at hid
    rw [existingFor, if_neg hlookup, ← hid]
    cases hfind : servers.find? fun record => record.serverId = saved.serverId with
    | some old => rfl
    | none =>
      cases hname : servers.find? fun item => item.name = lookupText std server "name" with
      | none => rfl
      | some old =>
        rw [hbyName old hname] at hfind
        exact absurd hfind (by simp)

theorem nodup_withRecord {α : Type} (key : Record → α) (hnodup : (servers.map key).Nodup)
    (hfree : ∀ other ∈ servers, other.serverId ≠ saved.serverId → key other ≠ key saved) :
    ((withRecord saved servers).map key).Nodup := by
  rw [withRecord, List.map_append, List.nodup_append]
  refine ⟨hnodup.sublist (List.filter_sublist.map _), List.nodup_singleton _, ?_⟩
  intro left hleft right hright
  obtain ⟨other, hother, rfl⟩ := List.mem_map.mp hleft
  rw [List.map_singleton, List.mem_singleton] at hright
  obtain ⟨hmem, hne⟩ := List.mem_filter.mp hother
  exact hright ▸ hfree other hmem (of_decide_eq_true hne)

theorem name_ne_of_free (hfree : nameTaken saved servers = false) :
    ∀ other ∈ servers, other.serverId ≠ saved.serverId → other.name ≠ saved.name := by
  intro other hother hne hname
  rw [nameTaken, List.any_eq_false] at hfree
  exact hfree other hother (by simp [hname, hne])

theorem updated_withRecord_iff (hstored : Stored servers) (huuid : draw.uuid ≠ [])
    (hnow : draw.now ≠ []) (hfresh : ∀ record ∈ servers, record.serverId ≠ draw.uuid)
    (hsaved : Normalized std server (existingFor std servers server) draw saved)
    (hfree : nameTaken saved servers = false) :
    Updated std servers server saved (withRecord saved servers) ↔
      MergedAsNamed std server (existingFor std servers server) := by
  have hnormal : ∀ old ∈ existingFor std servers server, old.Normal :=
    fun old hold => hstored.normal old (mem_of_existingFor hold)
  rw [← followsPayload_iff hsaved huuid hnow hnormal, ← find?_serverId hstored hfresh hsaved hfree]
  constructor
  · exact fun hupdated => hupdated.follows
  · intro hfollows
    exact
      { stored := List.mem_append_right _ (List.mem_singleton_self saved)
        follows := hfollows
        others := by simp [withRecord, List.filter_filter]
        distinctIds := nodup_withRecord _ hstored.distinctIds fun _ _ hne => hne
        distinctNames := nodup_withRecord _ hstored.distinctNames (name_ne_of_free hfree) }

theorem all_encodable_withRecord (hstored : Stored servers) :
    (withRecord saved servers).all Record.encodable = saved.encodable := by
  rw [withRecord, List.all_append]
  have hothers : (servers.filter fun item => item.serverId ≠ saved.serverId).all
      Record.encodable = true := by
    rw [List.all_eq_true]
    intro record hrecord
    exact (hstored.normal record (List.mem_of_mem_filter hrecord)).encodable
  rw [hothers, Bool.true_and, List.all_cons, List.all_nil, Bool.and_true]

end File

/-! ## What the store keeps -/

theorem str_ne_nil (hrepr : ∀ number, std.floatRepr number ≠ []) (htruthy : value.truthy = true) :
    str std value ≠ [] := by
  cases value with
  | null => exact absurd htruthy (by simp [Json.truthy])
  | bool flag =>
    cases flag with
    | true => exact List.cons_ne_nil _ _
    | false => exact List.cons_ne_nil _ _
  | int n =>
    cases n with
    | ofNat n => exact decimal_ne_nil n
    | negSucc n => exact List.cons_ne_nil _ _
  | float number => exact hrepr number
  | str text => simpa [Json.truthy, str] using htruthy
  | arr items => exact List.cons_ne_nil _ _
  | obj fields => exact List.cons_ne_nil _ _

theorem Normalized.normal (hsaved : Normalized std server existing draw saved)
    (hrepr : ∀ number, std.floatRepr number ≠ []) (huuid : Trimmed draw.uuid)
    (hnow : draw.now ≠ []) (hnormal : ∀ old ∈ existing, old.Normal)
    (hencodable : saved.encodable = true) : saved.Normal where
  serverId := by
    rw [hsaved.serverId, orText]
    split
    · exact huuid
    · next hne => exact trimmed_of_strip hne
  name := by
    have hnamed := hsaved.named
    rw [hsaved.name] at hnamed ⊢
    exact trimmed_of_strip hnamed
  transport := by
    have htransport := hsaved.transport
    simp only [validateTransport] at htransport
    split at htransport
    · next hstdio => exact (Except.ok.inj htransport).symm.trans hstdio
    · exact absurd htransport (by simp)
  command := by
    have hcommanded := hsaved.commanded
    rw [hsaved.command] at hcommanded ⊢
    exact trimmed_of_strip hcommanded
  cwd := by
    rw [hsaved.cwd]
    exact stripBy_idem isSpace _
  discoveryStatus := by
    have hstatus := hsaved.discoveryStatus
    simp only [normalizeDiscoveryStatus] at hstatus
    split at hstatus
    · next hlisted => exact Except.ok.inj hstatus ▸ hlisted
    · exact absurd hstatus (by simp)
  createdAt := by
    have hgiven : truthyText std [server.get? (py "created_at"), some (.str draw.now)] ≠ [] := by
      cases server.get? (py "created_at") with
      | none => rwa [truthyText_none, truthyText_text std hnow]
      | some value =>
        cases htruthy : value.truthy with
        | true =>
          rw [truthyText_truthy std htruthy]
          exact str_ne_nil hrepr htruthy
        | false => rwa [truthyText_falsy std htruthy, truthyText_text std hnow]
    rw [hsaved.createdAt]
    cases existing with
    | none => exact hgiven
    | some old =>
      have hcreated := (hnormal old rfl).createdAt
      rwa [Option.map_some, truthyText_text std hcreated]
  encodable := hencodable

/-- Unless a write is cut short, a call leaves a list of the kind that the store keeps. -/
theorem Stored.upsert {servers after : List Record} (hstored : Stored servers)
    (hrepr : ∀ number, std.floatRepr number ≠ []) (huuid : Trimmed draw.uuid) (hnow : draw.now ≠ [])
    (hafter : (upsertServer std servers server draw).2 = some after) : Stored after := by
  rw [upsertServer] at hafter
  cases hnormalized :
      normalizeServerPayload std server (existingFor std servers server) draw with
  | error raised =>
    rw [hnormalized] at hafter
    exact Option.some.inj hafter ▸ hstored
  | ok normalized =>
    rw [hnormalized] at hafter
    dsimp only at hafter
    split at hafter
    · exact Option.some.inj hafter ▸ hstored
    · next hfree =>
      split at hafter
      · next hencodable =>
        obtain rfl := Option.some.inj hafter
        rw [all_encodable_withRecord hstored] at hencodable
        have hfree := Bool.eq_false_of_not_eq_true hfree
        have hnormal := (normalized_of_ok hnormalized).normal hrepr huuid hnow
          (fun old hold => hstored.normal old (mem_of_existingFor hold)) hencodable
        refine ⟨?_, nodup_withRecord _ hstored.distinctIds fun _ _ hne => hne,
          nodup_withRecord _ hstored.distinctNames (name_ne_of_free hfree)⟩
        intro record hrecord
        cases List.mem_append.mp hrecord with
        | inl hold => exact hstored.normal record (List.mem_of_mem_filter hold)
        | inr hnew => exact List.mem_singleton.mp hnew ▸ hnormal
      · cases hafter

theorem Stored.delete {servers : List Record} (hstored : Stored servers) (serverId : PyStr) :
    Stored (servers.filter fun record => record.serverId ≠ serverId) where
  normal record hrecord := hstored.normal record (List.mem_of_mem_filter hrecord)
  distinctIds := hstored.distinctIds.sublist (List.filter_sublist.map _)
  distinctNames := hstored.distinctNames.sublist (List.filter_sublist.map _)

end Merge

/-- Over every list that the store keeps, a call updates the file field by field or leaves it
alone if and only if a payload that is accepted has no unpaired surrogates and names no field
with a value that its merge passes over. -/
theorem upsert_updates_fields_iff (std : Stdlib) {servers : List Record}
    (hstored : Stored servers) (server : Fields) {draw : Draw} (huuid : draw.uuid ≠ [])
    (hnow : draw.now ≠ []) (hfresh : ∀ record ∈ servers, record.serverId ≠ draw.uuid) :
    UpdatesOrKeeps std servers server (upsertServer std servers server draw) ↔
      ∀ saved, normalizeServerPayload std server (existingFor std servers server) draw =
          .ok saved → nameTaken saved servers = false →
        saved.encodable = true ∧ MergedAsNamed std server (existingFor std servers server) := by
  rw [upsertServer]
  cases hnormalized :
      normalizeServerPayload std server (existingFor std servers server) draw with
  | error raised => exact iff_of_true rfl (by simp)
  | ok saved =>
    have hsaved := normalized_of_ok hnormalized
    simp only [Except.ok.injEq, forall_eq', all_encodable_withRecord hstored]
    cases hfree : nameTaken saved servers with
    | true =>
      rw [if_pos rfl]
      exact iff_of_true rfl (by simp)
    | false =>
      rw [if_neg (by simp), forall_prop_of_true rfl]
      cases hencodable : saved.encodable with
      | false =>
        rw [if_neg (by simp)]
        exact iff_of_false (fun hkept => absurd hkept (by simp [UpdatesOrKeeps])) (by simp)
      | true =>
        rw [if_pos rfl, and_iff_right rfl,
          ← updated_withRecord_iff hstored huuid hnow hfresh hsaved hfree]
        constructor
        · rintro ⟨after, hafter, hupdated⟩
          obtain rfl := Option.some.inj hafter
          exact hupdated
        · exact fun hupdated => ⟨_, rfl, hupdated⟩

/-- A server whose last discovery has failed. -/
def failedServer : Record where
  serverId := py "search"
  name := py "search"
  transport := py "stdio"
  command := py "npx"
  args := []
  env := []
  cwd := []
  enabled := true
  tools := []
  timeoutSeconds := .finite false 120
  lastSyncAt := .null
  lastError := py "timed out"
  discoveryStatus := py "failed"
  createdAt := py "monday"
  updatedAt := py "monday"

def someDraw : Draw where
  uuid := py "fresh"
  now := py "tuesday"

theorem stored_failedServer : Stored [failedServer] where
  normal record hrecord := by
    rw [List.mem_singleton.mp hrecord]
    constructor <;> decide
  distinctIds := List.nodup_singleton _
  distinctNames := List.nodup_singleton _

/-- A server is disabled, and its arguments are taken away. -/
theorem disabling_updates_record :
    UpdatesOrKeeps asciiStdlib [failedServer]
      [(py "server_id", .str (py "search")), (py "enabled", .bool false), (py "args", .arr [])]
      (upsertServer asciiStdlib [failedServer]
        [(py "server_id", .str (py "search")), (py "enabled", .bool false), (py "args", .arr [])]
        someDraw) := by
  refine (upsert_updates_fields_iff asciiStdlib stored_failedServer _ (by decide) (by decide)
    (by decide)).mpr ?_
  intro saved hsaved _
  have hrecord : saved = { failedServer with enabled := false, updatedAt := py "tuesday" } :=
    (Except.ok.inj hsaved).symm
  refine ⟨by rw [hrecord]; decide, ?_⟩
  constructor
  · rintro value ⟨⟩
    decide
  · rintro value ⟨⟩
  · rintro value ⟨⟩
  · rintro value ⟨⟩
  · rintro _ old ⟨⟩
    decide
  · rintro value ⟨⟩
  · rintro value ⟨⟩

/-- The record as it was read, with what a discovery that succeeds writes into it. -/
def discoveredPayload : Fields :=
  [(py "server_id", .str (py "search")), (py "name", .str (py "search")),
    (py "transport", .str (py "stdio")), (py "command", .str (py "npx")), (py "args", .arr []),
    (py "env", .obj []), (py "cwd", .str []), (py "enabled", .bool true),
    (py "tools", .arr [.obj []]), (py "timeout_seconds", .float (.finite false 120)),
    (py "last_sync_at", .str (py "tuesday")), (py "last_error", .str []),
    (py "discovery_status", .str (py "ready")), (py "created_at", .str (py "monday")),
    (py "updated_at", .str (py "monday"))]

theorem discovery_keeps_old_error :
    ¬UpdatesOrKeeps asciiStdlib [failedServer] discoveredPayload
      (upsertServer asciiStdlib [failedServer] discoveredPayload someDraw) := by
  rintro ⟨after, _, hupdated⟩
  have herror : py "timed out" = [] := hupdated.follows.lastError
  exact absurd herror (by decide)

/-! ## Runs of the store -/

inductive ServerCall where
  | upsert (server : Fields) (draw : Draw)
  | delete (serverId : PyStr)

/-- The servers in the file after a call. -/
def ServerCall.perform (std : Stdlib) (servers : List Record) : ServerCall → Option (List Record)
  | .upsert server draw => (upsertServer std servers server draw).2
  | .delete serverId => some (servers.filter fun record => record.serverId ≠ serverId)

/-- A drawn identifier has no surrounding space, and no time is an empty text. -/
def ServerCall.Drawn : ServerCall → Prop
  | .upsert _ draw => Trimmed draw.uuid ∧ draw.now ≠ []
  | .delete _ => True

/-- As long as no write is cut short, identifiers and names stay distinct and every record stays
as the store writes it, whatever the payloads are and whichever calls fail. -/
theorem servers_stay_distinct {std : Stdlib} (hrepr : ∀ number, std.floatRepr number ≠ [])
    {trace : Transition.Trace (List Record) ServerCall} (hruns : Transition.Follows
      (fun servers call next => call.Drawn ∧ call.perform std servers = some next) [] trace) :
    Stored (Transition.last [] trace) := by
  have hempty : Stored [] := ⟨by simp, List.nodup_nil, List.nodup_nil⟩
  refine (Transition.invariant_of_follows hruns hempty ?_).2
  rintro servers call next hstored ⟨hdrawn, hperform⟩
  cases call with
  | upsert server draw => exact hstored.upsert hrepr hdrawn.1 hdrawn.2 hperform
  | delete serverId => exact Option.some.inj hperform ▸ hstored.delete serverId

/-- Nothing is deleted, and a server is added. -/
theorem someServer_stays_distinct :
    Stored (Transition.last [] [(ServerCall.delete (py "search"), []),
      (.upsert discoveredPayload someDraw,
        (upsertServer asciiStdlib [] discoveredPayload someDraw).2.getD [])]) := by
  have hrepr : ∀ number, asciiStdlib.floatRepr number ≠ [] := by
    rintro (_ | (_ | _) | ⟨_ | _, magnitude⟩)
    · decide
    · decide
    · decide
    · exact List.append_ne_nil_of_left_ne_nil (List.append_ne_nil_of_right_ne_nil _ (by decide)) _
    · exact List.append_ne_nil_of_left_ne_nil (List.append_ne_nil_of_right_ne_nil _ (by decide)) _
  exact servers_stay_distinct hrepr ⟨⟨trivial, rfl⟩, ⟨⟨by decide, by decide⟩, rfl⟩, trivial⟩

end RootSeeker.Storage.McpServerFile
