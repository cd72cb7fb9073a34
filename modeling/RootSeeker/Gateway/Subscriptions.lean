import RootSeeker.Core.SetDict
import RootSeeker.Core.Transition
import RootSeeker.Gateway.Server

/-!
# Subscriptions over WebSocket

A client subscribes to topics over one or more connections.  The registry keeps
the subscriptions of the clients in both directions, the server keeps them a
third time with its connections, and the transport keeps those of each socket.
A bridge updates all of them and removes a client when its connection closes.
-/

namespace RootSeeker.Gateway

open Python Contracts Transition

/-! ## The registry -/

structure SubscriptionRegistry where
  topicClients : SetDict PyStr PyStr
  clientTopics : SetDict PyStr PyStr

namespace SubscriptionRegistry

def subscribe (registry : SubscriptionRegistry) (clientId topic : PyStr) :
    SubscriptionRegistry where
  topicClients := registry.topicClients.add topic clientId
  clientTopics := registry.clientTopics.add clientId topic

def unsubscribe (registry : SubscriptionRegistry) (clientId topic : PyStr) :
    SubscriptionRegistry where
  topicClients := registry.topicClients.discard topic clientId
  clientTopics := registry.clientTopics.discard clientId topic

def removeClient (registry : SubscriptionRegistry) (clientId : PyStr) :
    SubscriptionRegistry where
  topicClients := registry.topicClients.discardAll (registry.clientTopics.members clientId) clientId
  clientTopics := Dict.erase registry.clientTopics clientId

end SubscriptionRegistry

/-! ## The transport, the server and their bridge -/

structure WebSocketConnectionState where
  clientId : Option PyStr
  subscriptions : List PyStr
  deriving DecidableEq

/-- The client of a connection: the one it was given, or the connection itself. -/
def WebSocketConnectionState.client (socket : WebSocketConnectionState)
    (connectionId : PyStr) : PyStr :=
  match socket.clientId with
  | none => connectionId
  | some clientId => if clientId = [] then connectionId else clientId

/-- The state of the transport and of the server. -/
structure BridgeState where
  /-- How many connections were accepted. -/
  accepted : ℕ
  /-- The open connections of the transport. -/
  sockets : Dict PyStr WebSocketConnectionState
  registry : SubscriptionRegistry
  /-- The `GatewayConnection` of each client, by its subscriptions. -/
  connections : SetDict PyStr PyStr

def BridgeState.start : BridgeState where
  accepted := 0
  sockets := []
  registry := { topicClients := [], clientTopics := [] }
  connections := []

namespace BridgeState

section Operations

variable (ids : IdSupply) (std : Stdlib) (state : BridgeState)

def accept (clientId : Option PyStr) : BridgeState :=
  { state with
    accepted := state.accepted + 1
    sockets := state.sockets.set (newId ids (py "ws-") state.accepted)
      { clientId := clientId, subscriptions := [] } }

def updateSocket (connectionId : PyStr)
    (change : WebSocketConnectionState → WebSocketConnectionState) : BridgeState :=
  match state.sockets.get? connectionId with
  | none => state
  | some socket => { state with sockets := state.sockets.set connectionId (change socket) }

/-- `_client_id_for_connection`. -/
def clientIdForConnection (connectionId : PyStr) : PyStr :=
  match state.sockets.get? connectionId with
  | none => connectionId
  | some socket => socket.client connectionId

/-- The client as the server knows it from then on. -/
def connectClient (clientId : PyStr) : BridgeState :=
  match state.connections.get? clientId with
  | some _ => state
  | none => { state with connections := state.connections.set clientId [] }

def ensureClient (connectionId : PyStr) : BridgeState :=
  let clientId := state.clientIdForConnection connectionId
  (state.connectClient clientId).updateSocket connectionId fun socket =>
    if socket.clientId = none then { socket with clientId := some clientId } else socket

/-- The registry and the connection of a client gain a topic. -/
def addTopic (clientId topic : PyStr) : BridgeState :=
  { state with
    registry := state.registry.subscribe clientId topic
    connections := state.connections.add clientId topic }

/-- They lose a topic; the connection, if the server knows it. -/
def dropTopic (clientId topic : PyStr) : BridgeState :=
  { state with
    registry := state.registry.unsubscribe clientId topic
    connections :=
      match state.connections.get? clientId with
      | none => state.connections
      | some _ => state.connections.discard clientId topic }

/-- `WebSocketTransport.subscribe`. -/
def subscribeSocket (connectionId topic : PyStr) : BridgeState :=
  state.updateSocket connectionId fun socket =>
    { socket with subscriptions := socket.subscriptions.insert topic }

/-- `WebSocketTransport.unsubscribe`. -/
def unsubscribeSocket (connectionId topic : PyStr) : BridgeState :=
  state.updateSocket connectionId fun socket =>
    { socket with subscriptions := socket.subscriptions.filter (· ≠ topic) }

/-- `GatewayWsBridge.subscribe`. -/
def subscribe (connectionId topic : PyStr) : BridgeState :=
  let clientId := state.clientIdForConnection connectionId
  ((state.ensureClient connectionId).addTopic clientId topic).subscribeSocket connectionId topic

/-- `GatewayWsBridge.unsubscribe`. -/
def unsubscribe (connectionId topic : PyStr) : BridgeState :=
  let clientId := state.clientIdForConnection connectionId
  (state.dropTopic clientId topic).unsubscribeSocket connectionId topic

/-- `WebSocketTransport.handle_message`: the frames that change subscriptions. -/
def handleMessage (connectionId : PyStr) (data : Fields) : BridgeState :=
  match state.sockets.get? connectionId with
  | none => state
  | some _ =>
    match (data.get? (py "frame_type")).getD (.str (py "request")) with
    | .str frameType =>
      let topic := textParam std data (py "topic") []
      if frameType = py "subscribe" then
        if topic = [] then state
        else (state.subscribeSocket connectionId topic).subscribe connectionId topic
      else if frameType = py "unsubscribe" then
        if topic = [] then state
        else (state.unsubscribe connectionId topic).unsubscribeSocket connectionId topic
      else state
    | _ => state

/-- `GatewayServer.disconnect`. -/
def removeClient (clientId : PyStr) : BridgeState :=
  { state with
    registry := state.registry.removeClient clientId
    connections := Dict.erase state.connections clientId }

/-- `GatewayWsBridge.disconnect`. -/
def disconnect (connectionId : PyStr) : BridgeState :=
  state.removeClient (state.clientIdForConnection connectionId)

def closeSocket (connectionId : PyStr) : BridgeState :=
  { state with sockets := state.sockets.erase connectionId }

/-- `WebSocketTransport.close`, which tells the bridge once the connection is gone. -/
def close (connectionId : PyStr) : BridgeState :=
  match state.sockets.get? connectionId with
  | none => state
  | some _ => (state.closeSocket connectionId).disconnect connectionId

end Operations

end BridgeState

inductive BridgeOp where
  | accept (clientId : Option PyStr)
  | ensureClient (connectionId : PyStr)
  | message (connectionId : PyStr) (data : Fields)
  | close (connectionId : PyStr)
  | disconnect (connectionId : PyStr)
  | serverDisconnect (clientId : PyStr)

def BridgeOp.apply (ids : IdSupply) (std : Stdlib) (state : BridgeState) :
    BridgeOp → BridgeState
  | accept clientId => state.accept ids clientId
  | ensureClient connectionId => state.ensureClient connectionId
  | message connectionId data => state.handleMessage std connectionId data
  | close connectionId => state.close connectionId
  | disconnect connectionId => state.disconnect connectionId
  | serverDisconnect clientId => state.removeClient clientId

/-! ## What a run of the bridge keeps -/

namespace BridgeState

/-- The three places agree, and only clients that the server knows are subscribed. -/
structure Consistent (state : BridgeState) : Prop where
  inverse : state.registry.topicClients.Inverse state.registry.clientTopics
  same : state.connections.relation = state.registry.clientTopics.relation
  connected : ∀ clientId topic, topic ∈ state.registry.clientTopics.members clientId →
    ∃ subscriptions, state.connections.get? clientId = some subscriptions

theorem members_eq_nil {sets : SetDict PyStr PyStr} {clientId : PyStr}
    (hunknown : sets.get? clientId = none) : sets.members clientId = [] := by
  rw [SetDict.members, hunknown]
  rfl

/-- Who has a subscription with the server has a connection there. -/
theorem consistent_of_same {state : BridgeState}
    (hinverse : state.registry.topicClients.Inverse state.registry.clientTopics)
    (hsame : state.connections.relation = state.registry.clientTopics.relation) :
    state.Consistent where
  inverse := hinverse
  same := hsame
  connected := by
    intro clientId topic htopic
    rw [← SetDict.mem_relation, ← hsame, SetDict.mem_relation] at htopic
    cases hget : state.connections.get? clientId with
    | none =>
      rw [members_eq_nil hget] at htopic
      exact absurd htopic List.not_mem_nil
    | some subscriptions => exact ⟨subscriptions, rfl⟩

theorem consistent_start : start.Consistent :=
  consistent_of_same SetDict.inverse_nil rfl

section Steps

variable {state : BridgeState}

section

variable (hstate : state.Consistent)

include hstate

theorem Consistent.updateSocket (connectionId : PyStr)
    (change : WebSocketConnectionState → WebSocketConnectionState) :
    (state.updateSocket connectionId change).Consistent := by
  rw [BridgeState.updateSocket]
  split
  · exact hstate
  · exact consistent_of_same hstate.inverse hstate.same

theorem Consistent.connectClient (clientId : PyStr) :
    (state.connectClient clientId).Consistent := by
  rw [BridgeState.connectClient]
  split
  · exact hstate
  · rename_i hunknown
    apply consistent_of_same
    · exact hstate.inverse
    · dsimp only
      rw [← hstate.same]
      ext ⟨other, topic⟩
      rw [SetDict.mem_relation, SetDict.mem_relation, SetDict.members_set]
      by_cases hother : other = clientId
      · rw [if_pos hother, hother, members_eq_nil hunknown]
      · rw [if_neg hother]

theorem Consistent.ensureClient (connectionId : PyStr) :
    (state.ensureClient connectionId).Consistent :=
  (hstate.connectClient _).updateSocket _ _

theorem Consistent.addTopic (clientId topic : PyStr) :
    (state.addTopic clientId topic).Consistent := by
  apply consistent_of_same
  · exact hstate.inverse.add topic clientId
  · dsimp only [BridgeState.addTopic, SubscriptionRegistry.subscribe]
    rw [SetDict.relation_add, SetDict.relation_add, hstate.same]

theorem Consistent.dropTopic (clientId topic : PyStr) :
    (state.dropTopic clientId topic).Consistent := by
  apply consistent_of_same
  · exact hstate.inverse.discard topic clientId
  · dsimp only [BridgeState.dropTopic, SubscriptionRegistry.unsubscribe]
    rw [SetDict.relation_discard, ← hstate.same]
    split
    · rename_i hunknown
      symm
      apply Set.sdiff_singleton_eq_self
      rw [SetDict.mem_relation, members_eq_nil hunknown]
      exact List.not_mem_nil
    · exact SetDict.relation_discard _ _ _

theorem Consistent.removeClient (clientId : PyStr) : (state.removeClient clientId).Consistent := by
  apply consistent_of_same
  · exact hstate.inverse.discardAll clientId
  · dsimp only [BridgeState.removeClient, SubscriptionRegistry.removeClient]
    rw [SetDict.relation_erase, SetDict.relation_erase, hstate.same]

theorem Consistent.subscribe (connectionId topic : PyStr) :
    (state.subscribe connectionId topic).Consistent :=
  ((hstate.ensureClient _).addTopic _ _).updateSocket _ _

theorem Consistent.unsubscribe (connectionId topic : PyStr) :
    (state.unsubscribe connectionId topic).Consistent :=
  (hstate.dropTopic _ _).updateSocket _ _

theorem Consistent.handleMessage (std : Stdlib) (connectionId : PyStr) (data : Fields) :
    (state.handleMessage std connectionId data).Consistent := by
  rw [BridgeState.handleMessage]
  split
  · exact hstate
  · split
    · dsimp only
      split
      · split
        · exact hstate
        · exact (hstate.updateSocket _ _).subscribe _ _
      · split
        · split
          · exact hstate
          · exact (hstate.unsubscribe _ _).updateSocket _ _
        · exact hstate
    · exact hstate

theorem Consistent.close (connectionId : PyStr) : (state.close connectionId).Consistent := by
  rw [BridgeState.close]
  split
  · exact hstate
  · have hclosed : (state.closeSocket connectionId).Consistent :=
      consistent_of_same hstate.inverse hstate.same
    exact hclosed.removeClient _

theorem Consistent.apply (ids : IdSupply) (std : Stdlib) (op : BridgeOp) :
    (op.apply ids std state).Consistent := by
  cases op with
  | accept clientId => exact consistent_of_same hstate.inverse hstate.same
  | ensureClient connectionId => exact hstate.ensureClient connectionId
  | message connectionId data => exact hstate.handleMessage std connectionId data
  | close connectionId => exact hstate.close connectionId
  | disconnect connectionId => exact hstate.removeClient _
  | serverDisconnect clientId => exact hstate.removeClient clientId

end

end Steps

/-! ## What is left of a client -/

/-- Another open connection of the same client. -/
structure Shares (state : BridgeState) (connectionId other : PyStr)
    (socket : WebSocketConnectionState) : Prop where
  ne : other ≠ connectionId
  isOpen : state.sockets.get? other = some socket
  same : socket.client other = state.clientIdForConnection connectionId

/-- The server knows nothing of the client. -/
structure Forgotten (state : BridgeState) (clientId : PyStr) : Prop where
  connection : state.connections.get? clientId = none
  topics : state.registry.clientTopics.members clientId = []
  clients : ∀ topic, clientId ∉ state.registry.topicClients.members topic

/-- After the step nothing is left of the client of the connection, unless another open
connection uses it, and that one keeps its own subscriptions. -/
structure CleansUp (state : BridgeState) (connectionId : PyStr) (next : BridgeState) :
    Prop where
  forgotten : (∀ other socket, ¬state.Shares connectionId other socket) →
    next.Forgotten (state.clientIdForConnection connectionId)
  unaffected : ∀ other socket, state.Shares connectionId other socket →
    next.sockets.get? other = some socket ∧ ∀ topic ∈ socket.subscriptions,
      (topic ∈ next.registry.clientTopics.members (state.clientIdForConnection connectionId) ↔
        topic ∈ state.registry.clientTopics.members (state.clientIdForConnection connectionId))

/-- Another open connection of the same client is subscribed to a topic. -/
def SharesTopic (state : BridgeState) (connectionId : PyStr) : Prop :=
  ∃ other socket, state.Shares connectionId other socket ∧ ∃ topic ∈ socket.subscriptions,
    topic ∈ state.registry.clientTopics.members (state.clientIdForConnection connectionId)

section Removal

variable {state : BridgeState}

theorem members_removeClient (state : BridgeState) (clientId other : PyStr) :
    (state.removeClient clientId).registry.clientTopics.members other =
      if other = clientId then [] else state.registry.clientTopics.members other := by
  dsimp only [removeClient, SubscriptionRegistry.removeClient]
  rw [SetDict.members]
  by_cases hother : other = clientId
  · rw [if_pos hother, hother, Dict.get?_erase_self]
    rfl
  · rw [if_neg hother, Dict.get?_erase_of_ne _ hother, SetDict.members]

/-- A client without a connection and topics is not listed under a topic either. -/
theorem Consistent.forgotten (hstate : state.Consistent) {clientId : PyStr}
    (hunknown : state.connections.get? clientId = none) : state.Forgotten clientId := by
  have htopics : state.registry.clientTopics.members clientId = [] := by
    apply List.eq_nil_iff_forall_not_mem.mpr
    intro topic htopic
    obtain ⟨subscriptions, hget⟩ := hstate.connected clientId topic htopic
    exact absurd (hunknown.symm.trans hget) (by simp)
  refine ⟨hunknown, htopics, ?_⟩
  intro topic hclient
  have hmember := (hstate.inverse topic clientId).mp hclient
  rw [SetDict.mem_relation, htopics] at hmember
  exact List.not_mem_nil hmember

theorem forgotten_removeClient (hstate : state.Consistent) (clientId : PyStr) :
    (state.removeClient clientId).Forgotten clientId :=
  (hstate.removeClient clientId).forgotten (Dict.get?_erase_self _ _)

variable {connectionId : PyStr}

/-- Removing the client of a connection cleans up unless this takes a topic from another
connection. -/
theorem cleansUp_removed_iff {next closed : BridgeState} (hstate : closed.Consistent)
    (hnext : next = closed.removeClient (state.clientIdForConnection connectionId))
    (hsockets : ∀ other ≠ connectionId,
      closed.sockets.get? other = state.sockets.get? other) :
    state.CleansUp connectionId next ↔ ¬state.SharesTopic connectionId := by
  have hmembers : next.registry.clientTopics.members
      (state.clientIdForConnection connectionId) = [] := by
    rw [hnext, members_removeClient, if_pos rfl]
  constructor
  · rintro hclean ⟨other, socket, hshares, topic, hown, htopic⟩
    have hkept := ((hclean.unaffected other socket hshares).2 topic hown).mpr htopic
    rw [hmembers] at hkept
    exact List.not_mem_nil hkept
  · intro halone
    refine ⟨fun _ => hnext ▸ forgotten_removeClient hstate _, ?_⟩
    intro other socket hshares
    refine ⟨?_, ?_⟩
    · rw [hnext]
      exact (hsockets other hshares.ne).trans hshares.isOpen
    · intro topic hown
      rw [hmembers]
      exact iff_of_false List.not_mem_nil
        (fun htopic => halone ⟨other, socket, hshares, topic, hown, htopic⟩)

theorem clientIdForConnection_closeSocket (state : BridgeState) (connectionId : PyStr) :
    (state.closeSocket connectionId).clientIdForConnection connectionId = connectionId := by
  rw [clientIdForConnection, closeSocket, Dict.get?_erase_self]

/-- Once the connection is gone it stands for itself. -/
theorem close_of_open (hopen : state.sockets.get? connectionId ≠ none) :
    state.close connectionId = (state.closeSocket connectionId).removeClient connectionId := by
  rw [close]
  cases hsocket : state.sockets.get? connectionId with
  | none => exact absurd hsocket hopen
  | some socket =>
    dsimp only
    rw [disconnect, clientIdForConnection_closeSocket]

/-- Closing the connection of a client with an identifier of its own leaves the client as it
is. -/
theorem cleansUp_close_iff (hstate : state.Consistent)
    (hopen : state.sockets.get? connectionId ≠ none)
    (hown : state.clientIdForConnection connectionId ≠ connectionId) :
    state.CleansUp connectionId (state.close connectionId) ↔
      (∃ other socket, state.Shares connectionId other socket) ∨
        state.connections.get? (state.clientIdForConnection connectionId) = none := by
  have hclosed : (state.closeSocket connectionId).Consistent :=
    consistent_of_same hstate.inverse hstate.same
  have hconnection : (state.close connectionId).connections.get?
      (state.clientIdForConnection connectionId) =
        state.connections.get? (state.clientIdForConnection connectionId) := by
    rw [close_of_open hopen]
    exact Dict.get?_erase_of_ne _ hown
  constructor
  · intro hclean
    by_cases hshares : ∃ other socket, state.Shares connectionId other socket
    · exact Or.inl hshares
    · push Not at hshares
      rw [← hconnection]
      exact Or.inr (hclean.forgotten hshares).connection
  · intro hcases
    refine ⟨?_, ?_⟩
    · intro halone
      have hunknown := hcases.resolve_left
        (fun ⟨other, socket, hshares⟩ => halone other socket hshares)
      rw [← hconnection, close_of_open hopen] at hunknown
      rw [close_of_open hopen]
      exact (hclosed.removeClient connectionId).forgotten hunknown
    · intro other socket hshares
      rw [close_of_open hopen]
      refine ⟨?_, ?_⟩
      · exact (Dict.get?_erase_of_ne _ hshares.ne).trans hshares.isOpen
      · intro topic _
        rw [members_removeClient, if_neg hown]
        rfl

end Removal

end BridgeState

namespace BridgeOp

/-- What a closing step owes. -/
def CleansUp (state : BridgeState) (next : BridgeState) : BridgeOp → Prop
  | close connectionId | disconnect connectionId =>
    state.sockets.get? connectionId ≠ none → state.CleansUp connectionId next
  | _ => True

/-- No topic of another connection of the client is taken away, and a connection that closes
under a client identifier of its own is not the last of a client that the server knows. -/
def Proper (state : BridgeState) : BridgeOp → Prop
  | close connectionId =>
    state.sockets.get? connectionId ≠ none →
      if state.clientIdForConnection connectionId = connectionId then
        ¬state.SharesTopic connectionId
      else
        (∃ other socket, state.Shares connectionId other socket) ∨
          state.connections.get? (state.clientIdForConnection connectionId) = none
  | disconnect connectionId =>
    state.sockets.get? connectionId ≠ none → ¬state.SharesTopic connectionId
  | _ => True

theorem cleansUp_iff_proper {state : BridgeState} (hstate : state.Consistent)
    (ids : IdSupply) (std : Stdlib) (op : BridgeOp) :
    op.CleansUp state (op.apply ids std state) ↔ op.Proper state := by
  cases op with
  | close connectionId =>
    apply forall_congr'
    intro hopen
    by_cases hown : state.clientIdForConnection connectionId = connectionId
    · rw [if_pos hown]
      have hclosed : (state.closeSocket connectionId).Consistent :=
        BridgeState.consistent_of_same hstate.inverse hstate.same
      apply BridgeState.cleansUp_removed_iff hclosed
      · rw [hown]
        exact BridgeState.close_of_open hopen
      · intro other hother
        exact Dict.get?_erase_of_ne _ hother
    · rw [if_neg hown]
      exact BridgeState.cleansUp_close_iff hstate hopen hown
  | disconnect connectionId =>
    apply forall_congr'
    intro _
    exact BridgeState.cleansUp_removed_iff hstate rfl (fun _ _ => rfl)
  | accept clientId => exact Iff.rfl
  | ensureClient connectionId => exact Iff.rfl
  | message connectionId data => exact Iff.rfl
  | serverDisconnect clientId => exact Iff.rfl

end BridgeOp

/-- A client subscribes under its own identifier and its connection closes. -/
def namedClientOps : List BridgeOp :=
  [.accept (some (py "cli")), .ensureClient (newId unaryIds (py "ws-") 0),
    .message (newId unaryIds (py "ws-") 0)
      [(py "frame_type", .str (py "subscribe")), (py "topic", .str (py "case.1"))],
    .close (newId unaryIds (py "ws-") 0)]

/-- In every run of the bridge the three places agree, and only clients that the server knows
are subscribed.  Every closing step cleans up if and only if every closing step is proper. -/
theorem bridge_cleans_up_iff (ids : IdSupply) (std : Stdlib) (ops : List BridgeOp) :
    let run := history (BridgeOp.apply ids std) .start ops
    (∀ entry ∈ run, entry.2.Consistent) ∧
      (Follows (fun state op next => op.CleansUp state next) .start run ↔
        Guarded (fun state op => op.Proper state) .start run) := by
  intro run
  have hrun := follows_history (BridgeOp.apply ids std) BridgeState.start ops
  have hconsistent : ∀ state op next, BridgeState.Consistent state →
      next = BridgeOp.apply ids std state op → BridgeState.Consistent next := by
    rintro state op next hstate rfl
    exact hstate.apply ids std op
  refine ⟨(invariant_of_follows hrun BridgeState.consistent_start hconsistent).1, ?_⟩
  apply follows_iff_guarded_of_inv BridgeState.Consistent hrun BridgeState.consistent_start
  rintro state op next hstate rfl
  exact ⟨BridgeOp.cleansUp_iff_proper hstate ids std op, fun _ => hstate.apply ids std op⟩

/-- The client stays subscribed without a connection. -/
theorem closed_client_stays_subscribed :
    ¬Follows (fun state (op : BridgeOp) next => op.CleansUp state next) .start
      (history (BridgeOp.apply unaryIds asciiStdlib) .start namedClientOps) := by
  rintro ⟨_, _, _, hclosed, _⟩
  have hforgotten := (hclosed (by decide)).forgotten
  have hunknown := (hforgotten (by
    rintro other socket ⟨hne, hopen, _⟩
    change Dict.get? [(newId unaryIds (py "ws-") 0,
      WebSocketConnectionState.mk (some (py "cli")) [py "case.1"])] other = some socket at hopen
    rw [Dict.get?, if_neg hne.symm] at hopen
    exact absurd hopen (by simp))).connection
  exact absurd hunknown (by decide)

end RootSeeker.Gateway
