import RootSeeker.Gateway.Subscriptions

/-!
# Broadcasts of queued events

Events are queued and sent later by calls of `flush_broadcasts`, which run
interleaved with each other and with the connections that come, go and subscribe.
A call is suspended at every `await`; in between nothing else happens.
-/

namespace RootSeeker.Gateway

open Python Contracts Transition

/-- `topic_matches`. -/
def topicMatches (subscribed topic : PyStr) : Bool :=
  subscribed = topic ||
    (py ".*").isSuffixOf subscribed && subscribed.dropLast.isPrefixOf topic

/-- An event in the queue, with its number among all queued events. -/
structure QueuedEvent where
  number : ℕ
  topic : PyStr
  payload : Fields

/-- Where a call of `flush_broadcasts` is suspended. -/
inductive FlushPhase where
  /-- Before the next event. -/
  | between
  /-- At the send to a connection: the connections that the iteration has yet to visit, those
  there were when it began, and those to which a send failed. -/
  | sending (event : QueuedEvent) (connectionId : PyStr) (rest keys failed : List PyStr)
  /-- Before the next failed connection is closed. -/
  | cleaning (failed : List PyStr)
  /-- At the close of the socket of a failed connection. -/
  | closing (connectionId : PyStr) (failed : List PyStr)

structure FlushCall where
  later : List QueuedEvent
  phase : FlushPhase

structure BroadcastState where
  bridge : BridgeState
  /-- How many events were queued. -/
  queued : ℕ
  pending : List QueuedEvent
  /-- How many calls were made. -/
  called : ℕ
  calls : Dict ℕ FlushCall
  /-- The sends that succeeded, by the number of the event and the connection. -/
  sent : List (ℕ × PyStr)

def BroadcastState.start : BroadcastState where
  bridge := .start
  queued := 0
  pending := []
  called := 0
  calls := []
  sent := []

/-- A connection is open and subscribed to a topic. -/
def BridgeState.listens (bridge : BridgeState) (topic connectionId : PyStr) : Bool :=
  (bridge.sockets.get? connectionId).any fun socket =>
    socket.subscriptions.any (topicMatches · topic)

inductive BroadcastOp where
  /-- Something else happens to the connections; what it does after an `await` of its own leaves
  the sockets alone. -/
  | operate (op : BridgeOp)
  | queue (topic : PyStr) (payload : Fields)
  | flush
  /-- A call goes on to its next `await`; the flag tells whether its send succeeded. -/
  | resume (call : ℕ) (ok : Bool)

namespace BroadcastState

/-- `queue_broadcast`; there is no event frame without a topic. -/
def queueBroadcast (state : BroadcastState) (topic : PyStr) (payload : Fields) :
    BroadcastState :=
  if topic = [] then state
  else
    { state with
      queued := state.queued + 1
      pending := state.pending ++ [⟨state.queued, topic, payload⟩] }

/-- The beginning of `flush_broadcasts`: it empties the queue. -/
def flushBroadcasts (state : BroadcastState) : BroadcastState :=
  { state with
    pending := []
    called := state.called + 1
    calls := state.calls.set state.called ⟨state.pending, .between⟩ }

/-- The iteration of `broadcast` goes on to the next connection that listens. -/
def visit (bridge : BridgeState) (event : QueuedEvent) (rest keys failed : List PyStr) :
    FlushPhase :=
  match rest.dropWhile fun connectionId => !bridge.listens event.topic connectionId with
  | [] => .cleaning failed
  | connectionId :: rest => .sending event connectionId rest keys failed

def setCall (state : BroadcastState) (number : ℕ) (call : FlushCall) : BroadcastState :=
  { state with calls := state.calls.set number call }

/-- The call is over. -/
def endCall (state : BroadcastState) (number : ℕ) : BroadcastState :=
  { state with calls := state.calls.erase number }

def recordSend (state : BroadcastState) (number : ℕ) (connectionId : PyStr) (ok : Bool) :
    BroadcastState :=
  if ok then { state with sent := state.sent ++ [(number, connectionId)] } else state

def resumeCall (state : BroadcastState) (number : ℕ) (call : FlushCall) (ok : Bool) :
    BroadcastState :=
  match call.phase with
  | .between =>
    match call.later with
    | [] => state.endCall number
    | event :: later =>
      let keys := state.bridge.sockets.keys
      state.setCall number ⟨later, visit state.bridge event keys keys []⟩
  | .sending event connectionId rest keys failed =>
    let recorded := state.recordSend event.number connectionId ok
    -- The dictionary was changed under the iteration: the call ends in an error.
    if state.bridge.sockets.keys ≠ keys then recorded.endCall number
    else
      recorded.setCall number ⟨call.later, visit state.bridge event rest keys
        (if ok then failed else failed ++ [connectionId])⟩
  | .cleaning [] => state.setCall number ⟨call.later, .between⟩
  | .cleaning (connectionId :: failed) =>
    match state.bridge.sockets.get? connectionId with
    | none => state.setCall number ⟨call.later, .cleaning failed⟩
    | some _ =>
      { state with bridge := state.bridge.closeSocket connectionId }.setCall number
        ⟨call.later, .closing connectionId failed⟩
  | .closing connectionId failed =>
    { state with bridge := state.bridge.disconnect connectionId }.setCall number
      ⟨call.later, .cleaning failed⟩

def resume (state : BroadcastState) (number : ℕ) (ok : Bool) : BroadcastState :=
  match state.calls.get? number with
  | none => state
  | some call => state.resumeCall number call ok

end BroadcastState

def BroadcastOp.apply (ids : IdSupply) (std : Stdlib) (state : BroadcastState) :
    BroadcastOp → BroadcastState
  | operate op => { state with bridge := op.apply ids std state.bridge }
  | queue topic payload => state.queueBroadcast topic payload
  | flush => state.flushBroadcasts
  | resume call ok => state.resume call ok

/-! ## What the calls owe -/

/-- Every event that a call finds in the queue is sent exactly once to each connection that
is open and listens from the beginning of the call to its end. -/
def DeliversOnce (start : BroadcastState) (run : Trace BroadcastState BroadcastOp) : Prop :=
  ∀ before during called, run = before ++ (.flush, called) :: during →
    (last called during).calls.get? (last start before).called = none →
    ∀ event ∈ (last start before).pending, ∀ connectionId,
      (last start before).bridge.listens event.topic connectionId = true →
      (∀ entry ∈ (BroadcastOp.flush, called) :: during,
        entry.2.bridge.listens event.topic connectionId = true) →
      (last called during).sent.count (event.number, connectionId) = 1

/-- The connections that there were when an iteration began that is still going on. -/
def FlushPhase.iterated : FlushPhase → Option (List PyStr)
  | .sending _ _ _ keys _ => some keys
  | _ => none

/-- The connections are those that there were when the iteration of the call began. -/
def BroadcastOp.Steady (state : BroadcastState) : BroadcastOp → Prop
  | resume number _ =>
    ∀ keys ∈ (state.calls.get? number).bind fun call => call.phase.iterated,
      state.bridge.sockets.keys = keys
  | _ => True

instance (state : BroadcastState) : ∀ op : BroadcastOp, Decidable (op.Steady state)
  | .operate _ => .isTrue trivial
  | .queue _ _ => .isTrue trivial
  | .flush => .isTrue trivial
  | .resume _ _ => inferInstanceAs (Decidable (∀ keys ∈ Option.bind _ _, _ = keys))

/-! ## The connections have distinct identifiers -/

namespace BridgeState

variable {state : BridgeState}

section

variable (hnodup : state.sockets.keys.Nodup)

include hnodup

theorem nodup_updateSocket (connectionId : PyStr)
    (change : WebSocketConnectionState → WebSocketConnectionState) :
    (state.updateSocket connectionId change).sockets.keys.Nodup := by
  rw [updateSocket]
  split
  · exact hnodup
  · exact Dict.nodup_keys_set hnodup _ _

theorem nodup_ensureClient (connectionId : PyStr) :
    (state.ensureClient connectionId).sockets.keys.Nodup := by
  have hclient : (state.connectClient (state.clientIdForConnection connectionId)).sockets =
      state.sockets := by
    rw [connectClient]
    split
    · rfl
    · rfl
  exact nodup_updateSocket (hclient ▸ hnodup) _ _

theorem nodup_subscribe (connectionId topic : PyStr) :
    (state.subscribe connectionId topic).sockets.keys.Nodup := by
  have hadded : ((state.ensureClient connectionId).addTopic
      (state.clientIdForConnection connectionId) topic).sockets.keys.Nodup :=
    nodup_ensureClient hnodup connectionId
  exact nodup_updateSocket hadded _ _

theorem nodup_unsubscribe (connectionId topic : PyStr) :
    (state.unsubscribe connectionId topic).sockets.keys.Nodup := by
  have hdropped : (state.dropTopic (state.clientIdForConnection connectionId)
      topic).sockets.keys.Nodup := hnodup
  exact nodup_updateSocket hdropped _ _

theorem nodup_handleMessage (std : Stdlib) (connectionId : PyStr) (data : Fields) :
    (state.handleMessage std connectionId data).sockets.keys.Nodup := by
  rw [handleMessage]
  split
  · exact hnodup
  · split
    · dsimp only
      split
      · split
        · exact hnodup
        · exact nodup_subscribe (nodup_updateSocket hnodup _ _) _ _
      · split
        · split
          · exact hnodup
          · exact nodup_updateSocket (nodup_unsubscribe hnodup _ _) _ _
        · exact hnodup
    · exact hnodup

theorem nodup_close (connectionId : PyStr) : (state.close connectionId).sockets.keys.Nodup := by
  rw [close]
  split
  · exact hnodup
  · exact Dict.nodup_keys_erase hnodup connectionId

theorem nodup_apply (ids : IdSupply) (std : Stdlib) (op : BridgeOp) :
    (op.apply ids std state).sockets.keys.Nodup := by
  cases op with
  | accept clientId => exact Dict.nodup_keys_set hnodup _ _
  | ensureClient connectionId => exact nodup_ensureClient hnodup connectionId
  | message connectionId data => exact nodup_handleMessage hnodup std connectionId data
  | close connectionId => exact nodup_close hnodup connectionId
  | disconnect connectionId => exact hnodup
  | serverDisconnect clientId => exact hnodup

end

theorem mem_keys_of_listens {topic connectionId : PyStr}
    (hlistens : state.listens topic connectionId = true) : connectionId ∈ state.sockets.keys := by
  rw [listens, Option.any_eq_true_iff_get] at hlistens
  exact (Dict.mem_keys_iff _ _).mpr hlistens.1

theorem open_of_listens {topic connectionId : PyStr}
    (hlistens : state.listens topic connectionId = true) : state.sockets.get? connectionId ≠ none :=
  Option.isSome_iff_ne_none.mp ((Dict.mem_keys_iff _ _).mp (mem_keys_of_listens hlistens))

end BridgeState

/-! ## Events keep their numbers -/

def FlushPhase.current : FlushPhase → List QueuedEvent
  | .sending event _ _ _ _ => [event]
  | _ => []

def FlushPhase.failed : FlushPhase → List PyStr
  | .sending _ _ _ _ failed | .cleaning failed | .closing _ failed => failed
  | .between => []

/-- The events that a call has not finished. -/
def FlushCall.events (call : FlushCall) : List QueuedEvent :=
  call.phase.current ++ call.later

variable {failed : List PyStr}

namespace BroadcastState

/-- The events in the queue or with a call. -/
def heldBy (state : BroadcastState) : Option ℕ → List QueuedEvent
  | none => state.pending
  | some number => ((state.calls.get? number).map FlushCall.events).getD []

/-- The events that nobody was sent yet. -/
def waitingWith (state : BroadcastState) : Option ℕ → List QueuedEvent
  | none => state.pending
  | some number => ((state.calls.get? number).map FlushCall.later).getD []

/-- Every event has one number and one holder, and what waits has not been sent. -/
structure Orderly (state : BroadcastState) : Prop where
  nodup : ∀ holder, ((state.heldBy holder).map QueuedEvent.number).Nodup
  apart : ∀ holder other, ∀ event ∈ state.heldBy holder, ∀ same ∈ state.heldBy other,
    event.number = same.number → holder = other
  below : ∀ holder, ∀ event ∈ state.heldBy holder, event.number < state.queued
  sentBelow : ∀ entry ∈ state.sent, entry.1 < state.queued
  unsent : ∀ holder, ∀ event ∈ state.waitingWith holder, ∀ connectionId,
    (event.number, connectionId) ∉ state.sent
  fresh : ∀ number, state.called ≤ number → state.calls.get? number = none
  sockets : state.bridge.sockets.keys.Nodup
  iterating : ∀ number call event connectionId rest keys failed,
    state.calls.get? number = some call →
    call.phase = .sending event connectionId rest keys failed → (connectionId :: rest).Nodup

theorem orderly_start : Orderly start where
  nodup holder := by cases holder <;> exact List.nodup_nil
  apart holder other event hevent := by cases holder <;> exact absurd hevent List.not_mem_nil
  below holder event hevent := by cases holder <;> exact absurd hevent List.not_mem_nil
  sentBelow entry hentry := absurd hentry List.not_mem_nil
  unsent holder event hevent := by cases holder <;> exact absurd hevent List.not_mem_nil
  fresh number _ := rfl
  sockets := List.nodup_nil
  iterating number call event connectionId rest keys failed hcall :=
    absurd hcall (by simp [start])

/-- What a call that goes on may change; afterwards it is in another phase or over. -/
structure Resumed (state : BroadcastState) (number : ℕ) (call : FlushCall)
    (next : BroadcastState) (after : Option FlushCall) : Prop where
  pending : next.pending = state.pending
  queued : next.queued = state.queued
  called : next.called = state.called
  calls : ∀ other, next.calls.get? other =
    if other = number then after else state.calls.get? other
  events : List.Sublist ((after.map FlushCall.events).getD []) call.events
  later : ∀ event ∈ (after.map FlushCall.later).getD [], event ∈ call.later
  sent : next.sent = state.sent ∨ ∃ event ∈ call.phase.current, ∃ connectionId,
    next.sent = state.sent ++ [(event.number, connectionId)]
  sockets : state.bridge.sockets.keys.Nodup → next.bridge.sockets.keys.Nodup
  iterating : (∀ event connectionId rest keys failed,
      call.phase = .sending event connectionId rest keys failed →
        (connectionId :: rest).Nodup) →
    state.bridge.sockets.keys.Nodup →
    ∀ following, after = some following → ∀ event connectionId rest keys failed,
      following.phase = .sending event connectionId rest keys failed →
        (connectionId :: rest).Nodup

theorem get?_setCall (state : BroadcastState) (number : ℕ) (call : FlushCall) (other : ℕ) :
    (state.setCall number call).calls.get? other =
      if other = number then some call else state.calls.get? other := by
  by_cases hother : other = number
  · rw [if_pos hother, hother]
    exact Dict.get?_set_self _ _ _
  · rw [if_neg hother]
    exact Dict.get?_set_of_ne _ _ hother

theorem get?_endCall (state : BroadcastState) (number other : ℕ) :
    (state.endCall number).calls.get? other =
      if other = number then none else state.calls.get? other := by
  by_cases hother : other = number
  · rw [if_pos hother, hother]
    exact Dict.get?_erase_self _ _
  · rw [if_neg hother]
    exact Dict.get?_erase_of_ne _ hother

/-- The iteration stops before a connection of the rest or after all of them. -/
theorem visit_cases (bridge : BridgeState) (event : QueuedEvent) (rest keys failed : List PyStr) :
    (visit bridge event rest keys failed = .cleaning failed ∧
        ∀ connectionId ∈ rest, bridge.listens event.topic connectionId = false) ∨
      ∃ connectionId others, List.IsSuffix (connectionId :: others) rest ∧
        visit bridge event rest keys failed =
          .sending event connectionId others keys failed ∧
        ∀ other ∈ rest, bridge.listens event.topic other = true →
          other ∈ connectionId :: others := by
  have hdropped := List.takeWhile_append_dropWhile (p := fun connectionId =>
    !bridge.listens event.topic connectionId) (l := rest)
  have hskipped : ∀ connectionId ∈ rest.takeWhile (fun connectionId =>
      !bridge.listens event.topic connectionId),
      bridge.listens event.topic connectionId = false := by
    intro connectionId hmem
    simpa using List.mem_takeWhile_imp hmem
  rw [visit]
  cases hrest : rest.dropWhile fun connectionId =>
      !bridge.listens event.topic connectionId with
  | nil =>
    rw [hrest, List.append_nil] at hdropped
    exact .inl ⟨rfl, hdropped ▸ hskipped⟩
  | cons connectionId others =>
    refine .inr ⟨connectionId, others, hrest ▸ List.dropWhile_suffix _, rfl, ?_⟩
    intro other hother hlistens
    rw [← hdropped, hrest, List.mem_append] at hother
    refine hother.resolve_left fun hmem => ?_
    rw [hskipped other hmem] at hlistens
    exact Bool.false_ne_true hlistens

theorem events_visit_sublist (bridge : BridgeState) (event : QueuedEvent)
    (rest keys failed : List PyStr) (later : List QueuedEvent) :
    List.Sublist (FlushCall.events ⟨later, visit bridge event rest keys failed⟩)
      (event :: later) := by
  obtain ⟨hvisit, _⟩ | ⟨connectionId, others, _, hvisit, _⟩ :=
    visit_cases bridge event rest keys failed
  · rw [hvisit]
    exact List.sublist_cons_self event later
  · rw [hvisit]
    exact List.Sublist.refl _

theorem nodup_visit {bridge : BridgeState} {event next : QueuedEvent}
    {rest keys others known rejected : List PyStr} {connectionId : PyStr} (hnodup : rest.Nodup)
    (hvisit : visit bridge event rest keys failed =
      .sending next connectionId others known rejected) : (connectionId :: others).Nodup := by
  obtain ⟨hend, _⟩ | ⟨found, more, hsuffix, hsending, _⟩ :=
    visit_cases bridge event rest keys failed
  · rw [hend] at hvisit
    exact absurd hvisit (by simp)
  · rw [hsending] at hvisit
    obtain ⟨_, rfl, rfl, _, _⟩ := FlushPhase.sending.inj hvisit
    exact hnodup.sublist hsuffix.sublist

/-- A send changes nothing but the record of the sends. -/
theorem recordSend_cases (state : BroadcastState) (number : ℕ) (connectionId : PyStr)
    (ok : Bool) : ∃ sent, state.recordSend number connectionId ok = { state with sent := sent } ∧
      (ok = true ∧ sent = state.sent ++ [(number, connectionId)] ∨
        ok = false ∧ sent = state.sent) := by
  cases ok with
  | true => exact ⟨_, rfl, .inl ⟨rfl, rfl⟩⟩
  | false => exact ⟨_, rfl, .inr ⟨rfl, rfl⟩⟩

theorem resumed (state : BroadcastState) (number : ℕ) (call : FlushCall) (ok : Bool) :
    ∃ after, Resumed state number call (state.resumeCall number call ok) after := by
  obtain ⟨later, phase⟩ := call
  cases phase with
  | between =>
    cases later with
    | nil =>
      exact ⟨none, rfl, rfl, rfl, get?_endCall state number, List.nil_sublist _,
        fun event hevent => absurd hevent List.not_mem_nil, .inl rfl, id,
        fun _ _ following hfollowing => absurd hfollowing (by simp)⟩
    | cons event later =>
      refine ⟨some ⟨later, visit state.bridge event state.bridge.sockets.keys
        state.bridge.sockets.keys []⟩, rfl, rfl, rfl, get?_setCall state number _,
        events_visit_sublist _ _ _ _ _ _, fun other hother => List.mem_cons_of_mem _ hother,
        .inl rfl, id, ?_⟩
      intro _ hnodup following hfollowing next connectionId others known rejected hphase
      obtain rfl := Option.some.inj hfollowing
      exact nodup_visit hnodup hphase
  | sending event connectionId rest keys failed =>
    obtain ⟨sent, hrecorded, hsent⟩ := recordSend_cases state event.number connectionId ok
    have hrecord : sent = state.sent ∨ ∃ current ∈ (FlushPhase.sending event connectionId rest
        keys failed).current, ∃ receiver, sent = state.sent ++ [(current.number, receiver)] := by
      cases hsent with
      | inl hok => exact .inr ⟨event, List.mem_cons_self, connectionId, hok.2⟩
      | inr hfailed => exact .inl hfailed.2
    rw [resumeCall]
    dsimp only
    rw [hrecorded]
    split
    · exact ⟨none, rfl, rfl, rfl, get?_endCall _ number, List.nil_sublist _,
        fun event hevent => absurd hevent List.not_mem_nil, hrecord, id,
        fun _ _ following hfollowing => absurd hfollowing (by simp)⟩
    · refine ⟨some ⟨later, visit state.bridge event rest keys
        (if ok then failed else failed ++ [connectionId])⟩, rfl, rfl, rfl,
        get?_setCall _ number _, events_visit_sublist _ _ _ _ _ _, fun _ hother => hother,
        hrecord, id, ?_⟩
      intro hiterating _ following hfollowing next found others known rejected hphase
      obtain rfl := Option.some.inj hfollowing
      have hrest := hiterating event connectionId rest keys failed rfl
      exact nodup_visit (List.nodup_cons.mp hrest).2 hphase
  | cleaning failed =>
    have hidle : ∀ (following : FlushCall) (phase : FlushPhase), phase.current = [] →
        some ⟨later, phase⟩ = some following → ∀ event connectionId rest keys failed,
          following.phase = .sending event connectionId rest keys failed →
            (connectionId :: rest).Nodup := by
      intro following phase hcurrent hfollowing event connectionId rest keys failed hphase
      obtain rfl := Option.some.inj hfollowing
      dsimp only at hphase
      rw [hphase] at hcurrent
      exact absurd hcurrent (List.cons_ne_nil event [])
    cases failed with
    | nil =>
      exact ⟨some ⟨later, .between⟩, rfl, rfl, rfl, get?_setCall _ number _,
        List.Sublist.refl _, fun _ hevent => hevent, .inl rfl, id,
        fun _ _ following => hidle following _ rfl⟩
    | cons connectionId failed =>
      rw [resumeCall]
      dsimp only
      split
      · exact ⟨some ⟨later, .cleaning failed⟩, rfl, rfl, rfl, get?_setCall _ number _,
          List.Sublist.refl _, fun _ hevent => hevent, .inl rfl, id,
          fun _ _ following => hidle following _ rfl⟩
      · exact ⟨some ⟨later, .closing connectionId failed⟩, rfl, rfl, rfl,
          get?_setCall _ number _, List.Sublist.refl _, fun _ hevent => hevent, .inl rfl,
          fun hnodup => Dict.nodup_keys_erase hnodup connectionId,
          fun _ _ following => hidle following _ rfl⟩
  | closing connectionId failed =>
    refine ⟨some ⟨later, .cleaning failed⟩, rfl, rfl, rfl, get?_setCall _ number _,
      List.Sublist.refl _, fun _ hevent => hevent, .inl rfl, id, ?_⟩
    intro _ _ following hfollowing next connectionId others known rejected hphase
    obtain rfl := Option.some.inj hfollowing
    exact absurd hphase (by simp)

section Orderly

variable {state next : BroadcastState} {number : ℕ} {call : FlushCall}
  {after : Option FlushCall}

theorem heldBy_of_get? (hcall : state.calls.get? number = some call) :
    state.heldBy (some number) = call.events := by
  rw [heldBy, hcall]
  rfl

theorem waitingWith_of_get? (hcall : state.calls.get? number = some call) :
    state.waitingWith (some number) = call.later := by
  rw [waitingWith, hcall]
  rfl

theorem heldBy_of_waiting {holder : Option ℕ} {event : QueuedEvent}
    (hevent : event ∈ state.waitingWith holder) : event ∈ state.heldBy holder := by
  cases holder with
  | none => exact hevent
  | some number =>
    rw [waitingWith] at hevent
    rw [heldBy]
    cases hcall : state.calls.get? number with
    | none =>
      rw [hcall] at hevent
      exact hevent
    | some call =>
      rw [hcall] at hevent
      exact List.mem_append_right call.phase.current hevent

theorem Resumed.heldBy_sublist (hresumed : Resumed state number call next after)
    (hcall : state.calls.get? number = some call) (holder : Option ℕ) :
    List.Sublist (next.heldBy holder) (state.heldBy holder) := by
  cases holder with
  | none =>
    have hpending : next.heldBy none = state.heldBy none := hresumed.pending
    exact hpending ▸ List.Sublist.refl _
  | some other =>
    rw [heldBy, heldBy, hresumed.calls]
    by_cases hother : other = number
    · rw [if_pos hother, hother, hcall]
      exact hresumed.events
    · rw [if_neg hother]

theorem Resumed.waitingWith_subset (hresumed : Resumed state number call next after)
    (hcall : state.calls.get? number = some call) (holder : Option ℕ) :
    ∀ event ∈ next.waitingWith holder, event ∈ state.waitingWith holder := by
  cases holder with
  | none =>
    have hpending : next.waitingWith none = state.waitingWith none := hresumed.pending
    exact fun event hevent => hpending ▸ hevent
  | some other =>
    rw [waitingWith, waitingWith, hresumed.calls]
    by_cases hother : other = number
    · rw [if_pos hother, hother, hcall]
      exact hresumed.later
    · rw [if_neg hother]
      exact fun _ hevent => hevent

/-- The event that a call is sending does not wait with anyone. -/
theorem Orderly.current_ne_waiting (horderly : Orderly state)
    (hcall : state.calls.get? number = some call) {event waiting : QueuedEvent}
    (hevent : event ∈ call.phase.current) {holder : Option ℕ}
    (hwaiting : waiting ∈ state.waitingWith holder) : waiting.number ≠ event.number := by
  intro hsame
  have hheld : event ∈ state.heldBy (some number) := by
    rw [heldBy_of_get? hcall]
    exact List.mem_append_left _ hevent
  obtain rfl := horderly.apart holder (some number) waiting (heldBy_of_waiting hwaiting) event
    hheld hsame
  have hnodup := horderly.nodup (some number)
  rw [heldBy_of_get? hcall, FlushCall.events, List.map_append, List.nodup_append] at hnodup
  rw [waitingWith_of_get? hcall] at hwaiting
  exact hnodup.2.2 event.number (List.mem_map_of_mem hevent) waiting.number
    (List.mem_map_of_mem hwaiting) hsame.symm

theorem Orderly.resumed (horderly : Orderly state) (hcall : state.calls.get? number = some call)
    (hresumed : Resumed state number call next after) : Orderly next where
  nodup holder :=
    (horderly.nodup holder).sublist ((hresumed.heldBy_sublist hcall holder).map _)
  apart holder other event hevent same hsame := horderly.apart holder other event
    ((hresumed.heldBy_sublist hcall holder).subset hevent) same
    ((hresumed.heldBy_sublist hcall other).subset hsame)
  below holder event hevent := hresumed.queued ▸
    horderly.below holder event ((hresumed.heldBy_sublist hcall holder).subset hevent)
  sentBelow := by
    intro entry hentry
    rw [hresumed.queued]
    cases hresumed.sent with
    | inl hsent => exact horderly.sentBelow entry (hsent ▸ hentry)
    | inr hsent =>
      obtain ⟨event, hevent, connectionId, hsent⟩ := hsent
      rw [hsent, List.mem_append, List.mem_singleton] at hentry
      cases hentry with
      | inl hold => exact horderly.sentBelow entry hold
      | inr hnew =>
        rw [hnew]
        apply horderly.below (some number)
        rw [heldBy_of_get? hcall]
        exact List.mem_append_left _ hevent
  unsent := by
    intro holder event hevent connectionId hmem
    have hwaiting := hresumed.waitingWith_subset hcall holder event hevent
    cases hresumed.sent with
    | inl hsent => exact horderly.unsent holder event hwaiting connectionId (hsent ▸ hmem)
    | inr hsent =>
      obtain ⟨current, hcurrent, receiver, hsent⟩ := hsent
      rw [hsent, List.mem_append, List.mem_singleton] at hmem
      cases hmem with
      | inl hold => exact horderly.unsent holder event hwaiting connectionId hold
      | inr hnew => exact horderly.current_ne_waiting hcall hcurrent hwaiting (Prod.mk.inj hnew).1
  fresh := by
    intro other hother
    rw [hresumed.called] at hother
    have hne : other ≠ number := by
      rintro rfl
      rw [horderly.fresh other hother] at hcall
      exact absurd hcall (by simp)
    rw [hresumed.calls, if_neg hne, horderly.fresh other hother]
  sockets := hresumed.sockets horderly.sockets
  iterating := by
    intro other following event connectionId rest keys failed hfollowing hphase
    rw [hresumed.calls] at hfollowing
    by_cases hother : other = number
    · rw [if_pos hother] at hfollowing
      exact hresumed.iterating (fun event connectionId rest keys failed =>
        horderly.iterating number call event connectionId rest keys failed hcall)
        horderly.sockets following hfollowing event connectionId rest keys failed hphase
    · rw [if_neg hother] at hfollowing
      exact horderly.iterating other following event connectionId rest keys failed hfollowing hphase

theorem Orderly.queueBroadcast (horderly : Orderly state) (topic : PyStr)
    (payload : Fields) : Orderly (state.queueBroadcast topic payload) := by
  by_cases htopic : topic = []
  · rw [BroadcastState.queueBroadcast, if_pos htopic]
    exact horderly
  · have hnext : state.queueBroadcast topic payload =
        { state with
          queued := state.queued + 1
          pending := state.pending ++ [⟨state.queued, topic, payload⟩] } := if_neg htopic
    rw [hnext]
    have hpending : ∀ event ∈ state.pending, event.number < state.queued :=
      fun event hevent => horderly.below none event hevent
    have hcalled : ∀ number, ∀ event ∈ state.heldBy (some number),
        event.number < state.queued :=
      fun number event hevent => horderly.below (some number) event hevent
    constructor
    · intro holder
      cases holder with
      | none =>
        have hnew : ((state.pending ++ [QueuedEvent.mk state.queued topic payload]).map
            QueuedEvent.number).Nodup := by
          rw [List.map_append, List.nodup_append]
          refine ⟨horderly.nodup none, List.nodup_singleton _, ?_⟩
          intro old hold new hnew
          obtain ⟨event, hevent, rfl⟩ := List.mem_map.mp hold
          rw [List.map_singleton, List.mem_singleton] at hnew
          exact hnew ▸ (hpending event hevent).ne
        exact hnew
      | some number => exact horderly.nodup (some number)
    · intro holder other event hevent same hsame hnumber
      cases holder with
      | none =>
        cases other with
        | none => rfl
        | some number =>
          cases List.mem_append.mp hevent with
          | inl hold => exact horderly.apart none (some number) event hold same hsame hnumber
          | inr hnew =>
            rw [List.mem_singleton.mp hnew] at hnumber
            exact absurd hnumber (hcalled number same hsame).ne'
      | some number =>
        cases other with
        | none =>
          cases List.mem_append.mp hsame with
          | inl hold => exact horderly.apart (some number) none event hevent same hold hnumber
          | inr hnew =>
            rw [List.mem_singleton.mp hnew] at hnumber
            exact absurd hnumber (hcalled number event hevent).ne
        | some other =>
          exact horderly.apart (some number) (some other) event hevent same hsame hnumber
    · intro holder event hevent
      cases holder with
      | none =>
        cases List.mem_append.mp hevent with
        | inl hold => exact (hpending event hold).trans (Nat.lt_succ_self _)
        | inr hnew =>
          rw [List.mem_singleton.mp hnew]
          exact Nat.lt_succ_self _
      | some number => exact (hcalled number event hevent).trans (Nat.lt_succ_self _)
    · exact fun entry hentry => (horderly.sentBelow entry hentry).trans (Nat.lt_succ_self _)
    · intro holder
      cases holder with
      | none =>
        intro event hevent connectionId hsent
        cases List.mem_append.mp hevent with
        | inl hold => exact horderly.unsent none event hold connectionId hsent
        | inr hnew =>
          rw [List.mem_singleton.mp hnew] at hsent
          exact absurd (horderly.sentBelow _ hsent) (lt_irrefl _)
      | some number => exact horderly.unsent (some number)
    · exact horderly.fresh
    · exact horderly.sockets
    · exact horderly.iterating

theorem get?_flushBroadcasts (state : BroadcastState) (number : ℕ) :
    state.flushBroadcasts.calls.get? number =
      if number = state.called then some ⟨state.pending, .between⟩
      else state.calls.get? number := by
  by_cases hnumber : number = state.called
  · rw [if_pos hnumber, hnumber]
    exact Dict.get?_set_self _ _ _
  · rw [if_neg hnumber]
    exact Dict.get?_set_of_ne _ _ hnumber

/-- Who held the events of a call before a new call took the queue. -/
def holderBefore (state : BroadcastState) (number : ℕ) : Option ℕ :=
  if number = state.called then none else some number

theorem heldBy_flushBroadcasts (state : BroadcastState) (number : ℕ) :
    state.flushBroadcasts.heldBy (some number) = state.heldBy (state.holderBefore number) := by
  rw [holderBefore, heldBy, get?_flushBroadcasts]
  by_cases hnumber : number = state.called
  · rw [if_pos hnumber, if_pos hnumber]
    rfl
  · rw [if_neg hnumber, if_neg hnumber]
    rfl

theorem waitingWith_flushBroadcasts (state : BroadcastState) (number : ℕ) :
    state.flushBroadcasts.waitingWith (some number) =
      state.waitingWith (state.holderBefore number) := by
  rw [holderBefore, waitingWith, get?_flushBroadcasts]
  by_cases hnumber : number = state.called
  · rw [if_pos hnumber, if_pos hnumber]
    rfl
  · rw [if_neg hnumber, if_neg hnumber]
    rfl

theorem holderBefore_injective (state : BroadcastState) :
    Function.Injective state.holderBefore := by
  intro first second hsame
  rw [holderBefore, holderBefore] at hsame
  split at hsame
  · rename_i hfirst
    split at hsame
    · rename_i hsecond
      exact hfirst.trans hsecond.symm
    · exact absurd hsame (by simp)
  · split at hsame
    · exact absurd hsame (by simp)
    · exact Option.some.inj hsame

theorem Orderly.flushBroadcasts (horderly : Orderly state) : Orderly state.flushBroadcasts := by
  constructor
  · intro holder
    cases holder with
    | none => exact List.nodup_nil
    | some number =>
      rw [heldBy_flushBroadcasts]
      exact horderly.nodup _
  · intro holder other event hevent same hsame hnumber
    cases holder with
    | none => exact absurd hevent List.not_mem_nil
    | some number =>
      cases other with
      | none => exact absurd hsame List.not_mem_nil
      | some other =>
        rw [heldBy_flushBroadcasts] at hevent hsame
        exact congrArg some (holderBefore_injective state
          (horderly.apart _ _ event hevent same hsame hnumber))
  · intro holder event hevent
    cases holder with
    | none => exact absurd hevent List.not_mem_nil
    | some number =>
      rw [heldBy_flushBroadcasts] at hevent
      exact horderly.below _ event hevent
  · exact horderly.sentBelow
  · intro holder event hevent
    cases holder with
    | none => exact absurd hevent List.not_mem_nil
    | some number =>
      rw [waitingWith_flushBroadcasts] at hevent
      exact horderly.unsent _ event hevent
  · intro number hnumber
    have hlt : state.called < number := hnumber
    rw [get?_flushBroadcasts, if_neg hlt.ne', horderly.fresh number hlt.le]
  · exact horderly.sockets
  · intro number call event connectionId rest keys failed hcall hphase
    rw [get?_flushBroadcasts] at hcall
    by_cases hnumber : number = state.called
    · rw [if_pos hnumber] at hcall
      obtain rfl := Option.some.inj hcall
      exact absurd hphase (by simp)
    · rw [if_neg hnumber] at hcall
      exact horderly.iterating number call event connectionId rest keys failed hcall hphase

theorem Orderly.apply (horderly : Orderly state) (ids : IdSupply) (std : Stdlib)
    (op : BroadcastOp) : Orderly (op.apply ids std state) := by
  cases op with
  | operate op =>
    exact { horderly with
      sockets := BridgeState.nodup_apply horderly.sockets ids std op
      iterating := horderly.iterating }
  | queue topic payload => exact horderly.queueBroadcast topic payload
  | flush => exact horderly.flushBroadcasts
  | resume number ok =>
    rw [BroadcastOp.apply, resume]
    cases hcall : state.calls.get? number with
    | none => exact horderly
    | some call =>
      obtain ⟨after, hresumed⟩ := BroadcastState.resumed state number call ok
      exact horderly.resumed hcall hresumed

end Orderly

end BroadcastState

/-! ## One event and one connection -/

/-- The iteration has yet to send an event to a connection. -/
def FlushPhase.Visits (event : QueuedEvent) (connectionId : PyStr) : FlushPhase → Prop
  | .sending current next rest _ _ => current = event ∧ connectionId ∈ next :: rest
  | _ => False

/-- A call has yet to send an event to a connection. -/
def FlushCall.Owes (call : FlushCall) (event : QueuedEvent) (connectionId : PyStr) : Prop :=
  event ∈ call.later ∨ call.phase.Visits event connectionId

namespace BroadcastState

/-- How often the event was sent to the connection, by how far the call is. -/
inductive Progress (event : QueuedEvent) (connectionId : PyStr) : Option FlushCall → ℕ → Prop
  | over : Progress event connectionId none 1
  | owed {call : FlushCall} (howes : call.Owes event connectionId) :
      Progress event connectionId (some call) 0
  | done {call : FlushCall} {count : ℕ} (howes : ¬call.Owes event connectionId)
      (hcount : count = 1 ∨ connectionId ∈ call.phase.failed) :
      Progress event connectionId (some call) count

section Progress

variable {state : BroadcastState} {number count : ℕ} {call following : FlushCall}
  {event : QueuedEvent} {connectionId : PyStr}

theorem visits_visit_iff {bridge : BridgeState}
    (hlistens : bridge.listens event.topic connectionId = true) (current : QueuedEvent)
    (rest keys failed : List PyStr) :
    (visit bridge current rest keys failed).Visits event connectionId ↔
      current = event ∧ connectionId ∈ rest := by
  obtain ⟨hvisit, hnone⟩ | ⟨found, others, hsuffix, hvisit, hkept⟩ :=
    visit_cases bridge current rest keys failed
  · rw [hvisit]
    refine iff_of_false id ?_
    rintro ⟨rfl, hmem⟩
    rw [hnone connectionId hmem] at hlistens
    exact Bool.false_ne_true hlistens
  · rw [hvisit]
    apply and_congr_right
    rintro rfl
    exact ⟨fun hmem => hsuffix.subset hmem, fun hmem => hkept connectionId hmem hlistens⟩

theorem failed_visit (bridge : BridgeState) (current : QueuedEvent) (rest keys failed : List PyStr) :
    (visit bridge current rest keys failed).failed = failed := by
  obtain ⟨hvisit, _⟩ | ⟨found, others, _, hvisit, _⟩ := visit_cases bridge current rest keys failed
  · rw [hvisit]
    rfl
  · rw [hvisit]
    rfl

theorem Progress.count_of_owes (hprogress : Progress event connectionId (some call) count)
    (howes : call.Owes event connectionId) : count = 0 := by
  cases hprogress with
  | owed _ => rfl
  | done hnot _ => exact absurd howes hnot

theorem Progress.count_of_not_owes (hprogress : Progress event connectionId (some call) count)
    (howes : ¬call.Owes event connectionId) : count = 1 ∨ connectionId ∈ call.phase.failed := by
  cases hprogress with
  | owed hstill => exact absurd hstill howes
  | done _ hcount => exact hcount

/-- A step that sends nothing to the connection. -/
theorem Progress.of_owes_iff (hprogress : Progress event connectionId (some call) count)
    (howes : following.Owes event connectionId ↔ call.Owes event connectionId)
    (hfailed : connectionId ∈ call.phase.failed → connectionId ∈ following.phase.failed) :
    Progress event connectionId (some following) count := by
  cases hprogress with
  | owed hbefore => exact .owed (howes.mpr hbefore)
  | done hbefore hcount =>
    exact .done (fun hafter => hbefore (howes.mp hafter)) (hcount.imp_right hfailed)

theorem owes_iff_of_idle {call : FlushCall} (hidle : call.phase.current = []) :
    call.Owes event connectionId ↔ event ∈ call.later := by
  obtain ⟨later, phase⟩ := call
  cases phase with
  | sending current next rest keys failed => exact absurd hidle (List.cons_ne_nil current [])
  | between => exact or_iff_left id
  | cleaning failed => exact or_iff_left id
  | closing next failed => exact or_iff_left id

/-- Cleaning up after an event. -/
theorem Progress.idle (hprogress : Progress event connectionId (some call) count)
    (hbefore : call.phase.current = []) (hafter : following.phase.current = [])
    (hlater : following.later = call.later)
    (hfailed : connectionId ∈ call.phase.failed → connectionId ∈ following.phase.failed) :
    Progress event connectionId (some following) count := by
  apply hprogress.of_owes_iff _ hfailed
  rw [owes_iff_of_idle hbefore, owes_iff_of_idle hafter, hlater]

/-- The progress of a call in a state. -/
def ProgressIn (state : BroadcastState) (number : ℕ) (event : QueuedEvent)
    (connectionId : PyStr) : Prop :=
  Progress event connectionId (state.calls.get? number)
    (state.sent.count (event.number, connectionId))

theorem progressIn_setCall (state : BroadcastState) (number : ℕ) (call : FlushCall) :
    (state.setCall number call).ProgressIn number event connectionId ↔
      Progress event connectionId (some call)
        (state.sent.count (event.number, connectionId)) := by
  rw [ProgressIn, get?_setCall, if_pos rfl]
  rfl

variable {later : List QueuedEvent}

/-- A call goes on to the next event. -/
theorem Progress.next_event (hprogress : Progress event connectionId (some ⟨later, .between⟩)
      (state.sent.count (event.number, connectionId)))
    (hlistens : state.bridge.listens event.topic connectionId = true) (ok : Bool) :
    (state.resumeCall number ⟨later, .between⟩ ok).ProgressIn number event connectionId := by
  cases later with
  | nil =>
    have hnext : state.resumeCall number ⟨[], .between⟩ ok = state.endCall number := rfl
    have howes : ¬FlushCall.Owes ⟨[], .between⟩ event connectionId := by
      rw [owes_iff_of_idle rfl]
      exact List.not_mem_nil
    have hcount := (hprogress.count_of_not_owes howes).resolve_right List.not_mem_nil
    have hsent : (state.endCall number).sent = state.sent := rfl
    rw [hnext, ProgressIn, get?_endCall, if_pos rfl, hsent, hcount]
    exact .over
  | cons current later =>
    have hnext : state.resumeCall number ⟨current :: later, .between⟩ ok =
        state.setCall number ⟨later, visit state.bridge current state.bridge.sockets.keys
          state.bridge.sockets.keys []⟩ := rfl
    rw [hnext, progressIn_setCall]
    apply hprogress.of_owes_iff
    · rw [FlushCall.Owes, visits_visit_iff hlistens, owes_iff_of_idle rfl, List.mem_cons,
        and_iff_left (BridgeState.mem_keys_of_listens hlistens), or_comm, eq_comm]
    · exact fun hfailed => absurd hfailed List.not_mem_nil

/-- A send returns while the connections are those that the iteration began with. -/
theorem Progress.send_returned {current : QueuedEvent} {next : PyStr} {rest keys : List PyStr}
    (hprogress : Progress event connectionId
      (some ⟨later, .sending current next rest keys failed⟩)
      (state.sent.count (event.number, connectionId))) (hnodup : (next :: rest).Nodup)
    (hlater : current ∉ later) (hunique : current.number = event.number → current = event)
    (hsteady : state.bridge.sockets.keys = keys)
    (hlistens : state.bridge.listens event.topic connectionId = true) (ok : Bool) :
    (state.resumeCall number ⟨later, .sending current next rest keys failed⟩ ok).ProgressIn
      number event connectionId := by
  have hnext : state.resumeCall number ⟨later, .sending current next rest keys failed⟩ ok =
      (state.recordSend current.number next ok).setCall number ⟨later, visit state.bridge
        current rest keys (if ok then failed else failed ++ [next])⟩ := by
    rw [resumeCall]
    exact if_neg (not_not_intro hsteady)
  have howes : FlushCall.Owes ⟨later, visit state.bridge current rest keys
      (if ok then failed else failed ++ [next])⟩ event connectionId ↔
      event ∈ later ∨ current = event ∧ connectionId ∈ rest := by
    rw [FlushCall.Owes, visits_visit_iff hlistens]
  rw [hnext, progressIn_setCall]
  by_cases hhit : current = event ∧ connectionId = next
  · -- The event is owed until now: it is the turn of the connection.
    obtain ⟨rfl, rfl⟩ := hhit
    have hunsent := hprogress.count_of_owes (.inr ⟨rfl, List.mem_cons_self⟩)
    apply Progress.done
    · rw [howes]
      exact not_or.mpr ⟨hlater, fun hmem => (List.nodup_cons.mp hnodup).1 hmem.2⟩
    · rw [failed_visit]
      cases ok with
      | true =>
        left
        rw [recordSend, if_pos rfl, List.count_append, hunsent, List.count_singleton_self]
      | false =>
        right
        exact List.mem_append_right failed (List.mem_singleton_self connectionId)
  · have hcount : (state.recordSend current.number next ok).sent.count
        (event.number, connectionId) = state.sent.count (event.number, connectionId) := by
      cases ok with
      | false => rfl
      | true =>
        have hother : (current.number, next) ≠ (event.number, connectionId) := by
          intro hsame
          obtain ⟨hnumber, hconnection⟩ := Prod.mk.inj hsame
          exact hhit ⟨hunique hnumber, hconnection.symm⟩
        rw [recordSend, if_pos rfl, List.count_append,
          List.count_eq_zero.mpr fun hmem => hother (List.mem_singleton.mp hmem).symm,
          Nat.add_zero]
    rw [hcount]
    apply hprogress.of_owes_iff
    · rw [howes, FlushCall.Owes]
      apply or_congr_right
      apply and_congr_right
      intro hcurrent
      rw [List.mem_cons, or_iff_right fun hconnection => hhit ⟨hcurrent, hconnection⟩]
    · rw [failed_visit]
      intro hmem
      cases ok with
      | true => exact hmem
      | false => exact List.mem_append_left _ hmem

/-- A failed connection is closed; the connection that listens is another. -/
theorem Progress.cleaned (hprogress : Progress event connectionId (some ⟨later, .cleaning failed⟩)
      (state.sent.count (event.number, connectionId))) (ok : Bool)
    (hbefore : state.bridge.listens event.topic connectionId = true)
    (hafter : (state.resumeCall number ⟨later, .cleaning failed⟩ ok).bridge.listens
      event.topic connectionId = true) :
    (state.resumeCall number ⟨later, .cleaning failed⟩ ok).ProgressIn number event
      connectionId := by
  cases failed with
  | nil =>
    rw [resumeCall]
    exact (progressIn_setCall _ _ _).mpr (hprogress.idle rfl rfl rfl id)
  | cons next failed =>
    have hother : connectionId ≠ next → connectionId ∈ next :: failed → connectionId ∈ failed :=
      fun hne hmem => (List.mem_cons.mp hmem).resolve_left hne
    rw [resumeCall] at hafter ⊢
    dsimp only at hafter ⊢
    cases hsocket : state.bridge.sockets.get? next with
    | none =>
      have hne : connectionId ≠ next := by
        rintro rfl
        exact BridgeState.open_of_listens hbefore hsocket
      exact (progressIn_setCall _ _ _).mpr (hprogress.idle rfl rfl rfl (hother hne))
    | some socket =>
      rw [hsocket] at hafter
      have hne : connectionId ≠ next := by
        rintro rfl
        exact BridgeState.open_of_listens hafter (Dict.get?_erase_self _ _)
      exact (progressIn_setCall _ _ _).mpr (hprogress.idle rfl rfl rfl (hother hne))

theorem Progress.resumeCall (horderly : Orderly state) (hcall : state.calls.get? number = some call)
    {ok : Bool} (hsteady : (BroadcastOp.resume number ok).Steady state)
    (hunique : ∀ same ∈ call.events, same.number = event.number → same = event)
    (hprogress : state.ProgressIn number event connectionId)
    (hbefore : state.bridge.listens event.topic connectionId = true)
    (hafter : (state.resumeCall number call ok).bridge.listens event.topic connectionId =
      true) : (state.resumeCall number call ok).ProgressIn number event connectionId := by
  rw [ProgressIn, hcall] at hprogress
  obtain ⟨later, phase⟩ := call
  cases phase with
  | between => exact hprogress.next_event hbefore ok
  | sending current next rest keys failed =>
    have hnodup := horderly.nodup (some number)
    rw [heldBy_of_get? hcall] at hnodup
    exact hprogress.send_returned
      (horderly.iterating number _ current next rest keys failed hcall rfl)
      (List.nodup_cons.mp hnodup.of_map).1 (hunique current List.mem_cons_self)
      (hsteady keys (by rw [hcall]; rfl)) hbefore ok
  | cleaning failed => exact hprogress.cleaned ok hbefore hafter
  | closing next failed =>
    rw [BroadcastState.resumeCall]
    exact (progressIn_setCall _ _ _).mpr (hprogress.idle rfl rfl rfl id)

/-- A call was given an event, and it alone sends it. -/
structure Tracks (state : BroadcastState) (number : ℕ) (event : QueuedEvent)
    (connectionId : PyStr) : Prop where
  called : number < state.called
  numbered : event.number < state.queued
  apart : ∀ holder ≠ some number, ∀ same ∈ state.heldBy holder, same.number ≠ event.number
  unique : ∀ same ∈ state.heldBy (some number), same.number = event.number → same = event
  progress : state.ProgressIn number event connectionId

theorem Orderly.tracks (horderly : Orderly state) (hevent : event ∈ state.pending)
    (connectionId : PyStr) :
    state.flushBroadcasts.Tracks state.called event connectionId where
  called := Nat.lt_succ_self _
  numbered := horderly.below none event hevent
  apart holder hholder same hsame hnumber := by
    cases holder with
    | none => exact absurd hsame List.not_mem_nil
    | some other =>
      rw [heldBy_flushBroadcasts] at hsame
      have hnone := horderly.apart _ none same hsame event hevent hnumber
      rw [holderBefore, if_neg fun hother => hholder (congrArg some hother)] at hnone
      exact absurd hnone (by simp)
  unique same hsame hnumber := by
    rw [heldBy_flushBroadcasts, holderBefore, if_pos rfl] at hsame
    exact List.inj_on_of_nodup_map (horderly.nodup none) hsame hevent hnumber
  progress := by
    have hunsent : state.flushBroadcasts.sent.count (event.number, connectionId) = 0 :=
      List.count_eq_zero.mpr (horderly.unsent none event hevent connectionId)
    rw [ProgressIn, get?_flushBroadcasts, if_pos rfl, hunsent]
    exact .owed (.inl hevent)

section

variable (htracks : state.Tracks number event connectionId)

include htracks

theorem Tracks.queueBroadcast (topic : PyStr) (payload : Fields) :
    (state.queueBroadcast topic payload).Tracks number event connectionId := by
  rw [BroadcastState.queueBroadcast]
  split
  · exact htracks
  · refine ⟨htracks.called, htracks.numbered.trans (Nat.lt_succ_self _), ?_, htracks.unique,
      htracks.progress⟩
    intro holder hholder same hsame
    cases holder with
    | some other => exact htracks.apart (some other) hholder same hsame
    | none =>
      cases List.mem_append.mp hsame with
      | inl hold => exact htracks.apart none hholder same hold
      | inr hnew =>
        rw [List.mem_singleton.mp hnew]
        exact htracks.numbered.ne'

theorem Tracks.flushBroadcasts :
    state.flushBroadcasts.Tracks number event connectionId where
  called := htracks.called.trans (Nat.lt_succ_self _)
  numbered := htracks.numbered
  apart holder hholder same hsame := by
    cases holder with
    | none => exact absurd hsame List.not_mem_nil
    | some other =>
      rw [heldBy_flushBroadcasts] at hsame
      apply htracks.apart _ _ same hsame
      rw [holderBefore]
      split
      · simp
      · exact hholder
  unique := by
    rw [heldBy_flushBroadcasts, holderBefore, if_neg htracks.called.ne]
    exact htracks.unique
  progress := by
    rw [ProgressIn, get?_flushBroadcasts, if_neg htracks.called.ne]
    exact htracks.progress

/-- Another call goes on. -/
theorem Tracks.resumed_other {next : BroadcastState} {other : ℕ} {after : Option FlushCall}
    (hcall : state.calls.get? other = some call) (hresumed : Resumed state other call next after)
    (hother : number ≠ other) : next.ProgressIn number event connectionId := by
  have hsame : next.sent.count (event.number, connectionId) =
      state.sent.count (event.number, connectionId) := by
    cases hresumed.sent with
    | inl hsent => rw [hsent]
    | inr hsent =>
      obtain ⟨current, hcurrent, receiver, hsent⟩ := hsent
      have hheld : current ∈ state.heldBy (some other) := by
        rw [heldBy_of_get? hcall]
        exact List.mem_append_left _ hcurrent
      have hne := htracks.apart (some other)
        (fun hsome => hother (Option.some.inj hsome).symm) current hheld
      have hnew : (event.number, connectionId) ∉ [(current.number, receiver)] := fun hmem =>
        hne (Prod.mk.inj (List.mem_singleton.mp hmem)).1.symm
      rw [hsent, List.count_append, List.count_eq_zero.mpr hnew, Nat.add_zero]
  rw [ProgressIn, hresumed.calls, if_neg hother, hsame]
  exact htracks.progress

theorem Tracks.resume (horderly : Orderly state) {other : ℕ} {ok : Bool}
    (hsteady : (BroadcastOp.resume other ok).Steady state)
    (hbefore : state.bridge.listens event.topic connectionId = true)
    (hafter : (state.resume other ok).bridge.listens event.topic connectionId = true) :
    (state.resume other ok).Tracks number event connectionId := by
  rw [BroadcastState.resume] at hafter ⊢
  cases hcall : state.calls.get? other with
  | none => exact htracks
  | some call =>
    rw [hcall] at hafter
    obtain ⟨after, hresumed⟩ := BroadcastState.resumed state other call ok
    have hheld := hresumed.heldBy_sublist hcall
    refine ⟨hresumed.called ▸ htracks.called, hresumed.queued ▸ htracks.numbered,
      fun holder hholder same hsame =>
        htracks.apart holder hholder same ((hheld holder).subset hsame),
      fun same hsame => htracks.unique same ((hheld _).subset hsame), ?_⟩
    by_cases hother : number = other
    · subst hother
      have hunique := htracks.unique
      rw [heldBy_of_get? hcall] at hunique
      exact Progress.resumeCall horderly hcall hsteady hunique htracks.progress hbefore hafter
    · exact htracks.resumed_other hcall hresumed hother

theorem Tracks.apply (horderly : Orderly state) (ids : IdSupply) (std : Stdlib) {op : BroadcastOp}
    (hsteady : op.Steady state) (hbefore : state.bridge.listens event.topic connectionId = true)
    (hafter : (op.apply ids std state).bridge.listens event.topic connectionId = true) :
    (op.apply ids std state).Tracks number event connectionId := by
  cases op with
  | operate op =>
    exact ⟨htracks.called, htracks.numbered, htracks.apart, htracks.unique, htracks.progress⟩
  | queue topic payload => exact htracks.queueBroadcast topic payload
  | flush => exact htracks.flushBroadcasts
  | resume other ok => exact htracks.resume horderly hsteady hbefore hafter

/-- Once the call is over the event was sent once. -/
theorem Tracks.count_eq_one (hover : state.calls.get? number = none) :
    state.sent.count (event.number, connectionId) = 1 := by
  have hprogress := htracks.progress
  rw [ProgressIn, hover] at hprogress
  generalize state.sent.count (event.number, connectionId) = count at hprogress
  cases hprogress
  rfl

/-- While the connection listens a run of steady steps keeps track of the event. -/
theorem Tracks.last {ids : IdSupply} {std : Stdlib} {run : Trace BroadcastState BroadcastOp}
    (horderly : Orderly state)
    (hrun : Follows (fun state op next => next = op.apply ids std state) state run)
    (hsteady : Guarded (fun state op => op.Steady state) state run)
    (hlistens : state.bridge.listens event.topic connectionId = true)
    (hstays : ∀ entry ∈ run, entry.2.bridge.listens event.topic connectionId = true) :
    (last state run).Tracks number event connectionId := by
  induction run generalizing state with
  | nil => exact htracks
  | cons entry rest ih =>
    obtain ⟨op, next⟩ := entry
    obtain ⟨rfl, hrest⟩ := hrun
    obtain ⟨hnext, hstays⟩ := List.forall_mem_cons.mp hstays
    exact ih (htracks.apply horderly ids std hsteady.1 hlistens hnext)
      (horderly.apply ids std op) hrest hsteady.2 hnext hstays

end

end Progress

end BroadcastState

/-- In a run in which no connection comes or goes during an iteration every event is
delivered once. -/
theorem broadcasts_delivered_once (ids : IdSupply) (std : Stdlib) (ops : List BroadcastOp) :
    let run := history (BroadcastOp.apply ids std) .start ops
    Guarded (fun state op => op.Steady state) .start run → DeliversOnce .start run := by
  intro run hsteady before during called hsplit hover event hevent connectionId hlistens hstays
  have hrun := follows_history (BroadcastOp.apply ids std) BroadcastState.start ops
  change Follows _ _ run at hrun
  rw [hsplit, follows_append] at hrun
  rw [hsplit, Guarded, follows_append] at hsteady
  obtain ⟨hbefore, hcalled, hfollows⟩ := hrun
  have horderly := (invariant_of_follows hbefore BroadcastState.orderly_start (by
    rintro state op next horderly rfl
    exact horderly.apply ids std op)).2
  obtain rfl := hcalled
  obtain ⟨hafter, hduring⟩ := List.forall_mem_cons.mp hstays
  exact ((horderly.tracks hevent connectionId).last horderly.flushBroadcasts hfollows
    hsteady.2.2 hafter hduring).count_eq_one hover

/-- Two connections subscribe to a topic, and an event is queued. -/
def twoListeners : List BroadcastOp :=
  [.operate (.accept none), .operate (.accept none),
    .operate (.message (newId unaryIds (py "ws-") 0)
      [(py "frame_type", .str (py "subscribe")), (py "topic", .str (py "case.*"))]),
    .operate (.message (newId unaryIds (py "ws-") 1)
      [(py "frame_type", .str (py "subscribe")), (py "topic", .str (py "case.*"))]),
    .queue (py "case.1") []]

theorem quiet_broadcast_delivered :
    DeliversOnce .start (history (BroadcastOp.apply unaryIds asciiStdlib) .start
      (twoListeners ++ [.flush, .resume 0 true, .resume 0 true, .resume 0 false, .resume 0 true,
        .resume 0 true, .resume 0 true, .resume 0 true])) :=
  broadcasts_delivered_once unaryIds asciiStdlib _ (by decide +kernel)

/-- A connection is accepted during the first send, and the second listener gets nothing. -/
theorem accepted_connection_loses_event :
    ¬DeliversOnce .start (history (BroadcastOp.apply unaryIds asciiStdlib) .start
      (twoListeners ++ [.flush, .resume 0 true, .operate (.accept none), .resume 0 true])) := by
  intro hdelivers
  have hcount := hdelivers
    (history (BroadcastOp.apply unaryIds asciiStdlib) .start twoListeners)
    (history (BroadcastOp.apply unaryIds asciiStdlib) _
      [.resume 0 true, .operate (.accept none), .resume 0 true]) _ rfl rfl
    ⟨0, py "case.1", []⟩ List.mem_cons_self (newId unaryIds (py "ws-") 1) (by decide +kernel)
    (by decide +kernel)
  exact absurd hcount (by decide +kernel)

end RootSeeker.Gateway
