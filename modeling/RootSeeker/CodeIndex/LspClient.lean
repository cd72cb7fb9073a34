import RootSeeker.Core.Streams
import RootSeeker.Core.Transition
import RootSeeker.Python.Repr

/-!
# The LSP client

The client opens the pipes of its server in text mode.  In that mode every line
end is read as a single newline, so the line that ends a header block reaches
the client as a newline alone, while the client waits for a carriage return
before it.
-/

namespace RootSeeker.CodeIndex

open Python Streams Transition

def carriageReturn : CodePoint := CodePoint.ofChar '\r'
def lineFeed : CodePoint := CodePoint.ofChar '\n'

/-! ## Text mode -/

/-- What a server will have written to its standard output; behind an open text it stays
silent. -/
structure ServerOutput where
  text : PyStr
  closed : Bool

/-- The end of the output: nothing more, or a wait without end. -/
def outputEnd (closed : Bool) : Stream CodePoint :=
  if closed then [] else [none]

/-- Universal newlines: `"\r\n"` and `"\r"` are read as `"\n"`.  A carriage return is pending
until it is known whether a line feed follows it. -/
def universalNewlines (closed : Bool) : Bool → PyStr → Stream CodePoint
  | pending, [] => if pending && closed then some lineFeed :: outputEnd closed else outputEnd closed
  | pending, c :: rest =>
    if c = carriageReturn then
      (if pending then [some lineFeed] else []) ++ universalNewlines closed true rest
    else if pending && c ≠ lineFeed then
      some lineFeed :: some c :: universalNewlines closed false rest
    else some c :: universalNewlines closed false rest

theorem carriageReturn_ne_lineFeed : carriageReturn ≠ lineFeed := by
  decide

/-- No carriage return is left. -/
theorem carriageReturn_not_mem_universalNewlines (closed pending : Bool) (text : PyStr) :
    some carriageReturn ∉ universalNewlines closed pending text := by
  have hend : some carriageReturn ∉ outputEnd closed := by
    cases closed with
    | true => exact List.not_mem_nil
    | false => simp [outputEnd]
  have hfeed : some carriageReturn ≠ some lineFeed :=
    fun heq => carriageReturn_ne_lineFeed (Option.some.inj heq)
  induction text generalizing pending with
  | nil =>
    rw [universalNewlines]
    split
    · rw [List.mem_cons, not_or]
      exact ⟨hfeed, hend⟩
    · exact hend
  | cons c rest ih =>
    rw [universalNewlines]
    split
    · rw [List.mem_append, not_or]
      refine ⟨?_, ih true⟩
      cases pending with
      | true => simpa using hfeed
      | false => exact List.not_mem_nil
    next hc =>
      have hother : some carriageReturn ≠ some c :=
        fun heq => hc (Option.some.inj heq).symm
      split
      · rw [List.mem_cons, List.mem_cons, not_or, not_or]
        exact ⟨hfeed, hother, ih false⟩
      · rw [List.mem_cons, not_or]
        exact ⟨hother, ih false⟩

/-! ## Reading a response -/

/-- One turn of the header loop of `_read_response`; nothing is the wait without end. -/
def headerTurn (state : Dict PyStr PyStr × Stream CodePoint) :
    (Dict PyStr PyStr × Stream CodePoint) ⊕ Option (Dict PyStr PyStr × Stream CodePoint) :=
  match readline lineFeed state.2 with
  | none => .inr none
  | some (line, rest) =>
    if line = [carriageReturn, lineFeed] ∨ line = [] then .inr (some (state.1, rest))
    else if colonChar ∈ line then
      let header := splitHeader line
      .inl (state.1.set (strip header.1) (strip header.2), rest)
    else .inl (state.1, rest)

def readHeaders (output : Stream CodePoint) : Option (Dict PyStr PyStr × Stream CodePoint) :=
  loop (fun state => state.2.length) headerTurn (fun _ => none) ([], output)

/-- `stdout.read(length)`; a negative length reads to the end. -/
def readContent (length : ℤ) (output : Stream CodePoint) :
    Option (PyStr × Stream CodePoint) :=
  read (if length < 0 then output.length else length.toNat) output

variable (std : Stdlib) (intOfText : PyStr → Option ℤ)

/-- `_read_response`; an exception is answered with `None`. -/
def readResponse (output : Stream CodePoint) : Option (Option Json × Stream CodePoint) :=
  (readHeaders output).bind fun (headers, rest) =>
    match (headers.get? (py "Content-Length")).elim (some 0) intOfText with
    | none => some (none, rest)
    | some length =>
      if length = 0 then some (none, rest)
      else
        (readContent length rest).map fun (content, rest) => (std.jsonLoads content, rest)

/-! ## The client -/

/-- A message of the client; a notification has no id. -/
structure LspMessage where
  id : Option ℕ
  method : PyStr
  params : Fields

structure LspClient where
  /-- What the server process is still to be read from. -/
  process : Option (Stream CodePoint)
  requestId : ℕ
  initialized : Bool
  written : List LspMessage

namespace LspClient

variable (client : LspClient)

/-- `start`; a server that is not found leaves the client without process. -/
def start (spawned : Option ServerOutput) : Bool × LspClient :=
  match client.process, spawned with
  | some _, _ => (true, client)
  | none, some output =>
    (true, { client with process := some (universalNewlines output.closed false output.text) })
  | none, none => (false, client)

def stop : LspClient :=
  match client.process with
  | some _ => { client with process := none, initialized := false }
  | none => client

/-- `_send_request`, on a pipe that takes the request or not; nothing is a call that does not
return. -/
def sendRequest (method : PyStr) (params : Fields) (writes : Bool) :
    Option (Option Json × LspClient) :=
  match client.process with
  | none => some (none, client)
  | some output =>
    let client : LspClient := { client with requestId := client.requestId + 1 }
    if !writes then some (none, client)
    else
      let client : LspClient := { client with
        written := client.written ++
          [{ id := some client.requestId, method := method, params := params }] }
      (readResponse std intOfText output).map fun (response, rest) =>
        (response, { client with process := some rest })

def sendNotification (method : PyStr) (params : Fields) (writes : Bool) : LspClient :=
  match client.process with
  | none => client
  | some _ =>
    if !writes then client
    else { client with written := client.written ++
        [{ id := none, method := method, params := params }] }

/-- `response and "result" in response`. -/
def hasResult : Option Json → Bool
  | some (.obj fields) => (Dict.get? fields (py "result")).isSome
  | _ => false

/-- `LspClient.initialize`, with the parameters it sends. -/
def initializeServer (params : Fields) (spawned : Option ServerOutput) (writes : Bool) :
    Option (Bool × LspClient) :=
  if client.initialized then some (true, client)
  else
    let started := client.start spawned
    if !started.1 then some (false, started.2)
    else
      (started.2.sendRequest std intOfText (py "initialize") params writes).map
        fun (response, client) =>
          if hasResult response then
            (true, { client with initialized := true }.sendNotification (py "initialized") [] writes)
          else (false, client)

end LspClient

/-! ## Runs of calls -/

inductive LspCall where
  | initializeServer (params : Fields) (spawned : Option ServerOutput) (writes : Bool)
  | request (method : PyStr) (params : Fields) (writes : Bool)
  | notification (method : PyStr) (params : Fields) (writes : Bool)
  | stop

namespace LspClient

variable (client : LspClient)

/-- The client after a call that returns. -/
def after : LspCall → Option LspClient
  | .initializeServer params spawned writes =>
    (client.initializeServer std intOfText params spawned writes).map Prod.snd
  | .request method params writes =>
    (client.sendRequest std intOfText method params writes).map Prod.snd
  | .notification method params writes => some (client.sendNotification method params writes)
  | .stop => some client.stop

/-- The client that writes a request during the call, with what it asks. -/
def asks : LspCall → Option (LspClient × PyStr × Fields)
  | .request method params true => client.process.map fun _ => (client, method, params)
  | .initializeServer params spawned true =>
    let started := client.start spawned
    if client.initialized then none
    else started.2.process.map fun _ => (started.2, py "initialize", params)
  | _ => none

/-- `LspClient()`. -/
def new : LspClient where
  process := none
  requestId := 0
  initialized := false
  written := []

/-- The process is read in text mode. -/
def TextMode : Prop :=
  ∀ output ∈ client.process, some carriageReturn ∉ output

/-- A request written during the call is answered with the response to it. -/
def AnswersOwn (call : LspCall) : Prop :=
  ∀ asking ∈ client.asks call, ∃ fields after,
    asking.1.sendRequest std intOfText asking.2.1 asking.2.2 true =
        some (some (.obj fields), after) ∧
      Dict.get? fields (py "id") = some (.int (asking.1.requestId + 1))

end LspClient

/-! ## No request is answered -/

section Answers

variable {std intOfText} {output rest : Stream CodePoint}

theorem headerTurn_smaller (state next : Dict PyStr PyStr × Stream CodePoint)
    (hturn : headerTurn state = .inl next) : next.2.length < state.2.length := by
  rw [headerTurn] at hturn
  split at hturn
  · exact absurd hturn (by simp)
  next line rest hread =>
    split at hturn
    · exact absurd hturn (by simp)
    next hgo =>
      rw [not_or] at hgo
      have hlength := length_of_readline hread
      have hpos := List.length_pos_of_ne_nil hgo.2
      split at hturn
      · rw [← Sum.inl.inj hturn]
        dsimp only
        omega
      · rw [← Sum.inl.inj hturn]
        dsimp only
        omega

/-- The header loop ends at the end of the output only. -/
theorem readHeaders_to_end (hmode : some carriageReturn ∉ output) :
    ∀ headers rest, readHeaders output = some (headers, rest) → rest = [] := by
  have hpart : ∀ {whole : Stream CodePoint} {line rest}, some carriageReturn ∉ whole →
      readline lineFeed whole = some (line, rest) → carriageReturn ∉ line ∧
        some carriageReturn ∉ rest := by
    intro whole line rest hwhole hread
    rw [eq_append_of_readline hread, List.mem_append, not_or] at hwhole
    exact ⟨fun hmem => hwhole.1 (List.mem_map_of_mem hmem), hwhole.2⟩
  refine loop_rule (fun state => some carriageReturn ∉ state.2)
    (fun result => ∀ headers rest, result = some (headers, rest) → rest = [])
    headerTurn_smaller ?_ ?_ hmode
  · intro state next hstate hturn
    rw [headerTurn] at hturn
    split at hturn
    · exact absurd hturn (by simp)
    next line rest hread =>
      have hrest := (hpart hstate hread).2
      split at hturn
      · exact absurd hturn (by simp)
      split at hturn
      · rw [← Sum.inl.inj hturn]
        exact hrest
      · rw [← Sum.inl.inj hturn]
        exact hrest
  · intro state result hstate hturn headers rest hresult
    rw [headerTurn] at hturn
    split at hturn
    · rw [← Sum.inr.inj hturn] at hresult
      exact absurd hresult (by simp)
    next line after hread =>
      split at hturn
      next hend =>
        have hline : line = [] := by
          apply hend.resolve_left
          rintro rfl
          exact (hpart hstate hread).1 List.mem_cons_self
        rw [hline] at hread
        rw [← Sum.inr.inj hturn] at hresult
        rw [← (Prod.mk.inj (Option.some.inj hresult)).2]
        exact (readline_eq_nil hread).2
      · split at hturn
        · exact absurd hturn (by simp)
        · exact absurd hturn (by simp)

theorem read_nil (count : ℕ) : read count ([] : Stream CodePoint) = some ([], []) := by
  cases count with
  | zero => rfl
  | succ count => rfl

/-- With nothing left to read there is no response. -/
theorem readResponse_none (hempty : std.jsonLoads [] = none) (hmode : some carriageReturn ∉ output)
    {response : Option Json} (hread : readResponse std intOfText output = some (response, rest)) :
    response = none ∧ rest = [] := by
  rw [readResponse, Option.bind_eq_some_iff] at hread
  obtain ⟨⟨headers, left⟩, hheaders, hread⟩ := hread
  obtain rfl := readHeaders_to_end hmode headers left hheaders
  dsimp only at hread
  split at hread
  · obtain ⟨rfl, rfl⟩ := Prod.mk.inj (Option.some.inj hread)
    exact ⟨rfl, rfl⟩
  split at hread
  · obtain ⟨rfl, rfl⟩ := Prod.mk.inj (Option.some.inj hread)
    exact ⟨rfl, rfl⟩
  · rw [readContent, read_nil, Option.map_some, hempty] at hread
    obtain ⟨rfl, rfl⟩ := Prod.mk.inj (Option.some.inj hread)
    exact ⟨rfl, rfl⟩

end Answers

namespace LspClient

variable {std intOfText} {client : LspClient}

/-- A request that returns has no response, and leaves the client in text mode. -/
theorem sendRequest_none (hempty : std.jsonLoads [] = none) (hmode : client.TextMode)
    {method : PyStr} {params : Fields} {writes : Bool} {response : Option Json} {after : LspClient}
    (hsend : client.sendRequest std intOfText method params writes = some (response, after)) :
    response = none ∧ after.TextMode := by
  rw [sendRequest] at hsend
  split at hsend
  · obtain ⟨rfl, rfl⟩ := Prod.mk.inj (Option.some.inj hsend)
    exact ⟨rfl, hmode⟩
  next output hprocess =>
    dsimp only at hsend
    split at hsend
    · obtain ⟨rfl, rfl⟩ := Prod.mk.inj (Option.some.inj hsend)
      exact ⟨rfl, hmode⟩
    · rw [Option.map_eq_some_iff] at hsend
      obtain ⟨⟨answer, rest⟩, hread, heq⟩ := hsend
      obtain ⟨rfl, rfl⟩ := Prod.mk.inj heq
      obtain ⟨hnone, hrest⟩ := readResponse_none hempty (hmode output hprocess) hread
      refine ⟨hnone, ?_⟩
      intro left hleft
      rw [← Option.mem_some_iff.mp hleft, hrest]
      exact List.not_mem_nil

theorem textMode_start (hmode : client.TextMode) (spawned : Option ServerOutput) :
    (client.start spawned).2.TextMode := by
  cases hprocess : client.process with
  | some output =>
    simp only [start, hprocess]
    exact hmode
  | none =>
    cases spawned with
    | none =>
      simp only [start, hprocess]
      exact hmode
    | some output =>
      simp only [start, hprocess]
      intro left hleft
      rw [← Option.mem_some_iff.mp hleft]
      exact carriageReturn_not_mem_universalNewlines _ _ _

theorem textMode_sendNotification (hmode : client.TextMode) (method : PyStr) (params : Fields)
    (writes : Bool) : (client.sendNotification method params writes).TextMode := by
  rw [sendNotification]
  split
  · exact hmode
  split
  · exact hmode
  · exact hmode

theorem textMode_after (hempty : std.jsonLoads [] = none) (hmode : client.TextMode)
    {call : LspCall} {after : LspClient}
    (hafter : client.after std intOfText call = some after) : after.TextMode := by
  cases call with
  | request method params writes =>
    obtain ⟨⟨response, sent⟩, hsend, rfl⟩ := Option.map_eq_some_iff.mp hafter
    exact (sendRequest_none hempty hmode hsend).2
  | notification method params writes =>
    rw [← Option.some.inj hafter]
    exact textMode_sendNotification hmode method params writes
  | stop =>
    rw [← Option.some.inj hafter, stop]
    split
    · intro left hleft
      exact absurd hleft (by simp)
    · exact hmode
  | initializeServer params spawned writes =>
    obtain ⟨⟨done, final⟩, hcall, rfl⟩ := Option.map_eq_some_iff.mp hafter
    rw [initializeServer] at hcall
    split at hcall
    · obtain ⟨_, rfl⟩ := Prod.mk.inj (Option.some.inj hcall)
      exact hmode
    dsimp only at hcall
    split at hcall
    · obtain ⟨_, rfl⟩ := Prod.mk.inj (Option.some.inj hcall)
      exact textMode_start hmode spawned
    · obtain ⟨⟨response, sent⟩, hsend, heq⟩ := Option.map_eq_some_iff.mp hcall
      have hsent := (sendRequest_none hempty (textMode_start hmode spawned) hsend).2
      dsimp only at heq
      split at heq
      · obtain ⟨_, rfl⟩ := Prod.mk.inj heq
        apply textMode_sendNotification
        exact hsent
      · obtain ⟨_, rfl⟩ := Prod.mk.inj heq
        exact hsent

theorem textMode_of_asks (hmode : client.TextMode) {call : LspCall}
    {asking : LspClient × PyStr × Fields} (hasking : asking ∈ client.asks call) :
    asking.1.TextMode := by
  cases call with
  | request method params writes =>
    cases writes with
    | false => exact absurd hasking (by simp [asks])
    | true =>
      obtain ⟨_, _, rfl⟩ := Option.map_eq_some_iff.mp hasking
      exact hmode
  | initializeServer params spawned writes =>
    cases writes with
    | false => exact absurd hasking (by simp [asks])
    | true =>
      simp only [asks] at hasking
      split at hasking
      · exact absurd hasking (by simp)
      · obtain ⟨_, _, rfl⟩ := Option.map_eq_some_iff.mp hasking
        exact textMode_start hmode spawned
  | notification method params writes => exact absurd hasking (by simp [asks])
  | stop => exact absurd hasking (by simp [asks])

/-- No call answers the request it writes. -/
theorem answersOwn_iff (hempty : std.jsonLoads [] = none) (hmode : client.TextMode)
    (call : LspCall) : client.AnswersOwn std intOfText call ↔ client.asks call = none := by
  constructor
  · intro hanswers
    cases hasking : client.asks call with
    | none => rfl
    | some asking =>
      obtain ⟨fields, after, hsend, _⟩ := hanswers asking hasking
      have hnone := sendRequest_none hempty (textMode_of_asks hmode hasking) hsend
      exact absurd hnone.1 (by simp)
  · intro hnone asking hasking
    rw [hnone] at hasking
    exact absurd hasking (by simp)

end LspClient

/-- In a run of calls every request that is written is answered with its own response exactly
when no request is written. -/
theorem requests_answered_iff (std : Stdlib) (intOfText : PyStr → Option ℤ)
    (hempty : std.jsonLoads [] = none) (calls : List LspCall) :
    let run := history (fun state call => state.bind (LspClient.after std intOfText · call))
      (some .new) calls
    Follows (fun state call _ => ∀ client ∈ state, client.AnswersOwn std intOfText call)
        (some .new) run ↔
      Guarded (fun state call => ∀ client ∈ state, LspClient.asks client call = none)
        (some .new) run := by
  intro run
  apply follows_iff_guarded_of_inv (fun state => ∀ client ∈ state, LspClient.TextMode client)
    (follows_history _ _ calls)
  · intro client hclient output houtput
    rw [← Option.mem_some_iff.mp hclient] at houtput
    exact absurd houtput (by simp [LspClient.new])
  · rintro state call next hmode rfl
    constructor
    · exact forall₂_congr fun client hclient =>
        LspClient.answersOwn_iff hempty (hmode client hclient) call
    · intro _ client hclient
      obtain ⟨before, hbefore, hafter⟩ := Option.bind_eq_some_iff.mp hclient
      exact LspClient.textMode_after hempty (hmode before hbefore) hafter

theorem notifications_need_no_answer :
    Follows (fun state call _ => ∀ client ∈ state,
        LspClient.AnswersOwn asciiStdlib (fun _ => none) client call) (some .new)
      (history (fun state call => state.bind (LspClient.after asciiStdlib (fun _ => none) · call))
        (some .new) [.notification (py "exit") [] true, .stop]) := by
  apply (requests_answered_iff asciiStdlib (fun _ => none) rfl
    [.notification (py "exit") [] true, .stop]).mpr
  exact ⟨fun _ _ => rfl, fun _ _ => rfl, trivial⟩

/-- A server that answers `initialize` and ends. -/
def answeringOutput : ServerOutput where
  text := py "Content-Length: 2\r\n\r\n\x7b\x7d"
  closed := true

/-- The answer carries the id of the first request. -/
def answeringStdlib : Stdlib :=
  decodingStdlib (py "\x7b\x7d") (.obj [(py "id", .int 1), (py "result", .obj [])])

def readTwo (text : PyStr) : Option ℤ :=
  if text = py "2" then some 2 else none

theorem framed_response_is_lost :
    ¬Follows (fun state call _ => ∀ client ∈ state,
        LspClient.AnswersOwn answeringStdlib readTwo client call) (some .new)
      (history (fun state call => state.bind (LspClient.after answeringStdlib readTwo · call))
        (some .new) [.initializeServer [] (some answeringOutput) true]) := by
  intro hanswers
  obtain ⟨fields, after, hsend, _⟩ := hanswers.1 .new rfl
    ((LspClient.new.start (some answeringOutput)).2, py "initialize", []) rfl
  have hnone : ((LspClient.new.start (some answeringOutput)).2.sendRequest answeringStdlib readTwo
      (py "initialize") [] true).map Prod.fst = some none := rfl
  rw [hsend] at hnone
  exact absurd hnone (by simp)

end RootSeeker.CodeIndex
