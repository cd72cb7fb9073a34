import RootSeeker.ChannelRouting.ChannelAdapters
import RootSeeker.Core.Loops
import RootSeeker.Storage.MessageTemplates

/-!
# Broadcasting a notification

A broadcast renders the message for each enabled channel and sends it there, one
channel after the other.  An exception that an adapter does not report ends the
broadcast, and the channels after it get nothing.
-/

namespace RootSeeker.ChannelRouting

open Python Contracts Storage

/-! ## Rendering -/

section Render

variable (wordChar : CodePoint → Bool)

/-- A tag at the beginning of the text: what it opens with, a name and two braces.  Gives the
name and the rest. -/
def tagAt (opening : String) (text : PyStr) : Option (PyStr × PyStr) :=
  if (py opening).isPrefixOf text then
    let rest := text.drop (py opening).length
    let name := rest.takeWhile (isWordChar wordChar)
    let closed := rest.dropWhile (isWordChar wordChar)
    if name ≠ [] ∧ (py "\x7d\x7d").isPrefixOf closed then some (name, closed.drop 2) else none
  else none

/-- The text before and behind the first occurrence. -/
def splitFirst (needle : PyStr) : PyStr → Option (PyStr × PyStr)
  | [] => if needle = [] then some ([], []) else none
  | c :: rest =>
    if needle.isPrefixOf (c :: rest) then some ([], (c :: rest).drop needle.length)
    else (splitFirst needle rest).map fun parts => (c :: parts.1, parts.2)

/-- A block at the beginning of the text: its name, what is inside and the rest. -/
def blockAt (text : PyStr) : Option (PyStr × PyStr × PyStr) :=
  match tagAt wordChar "\x7b\x7b#" text with
  | none => none
  | some (name, rest) =>
    (splitFirst (py "\x7b\x7b/" ++ name ++ py "\x7d\x7d") rest).map fun parts =>
      (name, parts.1, parts.2)

variable {wordChar}

variable {text : PyStr}

theorem length_tagAt {opening : String} {name rest : PyStr}
    (htag : tagAt wordChar opening text = some (name, rest)) (hopening : py opening ≠ []) :
    rest.length < text.length := by
  rw [tagAt] at htag
  split at htag
  · rename_i hprefix
    dsimp only at htag
    split at htag
    · obtain ⟨_, rfl⟩ := Prod.mk.inj (Option.some.inj htag)
      have hle := (List.isPrefixOf_iff_prefix.mp hprefix).length_le
      have hpositive := List.length_pos_iff.mpr hopening
      have hdropped := (List.dropWhile_sublist (isWordChar wordChar)
        (l := text.drop (py opening).length)).length_le
      rw [List.length_drop] at hdropped ⊢
      omega
    · exact absurd htag (by simp)
  · exact absurd htag (by simp)

theorem length_splitFirst {needle before after : PyStr}
    (hsplit : splitFirst needle text = some (before, after)) :
    before.length ≤ text.length ∧ after.length ≤ text.length := by
  induction text generalizing before after with
  | nil =>
    rw [splitFirst] at hsplit
    split at hsplit
    · obtain ⟨rfl, rfl⟩ := Prod.mk.inj (Option.some.inj hsplit)
      exact ⟨le_refl _, le_refl _⟩
    · exact absurd hsplit (by simp)
  | cons c rest ih =>
    rw [splitFirst] at hsplit
    split at hsplit
    · obtain ⟨rfl, rfl⟩ := Prod.mk.inj (Option.some.inj hsplit)
      exact ⟨Nat.zero_le _, (List.drop_sublist _ _).length_le⟩
    · obtain ⟨parts, hparts, heq⟩ := Option.map_eq_some_iff.mp hsplit
      obtain ⟨rfl, rfl⟩ := Prod.mk.inj heq
      obtain ⟨hbefore, hafter⟩ := ih hparts
      exact ⟨Nat.succ_le_succ hbefore, Nat.le_succ_of_le hafter⟩

theorem length_blockAt {name inner rest : PyStr}
    (hblock : blockAt wordChar text = some (name, inner, rest)) :
    inner.length < text.length ∧ rest.length < text.length := by
  rw [blockAt] at hblock
  cases htag : tagAt wordChar "\x7b\x7b#" text with
  | none =>
    rw [htag] at hblock
    exact absurd hblock (by simp)
  | some found =>
    rw [htag] at hblock
    obtain ⟨parts, hparts, heq⟩ := Option.map_eq_some_iff.mp hblock
    obtain ⟨_, hrest⟩ := Prod.mk.inj heq
    obtain ⟨rfl, rfl⟩ := Prod.mk.inj hrest
    have htagLength := length_tagAt htag (by decide)
    obtain ⟨hinner, hafter⟩ := length_splitFirst hparts
    exact ⟨lt_of_le_of_lt hinner htagLength, lt_of_le_of_lt hafter htagLength⟩

variable (wordChar) (context : Dict PyStr PyStr)

/-- `str(context.get(key, "") or "")`. -/
def contextText (key : PyStr) : PyStr :=
  (context.get? key).getD []

def substituteVariables (text : PyStr) : PyStr :=
  match text with
  | [] => []
  | c :: rest =>
    match _ : tagAt wordChar "\x7b\x7b" (c :: rest) with
    | some (name, after) => contextText context name ++ substituteVariables after
    | none => c :: substituteVariables rest
  termination_by text.length
  decreasing_by
    · exact length_tagAt ‹_› (by decide)
    · simp

/-- A block whose variable is blank goes with all that is inside; another one is rendered on
its own. -/
def substituteBlocks (text : PyStr) : PyStr :=
  match text with
  | [] => []
  | c :: rest =>
    match _ : blockAt wordChar (c :: rest) with
    | some (name, inner, after) =>
      (if strip (contextText context name) = [] then []
        else substituteVariables wordChar context (substituteBlocks inner)) ++
          substituteBlocks after
    | none => c :: substituteBlocks rest
  termination_by text.length
  decreasing_by
    · exact (length_blockAt ‹_›).1
    · exact (length_blockAt ‹_›).2
    · simp

def renderMessageTemplate (body : PyStr) : PyStr :=
  substituteVariables wordChar context (substituteBlocks wordChar context body)

end Render

/-! ## Targets -/

section Targets

variable (std : NumberStdlib)

/-- `str(x or "").strip()` of the endpoint. -/
def endpointOf (record : Channel) : PyStr :=
  strip record.endpointUrl

/-- The channel is enabled and has an endpoint. -/
def Reachable (record : Channel) : Bool :=
  record.enabled && endpointOf record ≠ []

/-- The metadata of a target: that of the channel, with its secret, identifier and template. -/
def targetMetadata (record : Channel) : Fields :=
  let secret := strip record.secret
  let metadata :=
    if secret = [] then record.metadata else record.metadata.set (py "secret") (.str secret)
  (metadata.set (py "channel_id") (.str record.channelId)).set (py "template_id")
    (.str record.templateId)

def outboundTarget (record : Channel) : Except PyError OutboundTarget :=
  OutboundTarget.validate
    (if record.channelType = [] then py "webhook" else record.channelType)
    (endpointOf record) (py "default") (targetMetadata record)

/-- `list_enabled_outbound_targets`. -/
def listEnabledOutboundTargets (records : List Channel) : Except PyError (List OutboundTarget) :=
  (records.filter Reachable).mapM outboundTarget

/-- `resolve_template_body`. -/
def resolveTemplateBody (templates : List MessageTemplate) (templateId : PyStr) : PyStr :=
  let tid := if strip templateId = [] then systemTemplateId else strip templateId
  let record := (templateById tid templates).or (templateById systemTemplateId templates)
  let body := strip ((record.map MessageTemplate.body).getD [])
  if body = [] then systemDefaultTemplateBody else body

end Targets

/-! ## The broadcast -/

/-- What a broadcast works with: the character tables and the signatures, the templates, the
variables of the message, and the message itself. -/
structure Broadcast where
  std : NumberStdlib
  wordChar : CodePoint → Bool
  sign : PyStr → PyStr → PyStr
  templates : List MessageTemplate
  context : Option (Dict PyStr PyStr)
  channel : PyStr
  message : PyStr

structure DispatchReport where
  ok : Bool
  channel : PyStr
  message : PyStr
  error : Option PyStr
  sent : ℕ
  failed : ℕ
  results : List SendResult
  metadata : Fields

namespace Broadcast

variable (broadcast : Broadcast)

/-- The message of a target: rendered from its template, if there are variables. -/
def messageFor (target : OutboundTarget) : PyStr :=
  match broadcast.context with
  | none => broadcast.message
  | some context =>
    renderMessageTemplate broadcast.wordChar context
      (resolveTemplateBody broadcast.templates
        (truthyText broadcast.std.toStdlib [target.metadata.val.get? (py "template_id")]))

/-- `ChannelRegistry.send` without an adapter. -/
def noAdapter (target : OutboundTarget) : SendResult :=
  failure target (broadcast.messageFor target)
    (py "no adapter registered for channel: " ++ target.channel.val)

/-- One send: the request that is posted, and the result. -/
def send (target : OutboundTarget) (exchange : HttpExchange) :
    Except PyError SendResult × List HttpRequest :=
  match productionRegistry.get? target.channel.val with
  | none => (.ok (broadcast.noAdapter target), [])
  | some adapter =>
    match adapter.request broadcast.std.toStdlib broadcast.sign target
        (broadcast.messageFor target) exchange.timestampMs with
    | .error raised => (.error raised, [])
    | .ok request =>
      (adapter.answer target (broadcast.messageFor target) exchange.outcome, [request])

/-- The loop over the targets; the exchanges come in the order of the sends. -/
def sendAll (exchanges : ℕ → HttpExchange) :
    List (OutboundTarget × ℕ) → Except PyError (List SendResult) × List HttpRequest
  | [] => (.ok [], [])
  | (target, n) :: rest =>
    let sent := broadcast.send target (exchanges n)
    match sent.1 with
    | .error raised => (.error raised, sent.2)
    | .ok result =>
      let later := sendAll exchanges rest
      (later.1.map (result :: ·), sent.2 ++ later.2)

/-- Without enabled channels nothing is counted. -/
def skipped : DispatchReport where
  ok := true
  channel := broadcast.channel
  message := broadcast.message
  error := none
  sent := 0
  failed := 0
  results := []
  metadata :=
    [(py "skipped", .bool true),
      (py "reason", .str (py "no enabled notification channels configured")),
      (py "broadcast", .bool true)]

def report (results : List SendResult) : DispatchReport :=
  let failed := results.countP fun result => !result.ok
  { ok := failed = 0
    channel := broadcast.channel
    message := broadcast.message
    error :=
      if failed = 0 then none else some (decimal failed ++ py " notification channel(s) failed")
    sent := results.length - failed
    failed := failed
    results := results
    metadata :=
      [(py "broadcast", .bool true), (py "templated", .bool broadcast.context.isSome)] }

/-- `dispatch_broadcast_notify`; `single` is what `dispatch_env_resolved_notify` gives. -/
def dispatch (settings : Fields) (records : List Channel) (exchanges : ℕ → HttpExchange)
    (single : Except PyError DispatchReport × List HttpRequest) :
    Except PyError DispatchReport × List HttpRequest :=
  if !((settings.get? (py "broadcast_enabled")).getD (.bool true)).truthy then single
  else
    match listEnabledOutboundTargets records with
    | .error raised => (.error raised, [])
    | .ok [] => (.ok broadcast.skipped, [])
    | .ok targets =>
      let sent := broadcast.sendAll exchanges targets.zipIdx
      (sent.1.map broadcast.report, sent.2)

/-! ## When a broadcast reaches every channel -/

/-- The request of a target, which depends on no other target. -/
def requestOf (target : OutboundTarget) (exchange : HttpExchange) : Except PyError HttpRequest :=
  match productionRegistry.get? target.channel.val with
  | none => .error .attributeError
  | some adapter =>
    adapter.request broadcast.std.toStdlib broadcast.sign target (broadcast.messageFor target)
      exchange.timestampMs

/-- The exchange of a target succeeded. -/
def Succeeds (target : OutboundTarget) (outcome : HttpOutcome) : Prop :=
  ∃ adapter, productionRegistry.get? target.channel.val = some adapter ∧ adapter.Succeeds outcome

/-- The request of a target can be built, and what the exchange raises is reported. -/
def Deliverable (target : OutboundTarget) (exchange : HttpExchange) : Prop :=
  ∀ adapter, productionRegistry.get? target.channel.val = some adapter →
    adapter.Buildable broadcast.std.toStdlib target.metadata.val ∧
      adapter.Reported exchange.outcome

/-- The broadcast returns; every target is posted its own request once, in their order, and has
its own result; the report counts them, and is a success if every exchange is. -/
structure ReachesAll (targets : List OutboundTarget) (exchanges : ℕ → HttpExchange)
    (report : DispatchReport) (requests : List HttpRequest) : Prop where
  requests : List.Forall₂ (fun job request =>
    broadcast.requestOf job.1 (exchanges job.2) = .ok request) targets.zipIdx requests
  results : List.Forall₂ (fun job result =>
    (broadcast.send job.1 (exchanges job.2)).1 = .ok result) targets.zipIdx report.results
  counts : report.sent + report.failed = targets.length
  ok : report.ok = true ↔ ∀ job ∈ targets.zipIdx, Succeeds job.1 (exchanges job.2).outcome

end Broadcast

/-- The store accepted the channel: an upsert normalized its payload to it and could write it. -/
def Accepted (std : NumberStdlib) (record : Channel) : Prop :=
  ∃ payload existing draw,
    normalizeChannelPayload std payload existing draw = .ok record ∧ record.encodable = true

variable {result : SendResult}

section Adapters

variable {std : Stdlib} {sign : PyStr → PyStr → PyStr} {adapter : ChannelAdapter}
  {target : OutboundTarget} {message timestampMs : PyStr} {outcome : HttpOutcome}

theorem exists_webhookHeaders_iff (metadata : Fields) :
    (∃ headers, webhookHeaders metadata = .ok headers) ↔
      ∃ headers, metadataOr metadata "headers" (.obj []) = .obj headers := by
  rw [webhookHeaders]
  cases metadataOr metadata "headers" (.obj []) with
  | obj headers => exact iff_of_true ⟨_, rfl⟩ ⟨headers, rfl⟩
  | null => simp
  | bool value => simp
  | int value => simp
  | float value => simp
  | str value => simp
  | arr items => simp

theorem exists_typedPayload_iff (msgType : Json) (content : Fields) :
    (∃ json, typedPayload msgType content = .ok json) ↔ hashable msgType = true := by
  rw [typedPayload]
  cases hashable msgType with
  | false => simp
  | true =>
    by_cases hliteral : isLiteral msgType "msgtype" = true
    · simp [hliteral]
    · simp [hliteral]

theorem exists_signedUrl_iff (endpoint secret : PyStr) :
    (∃ url, buildDingtalkSignedUrl sign endpoint secret timestampMs = .ok url) ↔
      Encodable secret := by
  rw [buildDingtalkSignedUrl]
  by_cases hsecret : Encodable secret
  · simp [hsecret]
  · simp [hsecret]

/-- A request that needs one fallible step can be built if the step can be taken. -/
theorem exists_bind_pure_iff {α β : Type} {step : Except PyError α} {next : α → β} :
    (∃ built, (step >>= fun value => pure (next value)) = .ok built) ↔
      ∃ value, step = .ok value := by
  cases step with
  | error raised => simp [bind, Except.bind]
  | ok value => simp [bind, Except.bind, pure, Except.pure]

theorem exists_dingtalkUrl_iff (metadata : Fields) (endpoint : PyStr) :
    (∃ url, dingtalkUrl std sign endpoint metadata timestampMs = .ok url) ↔
      Encodable (dingtalkSecret std metadata) := by
  rw [dingtalkUrl]
  by_cases hsecret : dingtalkSecret std metadata = []
  · rw [if_pos hsecret, hsecret]
    exact iff_of_true ⟨endpoint, rfl⟩ encodable_nil
  · rw [if_neg hsecret]
    exact exists_signedUrl_iff endpoint _

theorem exists_dingtalkRequest_iff :
    (∃ request, ChannelAdapter.dingtalk.request std sign target message timestampMs =
      .ok request) ↔ ChannelAdapter.dingtalk.Buildable std target.metadata.val := by
  constructor
  · rintro ⟨request, hrequest⟩
    obtain ⟨json, hjson, hrequest⟩ := Loops.exists_of_bind_eq_ok hrequest
    obtain ⟨url, hurl, _⟩ := Loops.exists_of_bind_eq_ok hrequest
    exact ⟨(exists_typedPayload_iff _ _).mp ⟨json, hjson⟩,
      (exists_dingtalkUrl_iff _ _).mp ⟨url, hurl⟩⟩
  · rintro ⟨hhashable, hsecret⟩
    obtain ⟨json, hjson⟩ := (exists_typedPayload_iff _
      (dingtalkContent _ message target.metadata.val)).mpr hhashable
    obtain ⟨url, hurl⟩ := (exists_dingtalkUrl_iff target.metadata.val target.endpoint.val).mpr
      hsecret
    refine ⟨{ url := url, json := json, headers := none }, ?_⟩
    rw [ChannelAdapter.request, hjson, hurl]
    rfl

theorem exists_request_iff :
    (∃ request, adapter.request std sign target message timestampMs = .ok request) ↔
      adapter.Buildable std target.metadata.val := by
  cases adapter with
  | webhook => exact exists_bind_pure_iff.trans (exists_webhookHeaders_iff _)
  | feishu => exact iff_of_true ⟨_, rfl⟩ trivial
  | wechatWork => exact exists_bind_pure_iff.trans (exists_typedPayload_iff _ _)
  | slack => exact iff_of_true ⟨_, rfl⟩ trivial
  | discord => exact iff_of_true ⟨_, rfl⟩ trivial
  | dingtalk => exact exists_dingtalkRequest_iff

/-- The exceptions that an adapter does not report are those that only the webhook adapter
does not list. -/
theorem exists_answer_iff :
    (∃ result, adapter.answer target message outcome = .ok result) ↔ adapter.Reported outcome := by
  cases adapter with
  | webhook =>
    cases outcome with
    | response status text json => exact iff_of_true ⟨_, rfl⟩ (by simp [ChannelAdapter.Reported])
    | raised failure text =>
      cases failure with
      | timeout => exact iff_of_true ⟨_, rfl⟩ (by simp [ChannelAdapter.Reported])
      | requestError => exact iff_of_true ⟨_, rfl⟩ (by simp [ChannelAdapter.Reported])
      | other raised =>
        refine iff_of_false ?_ (fun hreported => hreported rfl raised text rfl)
        simp [ChannelAdapter.answer, webhookAnswer]
  | feishu => exact iff_of_true ⟨_, rfl⟩ (by simp [ChannelAdapter.Reported])
  | dingtalk => exact iff_of_true ⟨_, rfl⟩ (by simp [ChannelAdapter.Reported])
  | wechatWork => exact iff_of_true ⟨_, rfl⟩ (by simp [ChannelAdapter.Reported])
  | slack => exact iff_of_true ⟨_, rfl⟩ (by simp [ChannelAdapter.Reported])
  | discord => exact iff_of_true ⟨_, rfl⟩ (by simp [ChannelAdapter.Reported])

theorem ok_of_statusAnswer (rated : ChannelAdapter) :
    (statusAnswer target message rated outcome).ok = true ↔
      ∃ status text json, outcome = .response status text json ∧
        statusRule rated status text = true := by
  cases outcome with
  | response status text json => simp [statusAnswer]
  | raised kind text => simp [statusAnswer, failure]

theorem ok_of_objectAnswer (rated : ChannelAdapter) (key : String) :
    (objectAnswer target message rated key outcome).ok = true ↔
      ∃ status text result, outcome = .response status text (.ok (.obj result)) ∧
        objectRule rated result = true := by
  cases outcome with
  | raised kind text => simp [objectAnswer, failure]
  | response status text json =>
    cases json with
    | error shown => simp [objectAnswer, failure]
    | ok value =>
      cases value with
      | obj result => simp [objectAnswer]
      | null => simp [objectAnswer, failure]
      | bool value => simp [objectAnswer, failure]
      | int value => simp [objectAnswer, failure]
      | float value => simp [objectAnswer, failure]
      | str value => simp [objectAnswer, failure]
      | arr items => simp [objectAnswer, failure]

theorem ok_of_webhookAnswer (hresult : webhookAnswer target message outcome = .ok result) :
    result.ok = true ↔ ∃ status text json, outcome = .response status text json ∧
      statusRule .webhook status text = true := by
  cases outcome with
  | response status text json =>
    rw [← Except.ok.inj hresult]
    simp
  | raised kind text =>
    cases kind with
    | timeout =>
      rw [← Except.ok.inj hresult]
      simp [failure]
    | requestError =>
      rw [← Except.ok.inj hresult]
      simp [failure]
    | other raised => exact absurd hresult (by simp [webhookAnswer])

/-- A result is a success by the rule of the adapter. -/
theorem ok_iff_succeeds (hresult : adapter.answer target message outcome = .ok result) :
    result.ok = true ↔ adapter.Succeeds outcome := by
  cases adapter with
  | webhook => exact ok_of_webhookAnswer hresult
  | feishu =>
    rw [← Except.ok.inj hresult]
    exact ok_of_objectAnswer _ _
  | dingtalk =>
    rw [← Except.ok.inj hresult]
    exact ok_of_objectAnswer _ _
  | wechatWork =>
    rw [← Except.ok.inj hresult]
    exact ok_of_objectAnswer _ _
  | slack =>
    rw [← Except.ok.inj hresult]
    exact ok_of_statusAnswer _
  | discord =>
    rw [← Except.ok.inj hresult]
    exact ok_of_statusAnswer _

end Adapters

/-! ## One send -/

section Send

variable {broadcast : Broadcast} {target : OutboundTarget} {exchange : HttpExchange}
  {exchanges : ℕ → HttpExchange}

/-- An adapter is registered for the channel. -/
def Registered (target : OutboundTarget) : Prop :=
  ∃ adapter, productionRegistry.get? target.channel.val = some adapter

/-- A send returns a result exactly if it is deliverable. -/
theorem exists_send_iff (hregistered : Registered target) :
    (∃ result, (broadcast.send target exchange).1 = .ok result) ↔
      broadcast.Deliverable target exchange := by
  obtain ⟨adapter, hadapter⟩ := hregistered
  have hdeliverable : broadcast.Deliverable target exchange ↔
      adapter.Buildable broadcast.std.toStdlib target.metadata.val ∧
        adapter.Reported exchange.outcome := by
    rw [Broadcast.Deliverable, hadapter]
    simp
  rw [hdeliverable, ← @exists_request_iff _ broadcast.sign adapter target
      (broadcast.messageFor target) exchange.timestampMs,
    ← @exists_answer_iff adapter target (broadcast.messageFor target), Broadcast.send, hadapter]
  dsimp only
  cases adapter.request broadcast.std.toStdlib broadcast.sign target
      (broadcast.messageFor target) exchange.timestampMs with
  | error raised => simp
  | ok request => simp

/-- It posts its request. -/
theorem request_of_send (hregistered : Registered target)
    (hsend : (broadcast.send target exchange).1 = .ok result) :
    ∃ request, broadcast.requestOf target exchange = .ok request ∧
      (broadcast.send target exchange).2 = [request] := by
  obtain ⟨adapter, hadapter⟩ := hregistered
  rw [Broadcast.send, hadapter] at hsend
  rw [Broadcast.requestOf, Broadcast.send, hadapter]
  dsimp only at hsend ⊢
  cases hrequest : adapter.request broadcast.std.toStdlib broadcast.sign target
      (broadcast.messageFor target) exchange.timestampMs with
  | error raised =>
    rw [hrequest] at hsend
    exact absurd hsend (by simp)
  | ok request => exact ⟨request, rfl, rfl⟩

theorem ok_of_send (hregistered : Registered target)
    (hsend : (broadcast.send target exchange).1 = .ok result) :
    result.ok = true ↔ Broadcast.Succeeds target exchange.outcome := by
  obtain ⟨adapter, hadapter⟩ := hregistered
  have hsucceeds : Broadcast.Succeeds target exchange.outcome ↔
      adapter.Succeeds exchange.outcome := by
    rw [Broadcast.Succeeds, hadapter]
    simp
  rw [hsucceeds]
  rw [Broadcast.send, hadapter] at hsend
  dsimp only at hsend
  cases hrequest : adapter.request broadcast.std.toStdlib broadcast.sign target
      (broadcast.messageFor target) exchange.timestampMs with
  | error raised =>
    rw [hrequest] at hsend
    exact absurd hsend (by simp)
  | ok request =>
    rw [hrequest] at hsend
    exact ok_iff_succeeds hsend

/-! ## The loop -/

variable {jobs : List (OutboundTarget × ℕ)}

/-- A loop that returns has made every send, in order. -/
theorem sends_of_sendAll (hregistered : ∀ job ∈ jobs, Registered job.1)
    {results : List SendResult} (hall : (broadcast.sendAll exchanges jobs).1 = .ok results) :
    List.Forall₂ (fun job result =>
        (broadcast.send job.1 (exchanges job.2)).1 = .ok result) jobs results ∧
      List.Forall₂ (fun job request =>
        broadcast.requestOf job.1 (exchanges job.2) = .ok request) jobs
          (broadcast.sendAll exchanges jobs).2 := by
  induction jobs generalizing results with
  | nil =>
    obtain rfl := Except.ok.inj hall
    exact ⟨List.Forall₂.nil, List.Forall₂.nil⟩
  | cons job rest ih =>
    obtain ⟨target, n⟩ := job
    rw [List.forall_mem_cons] at hregistered
    rw [Broadcast.sendAll] at hall ⊢
    dsimp only at hall ⊢
    cases hsend : (broadcast.send target (exchanges n)).1 with
    | error raised =>
      rw [hsend] at hall
      exact absurd hall (by simp)
    | ok result =>
      rw [hsend] at hall
      dsimp only at hall ⊢
      obtain ⟨later, hlater, rfl⟩ := Loops.exists_of_map_eq_ok hall
      obtain ⟨hresults, hrequests⟩ := ih hregistered.2 hlater
      obtain ⟨request, hrequest, hposted⟩ := request_of_send hregistered.1 hsend
      rw [hposted]
      exact ⟨List.Forall₂.cons hsend hresults, List.Forall₂.cons hrequest hrequests⟩

/-- The loop returns exactly if every send does. -/
theorem exists_sendAll_iff (hregistered : ∀ job ∈ jobs, Registered job.1) :
    (∃ results, (broadcast.sendAll exchanges jobs).1 = .ok results) ↔
      ∀ job ∈ jobs, broadcast.Deliverable job.1 (exchanges job.2) := by
  constructor
  · rintro ⟨results, hall⟩
    obtain ⟨hresults, _⟩ := sends_of_sendAll hregistered hall
    intro job hjob
    apply (exists_send_iff (hregistered job hjob)).mp
    obtain ⟨result, _, hsend⟩ := Loops.exists_item_of_mem hresults.flip hjob
    exact ⟨result, hsend⟩
  · intro hdeliverable
    induction jobs with
    | nil => exact ⟨[], rfl⟩
    | cons job rest ih =>
      obtain ⟨target, n⟩ := job
      rw [List.forall_mem_cons] at hregistered hdeliverable
      obtain ⟨result, hsend⟩ := (exists_send_iff hregistered.1).mpr hdeliverable.1
      obtain ⟨later, hlater⟩ := ih hregistered.2 hdeliverable.2
      refine ⟨result :: later, ?_⟩
      rw [Broadcast.sendAll]
      dsimp only at hsend ⊢
      rw [hsend]
      dsimp only
      rw [hlater]
      rfl

end Send

/-! ## The targets of accepted channels -/

section Targets

variable {std : NumberStdlib} {record : Channel}

theorem channelType_of_accepted (haccepted : Accepted std record) :
    record.channelType ∈ allowedChannelTypes := by
  obtain ⟨payload, existing, draw, hnormalize, _⟩ := haccepted
  obtain ⟨name, _, hnormalize⟩ := Loops.exists_of_bind_eq_ok hnormalize
  obtain ⟨channelType, htype, hnormalize⟩ := Loops.exists_of_bind_eq_ok hnormalize
  obtain ⟨endpointUrl, _, hnormalize⟩ := Loops.exists_of_bind_eq_ok hnormalize
  obtain ⟨metadata, _, hnormalize⟩ := Loops.exists_of_bind_eq_ok hnormalize
  obtain ⟨sortOrder, _, hnormalize⟩ := Loops.exists_of_bind_eq_ok hnormalize
  obtain rfl := Except.ok.inj hnormalize
  rw [validateChannelType] at htype
  dsimp only at htype ⊢
  split at htype
  next hallowed =>
    rw [← Except.ok.inj htype]
    exact hallowed
  next => exact absurd htype (by simp)

theorem keysEncodable_of_fieldsEncodable {fields : Fields}
    (hencodable : fieldsEncodable fields = true) : KeysEncodable fields := by
  intro key hkey
  induction fields with
  | nil => exact absurd hkey List.not_mem_nil
  | cons entry rest ih =>
    simp only [fieldsEncodable, Bool.and_eq_true, decide_eq_true_eq] at hencodable
    rcases List.mem_cons.mp hkey with rfl | hrest
    · exact hencodable.1.1
    · exact ih hencodable.2 hrest

theorem keysEncodable_set {fields : Fields} (hkeys : KeysEncodable fields) (key : String)
    (value : Json) : KeysEncodable (fields.set (py key) value) := by
  intro other hother
  rcases (Dict.mem_keys_set fields (py key) value other).mp hother with rfl | hmem
  · exact encodable_py key
  · exact hkeys other hmem

theorem keysEncodable_targetMetadata (hencodable : fieldsEncodable record.metadata = true) :
    KeysEncodable (targetMetadata record) := by
  have hkeys := keysEncodable_of_fieldsEncodable hencodable
  apply keysEncodable_set
  apply keysEncodable_set
  split
  next => exact hkeys
  next => exact keysEncodable_set hkeys _ _

theorem registered_of_allowed {target : OutboundTarget}
    (hallowed : target.channel.val ∈ allowedChannelTypes) : Registered target := by
  have hall : ∀ channelType ∈ allowedChannelTypes,
      (productionRegistry.get? channelType).isSome = true := by
    decide
  exact Option.isSome_iff_exists.mp (hall _ hallowed)

theorem valid_of_allowed {channelType : PyStr} (hallowed : channelType ∈ allowedChannelTypes) :
    channelType ≠ [] ∧ Encodable channelType ∧ trim channelType = channelType := by
  have hall : ∀ channelType ∈ allowedChannelTypes,
      channelType ≠ [] ∧ Encodable channelType ∧ trim channelType = channelType := by
    decide
  exact hall _ hallowed

/-- An accepted channel with an endpoint has a target, and an adapter. -/
theorem exists_outboundTarget (haccepted : Accepted std record) (hreachable : Reachable record) :
    ∃ target, outboundTarget record = .ok target ∧ Registered target := by
  have hallowed := channelType_of_accepted haccepted
  obtain ⟨hne, hencodable, htrim⟩ := valid_of_allowed hallowed
  obtain ⟨payload, existing, draw, _, hwritable⟩ := haccepted
  simp only [Channel.encodable, Bool.and_eq_true, decide_eq_true_eq] at hwritable
  simp only [Reachable, Bool.and_eq_true, decide_eq_true_eq] at hreachable
  have hendpoint : trim (endpointOf record) ≠ [] ∧ Encodable (trim (endpointOf record)) := by
    rw [endpointOf, trim_strip]
    exact ⟨hreachable.2, encodable_stripBy hwritable.1.1.1.1.1.2⟩
  have hteam : trim (py "default") ≠ [] ∧ Encodable (trim (py "default")) := by decide
  have hkeys : KeysEncodable (trimKeys (targetMetadata record)) :=
    (keysEncodable_trimKeys_iff _).mpr (keysEncodable_targetMetadata hwritable.1.1.2)
  refine ⟨⟨⟨record.channelType, hne, hencodable⟩, ⟨_, hendpoint⟩, ⟨_, hteam⟩, ⟨_, hkeys⟩⟩, ?_,
    registered_of_allowed hallowed⟩
  rw [outboundTarget, if_neg hne, OutboundTarget.validate, htrim,
    RequiredStr.validate_of_valid ⟨hne, hencodable⟩, RequiredStr.validate_of_valid hendpoint,
    RequiredStr.validate_of_valid hteam, Mapping.validate_of_encodable hkeys]
  rfl

theorem exists_targets {records : List Channel}
    (haccepted : ∀ record ∈ records, Accepted std record) :
    ∃ targets, listEnabledOutboundTargets records = .ok targets ∧
      ∀ target ∈ targets, Registered target := by
  apply Loops.mapM_ok
  intro record hrecord
  obtain ⟨hmem, hreachable⟩ := List.mem_filter.mp hrecord
  exact exists_outboundTarget (haccepted record hmem) hreachable

end Targets

/-! ## The broadcast -/

section Dispatch

variable {broadcast : Broadcast} {targets : List OutboundTarget} {exchanges : ℕ → HttpExchange}

theorem registered_zipIdx (hregistered : ∀ target ∈ targets, Registered target) :
    ∀ job ∈ targets.zipIdx, Registered job.1 :=
  fun _ hjob => hregistered _ (List.fst_mem_of_mem_zipIdx hjob)

/-- The report of a loop that returned is that of a broadcast that reached every target. -/
theorem reachesAll_of_sendAll (hregistered : ∀ target ∈ targets, Registered target)
    {results : List SendResult}
    (hall : (broadcast.sendAll exchanges targets.zipIdx).1 = .ok results) :
    broadcast.ReachesAll targets exchanges (broadcast.report results)
      (broadcast.sendAll exchanges targets.zipIdx).2 := by
  have hjobs := registered_zipIdx hregistered
  obtain ⟨hresults, hrequests⟩ := sends_of_sendAll hjobs hall
  have hlength : targets.length = results.length := by
    rw [← hresults.length_eq, List.length_zipIdx]
  have hfailed : (results.countP fun result => !result.ok) ≤ results.length :=
    List.countP_le_length
  have hok : (broadcast.report results).ok = true ↔ ∀ result ∈ results, result.ok = true := by
    simp [Broadcast.report, List.countP_eq_zero]
  refine ⟨hrequests, hresults, ?_, ?_⟩
  · rw [hlength]
    exact Nat.sub_add_cancel hfailed
  · rw [hok]
    have hboth := (List.forall₂_and_left _ _).mpr ⟨hjobs, hresults⟩
    exact (Loops.forall_mem_iff_of_forall₂ hboth fun job result hsend =>
      (ok_of_send hsend.1 hsend.2).symm).symm

/-- A broadcast over the channels that a store accepted reaches every enabled one exactly if
every send is deliverable: what an adapter does not report ends the loop. -/
theorem broadcast_reaches_all_iff (broadcast : Broadcast) (settings : Fields)
    (records : List Channel) (exchanges : ℕ → HttpExchange)
    (single : Except PyError DispatchReport × List HttpRequest)
    (haccepted : ∀ record ∈ records, Accepted broadcast.std record)
    (henabled : ((settings.get? (py "broadcast_enabled")).getD (.bool true)).truthy = true) :
    ∃ targets, List.Forall₂ (fun record target => outboundTarget record = .ok target)
        (records.filter Reachable) targets ∧
      ((∃ report, (broadcast.dispatch settings records exchanges single).1 = .ok report ∧
          broadcast.ReachesAll targets exchanges report
            (broadcast.dispatch settings records exchanges single).2) ↔
        ∀ job ∈ targets.zipIdx, broadcast.Deliverable job.1 (exchanges job.2)) := by
  obtain ⟨targets, htargets, hregistered⟩ := exists_targets haccepted
  refine ⟨targets, Loops.forall₂_of_mapM_ok htargets, ?_⟩
  rw [← exists_sendAll_iff (registered_zipIdx hregistered), Broadcast.dispatch, henabled, htargets]
  cases targets with
  | nil =>
    apply iff_of_true
    · exact ⟨broadcast.skipped, rfl, List.Forall₂.nil, List.Forall₂.nil, rfl,
        iff_of_true rfl (by simp)⟩
    · exact ⟨[], rfl⟩
  | cons target rest =>
    constructor
    · intro hreport
      obtain ⟨report, hreport, _⟩ := hreport
      obtain ⟨results, hresults, _⟩ := Loops.exists_of_map_eq_ok hreport
      exact ⟨results, hresults⟩
    · intro hresults
      obtain ⟨results, hresults⟩ := hresults
      refine ⟨broadcast.report results, ?_, reachesAll_of_sendAll hregistered hresults⟩
      exact congrArg (Except.map broadcast.report) hresults

end Dispatch

/-! ## A broadcast that one channel ends -/

/-- A channel without a secret, as the store makes it of a payload with these four fields. -/
def plainChannel (name channelType : String) (metadata : Fields) : Channel where
  channelId := py "1"
  name := py name
  channelType := py channelType
  endpointUrl := py "http://a"
  secret := []
  enabled := true
  sortOrder := 0
  templateId := []
  metadata := metadata
  createdAt := py "t"
  updatedAt := py "t"

def plainBroadcast : Broadcast where
  std := numberStdlib
  wordChar _ := false
  sign _ _ := []
  templates := []
  context := none
  channel := py "webhook"
  message := py "down"

/-- Every exchange is answered with the same body. -/
def answered (status : ℕ) (json : Json) : ℕ → HttpExchange :=
  fun _ => { outcome := .response status (py "ok") (.ok json), timestampMs := py "0" }

theorem accepted_plainChannel_feishu : Accepted numberStdlib (plainChannel "a" "feishu" []) :=
  ⟨[(py "name", .str (py "a")), (py "channel_type", .str (py "feishu")),
    (py "endpoint_url", .str (py "http://a"))], none, ⟨py "1", py "t"⟩, by rfl, by decide⟩

theorem accepted_plainChannel_dingtalk :
    Accepted numberStdlib (plainChannel "b" "dingtalk" [(py "msg_type", .arr [])]) :=
  ⟨[(py "name", .str (py "b")), (py "channel_type", .str (py "dingtalk")),
    (py "endpoint_url", .str (py "http://a")),
    (py "metadata", .obj [(py "msg_type", .arr [])])], none, ⟨py "1", py "t"⟩, by rfl, by decide⟩

theorem broadcast_reaches_all_feishu :
    ∃ targets, List.Forall₂ (fun record target => outboundTarget record = .ok target)
        ([plainChannel "a" "feishu" []].filter Reachable) targets ∧
      ((∃ report, (plainBroadcast.dispatch [] [plainChannel "a" "feishu" []]
            (answered 200 (.obj [(py "code", .int 0)])) (.error .typeError, [])).1 = .ok report ∧
          plainBroadcast.ReachesAll targets (answered 200 (.obj [(py "code", .int 0)])) report
            (plainBroadcast.dispatch [] [plainChannel "a" "feishu" []]
              (answered 200 (.obj [(py "code", .int 0)])) (.error .typeError, [])).2) ↔
        ∀ job ∈ targets.zipIdx,
          plainBroadcast.Deliverable job.1 (answered 200 (.obj [(py "code", .int 0)]) job.2)) :=
  broadcast_reaches_all_iff plainBroadcast [] [plainChannel "a" "feishu" []]
    (answered 200 (.obj [(py "code", .int 0)])) (.error .typeError, [])
    (by
      intro record hrecord
      rw [List.mem_singleton.mp hrecord]
      exact accepted_plainChannel_feishu)
    rfl

/-- The message type of the first channel is a list: the broadcast raises, and nothing is
posted to the second channel. -/
theorem unhashable_message_type_silences_all :
    (∀ record ∈ [plainChannel "b" "dingtalk" [(py "msg_type", .arr [])],
        plainChannel "a" "feishu" []], Accepted numberStdlib record) ∧
      plainBroadcast.dispatch []
          [plainChannel "b" "dingtalk" [(py "msg_type", .arr [])], plainChannel "a" "feishu" []]
          (answered 200 (.obj [(py "code", .int 0)])) (.ok plainBroadcast.skipped, []) =
        (.error .typeError, []) := by
  constructor
  · intro record hrecord
    rcases List.mem_pair.mp hrecord with rfl | rfl
    · exact accepted_plainChannel_dingtalk
    · exact accepted_plainChannel_feishu
  · rfl

end RootSeeker.ChannelRouting
