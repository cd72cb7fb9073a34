import RootSeeker.McpPlane.ServerOutput

/-!
# Responses and their requests

What a session reads from the bytes of its server is what a reader of the items
would take, except that it looks at the id of a message only: a request of the
server with the same number is taken as the response.  Here this is carried
from one request to the runs of a session.
-/

namespace RootSeeker.McpPlane

open Python Streams

/-! ## Exchanges -/

/-- The output is one of messages, blank lines and banners. -/
def Speaks (std : Stdlib) (codec : Codec) (output : Output) : Prop :=
  ∃ items ending, (∀ item ∈ items, Item.WellFormed std codec item) ∧
    Ending.WellFormed std codec ending ∧ output = outputOf items ending

/-- What is unread when the request is made does not confuse the session. -/
def Clear (std : Stdlib) (codec : Codec) (exchange : Exchange) : Prop :=
  ∃ items ending, (∀ item ∈ items, Item.WellFormed std codec item) ∧
    Ending.WellFormed std codec ending ∧ exchange.unread = outputOf items ending ∧
      ClearUntil std codec exchange.msgId items ending

section Exchanges

variable {std : Stdlib} {codec : Codec}

/-- What a request makes of what it has read. -/
def Gives (std : Stdlib) : Read → Except SessionError Fields → Prop
  | .message fields, outcome => outcome = responseOutcome std fields
  | .raised error, outcome => outcome = .error error
  | .timedOut, outcome => ∃ error, outcome = .error error ∧ NoResponse error

/-- An exchange that a session makes. -/
def IsExchange (std : Stdlib) (codec : Codec) (exchange : Exchange) : Prop :=
  ∃ tail read, readAnswer std codec tail exchange.msgId exchange.unread = (read, exchange.left) ∧
    Gives std read exchange.outcome

theorem not_noResponse_of_stray {read : Read} {outcome : Except SessionError Fields}
    (hstray : Stray read) (hgives : Gives std read outcome) :
    ¬∃ error, outcome = .error error ∧ NoResponse error := by
  rintro ⟨error, houtcome, hnone⟩
  cases read with
  | message fields =>
    rw [Gives, responseOutcome, hstray.1, hstray.2] at hgives
    exact absurd (hgives.symm.trans houtcome) (by simp)
  | raised other =>
    rw [Gives] at hgives
    rw [Except.error.inj (houtcome.symm.trans hgives)] at hnone
    exact hstray hnone
  | timedOut => exact hstray

theorem noResponse_processEnded (tail : PyStr) : NoResponse (processEnded tail) :=
  ⟨_, Or.inl rfl⟩

theorem matchedWith_iff (hlower : ∀ c, isAscii c = false → colonChar ∉ std.lowerNonAscii c)
    {exchange : Exchange} (hexchange : IsExchange std codec exchange) {items : List Item}
    {ending : Ending} (hitems : ∀ item ∈ items, item.WellFormed std codec)
    (hending : ending.WellFormed std codec) (hunread : exchange.unread = outputOf items ending) :
    MatchedWith std exchange items ending ↔ ClearUntil std codec exchange.msgId items ending := by
  obtain ⟨tail, read, hread, hgives⟩ := hexchange
  rw [hunread] at hread
  constructor
  · intro hmatched
    by_contra hconfusing
    obtain ⟨stray, left, hleft, hstray, hlonger⟩ := @readAnswer_outputOf_confusing std codec tail
      hlower items ending hitems hending exchange.msgId hconfusing
    obtain ⟨rfl, rfl⟩ := Prod.mk.inj (hread.symm.trans hleft)
    rw [MatchedWith] at hmatched
    split at hmatched
    next fields rest hexpected =>
      have hlt := hlonger fields rest hexpected
      rw [hmatched.2] at hlt
      exact lt_irrefl _ hlt
    next => exact not_noResponse_of_stray hstray hgives hmatched
  · intro hclear
    have hanswer := @readAnswer_outputOf std codec tail hlower items ending hitems hending
      exchange.msgId hclear
    rw [MatchedWith]
    rw [hread] at hanswer
    split at hanswer
    next fields rest hexpected =>
      obtain ⟨rfl, hleft⟩ := Prod.mk.inj hanswer
      exact ⟨hgives, hleft⟩
    next hexpected =>
      obtain htimed | hended := hanswer
      · rw [show read = .timedOut from htimed] at hgives
        exact hgives
      · rw [(Prod.mk.inj hended).1] at hgives
        exact ⟨_, hgives, noResponse_processEnded tail⟩

/-- Behind a response the output goes on with the next items. -/
theorem speaks_left (hlower : ∀ c, isAscii c = false → colonChar ∉ std.lowerNonAscii c)
    {msgId : ℕ} {items : List Item} {ending : Ending} {tail : PyStr}
    (hitems : ∀ item ∈ items, item.WellFormed std codec) (hending : ending.WellFormed std codec)
    (hclear : ClearUntil std codec msgId items ending)
    (hread : (readAnswer std codec tail msgId (outputOf items ending)).1 ≠ .timedOut) :
    Speaks std codec (readAnswer std codec tail msgId (outputOf items ending)).2 := by
  have hanswer := @readAnswer_outputOf std codec tail hlower items ending hitems hending
    msgId hclear
  split at hanswer
  next fields rest hexpected =>
    rw [hanswer]
    exact ⟨rest, ending,
      fun item hitem => hitems item ((suffix_of_expected hexpected).subset hitem), hending, rfl⟩
  next =>
    rw [hanswer.resolve_left hread]
    exact ⟨[], .ended, fun _ hitem => absurd hitem List.not_mem_nil, trivial, rfl⟩

end Exchanges

/-! ## Runs -/

namespace McpStdioSession

section Runs

variable {std : Stdlib} {codec : Codec}

/-- The ids of a session are never used again, and what it reads is made of items until it is
confused. -/
structure Sound (std : Stdlib) (codec : Codec) (session : McpStdioSession) : Prop where
  distinct : (session.exchanges.map (·.msgId)).Nodup
  below : ∀ exchange ∈ session.exchanges, exchange.msgId < session.nextId
  made : ∀ exchange ∈ session.exchanges, IsExchange std codec exchange
  speaks : ∀ before exchange after, session.exchanges = before ++ exchange :: after →
    (∀ earlier ∈ before, Clear std codec earlier) → Speaks std codec exchange.unread
  current : (∀ exchange ∈ session.exchanges, Clear std codec exchange) →
    ∀ proc, session.proc = some proc → Speaks std codec proc.stdout

theorem sound_create (command : PyStr) (timeoutSeconds : PyFloat) :
    Sound std codec (create command timeoutSeconds) where
  distinct := List.nodup_nil
  below _ hexchange := absurd hexchange List.not_mem_nil
  made _ hexchange := absurd hexchange List.not_mem_nil
  speaks before _ _ hexchanges := absurd hexchanges.symm (by simp [create])
  current _ _ hproc := absurd hproc (by simp [create])

/-- A change that makes no exchange. -/
theorem Sound.of_exchanges_eq {session next : McpStdioSession} (hsound : Sound std codec session)
    (hexchanges : next.exchanges = session.exchanges) (hnextId : session.nextId ≤ next.nextId)
    (hproc : ∀ proc, next.proc = some proc → Speaks std codec proc.stdout ∨
      ∃ old, session.proc = some old ∧ proc.stdout = old.stdout) : Sound std codec next where
  distinct := hexchanges ▸ hsound.distinct
  below exchange hexchange :=
    (hsound.below exchange (hexchanges ▸ hexchange)).trans_le hnextId
  made exchange hexchange := hsound.made exchange (hexchanges ▸ hexchange)
  speaks before exchange after hsplit :=
    hsound.speaks before exchange after (hexchanges ▸ hsplit)
  current hclear proc hnow := by
    obtain hnew | ⟨old, hold, hstdout⟩ := hproc proc hnow
    · exact hnew
    · rw [hstdout]
      exact hsound.current (hexchanges ▸ hclear) old hold

theorem Sound.connect {session : McpStdioSession} (hsound : Sound std codec session)
    {spawned : Except PyStr Proc}
    (hspeaks : ∀ proc, spawned = .ok proc → Speaks std codec proc.stdout) :
    Sound std codec (session.connect spawned).2 := by
  simp only [McpStdioSession.connect]
  split
  · exact hsound
  split
  · exact hsound
  split
  · exact hsound
  next proc =>
    apply Sound.of_exchanges_eq hsound
    · rfl
    · exact le_refl _
    · intro current hcurrent
      rw [← Option.some.inj hcurrent]
      exact Or.inl (hspeaks proc rfl)

theorem Sound.close {session : McpStdioSession} (hsound : Sound std codec session) :
    Sound std codec session.close := by
  apply Sound.of_exchanges_eq hsound
  · rfl
  · exact le_refl _
  · intro proc hproc
    exact absurd hproc (by simp [McpStdioSession.close])

theorem Sound.writeMessage {session : McpStdioSession} (hsound : Sound std codec session)
    (message : ClientMessage) : Sound std codec (session.writeMessage message).2 := by
  rw [McpStdioSession.writeMessage]
  split
  · exact hsound
  next proc hproc =>
    split
    · apply Sound.of_exchanges_eq hsound
      · rfl
      · exact le_refl _
      · intro current hcurrent
        rw [← Option.some.inj hcurrent]
        exact Or.inr ⟨proc, hproc, rfl⟩
    · exact hsound

/-- One more exchange, under an id that was not used. -/
theorem Sound.exchange {session next : McpStdioSession} (hsound : Sound std codec session)
    {exchange : Exchange} (hexchanges : next.exchanges = session.exchanges ++ [exchange])
    (hfresh : ∀ earlier ∈ session.exchanges, earlier.msgId < exchange.msgId)
    (hbelow : exchange.msgId < next.nextId) (hmade : IsExchange std codec exchange)
    (hunread : (∀ earlier ∈ session.exchanges, Clear std codec earlier) →
      Speaks std codec exchange.unread)
    (hleft : Clear std codec exchange → ∀ proc, next.proc = some proc →
      Speaks std codec proc.stdout) : Sound std codec next where
  distinct := by
    rw [hexchanges, List.map_append, List.nodup_append]
    refine ⟨hsound.distinct, List.nodup_singleton _, fun id hid last hlast => ?_⟩
    obtain ⟨earlier, hearlier, rfl⟩ := List.mem_map.mp hid
    rw [List.mem_singleton.mp hlast]
    exact (hfresh earlier hearlier).ne
  below earlier hearlier := by
    rw [hexchanges, List.mem_append, List.mem_singleton] at hearlier
    obtain hold | rfl := hearlier
    · exact (hfresh earlier hold).trans hbelow
    · exact hbelow
  made earlier hearlier := by
    rw [hexchanges, List.mem_append, List.mem_singleton] at hearlier
    obtain hold | rfl := hearlier
    · exact hsound.made earlier hold
    · exact hmade
  speaks before current after hsplit hclear := by
    rw [hexchanges] at hsplit
    obtain rfl | ⟨front, final, rfl⟩ := List.eq_nil_or_concat' after
    · obtain ⟨rfl, hlast⟩ := List.append_inj' hsplit rfl
      rw [← List.head_eq_of_cons_eq hlast]
      exact hunread hclear
    · rw [← List.cons_append, ← List.append_assoc] at hsplit
      exact hsound.speaks before current front (List.append_inj' hsplit rfl).1 hclear
  current hclear := by
    apply hleft
    apply hclear
    rw [hexchanges]
    exact List.mem_append_right _ (List.mem_singleton_self _)

theorem noResponse_timeoutError (session : McpStdioSession) :
    NoResponse (session.timeoutError std) := by
  refine ⟨std.floatRepr session.timeoutSeconds ++ py "s", Or.inr ?_⟩
  rw [timeoutError, List.append_assoc]

theorem Sound.awaitResponse (hlower : ∀ c, isAscii c = false → colonChar ∉ std.lowerNonAscii c)
    {session : McpStdioSession} (hsound : Sound std codec session) {msgId : ℕ}
    (hfresh : ∀ earlier ∈ session.exchanges, earlier.msgId < msgId)
    (hbelow : msgId < session.nextId) :
    Sound std codec (session.awaitResponse std codec msgId).2 := by
  rw [McpStdioSession.awaitResponse]
  split
  · exact hsound
  next proc hproc =>
    dsimp only
    cases hanswer : readAnswer std codec proc.stderrTail msgId proc.stdout with
    | mk read left =>
      have hleft : ∀ outcome, read ≠ .timedOut → Clear std codec
          ⟨msgId, proc.stdout, outcome, left⟩ → Speaks std codec left := by
        rintro outcome hread ⟨items, ending, hitems, hending, hunread, hclear⟩
        have hspeaks := @speaks_left std codec hlower msgId items ending proc.stderrTail hitems
          hending hclear
        dsimp only at hunread
        rw [← hunread, hanswer] at hspeaks
        exact hspeaks hread
      cases read with
      | message fields =>
        apply Sound.exchange hsound rfl hfresh hbelow
        · exact ⟨proc.stderrTail, _, hanswer, rfl⟩
        · exact fun hclear => hsound.current hclear proc hproc
        · intro hclear current hcurrent
          rw [← Option.some.inj hcurrent]
          exact hleft _ (by simp) hclear
      | raised error =>
        apply Sound.exchange hsound rfl hfresh hbelow
        · exact ⟨proc.stderrTail, _, hanswer, rfl⟩
        · exact fun hclear => hsound.current hclear proc hproc
        · intro hclear current hcurrent
          rw [← Option.some.inj hcurrent]
          exact hleft _ (by simp) hclear
      | timedOut =>
        apply Sound.exchange hsound rfl hfresh hbelow
        · exact ⟨proc.stderrTail, _, hanswer, ⟨_, rfl, noResponse_timeoutError session⟩⟩
        · exact fun hclear => hsound.current hclear proc hproc
        · intro hclear current hcurrent
          exact absurd hcurrent (by simp [McpStdioSession.close])

theorem Sound.requestUnlocked (hlower : ∀ c, isAscii c = false → colonChar ∉ std.lowerNonAscii c)
    {session : McpStdioSession} (hsound : Sound std codec session) (method : PyStr)
    (params : Option Fields) :
    Sound std codec (session.requestUnlocked std codec method params).2 := by
  have hcounted : Sound std codec { session with nextId := session.nextId + 1 } := by
    apply Sound.of_exchanges_eq hsound
    · rfl
    · exact Nat.le_succ _
    · exact fun proc hproc => Or.inr ⟨proc, hproc, rfl⟩
  have hsent := hcounted.writeMessage
    { id := some session.nextId, method := method, params := params }
  obtain ⟨hexchanges, hnextId⟩ := writeMessage_exchanges
    { session with nextId := session.nextId + 1 }
    { id := some session.nextId, method := method, params := params }
  rw [McpStdioSession.requestUnlocked]
  split
  · exact hsent
  · apply hsent.awaitResponse hlower
    · rw [hexchanges]
      exact hsound.below
    · rw [hnextId]
      exact Nat.lt_succ_self _

theorem Sound.handshake (hlower : ∀ c, isAscii c = false → colonChar ∉ std.lowerNonAscii c)
    {session : McpStdioSession} (hsound : Sound std codec session) :
    Sound std codec (session.handshake std codec).2 := by
  have hanswered := hsound.requestUnlocked hlower (py "initialize") (some initializeParams)
  have hnotified := hanswered.writeMessage
    { id := none, method := py "notifications/initialized", params := none }
  rw [McpStdioSession.handshake]
  split
  · exact hsound
  dsimp only
  split
  · exact hanswered
  split
  · exact hnotified
  · apply Sound.of_exchanges_eq hnotified
    · rfl
    · exact le_refl _
    · exact fun proc hproc => Or.inr ⟨proc, hproc, rfl⟩

theorem Sound.request (hlower : ∀ c, isAscii c = false → colonChar ∉ std.lowerNonAscii c)
    {session : McpStdioSession} (hsound : Sound std codec session) (method : PyStr)
    (params : Option Fields) {spawned : Except PyStr Proc}
    (hspeaks : ∀ proc, spawned = .ok proc → Speaks std codec proc.stdout) :
    Sound std codec (session.request std codec method params spawned).2 := by
  have hconnected := hsound.connect hspeaks
  have hready := hconnected.handshake hlower
  rw [McpStdioSession.request]
  dsimp only
  split
  · exact hconnected
  split
  · exact hready
  · exact hready.requestUnlocked hlower method params

theorem sound_performAll (hlower : ∀ c, isAscii c = false → colonChar ∉ std.lowerNonAscii c)
    {calls : List Call}
    (hspeaks : ∀ call ∈ calls, ∀ proc, call.spawned = .ok proc → Speaks std codec proc.stdout)
    {session : McpStdioSession} (hsound : Sound std codec session) :
    Sound std codec (session.performAll std codec calls) := by
  induction calls generalizing session with
  | nil => exact hsound
  | cons call calls ih =>
    rw [List.forall_mem_cons] at hspeaks
    apply ih hspeaks.2
    cases call with
    | connect spawned => exact hsound.connect hspeaks.1
    | close => exact hsound.close
    | request method params spawned => exact hsound.request hlower method params hspeaks.1

end Runs

/-! ## A server of two lines -/

def asciiBytes (text : String) : List UInt8 :=
  text.toList.map fun c => c.toNat.toUInt8

/-- The conversions of ASCII bytes; no header is read here. -/
def asciiCodec : Codec where
  replacing bytes := bytes.map fun byte => ⟨byte.toNat, by
    have hbyte := byte.toNat_lt
    omega⟩
  strict bytes := some (bytes.map fun byte => ⟨byte.toNat, by
    have hbyte := byte.toNat_lt
    omega⟩)
  int _ := none

def pingLine : String := "\x7b\"id\":1,\"method\":\"ping\"\x7d"

def pingFields : Fields := [(py "id", .int 1), (py "method", .str (py "ping"))]

def readyLine : String := "\x7b\"id\":1,\"result\":\x7b\"ready\":1\x7d\x7d"

def readyFields : Fields := [(py "id", .int 1), (py "result", .obj [(py "ready", .int 1)])]

/-- Decodes the two lines. -/
def lineStdlib : Stdlib :=
  { asciiStdlib with
    jsonLoads := fun text =>
      if text = py pingLine then some (.obj pingFields)
      else if text = py readyLine then some (.obj readyFields)
      else none }

def pingItem : Item := .line pingFields (asciiBytes (pingLine ++ "\n"))

def readyItem : Item := .line readyFields (asciiBytes (readyLine ++ "\n"))

def bannerItem : Item := .banner (asciiBytes "starting\n")

theorem wellFormed_pingItem : pingItem.WellFormed lineStdlib asciiCodec :=
  ⟨by decide, ⟨asciiBytes pingLine, by decide, by decide⟩, by decide, rfl⟩

theorem wellFormed_readyItem : readyItem.WellFormed lineStdlib asciiCodec :=
  ⟨by decide, ⟨asciiBytes readyLine, by decide, by decide⟩, by decide, rfl⟩

theorem wellFormed_bannerItem : bannerItem.WellFormed lineStdlib asciiCodec := by
  refine ⟨⟨asciiBytes "starting", by decide, by decide⟩, by decide, by decide, ?_⟩
  intro fields hload
  have hnone : lineStdlib.jsonLoads (lineText asciiCodec (asciiBytes "starting\n")) = none := rfl
  exact absurd (hnone.symm.trans hload) (by simp)

/-- A request, for which a server with this output is started. -/
def listToolsCall (items : List Item) : Call :=
  .request (py "tools/list") (some [])
    (.ok { stdout := outputOf items .ended, stdin := fun _ => true, stderrTail := [],
           written := [] })

def listTools (items : List Item) : McpStdioSession :=
  (create (py "server") (.finite false 30)).performAll lineStdlib asciiCodec
    [listToolsCall items]

/-- In every run of a session the requests have ids of their own.  However what is unread at a
request consists of messages, blank lines and banners, the request has the outcome of the
response with its id if and only if nothing that confuses the session comes before that
response, or before the session gives up.  What is unread does consist of such items as long
as the session was not confused. -/
theorem matchedWith_iff_clearUntil {std : Stdlib} {codec : Codec}
    (hlower : ∀ c, isAscii c = false → colonChar ∉ std.lowerNonAscii c) (command : PyStr)
    (timeoutSeconds : PyFloat) (calls : List Call)
    (hspeaks : ∀ call ∈ calls, ∀ proc, call.spawned = .ok proc → Speaks std codec proc.stdout) :
    let exchanges := ((create command timeoutSeconds).performAll std codec calls).exchanges
    (exchanges.map (·.msgId)).Nodup ∧
      (∀ before exchange after, exchanges = before ++ exchange :: after →
        (∀ earlier ∈ before, Clear std codec earlier) → Speaks std codec exchange.unread) ∧
      ∀ exchange ∈ exchanges, ∀ items ending,
        (∀ item ∈ items, Item.WellFormed std codec item) → Ending.WellFormed std codec ending →
        exchange.unread = outputOf items ending →
          (MatchedWith std exchange items ending ↔
            ClearUntil std codec exchange.msgId items ending) := by
  have hsound := @sound_performAll std codec hlower calls hspeaks _
    (sound_create command timeoutSeconds)
  refine ⟨hsound.distinct, hsound.speaks, ?_⟩
  intro exchange hexchange items ending hitems hending hunread
  exact matchedWith_iff hlower (hsound.made exchange hexchange) hitems hending hunread

theorem banner_is_skipped :
    ∃ exchange ∈ (listTools [bannerItem, readyItem]).exchanges,
      MatchedWith lineStdlib exchange [bannerItem, readyItem] .ended := by
  have hitems : ∀ item ∈ [bannerItem, readyItem], item.WellFormed lineStdlib asciiCodec := by
    rw [List.forall_mem_cons, List.forall_mem_singleton]
    exact ⟨wellFormed_bannerItem, wellFormed_readyItem⟩
  have hlower : ∀ c, isAscii c = false → colonChar ∉ lineStdlib.lowerNonAscii c := by
    intro c hc hmem
    rw [← List.mem_singleton.mp hmem] at hc
    exact absurd hc (by decide)
  have hspeaks : ∀ call ∈ [listToolsCall [bannerItem, readyItem]], ∀ proc,
      call.spawned = .ok proc → Speaks lineStdlib asciiCodec proc.stdout := by
    intro call hcall proc hproc
    rw [List.mem_singleton.mp hcall] at hproc
    rw [← Except.ok.inj hproc]
    exact ⟨[bannerItem, readyItem], .ended, hitems, trivial, rfl⟩
  have hmatched := (matchedWith_iff_clearUntil hlower (py "server") (.finite false 30) _
    hspeaks).2.2
  refine ⟨_, List.mem_cons_self, ?_⟩
  apply (hmatched _ List.mem_cons_self [bannerItem, readyItem] .ended hitems trivial rfl).mpr
  refine ⟨?_, fun _ => ⟨?_, fun hnone => absurd hnone (by decide)⟩⟩
  · rintro (hmisread | ⟨_, hfields, _⟩)
    · have hnot : ¬(py "\x7b").isPrefixOf
          (lineText asciiCodec (asciiBytes "starting\n")) = true := by decide
      exact hnot hmisread
    · exact absurd hfields (by simp [bannerItem, Item.fields?])
  · rintro (hmisread | ⟨_, hfields, hpeer, _⟩)
    · exact hmisread
    · rw [← Option.some.inj hfields] at hpeer
      exact absurd hpeer (by decide)

/-- The server asks for a ping under the number of the request, then it answers. -/
theorem ping_is_taken_as_response :
    (∀ item ∈ [pingItem, readyItem], item.WellFormed lineStdlib asciiCodec) ∧
      ∃ exchange ∈ (listTools [pingItem, readyItem]).exchanges,
        exchange.unread = outputOf [pingItem, readyItem] .ended ∧ exchange.outcome = .ok [] ∧
          ¬MatchedWith lineStdlib exchange [pingItem, readyItem] .ended := by
  constructor
  · rw [List.forall_mem_cons, List.forall_mem_singleton]
    exact ⟨wellFormed_pingItem, wellFormed_readyItem⟩
  · refine ⟨_, List.mem_cons_self, rfl, rfl, fun hmatched => ?_⟩
    exact absurd (Except.ok.inj hmatched.1) (by simp)

end McpStdioSession

end RootSeeker.McpPlane
