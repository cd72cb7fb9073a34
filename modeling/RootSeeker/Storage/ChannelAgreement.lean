import RootSeeker.Core.KeyedList
import RootSeeker.Core.Loops
import RootSeeker.Core.Transition
import RootSeeker.Storage.ChannelStores

/-!
# Agreement of the channel stores

Both stores are given the same calls.  They agree until an upsert takes a name
that another channel has, which the file store rejects and the SQLite store
takes as an order to replace that channel, or until a value arrives that only
one of them can store.
-/

namespace RootSeeker.Storage

open Python Contracts Transition

/-! ## Two stores under the same calls -/

structure ChannelStores where
  file : FileNotificationChannelStore
  sqlite : SqliteNotificationChannelStore

def ChannelStores.new : ChannelStores where
  file := .new
  sqlite := .new

def ChannelStores.step (std : NumberStdlib) (stores : ChannelStores) (call : ChannelCall) :
    ChannelStores where
  file := (stores.file.perform std call).2
  sqlite := (stores.sqlite.perform std call).2

abbrev ChannelRuns (std : NumberStdlib) (start : ChannelStores)
    (trace : Trace ChannelStores ChannelCall) : Prop :=
  Follows (fun stores call next => next = stores.step std call) start trace

/-- The channels beside the one that an upsert returns are still listed. -/
def KeepsOthers (answer : Except PyError ChannelAnswer)
    (before after : Except PyError (List Channel)) : Prop :=
  ∀ stored listed, answer = .ok (.channel stored) → before = .ok listed →
    ∃ relisted, after = .ok relisted ∧
      ∀ other ∈ listed, other.channelId ≠ stored.channelId → other ∈ relisted

/-- The stores answer the call alike, list the same afterwards, and keep what the call
is not about. -/
structure AgreeOn (std : NumberStdlib) (before : ChannelStores) (call : ChannelCall)
    (after : ChannelStores) : Prop where
  answers : SameOutcome (before.file.perform std call).1 (before.sqlite.perform std call).1
  channels : SameOutcome after.file.listChannels (.ok after.sqlite.listChannels)
  settings : SameOutcome after.file.getSettings (.ok after.sqlite.getSettings)
  fileKeeps : KeepsOthers (before.file.perform std call).1 before.file.listChannels
    after.file.listChannels
  sqliteKeeps : KeepsOthers (before.sqlite.perform std call).1
    (.ok before.sqlite.listChannels) (.ok after.sqlite.listChannels)

/-- An upsert whose payload is rejected has an identifier that can be looked up, or is
rejected with a `ValueError`.  One whose payload is accepted can be stored under its name,
or the name is taken and storing it would raise a `ValueError` too. -/
def UpsertHarmless (std : NumberStdlib) (document : ChannelDocument) (channel : Fields)
    (draw : Draw) : Prop :=
  match normalizeChannelPayload std channel
      (FileNotificationChannelStore.existing std channel document.channels) draw with
  | .error raised => Encodable (lookupId std channel) ∨ raised.isValueError = true
  | .ok normalized =>
    if FileNotificationChannelStore.nameTaken normalized document.channels then
      ∃ raised, bindError normalized.parameters = some raised ∧ raised.isValueError = true
    else bindError normalized.parameters = none

theorem upsertHarmless_of_bound {std : NumberStdlib} {document : ChannelDocument} {channel : Fields}
    {draw : Draw} {normalized : Channel} (hnormalize : normalizeChannelPayload std channel
      (FileNotificationChannelStore.existing std channel document.channels) draw =
        .ok normalized)
    (hfree : FileNotificationChannelStore.nameTaken normalized document.channels = false)
    (hbind : bindError normalized.parameters = none) :
    UpsertHarmless std document channel draw := by
  unfold UpsertHarmless
  simp only [hnormalize, hfree, Bool.false_eq_true, if_false, hbind]

/-- The calls on which the stores agree. -/
def Harmless (std : NumberStdlib) (stores : ChannelStores) : ChannelCall → Prop
  | .upsert channel draw =>
    ∀ document ∈ stores.file.document, UpsertHarmless std document channel draw
  | .delete channelId => Encodable channelId
  | .updateSettings patch =>
    ∀ document ∈ stores.file.document,
      fieldsEncodable (document.settings.update patch) = true

/-- The table holds the channels of the document. -/
structure Simulates (document : ChannelDocument) (sqlite : SqliteNotificationChannelStore) :
    Prop where
  channels : document.channels.Perm (sqlite.rows.map rowToChannel)
  settings : document.settings = sqlite.settings
  ids : (document.channels.map Channel.channelId).Nodup
  names : (document.channels.map Channel.name).Nodup
  encodable : document.encodable = true
  broadcast : py "broadcast_enabled" ∈ document.settings.keys

def ChannelStores.InStep (stores : ChannelStores) : Prop :=
  ∃ document, stores.file.document = some document ∧ Simulates document stores.sqlite

/-! ## Lists of channels with distinct names and identifiers -/

instance : Std.Total fun left right : Channel => sortKey left ≤ sortKey right :=
  ⟨fun _ _ => le_total _ _⟩

instance : IsTrans Channel fun left right => sortKey left ≤ sortKey right :=
  ⟨fun _ _ _ => le_trans⟩

section Lists

variable {channels others : List Channel}

theorem mem_sortChannels {channel : Channel} :
    channel ∈ sortChannels channels ↔ channel ∈ channels :=
  List.mem_insertionSort _

/-- Channels with distinct names are listed in one order. -/
theorem sortChannels_eq_of_perm (hperm : channels.Perm others)
    (hnames : (channels.map Channel.name).Nodup) : sortChannels channels = sortChannels others := by
  have hsorted : (sortChannels channels).Perm (sortChannels others) :=
    (List.perm_insertionSort _ channels).trans
      (hperm.trans (List.perm_insertionSort _ others).symm)
  apply hsorted.eq_of_pairwise _ (List.pairwise_insertionSort _ channels)
    (List.pairwise_insertionSort _ others)
  intro left right hleft hright hle hge
  have hkey := toLex.injective (le_antisymm hle hge)
  have hrightMem : right ∈ channels :=
    hperm.mem_iff.mpr (mem_sortChannels.mp hright)
  exact List.inj_on_of_nodup_map hnames (mem_sortChannels.mp hleft) hrightMem (Prod.mk.inj hkey).2

theorem nodup_filter_append {key : Channel → PyStr} {keep : Channel → Bool} {added : Channel}
    (hkeys : (channels.map key).Nodup)
    (hfresh : ∀ channel ∈ channels, keep channel = true → key channel ≠ key added) :
    ((channels.filter keep ++ [added]).map key).Nodup := by
  rw [List.map_append, List.nodup_append_comm, List.map_cons, List.map_nil,
    List.singleton_append, List.nodup_cons]
  constructor
  · intro hmem
    obtain ⟨channel, hchannel, hkey⟩ := List.mem_map.mp hmem
    obtain ⟨hmem, hkeep⟩ := List.mem_filter.mp hchannel
    exact hfresh channel hmem hkeep hkey
  · exact hkeys.sublist (List.filter_sublist.map key)

end Lists

/-! ## Payloads and parameters -/

section Payload

variable {std : NumberStdlib} {channel : Fields} {existing : Option Channel} {draw : Draw}
  {normalized : Channel}

theorem channelId_of_normalize
    (hnormalize : normalizeChannelPayload std channel existing draw = .ok normalized) :
    normalized.channelId = normalizeChannelId std channel existing draw := by
  obtain ⟨_, _, hnormalize⟩ := Loops.exists_of_bind_eq_ok hnormalize
  obtain ⟨_, _, hnormalize⟩ := Loops.exists_of_bind_eq_ok hnormalize
  obtain ⟨_, _, hnormalize⟩ := Loops.exists_of_bind_eq_ok hnormalize
  obtain ⟨_, _, hnormalize⟩ := Loops.exists_of_bind_eq_ok hnormalize
  obtain ⟨_, _, hnormalize⟩ := Loops.exists_of_bind_eq_ok hnormalize
  rw [← Except.ok.inj hnormalize]

/-- An identifier that cannot be looked up cannot be stored. -/
theorem not_encodable_channelId (existing : Option Channel) (draw : Draw)
    (hid : ¬Encodable (lookupId std channel)) :
    ¬Encodable (normalizeChannelId std channel existing draw) := by
  rw [lookupId, encodable_strip_iff] at hid
  have hne : truthyText std.toStdlib [channel.get? (py "channel_id")] ≠ [] := by
    intro hnil
    rw [hnil] at hid
    exact hid encodable_nil
  rw [normalizeChannelId, textOrInherited, truthyText_cons_of_ne_nil _ hne]
  exact hid

/-- A channel can be bound exactly when its text can be encoded and its order fits into
a SQLite integer. -/
theorem bindError_parameters_eq_none_iff :
    bindError normalized.parameters = none ↔
      normalized.encodable = true ∧
        (-2 ^ 63 ≤ normalized.sortOrder ∧ normalized.sortOrder < 2 ^ 63) := by
  have henabled : -2 ^ 63 ≤ (if normalized.enabled then (1 : ℤ) else 0) ∧
      (if normalized.enabled then (1 : ℤ) else 0) < 2 ^ 63 := by
    split <;> decide
  simp only [bindError, Channel.parameters, List.findSome?_eq_none_iff, List.forall_mem_cons,
    SqlParameter.bindError, Channel.encodable, ite_eq_left_iff, reduceCtorEq, imp_false,
    not_not, Bool.and_eq_true, decide_eq_true_eq]
  tauto

end Payload

/-! ## Upserts -/

section Upsert

variable {std : NumberStdlib} {channel : Fields} {draw : Draw} {normalized : Channel}
  {document : ChannelDocument} {sqlite : SqliteNotificationChannelStore} {raised : PyError}

/-- The channel that an upsert finds in the file. -/
abbrev found (std : NumberStdlib) (channel : Fields) (document : ChannelDocument) :
    Option Channel :=
  FileNotificationChannelStore.existing std channel document.channels

/-- Both stores find the same channel. -/
theorem existing_of_encodable (hsim : Simulates document sqlite)
    (hid : Encodable (lookupId std channel)) :
    sqlite.existing std channel = .ok (found std channel document) := by
  have hnames : sqlite.listChannels.find? (fun item => item.name = lookupName std channel) =
      document.channels.find? fun item => item.name = lookupName std channel := by
    have hperm : document.channels.Perm sqlite.listChannels :=
      hsim.channels.trans (List.perm_insertionSort _ _).symm
    exact (KeyedList.find?_eq_of_perm hperm hsim.names _).symm
  have hids : (sqlite.rows.find? fun row => row.channelId = lookupId std channel).map
        rowToChannel =
      document.channels.find? fun item => item.channelId = lookupId std channel := by
    rw [KeyedList.find?_eq_of_perm hsim.channels hsim.ids, List.find?_map]
    rfl
  unfold SqliteNotificationChannelStore.existing found FileNotificationChannelStore.existing
  rw [hnames]
  by_cases hnil : lookupId std channel = []
  · simp [hnil, bind, Except.bind, pure, Except.pure]
  · have hget : sqlite.getChannel (lookupId std channel) =
        .ok (document.channels.find? fun item => item.channelId = lookupId std channel) := by
      rw [SqliteNotificationChannelStore.getChannel, ← hids]
      simp [bindError, SqlParameter.bindError, hid]
    simp [hnil, hget, bind, Except.bind, pure, Except.pure]

theorem existing_of_not_encodable (hid : ¬Encodable (lookupId std channel)) :
    sqlite.existing std channel = .error .unicodeEncodeError := by
  have hnil : lookupId std channel ≠ [] := by
    intro hnil
    rw [hnil] at hid
    exact hid encodable_nil
  have hget : sqlite.getChannel (lookupId std channel) = .error .unicodeEncodeError := by
    rw [SqliteNotificationChannelStore.getChannel]
    simp [bindError, SqlParameter.bindError, hid]
  unfold SqliteNotificationChannelStore.existing
  simp [hnil, hget, bind, Except.bind]

/-- A payload that is rejected is rejected by both stores. -/
theorem sqlite_upsert_of_rejected (hsim : Simulates document sqlite)
    (hrejected : normalizeChannelPayload std channel (found std channel document) draw =
      .error raised) :
    sqlite.upsertChannel std channel draw =
      (.error (if Encodable (lookupId std channel) then raised else .unicodeEncodeError),
        sqlite) := by
  unfold SqliteNotificationChannelStore.upsertChannel
  by_cases hid : Encodable (lookupId std channel)
  · rw [existing_of_encodable hsim hid, if_pos hid]
    simp only [hrejected]
  · rw [existing_of_not_encodable hid, if_neg hid]

section

variable (hsim : Simulates document sqlite)
  (hnormalize : normalizeChannelPayload std channel (found std channel document) draw = .ok
    normalized)

include hsim hnormalize

/-- What cannot be bound is not stored. -/
theorem sqlite_upsert_of_bindError (hbind : bindError normalized.parameters = some raised) :
    sqlite.upsertChannel std channel draw = (.error raised, sqlite) := by
  unfold SqliteNotificationChannelStore.upsertChannel
  by_cases hid : Encodable (lookupId std channel)
  · rw [existing_of_encodable hsim hid]
    simp only [hnormalize, hbind]
  · rw [existing_of_not_encodable hid]
    have hchannelId : ¬Encodable normalized.channelId := by
      rw [channelId_of_normalize hnormalize]
      exact not_encodable_channelId _ draw hid
    have hfirst : bindError normalized.parameters = some .unicodeEncodeError := by
      simp [bindError, Channel.parameters, SqlParameter.bindError, hchannelId]
    rw [← Option.some.inj (hfirst.symm.trans hbind)]

theorem sqlite_upsert_of_bound (hbind : bindError normalized.parameters = none) :
    sqlite.upsertChannel std channel draw =
      (.ok normalized, { sqlite with rows := insertOrReplace normalized.row sqlite.rows }) := by
  have hid : Encodable (lookupId std channel) := by
    by_contra hid
    have hchannelId := not_encodable_channelId (found std channel document) draw hid
    rw [← channelId_of_normalize hnormalize] at hchannelId
    have hencodable := (bindError_parameters_eq_none_iff.mp hbind).1
    simp [Channel.encodable, hchannelId] at hencodable
  unfold SqliteNotificationChannelStore.upsertChannel
  rw [existing_of_encodable hsim hid]
  simp only [hnormalize, hbind]

end

/-- Beside channels that can be written, it depends on the new channel whether the
document can. -/
theorem encodable_withChannel (normalized : Channel) (hencodable : document.encodable = true) :
    ({ document with
        channels := FileNotificationChannelStore.withChannel normalized document.channels } :
      ChannelDocument).encodable = normalized.encodable := by
  have hall : document.channels.all Channel.encodable = true ∧
      fieldsEncodable document.settings = true := by
    simpa [ChannelDocument.encodable] using hencodable
  have hkept : (document.channels.filter fun item =>
      item.channelId ≠ normalized.channelId).all Channel.encodable = true := by
    apply List.all_eq_true.mpr
    intro other hother
    exact List.all_eq_true.mp hall.1 other (List.mem_filter.mp hother).1
  simp only [ChannelDocument.encodable, FileNotificationChannelStore.withChannel,
    List.all_append, hkept, hall.2, List.all_cons, List.all_nil, Bool.and_true, Bool.true_and]

/-- Where no other channel has the name, both stores replace the channel with the
identifier. -/
theorem simulates_withChannel (hsim : Simulates document sqlite)
    (hfree : ¬FileNotificationChannelStore.nameTaken normalized document.channels = true)
    (hencodable : normalized.encodable = true) :
    Simulates
      { document with
        channels := FileNotificationChannelStore.withChannel normalized document.channels }
      { sqlite with rows := insertOrReplace normalized.row sqlite.rows } := by
  have hname : ∀ other ∈ document.channels, other.channelId ≠ normalized.channelId →
      other.name ≠ normalized.name := by
    intro other hother hid hsame
    apply hfree
    exact List.any_eq_true.mpr ⟨other, hother, by simp [hsame, hid]⟩
  have hrows : (insertOrReplace normalized.row sqlite.rows).map rowToChannel =
      (sqlite.rows.map rowToChannel).filter (fun other =>
        other.channelId ≠ normalized.channelId ∧ other.name ≠ normalized.name) ++
        [normalized] := by
    rw [insertOrReplace, List.map_append, List.map_cons, List.map_nil, rowToChannel_row,
      List.filter_map]
    rfl
  have hfilter : document.channels.filter (fun other =>
      other.channelId ≠ normalized.channelId ∧ other.name ≠ normalized.name) =
        document.channels.filter fun other => other.channelId ≠ normalized.channelId := by
    apply List.filter_congr
    intro other hother
    by_cases hid : other.channelId = normalized.channelId
    · simp [hid]
    · simp [hid, hname other hother hid]
  refine ⟨?_, hsim.settings, ?_, ?_, ?_, hsim.broadcast⟩
  · simp only [hrows, FileNotificationChannelStore.withChannel]
    rw [← hfilter]
    exact (hsim.channels.filter _).append_right _
  · apply nodup_filter_append hsim.ids
    simp
  · apply nodup_filter_append hsim.names
    intro other hother hid
    exact hname other hother (by simpa using hid)
  · rw [encodable_withChannel normalized hsim.encodable, hencodable]

end Upsert

/-! ## One call -/

section Step

variable {std : NumberStdlib} {stores : ChannelStores} {document : ChannelDocument}
  {call : ChannelCall}

theorem load_of_document (hdocument : stores.file.document = some document) :
    stores.file.load = .ok document := by
  rw [FileNotificationChannelStore.load, hdocument]

theorem withBroadcast_of_mem {settings : Fields}
    (hbroadcast : py "broadcast_enabled" ∈ settings.keys) : withBroadcast settings = settings := by
  obtain ⟨value, hvalue⟩ :=
    Option.isSome_iff_exists.mp ((Dict.mem_keys_iff settings _).mp hbroadcast)
  rw [withBroadcast, Dict.setDefault, hvalue]

/-- Stores that are in step list the same channels and settings. -/
theorem listings_of_inStep (hstep : stores.InStep) :
    SameOutcome stores.file.listChannels (.ok stores.sqlite.listChannels) ∧
      SameOutcome stores.file.getSettings (.ok stores.sqlite.getSettings) := by
  obtain ⟨document, hdocument, hsim⟩ := hstep
  unfold FileNotificationChannelStore.listChannels FileNotificationChannelStore.getSettings
  rw [load_of_document hdocument]
  constructor
  · exact sortChannels_eq_of_perm hsim.channels hsim.names
  · exact congrArg withBroadcast hsim.settings

/-- The stores agree on the call exactly under the condition, and stay in step then. -/
structure AgreeExactlyIf (std : NumberStdlib) (stores : ChannelStores) (call : ChannelCall)
    (condition : Prop) : Prop where
  iff : AgreeOn std stores call (stores.step std call) ↔ condition
  inStep : AgreeOn std stores call (stores.step std call) → (stores.step std call).InStep

variable {answer : ChannelAnswer} {condition : Prop}

theorem AgreeExactlyIf.congr {other : Prop} (hexact : AgreeExactlyIf std stores call condition)
    (hiff : condition ↔ other) : AgreeExactlyIf std stores call other :=
  ⟨hexact.iff.trans hiff, hexact.inStep⟩

theorem agreeExactlyIf_of_not (hnot : ¬AgreeOn std stores call (stores.step std call))
    (hcondition : ¬condition) : AgreeExactlyIf std stores call condition :=
  ⟨iff_of_false hnot hcondition, fun hagree => absurd hagree hnot⟩

/-- A call that fails in both stores and changes nothing. -/
theorem agreeExactlyIf_of_failures {left right : PyError} (hstep : stores.InStep)
    (hfile : stores.file.perform std call = (.error left, stores.file))
    (hsqlite : stores.sqlite.perform std call = (.error right, stores.sqlite)) :
    AgreeExactlyIf std stores call
      (left = right ∨ (left.isValueError = true ∧ right.isValueError = true)) := by
  have hsame : stores.step std call = stores := by
    rw [ChannelStores.step, hfile, hsqlite]
  refine ⟨?_, fun _ => by rw [hsame]; exact hstep⟩
  rw [hsame]
  constructor
  · intro hagree
    have hanswers := hagree.answers
    rw [hfile, hsqlite] at hanswers
    exact hanswers
  · intro hkind
    obtain ⟨hchannels, hsettings⟩ := listings_of_inStep hstep
    refine ⟨?_, hchannels, hsettings, ?_, ?_⟩
    · rw [hfile, hsqlite]
      exact hkind
    · intro stored listed hanswer
      rw [hfile] at hanswer
      exact absurd hanswer (by simp)
    · intro stored listed hanswer
      rw [hsqlite] at hanswer
      exact absurd hanswer (by simp)

/-- A call that succeeds in both stores. -/
theorem agreeExactlyIf_of_successes {after : ChannelDocument}
    {sqlite : SqliteNotificationChannelStore} (hdocument : stores.file.document = some document)
    (hsim : Simulates document stores.sqlite)
    (hfile : stores.file.perform std call = (.ok answer, { document := some after }))
    (hsqlite : stores.sqlite.perform std call = (.ok answer, sqlite))
    (hafter : Simulates after sqlite)
    (hkeeps : ∀ stored, answer = .channel stored → ∀ other ∈ document.channels,
      other.channelId ≠ stored.channelId → other ∈ after.channels) (hcondition : condition) :
    AgreeExactlyIf std stores call condition := by
  have hnext : stores.step std call = { file := { document := some after }, sqlite := sqlite } := by
    rw [ChannelStores.step, hfile, hsqlite]
  have hstep : (stores.step std call).InStep := by
    rw [hnext]
    exact ⟨after, rfl, hafter⟩
  obtain ⟨hchannels, hsettings⟩ := listings_of_inStep hstep
  refine ⟨iff_of_true ⟨?_, hchannels, hsettings, ?_, ?_⟩ hcondition, fun _ => hstep⟩
  · rw [hfile, hsqlite]
    exact rfl
  · intro stored listed hanswer hlisted
    rw [hfile] at hanswer
    rw [FileNotificationChannelStore.listChannels, load_of_document hdocument] at hlisted
    obtain rfl := Except.ok.inj hlisted
    refine ⟨sortChannels after.channels, by rw [hnext]; rfl, ?_⟩
    intro other hother hid
    rw [mem_sortChannels] at hother ⊢
    exact hkeeps stored (Except.ok.inj hanswer) other hother hid
  · intro stored listed hanswer hlisted
    rw [hsqlite] at hanswer
    obtain rfl := Except.ok.inj hlisted
    refine ⟨sqlite.listChannels, by rw [hnext], ?_⟩
    intro other hother hid
    rw [SqliteNotificationChannelStore.listChannels, mem_sortChannels] at hother ⊢
    apply hafter.channels.mem_iff.mp
    exact hkeeps stored (Except.ok.inj hanswer) other (hsim.channels.mem_iff.mpr hother) hid

/-- Only the SQLite store succeeds. -/
theorem not_agreeOn_of_file_error {raised : PyError} {file : FileNotificationChannelStore}
    {sqlite : SqliteNotificationChannelStore}
    (hfile : stores.file.perform std call = (.error raised, file))
    (hsqlite : stores.sqlite.perform std call = (.ok answer, sqlite)) :
    ¬AgreeOn std stores call (stores.step std call) := by
  intro hagree
  have hanswers := hagree.answers
  rw [hfile, hsqlite] at hanswers
  exact hanswers

/-- Only the file store succeeds. -/
theorem not_agreeOn_of_sqlite_error {raised : PyError} {file : FileNotificationChannelStore}
    {sqlite : SqliteNotificationChannelStore}
    (hfile : stores.file.perform std call = (.ok answer, file))
    (hsqlite : stores.sqlite.perform std call = (.error raised, sqlite)) :
    ¬AgreeOn std stores call (stores.step std call) := by
  intro hagree
  have hanswers := hagree.answers
  rw [hfile, hsqlite] at hanswers
  exact hanswers

/-- A write that fails leaves no document behind. -/
theorem not_agreeOn_of_emptied {answer : Except PyError ChannelAnswer}
    (hfile : stores.file.perform std call = (answer, { document := none })) :
    ¬AgreeOn std stores call (stores.step std call) := by
  intro hagree
  have hchannels := hagree.channels
  rw [ChannelStores.step, hfile] at hchannels
  exact hchannels

/-- Both stores raise, and one of them a `ValueError`. -/
theorem both_valueErrors_iff {left right : PyError} (hright : right.isValueError = true) :
    left = right ∨ (left.isValueError = true ∧ right.isValueError = true) ↔
      left.isValueError = true := by
  constructor
  · rintro (rfl | ⟨hleft, _⟩)
    · exact hright
    · exact hleft
  · exact fun hleft => Or.inr ⟨hleft, hright⟩

section Upsert

variable {channel : Fields} {draw : Draw} {normalized : Channel}

theorem file_upsert (hdocument : stores.file.document = some document) :
    stores.file.perform std (.upsert channel draw) =
      ((stores.file.upsertChannel std channel draw document).1.map .channel,
        (stores.file.upsertChannel std channel draw document).2) := by
  rw [FileNotificationChannelStore.perform, load_of_document hdocument]

theorem sqlite_upsert :
    stores.sqlite.perform std (.upsert channel draw) =
      ((stores.sqlite.upsertChannel std channel draw).1.map .channel,
        (stores.sqlite.upsertChannel std channel draw).2) := rfl

section

variable (hdocument : stores.file.document = some document)
  (hsim : Simulates document stores.sqlite)

include hdocument hsim

/-- The payload is rejected. -/
theorem agreeExactlyIf_rejected {raised : PyError}
    (hrejected : normalizeChannelPayload std channel (found std channel document) draw =
      .error raised) :
    AgreeExactlyIf std stores (.upsert channel draw)
      (Encodable (lookupId std channel) ∨ raised.isValueError = true) := by
  have hfile : stores.file.perform std (.upsert channel draw) = (.error raised, stores.file) := by
    rw [file_upsert hdocument, FileNotificationChannelStore.upsertChannel]
    simp only [hrejected]
    rfl
  have hsqlite : stores.sqlite.perform std (.upsert channel draw) =
      (.error (if Encodable (lookupId std channel) then raised else .unicodeEncodeError),
        stores.sqlite) := by
    rw [sqlite_upsert, sqlite_upsert_of_rejected hsim hrejected]
    rfl
  have hstep : stores.InStep := ⟨document, hdocument, hsim⟩
  apply (agreeExactlyIf_of_failures hstep hfile hsqlite).congr
  by_cases hid : Encodable (lookupId std channel)
  · simp [hid]
  · rw [if_neg hid, both_valueErrors_iff rfl]
    simp [hid]

/-- The name is taken. -/
theorem agreeExactlyIf_taken
    (hnormalize : normalizeChannelPayload std channel (found std channel document) draw =
      .ok normalized)
    (htaken : FileNotificationChannelStore.nameTaken normalized document.channels = true) :
    AgreeExactlyIf std stores (.upsert channel draw)
      (∃ raised, bindError normalized.parameters = some raised ∧ raised.isValueError = true) := by
  have hfile : stores.file.perform std (.upsert channel draw) =
      (.error (.valueError (py "channel name already exists: " ++ normalized.name)),
        stores.file) := by
    rw [file_upsert hdocument, FileNotificationChannelStore.upsertChannel]
    simp only [hnormalize, htaken, if_true]
    rfl
  have hstep : stores.InStep := ⟨document, hdocument, hsim⟩
  cases hbind : bindError normalized.parameters with
  | some raised =>
    have hsqlite : stores.sqlite.perform std (.upsert channel draw) =
        (.error raised, stores.sqlite) := by
      rw [sqlite_upsert, sqlite_upsert_of_bindError hsim hnormalize hbind]
      rfl
    apply (agreeExactlyIf_of_failures hstep hfile hsqlite).congr
    rw [eq_comm, and_comm, both_valueErrors_iff rfl]
    simp
  | none =>
    have hsqlite : stores.sqlite.perform std (.upsert channel draw) =
        (.ok (.channel normalized), { stores.sqlite with
          rows := insertOrReplace normalized.row stores.sqlite.rows }) := by
      rw [sqlite_upsert, sqlite_upsert_of_bound hsim hnormalize hbind]
      rfl
    exact agreeExactlyIf_of_not (not_agreeOn_of_file_error hfile hsqlite) (by simp)

/-- The name is free. -/
theorem agreeExactlyIf_free
    (hnormalize : normalizeChannelPayload std channel (found std channel document) draw =
      .ok normalized)
    (hfree : ¬FileNotificationChannelStore.nameTaken normalized document.channels = true) :
    AgreeExactlyIf std stores (.upsert channel draw)
      (bindError normalized.parameters = none) := by
  have hencodable := encodable_withChannel normalized hsim.encodable
  by_cases hwritable : normalized.encodable = true
  · have hfile : stores.file.perform std (.upsert channel draw) =
        (.ok (.channel normalized), { document := some { document with
          channels :=
            FileNotificationChannelStore.withChannel normalized document.channels } }) := by
      rw [file_upsert hdocument, FileNotificationChannelStore.upsertChannel]
      simp only [hnormalize, if_neg hfree, FileNotificationChannelStore.save, hencodable,
        hwritable, if_true]
      rfl
    cases hbind : bindError normalized.parameters with
    | some raised =>
      have hsqlite : stores.sqlite.perform std (.upsert channel draw) =
          (.error raised, stores.sqlite) := by
        rw [sqlite_upsert, sqlite_upsert_of_bindError hsim hnormalize hbind]
        rfl
      exact agreeExactlyIf_of_not (not_agreeOn_of_sqlite_error hfile hsqlite) (by simp)
    | none =>
      have hsqlite : stores.sqlite.perform std (.upsert channel draw) =
          (.ok (.channel normalized), { stores.sqlite with
            rows := insertOrReplace normalized.row stores.sqlite.rows }) := by
        rw [sqlite_upsert, sqlite_upsert_of_bound hsim hnormalize hbind]
        rfl
      apply agreeExactlyIf_of_successes hdocument hsim hfile hsqlite
        (simulates_withChannel hsim hfree hwritable) _ rfl
      intro stored hstored other hother hid
      obtain rfl := ChannelAnswer.channel.inj hstored
      exact List.mem_append_left _ (List.mem_filter.mpr ⟨hother, by simpa using hid⟩)
  · have hfile : stores.file.perform std (.upsert channel draw) =
        (.error .unicodeEncodeError, { document := none }) := by
      rw [file_upsert hdocument, FileNotificationChannelStore.upsertChannel]
      simp only [hnormalize, if_neg hfree, FileNotificationChannelStore.save, hencodable,
        if_neg hwritable]
      rfl
    apply agreeExactlyIf_of_not (not_agreeOn_of_emptied hfile)
    intro hbind
    exact hwritable (bindError_parameters_eq_none_iff.mp hbind).1

theorem agreeExactlyIf_upsert :
    AgreeExactlyIf std stores (.upsert channel draw)
      (UpsertHarmless std document channel draw) := by
  unfold UpsertHarmless
  cases hnormalize : normalizeChannelPayload std channel (found std channel document) draw with
  | error raised =>
    simp only
    exact agreeExactlyIf_rejected hdocument hsim hnormalize
  | ok normalized =>
    simp only
    by_cases htaken : FileNotificationChannelStore.nameTaken normalized
        document.channels = true
    · rw [if_pos htaken]
      exact agreeExactlyIf_taken hdocument hsim hnormalize htaken
    · rw [if_neg htaken]
      exact agreeExactlyIf_free hdocument hsim hnormalize htaken

end

end Upsert

/-- Deleting a channel by an identifier that cannot be bound fails in one store only. -/
theorem agreeExactlyIf_delete {channelId : PyStr} (hdocument : stores.file.document = some document)
    (hsim : Simulates document stores.sqlite) :
    AgreeExactlyIf std stores (.delete channelId) (Encodable channelId) := by
  have hall : document.channels.all Channel.encodable = true ∧
      fieldsEncodable document.settings = true := by
    simpa [ChannelDocument.encodable] using hsim.encodable
  have hencodable : ({ document with
      channels := document.channels.filter fun item => item.channelId ≠ channelId } :
        ChannelDocument).encodable = true := by
    rw [ChannelDocument.encodable, hall.2, Bool.and_true]
    apply List.all_eq_true.mpr
    intro other hother
    exact List.all_eq_true.mp hall.1 other (List.mem_filter.mp hother).1
  have hfile : stores.file.perform std (.delete channelId) =
      (.ok .done, { document := some { document with
        channels := document.channels.filter fun item => item.channelId ≠ channelId } }) := by
    rw [FileNotificationChannelStore.perform, load_of_document hdocument]
    simp only [FileNotificationChannelStore.save, hencodable, if_true]
    rfl
  by_cases hid : Encodable channelId
  · have hsqlite : stores.sqlite.perform std (.delete channelId) =
        (.ok .done, { stores.sqlite with
          rows := stores.sqlite.rows.filter fun row => row.channelId ≠ channelId }) := by
      simp [SqliteNotificationChannelStore.perform, bindError, SqlParameter.bindError, hid]
    apply agreeExactlyIf_of_successes hdocument hsim hfile hsqlite _ (by simp) hid
    refine ⟨?_, hsim.settings, ?_, ?_, hencodable, hsim.broadcast⟩
    · have hrows : (stores.sqlite.rows.filter fun row => row.channelId ≠ channelId).map
          rowToChannel = (stores.sqlite.rows.map rowToChannel).filter fun item =>
            item.channelId ≠ channelId := by
        rw [List.filter_map]
        rfl
      rw [hrows]
      exact hsim.channels.filter _
    · exact hsim.ids.sublist (List.filter_sublist.map _)
    · exact hsim.names.sublist (List.filter_sublist.map _)
  · have hsqlite : stores.sqlite.perform std (.delete channelId) =
        (.error .unicodeEncodeError, stores.sqlite) := by
      simp [SqliteNotificationChannelStore.perform, bindError, SqlParameter.bindError, hid]
    exact agreeExactlyIf_of_not (not_agreeOn_of_sqlite_error hfile hsqlite) hid

theorem agreeExactlyIf_updateSettings {patch : Fields}
    (hdocument : stores.file.document = some document) (hsim : Simulates document stores.sqlite) :
    AgreeExactlyIf std stores (.updateSettings patch)
      (fieldsEncodable (document.settings.update patch) = true) := by
  have hall : document.channels.all Channel.encodable = true ∧
      fieldsEncodable document.settings = true := by
    simpa [ChannelDocument.encodable] using hsim.encodable
  have hencodable : ({ document with settings := document.settings.update patch } :
      ChannelDocument).encodable = fieldsEncodable (document.settings.update patch) := by
    rw [ChannelDocument.encodable, hall.1, Bool.true_and]
  have hsettings : stores.sqlite.getSettings = document.settings := by
    rw [SqliteNotificationChannelStore.getSettings, ← hsim.settings,
      withBroadcast_of_mem hsim.broadcast]
  by_cases hwritable : fieldsEncodable (document.settings.update patch) = true
  · have hfile : stores.file.perform std (.updateSettings patch) =
        (.ok (.settings (document.settings.update patch)),
          { document := some
              { document with settings := document.settings.update patch } }) := by
      rw [FileNotificationChannelStore.perform, load_of_document hdocument]
      simp only [FileNotificationChannelStore.save, hencodable, hwritable, if_true]
      rfl
    have hsqlite : stores.sqlite.perform std (.updateSettings patch) =
        (.ok (.settings (document.settings.update patch)),
          { stores.sqlite with settings := document.settings.update patch }) := by
      simp [SqliteNotificationChannelStore.perform, bindError, SqlParameter.bindError,
        hsettings, hwritable]
    apply agreeExactlyIf_of_successes hdocument hsim hfile hsqlite _ (by simp) hwritable
    refine ⟨hsim.channels, rfl, hsim.ids, hsim.names, hencodable.trans hwritable, ?_⟩
    exact (Dict.mem_keys_update _ _ _).mpr (Or.inl hsim.broadcast)
  · have hfile : stores.file.perform std (.updateSettings patch) =
        (.error .unicodeEncodeError, { document := none }) := by
      rw [FileNotificationChannelStore.perform, load_of_document hdocument]
      simp only [FileNotificationChannelStore.save, hencodable, if_neg hwritable]
      rfl
    exact agreeExactlyIf_of_not (not_agreeOn_of_emptied hfile) hwritable

theorem agreeExactlyIf_harmless (std : NumberStdlib) (call : ChannelCall) (hstep : stores.InStep) :
    AgreeExactlyIf std stores call (Harmless std stores call) := by
  obtain ⟨document, hdocument, hsim⟩ := hstep
  cases call with
  | upsert channel draw =>
    apply (agreeExactlyIf_upsert hdocument hsim).congr
    simp only [Harmless, hdocument, Option.mem_some_iff, forall_eq']
  | delete channelId => exact agreeExactlyIf_delete hdocument hsim
  | updateSettings patch =>
    apply (agreeExactlyIf_updateSettings hdocument hsim).congr
    simp only [Harmless, hdocument, Option.mem_some_iff, forall_eq']

end Step

/-! ## Runs of both stores -/

theorem inStep_new : ChannelStores.new.InStep := by
  refine ⟨_, rfl, ?_⟩
  exact ⟨List.Perm.refl _, rfl, List.nodup_nil, List.nodup_nil, by decide, by decide⟩

/-- The stores agree on every call of a run exactly when every call is harmless. -/
theorem stores_agree_iff {std : NumberStdlib} {trace : Trace ChannelStores ChannelCall}
    (hruns : ChannelRuns std .new trace) :
    Follows (AgreeOn std) .new trace ↔ Guarded (Harmless std) .new trace := by
  apply follows_iff_guarded_of_inv ChannelStores.InStep hruns inStep_new
  rintro stores call _ hstep rfl
  have hexact := agreeExactlyIf_harmless std call hstep
  exact ⟨hexact.iff, hexact.inStep⟩

/-! ## Two channels -/

def channelPayload (channelId name : String) : Fields :=
  [(py "channel_id", .str (py channelId)), (py "name", .str (py name)),
    (py "endpoint_url", .str (py "https://example.invalid/hook"))]

def firstDraw : Draw where
  uuid := py "0"
  now := py "2026-01-01T00:00:00+00:00"

/-- The states that these calls pass from new stores. -/
def channelTrace (calls : List ChannelCall) : Trace ChannelStores ChannelCall :=
  history (ChannelStores.step numberStdlib) .new calls

/-- A channel is stored, renamed and found again by its new name. -/
def renamedChannel : List ChannelCall :=
  [.upsert (channelPayload "a" "ops") firstDraw, .upsert (channelPayload "a" "oncall") firstDraw,
    .upsert (channelPayload "" "oncall") firstDraw,
    .updateSettings [(py "broadcast_enabled", .bool false)], .delete (py "a")]

theorem renamedChannel_agrees :
    Follows (AgreeOn numberStdlib) .new (channelTrace renamedChannel) := by
  apply (stores_agree_iff (follows_history _ _ _)).mpr
  refine ⟨?_, ?_, ?_, ?_, encodable_py "a", trivial⟩
  · intro document hdocument
    obtain rfl := Option.some.inj hdocument
    exact upsertHarmless_of_bound rfl rfl rfl
  · intro document hdocument
    obtain rfl := Option.some.inj hdocument
    exact upsertHarmless_of_bound rfl rfl rfl
  · intro document hdocument
    obtain rfl := Option.some.inj hdocument
    exact upsertHarmless_of_bound rfl rfl rfl
  · intro document hdocument
    obtain rfl := Option.some.inj hdocument
    rfl

/-- A second channel is given the name of the first. -/
def nameTakenTwice : List ChannelCall :=
  [.upsert (channelPayload "a" "ops") firstDraw, .upsert (channelPayload "b" "ops") firstDraw]

theorem nameTakenTwice_disagrees :
    ChannelRuns numberStdlib .new (channelTrace nameTakenTwice) ∧
      ¬Follows (AgreeOn numberStdlib) .new (channelTrace nameTakenTwice) := by
  refine ⟨follows_history _ _ _, ?_⟩
  intro hfollows
  exact hfollows.2.1.answers

end RootSeeker.Storage
