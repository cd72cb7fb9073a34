import RootSeeker.Core.KeyedList
import RootSeeker.Storage.CheckpointStores

/-!
# When the checkpoint stores agree

The two stores hold the same checkpoints, but they list them in opposite orders
and do not filter alike.
-/

namespace RootSeeker.Storage

open Python Contracts

variable {τ : Type} [LinearOrder τ] {format : UtcFormat τ} {json : SqliteJson}
  {log : List (FlowCheckpointRecord τ)}

/-- Calls of the two stores that read. -/
inductive CheckpointQuery where
  | get (flowRunId : PyStr)
  | list (query : ListRecords)

/-- Both stores after the same calls of `save`. -/
structure CheckpointStores (τ : Type) where
  memory : FlowCheckpointStore τ
  sqlite : SqliteCheckpointStore

def CheckpointStores.new : CheckpointStores τ where
  memory := .new
  sqlite := .new

def CheckpointStores.save (format : UtcFormat τ) (stores : CheckpointStores τ)
    (call : Save τ) : CheckpointStores τ where
  memory := stores.memory.save call
  sqlite := stores.sqlite.save format call

def CheckpointStores.after (format : UtcFormat τ) (saves : List (Save τ)) :
    CheckpointStores τ :=
  saves.foldl (CheckpointStores.save format) .new

def contents (record : FlowCheckpointRecord τ) : Fields × ℕ :=
  (record.payload, record.revision)

/-- The stores return the same. -/
def CheckpointStores.Agree (format : UtcFormat τ) (json : SqliteJson)
    (stores : CheckpointStores τ) : CheckpointQuery → Prop
  | .get flowRunId =>
    (stores.sqlite.getRecord format flowRunId).map (Option.map contents) =
      .ok ((stores.memory.getRecord flowRunId).map contents)
  | .list query =>
    stores.sqlite.listRecords format json query = .ok (stores.memory.listRecords query)

/-! ## The checkpoints that a history leaves -/

/-- A save drops the older checkpoint of its run. -/
def logged (log : List (FlowCheckpointRecord τ)) (call : Save τ) :
    List (FlowCheckpointRecord τ) :=
  log.filter (fun record => record.flowRunId ≠ call.flowRunId) ++
    [{ flowRunId := call.flowRunId
       revision := (log.find? fun record => record.flowRunId = call.flowRunId).elim 1
        fun found => found.revision + 1
       payload := call.payload
       updatedAt := call.now }]

/-- The last checkpoint of every run, in the order of their times. -/
def checkpointLog (saves : List (Save τ)) : List (FlowCheckpointRecord τ) :=
  saves.foldl logged []

/-- What the store in memory lists. -/
def wanted (query : ListRecords) (record : FlowCheckpointRecord τ) : Bool :=
  (query.caseId.elim true fun caseId => hasText record.payload "case_id" caseId) &&
    query.status.elim true fun status => hasText record.payload "status" status

/-- What the SQLite store lists: a run whose identifier cannot be encoded is not stored. -/
def selected (json : SqliteJson) (query : ListRecords) (record : FlowCheckpointRecord τ) :
    Bool :=
  Encodable record.flowRunId && SqliteCheckpointStore.selects json query record.payload

/-- The number of checkpoints that a limit leaves. -/
def window (limit : ℤ) : Option ℕ :=
  if 0 < limit then some limit.toNat else none

/-- The filters can be bound, the limit is a 64-bit integer, and the window shows neither
the order nor a checkpoint that only one of the stores takes to match. -/
structure ListsAlike (json : SqliteJson) (log : List (FlowCheckpointRecord τ))
    (query : ListRecords) : Prop where
  bound : bindError (SqliteCheckpointStore.parameters query) = none
  limit : query.limit < 2 ^ 63
  window : Windows.Indistinct FlowCheckpointRecord.updatedAt (window query.limit)
    (wanted query) (selected json query) log

def AnswersAlike (json : SqliteJson) (log : List (FlowCheckpointRecord τ)) :
    CheckpointQuery → Prop
  | .get flowRunId => Encodable flowRunId
  | .list query => ListsAlike json log query

/-! ## What the stores hold -/

def checkpointRow (format : UtcFormat τ) (record : FlowCheckpointRecord τ) : CheckpointRow where
  flowRunId := record.flowRunId
  revision := record.revision
  payload := record.payload
  updatedAt := format.isoformat record.updatedAt

@[simp]
theorem record_checkpointRow (format : UtcFormat τ) (record : FlowCheckpointRecord τ) :
    SqliteCheckpointStore.record format (checkpointRow format record) = record := by
  rw [SqliteCheckpointStore.record, checkpointRow, format.fromisoformat_isoformat]

/-- The stores hold the checkpoints of the log. -/
structure Hold (format : UtcFormat τ) (log : List (FlowCheckpointRecord τ))
    (stores : CheckpointStores τ) : Prop where
  ascending : Windows.Ascending FlowCheckpointRecord.updatedAt log
  keys : ∀ entry ∈ stores.memory.items, entry.2.flowRunId = entry.1
  nodup : stores.memory.items.keys.Nodup
  memory : (stores.memory.items.map Prod.snd).Perm log
  sqlite : stores.sqlite.rows =
    (log.filter fun record => Encodable record.flowRunId).map (checkpointRow format)

theorem hold_new : Hold format ([] : List (FlowCheckpointRecord τ)) .new where
  ascending := List.Pairwise.nil
  keys := by simp [CheckpointStores.new, FlowCheckpointStore.new]
  nodup := List.nodup_nil
  memory := List.Perm.refl []
  sqlite := rfl

section Hold

variable {stores : CheckpointStores τ} (hhold : Hold format log stores)

include hhold

theorem Hold.nodup_log : (log.map FlowCheckpointRecord.flowRunId).Nodup := by
  have hkeys : (stores.memory.items.map Prod.snd).map FlowCheckpointRecord.flowRunId =
      stores.memory.items.keys := by
    rw [List.map_map]
    exact List.map_congr_left hhold.keys
  exact ((hhold.memory.map _).nodup_iff.mp (hkeys ▸ hhold.nodup))

theorem Hold.getRecord_memory (flowRunId : PyStr) :
    stores.memory.getRecord flowRunId = log.find? fun record => record.flowRunId = flowRunId := by
  apply Option.ext
  intro record
  rw [KeyedList.find?_eq_some_iff hhold.nodup_log, ← hhold.memory.mem_iff, List.mem_map]
  constructor
  · intro hget
    have hmem := Dict.mem_of_get? hget
    exact ⟨⟨_, hmem, rfl⟩, hhold.keys _ hmem⟩
  · rintro ⟨⟨entry, hmem, rfl⟩, hkey⟩
    obtain rfl : entry.1 = flowRunId := (hhold.keys entry hmem).symm.trans hkey
    exact Dict.get?_of_mem hhold.nodup hmem

theorem Hold.find?_sqlite {flowRunId : PyStr} (hencodable : Encodable flowRunId) :
    (stores.sqlite.rows.find? fun row => row.flowRunId = flowRunId).map
        (SqliteCheckpointStore.record format) =
      log.find? fun record => record.flowRunId = flowRunId := by
  have hsame : (fun record : FlowCheckpointRecord τ =>
      decide (decide (Encodable record.flowRunId) = true ∧
        decide (record.flowRunId = flowRunId) = true)) =
        fun record => decide (record.flowRunId = flowRunId) := by
    funext record
    by_cases hrecord : record.flowRunId = flowRunId
    · simp [hrecord, hencodable]
    · simp [hrecord]
  have hrow : (fun row : CheckpointRow => decide (row.flowRunId = flowRunId)) ∘
      checkpointRow format = fun record => decide (record.flowRunId = flowRunId) := rfl
  have hread : SqliteCheckpointStore.record format ∘ checkpointRow format = id :=
    funext (record_checkpointRow format)
  rw [hhold.sqlite, List.find?_map, hrow, List.find?_filter, hsame, Option.map_map, hread,
    Option.map_id, id]

theorem Hold.getRecord_sqlite {flowRunId : PyStr} (hencodable : Encodable flowRunId) :
    stores.sqlite.getRecord format flowRunId =
      .ok (log.find? fun record => record.flowRunId = flowRunId) := by
  have hbound : bindError [.text flowRunId] = none := by
    simp [bindError, SqlParameter.bindError, hencodable]
  rw [SqliteCheckpointStore.getRecord, hbound]
  exact congrArg Except.ok (hhold.find?_sqlite hencodable)

theorem Hold.save_memory (call : Save τ) :
    ((stores.memory.save call).items.map Prod.snd).Perm (logged log call) := by
  have hexisting := hhold.getRecord_memory call.flowRunId
  have hvalues : ((stores.memory.items.filterKeys fun key => key ≠ call.flowRunId).map
      Prod.snd).Perm (log.filter fun record => record.flowRunId ≠ call.flowRunId) := by
    have hfilter : stores.memory.items.filterKeys (fun key => key ≠ call.flowRunId) =
        stores.memory.items.filter
          ((fun record => decide (record.flowRunId ≠ call.flowRunId)) ∘ Prod.snd) := by
      apply List.filter_congr
      intro entry hentry
      rw [Function.comp_apply, hhold.keys entry hentry]
    rw [hfilter, ← List.filter_map]
    exact hhold.memory.filter _
  have hset := (Dict.set_perm hhold.nodup call.flowRunId
    (FlowCheckpointRecord.mk call.flowRunId
      ((log.find? fun record => record.flowRunId = call.flowRunId).elim 1
        fun found => found.revision + 1) call.payload call.now)).map Prod.snd
  rw [List.map_append] at hset
  rw [FlowCheckpointStore.getRecord] at hexisting
  have hsaved : (stores.memory.save call).items = stores.memory.items.set call.flowRunId
      ⟨call.flowRunId, (log.find? fun record => record.flowRunId = call.flowRunId).elim 1
        fun found => found.revision + 1, call.payload, call.now⟩ := by
    rw [FlowCheckpointStore.save, ← hexisting]
    cases stores.memory.items.get? call.flowRunId <;> rfl
  rw [hsaved]
  exact hset.trans (hvalues.append_right _)

theorem Hold.save_sqlite (call : Save τ) :
    (stores.sqlite.save format call).rows =
      ((logged log call).filter fun record => Encodable record.flowRunId).map
        (checkpointRow format) := by
  have hkept : ((log.filter fun record => record.flowRunId ≠ call.flowRunId).filter
      fun record => Encodable record.flowRunId).map (checkpointRow format) =
        stores.sqlite.rows.filter fun row => row.flowRunId ≠ call.flowRunId := by
    rw [hhold.sqlite, List.filter_map, List.filter_filter, List.filter_filter]
    apply congrArg
    apply List.filter_congr
    intro record _
    exact Bool.and_comm _ _
  by_cases hencodable : Encodable call.flowRunId
  · rw [SqliteCheckpointStore.save, hhold.getRecord_sqlite hencodable, logged,
      List.filter_append, List.map_append, hkept, List.filter_cons_of_pos (by simpa)]
    rfl
  · have hbound : bindError [.text call.flowRunId] = some .unicodeEncodeError := by
      simp [bindError, SqlParameter.bindError, hencodable]
    have hsave : stores.sqlite.save format call = stores.sqlite := by
      rw [SqliteCheckpointStore.save, SqliteCheckpointStore.getRecord, hbound]
    have hnone : stores.sqlite.rows.filter (fun row => row.flowRunId ≠ call.flowRunId) =
        stores.sqlite.rows := by
      apply List.filter_eq_self.mpr
      intro row hrow
      rw [hhold.sqlite] at hrow
      obtain ⟨record, hrecord, rfl⟩ := List.mem_map.mp hrow
      have hother : Encodable record.flowRunId := by
        simpa using (List.mem_filter.mp hrecord).2
      rw [decide_eq_true_eq]
      intro hsame
      exact hencodable (hsame ▸ hother)
    rw [hsave, logged, List.filter_append, List.map_append, hkept, hnone,
      List.filter_cons_of_neg (by simpa)]
    exact (List.append_nil _).symm

/-- A save at a later time keeps what the stores hold in step. -/
theorem Hold.save {call : Save τ} (hlater : ∀ record ∈ log, record.updatedAt < call.now) :
    Hold format (logged log call) (stores.save format call) where
  ascending := by
    apply List.pairwise_append.mpr
    refine ⟨hhold.ascending.filter _, List.pairwise_singleton _ _, ?_⟩
    intro record hrecord added hadded
    rw [List.mem_singleton.mp hadded]
    exact hlater record (List.mem_filter.mp hrecord).1
  keys := Dict.forall_mem_set
    (fun entry : PyStr × FlowCheckpointRecord τ => entry.2.flowRunId = entry.1) hhold.keys rfl
  nodup := Dict.nodup_keys_set hhold.nodup _ _
  memory := hhold.save_memory call
  sqlite := hhold.save_sqlite call

end Hold

/-- After saves at increasing times the stores hold the last checkpoint of every run. -/
theorem hold_after {saves : List (Save τ)} (htimes : Windows.Ascending Save.now saves) :
    Hold format (checkpointLog saves) (.after format saves) := by
  have hall : ∀ {log : List (FlowCheckpointRecord τ)} {stores : CheckpointStores τ},
      Hold format log stores →
        (∀ record ∈ log, ∀ call ∈ saves, record.updatedAt < call.now) →
          Hold format (saves.foldl logged log)
            (saves.foldl (CheckpointStores.save format) stores) := by
    induction saves with
    | nil => exact fun hhold _ => hhold
    | cons call saves ih =>
      intro log stores hhold hlater
      have hfirst : ∀ later ∈ saves, call.now < later.now :=
        fun _ hmem => List.rel_of_pairwise_cons htimes hmem
      apply ih (List.Pairwise.of_cons htimes)
        (hhold.save fun record hrecord => hlater record hrecord call List.mem_cons_self)
      intro record hrecord later hmem
      rw [logged, List.mem_append, List.mem_singleton] at hrecord
      cases hrecord with
      | inl hkept =>
        exact hlater record (List.mem_filter.mp hkept).1 later (List.mem_cons_of_mem _ hmem)
      | inr hnew =>
        rw [hnew]
        exact hfirst later hmem
  exact hall hold_new (by simp)

/-! ## What the stores answer -/

omit [LinearOrder τ] in
theorem slice_eq (limit : ℤ) (items : List (FlowCheckpointRecord τ)) :
    (if limit < 0 then items else sliceFrom (-limit) items) =
      (Windows.cut (window limit) items.reverse).reverse := by
  by_cases hpos : 0 < limit
  · rw [if_neg (by omega), window, if_pos hpos, Windows.cut, Option.elim_some,
      List.reverse_take, List.reverse_reverse, List.length_reverse, sliceFrom,
      if_pos (by omega)]
    congr 1
    omega
  · rw [window, if_neg hpos, Windows.cut, Option.elim_none, List.reverse_reverse]
    split
    · rfl
    · rw [sliceFrom, if_neg (by omega)]
      have hzero : (-limit).toNat = 0 := by omega
      rw [hzero, List.drop_zero]

section Answers

variable {stores : CheckpointStores τ} (hhold : Hold format log stores)

include hhold

theorem Hold.listRecords_memory (query : ListRecords) :
    stores.memory.listRecords query =
      Windows.oldestFirst (window query.limit) (wanted query) log := by
  have hfilters : ∀ records : List (FlowCheckpointRecord τ),
      (query.status.elim
        (query.caseId.elim records fun caseId =>
          records.filter fun record => hasText record.payload "case_id" caseId)
        fun status =>
          (query.caseId.elim records fun caseId =>
            records.filter fun record => hasText record.payload "case_id" caseId).filter
              fun record => hasText record.payload "status" status) =
        records.filter (wanted query) := by
    intro records
    unfold wanted
    cases query.caseId <;> cases query.status <;> simp [List.filter_filter, Bool.and_comm]
  rw [FlowCheckpointStore.listRecords, hfilters,
    Windows.insertionSort_eq_of_ascending (hhold.memory.filter _) (hhold.ascending.filter _),
    slice_eq]
  rfl

theorem Hold.listRecords_sqlite {query : ListRecords}
    (hbound : bindError (SqliteCheckpointStore.parameters query) = none)
    (hlimit : query.limit < 2 ^ 63) :
    stores.sqlite.listRecords format json query =
      .ok (Windows.newestFirst (window query.limit) (selected json query) log) := by
  have hrows : stores.sqlite.rows.filter
      (fun row => SqliteCheckpointStore.selects json query row.payload) =
        (log.filter (selected json query)).map (checkpointRow format) := by
    rw [hhold.sqlite, List.filter_map, List.filter_filter]
    apply congrArg
    apply List.filter_congr
    intro record _
    exact Bool.and_comm _ _
  have hkept := (hhold.ascending.filter (selected json query)).comp format.isoformat_strictMono
  have hascending : Windows.Ascending CheckpointRow.updatedAt
      ((log.filter (selected json query)).map (checkpointRow format)) :=
    List.pairwise_map.mpr hkept
  have hsort : ((log.filter (selected json query)).map (checkpointRow format)).insertionSort
      (fun left right => right.updatedAt ≤ left.updatedAt) =
        ((log.filter (selected json query)).map (checkpointRow format)).reverse :=
    Windows.insertionSort_eq_of_ascending (List.reverse_perm _).symm hascending.reverse
  have hread : SqliteCheckpointStore.record format ∘ checkpointRow format = id :=
    funext (record_checkpointRow format)
  rw [SqliteCheckpointStore.listRecords, hbound, Option.none_or,
    SqliteCheckpointStore.limitError, if_pos hlimit, hrows]
  apply congrArg Except.ok
  rw [hsort, Windows.newestFirst, window, ← List.map_reverse]
  split
  · rw [← List.map_take, List.map_map, hread, List.map_id]
    rfl
  · rw [List.map_map, hread, List.map_id]
    rfl

theorem Hold.agree_list_iff (query : ListRecords) :
    stores.Agree format json (.list query) ↔ ListsAlike json log query := by
  have hzero : window query.limit ≠ some 0 := by
    rw [window]
    split
    · rw [ne_eq, Option.some.injEq]
      omega
    · exact Option.some_ne_none 0 |>.symm
  rw [CheckpointStores.Agree, hhold.listRecords_memory]
  by_cases hfine : bindError (SqliteCheckpointStore.parameters query) = none ∧
      query.limit < 2 ^ 63
  · obtain ⟨hbound, hlimit⟩ := hfine
    rw [hhold.listRecords_sqlite hbound hlimit, Except.ok.injEq, eq_comm,
      Windows.oldestFirst_eq_newestFirst_iff hhold.ascending hzero]
    exact ⟨fun hwindow => ⟨hbound, hlimit, hwindow⟩, fun halike => halike.window⟩
  · apply iff_of_false
    · have hraised : ∃ raised, (bindError (SqliteCheckpointStore.parameters query)).or
          (SqliteCheckpointStore.limitError query.limit) = some raised := by
        rw [← Option.ne_none_iff_exists', ne_eq, Option.or_eq_none_iff,
          SqliteCheckpointStore.limitError]
        simpa using hfine
      obtain ⟨raised, hraised⟩ := hraised
      rw [SqliteCheckpointStore.listRecords, hraised]
      simp
    · exact fun halike => hfine ⟨halike.bound, halike.limit⟩

theorem Hold.agree_get_iff (flowRunId : PyStr) :
    stores.Agree format json (.get flowRunId) ↔ Encodable flowRunId := by
  rw [CheckpointStores.Agree, hhold.getRecord_memory]
  by_cases hencodable : Encodable flowRunId
  · rw [hhold.getRecord_sqlite hencodable]
    exact iff_of_true rfl hencodable
  · have hbound : bindError [.text flowRunId] = some .unicodeEncodeError := by
      simp [bindError, SqlParameter.bindError, hencodable]
    rw [SqliteCheckpointStore.getRecord, hbound]
    exact iff_of_false (by simp [Except.map]) hencodable

end Answers

/-- After any saves at increasing times, a query gets the same answer from both stores
exactly when the checkpoints in its window do not tell them apart. -/
theorem checkpoint_stores_agree_iff (format : UtcFormat τ) (json : SqliteJson)
    {saves : List (Save τ)} (htimes : Windows.Ascending Save.now saves) (query : CheckpointQuery) :
    (CheckpointStores.after format saves).Agree format json query ↔
      AnswersAlike json (checkpointLog saves) query := by
  have hhold : Hold format (checkpointLog saves) (.after format saves) := hold_after htimes
  cases query with
  | get flowRunId => exact hhold.agree_get_iff flowRunId
  | list query => exact hhold.agree_list_iff query

/-! ## Two flow runs of one case -/

/-- Instants that are given by their texts. -/
def textFormat : UtcFormat PyStr where
  isoformat := id
  fromisoformat := id
  fromisoformat_isoformat _ := rfl
  isoformat_strictMono := strictMono_id

def noJsonText : SqliteJson where
  text _ := []

def checkpointOf (flowRunId caseId now : String) : Save PyStr where
  flowRunId := py flowRunId
  payload := [(py "case_id", .str (py caseId)), (py "status", .str (py "completed"))]
  now := py now

def twoFlowRuns : List (Save PyStr) :=
  [checkpointOf "run-1" "case-1" "2024-01-01T00:00:00+00:00",
    checkpointOf "run-2" "case-1" "2024-01-01T00:00:01+00:00"]

/-- The latest checkpoint of a case. -/
def latestOf (caseId : String) : ListRecords where
  caseId := some (py caseId)
  status := none
  limit := 1

/-- `list_records()`. -/
def allRecords : ListRecords where
  caseId := none
  status := none
  limit := 200

theorem latest_agrees :
    (CheckpointStores.after textFormat twoFlowRuns).Agree textFormat noJsonText
      (.list (latestOf "case-1")) := by
  have htimes : Windows.Ascending Save.now twoFlowRuns := by
    apply List.pairwise_pair.mpr
    decide
  apply (checkpoint_stores_agree_iff textFormat noJsonText htimes _).mpr
  refine ⟨rfl, by decide, ?_⟩
  rw [Windows.Indistinct, if_pos (by decide)]
  intro record hrecord hdiffer
  exact absurd ((by decide : ∀ record ∈ checkpointLog twoFlowRuns,
    wanted (latestOf "case-1") record = selected noJsonText (latestOf "case-1") record)
      record hrecord) hdiffer

/-- With the default limit one store lists the older run first, the other the newer. -/
theorem default_listing_disagrees :
    Windows.Ascending Save.now twoFlowRuns ∧
      ¬(CheckpointStores.after textFormat twoFlowRuns).Agree textFormat noJsonText
        (.list allRecords) := by
  constructor
  · exact List.pairwise_pair.mpr (by decide)
  · intro hagree
    have hids := congrArg (fun answer => answer.toOption.map
      (List.map FlowCheckpointRecord.flowRunId)) hagree
    have hdiffer : ((CheckpointStores.after textFormat twoFlowRuns).sqlite.listRecords textFormat
        noJsonText allRecords).toOption.map (List.map FlowCheckpointRecord.flowRunId) ≠
          some (((CheckpointStores.after textFormat twoFlowRuns).memory.listRecords
            allRecords).map FlowCheckpointRecord.flowRunId) := by
      decide
    exact absurd hids hdiffer

end RootSeeker.Storage
