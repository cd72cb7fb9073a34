import RootSeeker.Contracts.Common
import RootSeeker.Core.DictUpdate
import RootSeeker.Core.Transition

/-!
# Replay history on disk

`SqliteReplayHistoryStore` changes its memory first and its tables after that, and a
store that is opened later reads its memory from the tables.
-/

namespace RootSeeker.Storage

open Python Contracts Transition

/-- A fixture; the stores do not look into the other fields. -/
structure ReplayCaseSpec (β : Type) where
  replayId : RequiredStr
  body : β

structure ReplayRunSnapshot (ρ : Type) where
  replayId : RequiredStr
  runId : RequiredStr
  body : ρ

structure ReplayHistory (β ρ : Type) where
  case : ReplayCaseSpec β
  runs : List (ReplayRunSnapshot ρ)

/-- `model_dump_json`, which may refuse a value, and `model_validate_json`. -/
structure ReplayCodec (β ρ : Type) where
  dumpCase : ReplayCaseSpec β → Option PyStr
  loadCase : PyStr → Option (ReplayCaseSpec β)
  dumpRun : ReplayRunSnapshot ρ → Option PyStr
  loadRun : PyStr → Option (ReplayRunSnapshot ρ)

/-- The histories of the cases under their ids. -/
abbrev ReplayStore (β ρ : Type) := Dict PyStr (ReplayHistory β ρ)

variable {β ρ : Type}

/-! ## The store in memory -/

namespace ReplayStore

def upsertCase (store : ReplayStore β ρ) (case : ReplayCaseSpec β) : ReplayStore β ρ :=
  match store.get? case.replayId.val with
  | none => store.set case.replayId.val ⟨case, []⟩
  | some history => store.set case.replayId.val { history with case := case }

/-- `none` stands for `ValueError`. -/
def addRun (store : ReplayStore β ρ) (run : ReplayRunSnapshot ρ) : Option (ReplayStore β ρ) :=
  (store.get? run.replayId.val).map fun history =>
    store.set run.replayId.val { history with runs := history.runs ++ [run] }

def listCases (store : ReplayStore β ρ) : List (ReplayCaseSpec β) :=
  store.map fun entry => entry.2.case

def getCase (store : ReplayStore β ρ) (replayId : PyStr) : Option (ReplayCaseSpec β) :=
  (store.get? replayId).map ReplayHistory.case

def getRuns (store : ReplayStore β ρ) (replayId : PyStr) : List (ReplayRunSnapshot ρ) :=
  (store.get? replayId).elim [] ReplayHistory.runs

end ReplayStore

/-- The two stores answer every question in the same way. -/
structure SameHistory (left right : ReplayStore β ρ) : Prop where
  listCases : left.listCases = right.listCases
  getCase : ∀ replayId, left.getCase replayId = right.getCase replayId
  getRuns : ∀ replayId, left.getRuns replayId = right.getRuns replayId

theorem SameHistory.refl (store : ReplayStore β ρ) : SameHistory store store :=
  ⟨rfl, fun _ => rfl, fun _ => rfl⟩

/-! ## The tables -/

/-- The rows of both tables in the order of their rowids, each after its primary key. -/
structure ReplayDatabase where
  cases : List (PyStr × PyStr)
  runs : List (PyStr × PyStr × PyStr)

/-- `INSERT OR REPLACE`: the old row is deleted and the new one becomes the last. -/
def insertOrReplaceRow {γ : Type} (rows : List (PyStr × γ)) (key : PyStr) (columns : γ) :
    List (PyStr × γ) :=
  rows.filter (·.1 ≠ key) ++ [(key, columns)]

section Hydrate

variable (codec : ReplayCodec β ρ)

def hydrateCase (store : ReplayStore β ρ) (row : PyStr × PyStr) : Option (ReplayStore β ρ) :=
  (codec.loadCase row.2).map fun case => store.set case.replayId.val ⟨case, []⟩

def hydrateRun (store : ReplayStore β ρ) (row : PyStr × PyStr × PyStr) :
    Option (ReplayStore β ρ) :=
  (codec.loadRun row.2.2).map fun run =>
    (store.get? row.2.1).elim store fun history =>
      store.set row.2.1 { history with runs := history.runs ++ [run] }

/-- `_hydrate`; `none` stands for `ValidationError`. -/
def hydrate (database : ReplayDatabase) : Option (ReplayStore β ρ) :=
  (database.cases.foldlM (hydrateCase codec) []).bind fun store =>
    database.runs.foldlM (hydrateRun codec) store

end Hydrate

/-! ## Calls -/

inductive ReplayCall (β ρ : Type) where
  | upsertCase (case : ReplayCaseSpec β) (writeFails : Bool)
  | addRun (run : ReplayRunSnapshot ρ) (writeFails : Bool)

/-- The id of the run that a call adds. -/
def ReplayCall.runId? : ReplayCall β ρ → Option PyStr
  | .upsertCase _ _ => none
  | .addRun run _ => some run.runId.val

/-- The store with its database, and an in-memory store for the calls that return. -/
structure ReplayWorld (β ρ : Type) where
  memory : ReplayStore β ρ
  database : ReplayDatabase
  reference : ReplayStore β ρ

def noReplays : ReplayWorld β ρ := ⟨[], ⟨[], []⟩, []⟩

/-- The text that reaches the table. -/
def writtenRow (fails : Bool) (dump : Option PyStr) : Option PyStr :=
  if fails then none else dump

section Calls

variable (codec : ReplayCodec β ρ)

/-- What a call leaves, and whether it returns. -/
def performReplay (world : ReplayWorld β ρ) : ReplayCall β ρ → ReplayWorld β ρ × Bool
  | .upsertCase case writeFails =>
    let memory := world.memory.upsertCase case
    match writtenRow writeFails (codec.dumpCase case) with
    | none => ({ world with memory := memory }, false)
    | some data =>
      ({ memory := memory
         database := { world.database with
           cases := insertOrReplaceRow world.database.cases case.replayId.val data }
         reference := world.reference.upsertCase case }, true)
  | .addRun run writeFails =>
    match world.memory.addRun run with
    | none => (world, false)
    | some memory =>
      match writtenRow writeFails (codec.dumpRun run) with
      | none => ({ world with memory := memory }, false)
      | some data =>
        ({ memory := memory
           database := { world.database with
             runs := insertOrReplaceRow world.database.runs run.runId.val
               (run.replayId.val, data) }
           reference := (world.reference.addRun run).getD world.reference }, true)

/-- After the call a store opened on the file, the store itself and the one in memory agree,
and a call that raises leaves the store and the file. -/
structure SurvivesReopen (before : ReplayWorld β ρ) (call : ReplayCall β ρ)
    (after : ReplayWorld β ρ) : Prop where
  reopened : ∃ store, hydrate codec after.database = some store ∧
    SameHistory store after.memory
  fed : SameHistory after.memory after.reference
  unchanged : (performReplay codec before call).2 = false →
    SameHistory after.memory before.memory ∧ after.database = before.database

/-- The case is new or the last one. -/
def ComesLast (store : ReplayStore β ρ) (replayId : PyStr) : Prop :=
  replayId ∉ store.keys ∨ store.keys.getLast? = some replayId

/-- The calls that do no harm: a case that is new or the last one, a run for a known case, both
written and read back as they were; a run for an unknown case; and a case that is stored as it
is and cannot be written. -/
def HarmlessCall (world : ReplayWorld β ρ) : ReplayCall β ρ → Prop
  | .upsertCase case writeFails =>
    match writtenRow writeFails (codec.dumpCase case) with
    | none => world.memory.getCase case.replayId.val = some case
    | some data => codec.loadCase data = some case ∧ ComesLast world.memory case.replayId.val
  | .addRun run writeFails =>
    run.replayId.val ∈ world.memory.keys →
      (writtenRow writeFails (codec.dumpRun run)).bind codec.loadRun = some run

/-- The worlds after each of the calls. -/
def callRun (calls : List (ReplayCall β ρ)) : Trace (ReplayWorld β ρ) (ReplayCall β ρ) :=
  history (fun world call => (performReplay codec world call).1) noReplays calls

end Calls

/-! ## What a store reads -/

/-- Every history is kept under the id of its case, and once. -/
structure KeyedStore (store : ReplayStore β ρ) : Prop where
  nodup : store.keys.Nodup
  named : ∀ entry ∈ store, entry.2.case.replayId.val = entry.1

/-- The histories with the runs of a list added, each to its case. -/
def attachRuns (store : ReplayStore β ρ) (runs : List (ReplayRunSnapshot ρ)) : ReplayStore β ρ :=
  store.map fun entry =>
    (entry.1, { entry.2 with runs := entry.2.runs ++ runs.filter (·.replayId.val = entry.1) })

/-- The cases without their runs. -/
def bareCases (store : ReplayStore β ρ) : ReplayStore β ρ :=
  store.map fun entry => (entry.1, { entry.2 with runs := [] })

@[simp]
theorem keys_attach (store : ReplayStore β ρ) (runs : List (ReplayRunSnapshot ρ)) :
    (attachRuns store runs).keys = store.keys := by
  simp [attachRuns, Dict.keys, Function.comp_def]

@[simp]
theorem keys_bare (store : ReplayStore β ρ) : (bareCases store).keys = store.keys := by
  simp [bareCases, Dict.keys, Function.comp_def]

@[simp]
theorem listCases_attach (store : ReplayStore β ρ) (runs : List (ReplayRunSnapshot ρ)) :
    (attachRuns store runs).listCases = store.listCases := by
  simp [attachRuns, ReplayStore.listCases, Function.comp_def]

@[simp]
theorem listCases_bare (store : ReplayStore β ρ) :
    (bareCases store).listCases = store.listCases := by
  simp [bareCases, ReplayStore.listCases, Function.comp_def]

theorem bare_set (store : ReplayStore β ρ) (key : PyStr) (case : ReplayCaseSpec β) :
    (bareCases store).set key ⟨case, []⟩ = bareCases (store.set key ⟨case, []⟩) := by
  induction store with
  | nil => rfl
  | cons entry rest ih =>
    by_cases hkey : entry.1 = key
    · simp [bareCases, Dict.set, hkey]
    · rw [Dict.set, if_neg hkey, bareCases, List.map_cons, Dict.set, if_neg hkey]
      exact congrArg _ ih

theorem get?_attach (store : ReplayStore β ρ) (runs : List (ReplayRunSnapshot ρ)) (key : PyStr) :
    (attachRuns store runs).get? key = (store.get? key).map fun history =>
      { history with runs := history.runs ++ runs.filter (·.replayId.val = key) } := by
  induction store with
  | nil => rfl
  | cons entry rest ih =>
    rw [attachRuns, List.map_cons, Dict.get?, Dict.get?]
    by_cases hkey : entry.1 = key
    · rw [if_pos hkey, if_pos hkey, hkey]
      rfl
    · rw [if_neg hkey, if_neg hkey]
      exact ih

theorem attach_nil (store : ReplayStore β ρ) : attachRuns store [] = store := by
  simp [attachRuns]

theorem attach_attach (store : ReplayStore β ρ) (first second : List (ReplayRunSnapshot ρ)) :
    attachRuns (attachRuns store first) second = attachRuns store (first ++ second) := by
  simp [attachRuns, Function.comp_def]

/-- Appending a run to the history of its case is attaching it. -/
theorem elim_set_eq_attach {store : ReplayStore β ρ} (hnodup : store.keys.Nodup)
    (run : ReplayRunSnapshot ρ) :
    ((store.get? run.replayId.val).elim store fun history =>
      store.set run.replayId.val { history with runs := history.runs ++ [run] }) =
        attachRuns store [run] := by
  cases hget : store.get? run.replayId.val with
  | none =>
    apply Dict.ext_of_keys hnodup (keys_attach _ _).symm
    intro key
    rw [get?_attach]
    by_cases hkey : run.replayId.val = key
    · rw [← hkey]
      simp [hget]
    · simp [hkey]
  | some history =>
    have hmem : run.replayId.val ∈ store.keys := by
      rw [Dict.mem_keys_iff, hget]
      rfl
    apply Dict.ext_of_keys
    · exact Dict.nodup_keys_set hnodup _ _
    · rw [Option.elim_some, Dict.keys_set, Dict.addKey_of_mem hmem, keys_attach]
    · intro key
      rw [get?_attach, Option.elim_some]
      by_cases hkey : run.replayId.val = key
      · rw [← hkey, Dict.get?_set_self, hget]
        simp
      · rw [Dict.get?_set_of_ne _ _ (Ne.symm hkey)]
        simp [hkey]

theorem addRun_of_mem {store : ReplayStore β ρ} (hnodup : store.keys.Nodup)
    {run : ReplayRunSnapshot ρ} (hmem : run.replayId.val ∈ store.keys) :
    store.addRun run = some (attachRuns store [run]) := by
  rw [Dict.mem_keys_iff, Option.isSome_iff_exists] at hmem
  obtain ⟨history, hget⟩ := hmem
  rw [ReplayStore.addRun, ← elim_set_eq_attach hnodup, hget]
  rfl

theorem addRun_of_unknown {store : ReplayStore β ρ} {run : ReplayRunSnapshot ρ}
    (hunknown : run.replayId.val ∉ store.keys) : store.addRun run = none := by
  rw [Dict.mem_keys_iff, Option.not_isSome_iff_eq_none] at hunknown
  rw [ReplayStore.addRun, hunknown]
  rfl

/-! ## The case of an upsert -/

section Upsert

variable {store : ReplayStore β ρ} {case : ReplayCaseSpec β}

theorem upsertCase_eq_set (store : ReplayStore β ρ) (case : ReplayCaseSpec β) :
    store.upsertCase case =
      store.set case.replayId.val ⟨case, store.getRuns case.replayId.val⟩ := by
  rw [ReplayStore.upsertCase, ReplayStore.getRuns]
  cases store.get? case.replayId.val with
  | none => rfl
  | some history => rfl

theorem getCase_upsertCase (store : ReplayStore β ρ) (case : ReplayCaseSpec β) :
    (store.upsertCase case).getCase case.replayId.val = some case := by
  rw [upsertCase_eq_set, ReplayStore.getCase, Dict.get?_set_self]
  rfl

/-- Storing the case that is stored already. -/
theorem upsertCase_of_getCase (hcase : store.getCase case.replayId.val = some case) :
    store.upsertCase case = store := by
  rw [ReplayStore.getCase, Option.map_eq_some_iff] at hcase
  obtain ⟨history, hget, hsame⟩ := hcase
  rw [upsertCase_eq_set, ReplayStore.getRuns, hget, Option.elim_some]
  apply Dict.set_eq_self
  rw [hget, ← hsame]

theorem keys_erase (store : ReplayStore β ρ) (key : PyStr) :
    (store.erase key).keys = store.keys.filter (· ≠ key) := by
  rw [Dict.erase, Dict.filterKeys, Dict.keys, Dict.keys, List.filter_map]
  rfl

/-- A new key and the last one stand at the end afterwards. -/
theorem addKey_eq_append {keys : List PyStr} {key : PyStr} (hnodup : keys.Nodup)
    (hlast : key ∉ keys ∨ keys.getLast? = some key) :
    Dict.addKey keys key = keys.filter (· ≠ key) ++ [key] := by
  rcases hlast with hnew | hend
  · have hothers : keys.filter (· ≠ key) = keys := by
      apply List.filter_eq_self.mpr
      intro other hother
      exact decide_eq_true (ne_of_mem_of_not_mem hother hnew)
    rw [Dict.addKey, if_neg hnew, hothers]
  · obtain ⟨front, rfl⟩ := List.getLast?_eq_some_iff.mp hend
    have hfront : key ∉ front := fun hmem =>
      (List.nodup_append.mp hnodup).2.2 _ hmem _ (List.mem_singleton.mpr rfl) rfl
    have hothers : front.filter (· ≠ key) = front := by
      apply List.filter_eq_self.mpr
      intro other hother
      exact decide_eq_true (ne_of_mem_of_not_mem hother hfront)
    rw [Dict.addKey_of_mem (by simp), List.filter_append, hothers,
      List.filter_cons_of_neg (by simp), List.filter_nil, List.append_nil]

theorem not_mem_keys_erase (store : ReplayStore β ρ) (key : PyStr) :
    key ∉ (store.erase key).keys := by
  rw [Dict.mem_keys_iff, Dict.get?_erase_self]
  exact Bool.false_ne_true

theorem upsertCase_of_comesLast (hnodup : store.keys.Nodup)
    (hlast : ComesLast store case.replayId.val) :
    store.upsertCase case = store.erase case.replayId.val ++
      [(case.replayId.val, ⟨case, store.getRuns case.replayId.val⟩)] := by
  have hset := Dict.set_eq_append
    (⟨case, store.getRuns case.replayId.val⟩ : ReplayHistory β ρ)
    (Dict.get?_erase_self store case.replayId.val)
  rw [← hset, upsertCase_eq_set]
  apply Dict.ext_of_keys (Dict.nodup_keys_set hnodup _ _)
  · rw [Dict.keys_set, Dict.keys_set, addKey_eq_append hnodup hlast, keys_erase, Dict.addKey,
      if_neg (by simp)]
  · intro key
    by_cases hkey : key = case.replayId.val
    · rw [hkey, Dict.get?_set_self, Dict.get?_set_self]
    · rw [Dict.get?_set_of_ne _ _ hkey, Dict.get?_set_of_ne _ _ hkey, Dict.get?_erase_of_ne _ hkey]

theorem KeyedStore.map_listCases (hkeyed : KeyedStore store) :
    store.listCases.map (·.replayId.val) = store.keys := by
  rw [ReplayStore.listCases, List.map_map, Dict.keys]
  exact List.map_congr_left hkeyed.named

theorem KeyedStore.set (hkeyed : KeyedStore store) (case : ReplayCaseSpec β)
    (runs : List (ReplayRunSnapshot ρ)) : KeyedStore (store.set case.replayId.val ⟨case, runs⟩) :=
  ⟨Dict.nodup_keys_set hkeyed.nodup _ _,
    Dict.forall_mem_set (fun entry : PyStr × ReplayHistory β ρ =>
      entry.2.case.replayId.val = entry.1) hkeyed.named rfl⟩

theorem KeyedStore.erase (hkeyed : KeyedStore store) (key : PyStr) : KeyedStore (store.erase key) :=
  ⟨Dict.nodup_keys_erase hkeyed.nodup key,
    fun entry hentry => hkeyed.named entry (Dict.mem_of_mem_erase hentry)⟩

/-- The cases that are read back are those of the store when the text reads as the case and the
case is a new or the last one. -/
theorem listCases_upsertCase_eq_iff (hkeyed : KeyedStore store) (other : ReplayCaseSpec β) :
    ReplayStore.listCases ((store.erase case.replayId.val).set other.replayId.val
        (⟨other, []⟩ : ReplayHistory β ρ)) = (store.upsertCase case).listCases ↔
      other = case ∧ ComesLast store case.replayId.val := by
  apply Iff.intro
  · intro hsame
    have hkeys := congrArg (List.map (·.replayId.val)) hsame
    rw [((hkeyed.erase _).set other []).map_listCases, upsertCase_eq_set,
      (hkeyed.set case _).map_listCases, Dict.keys_set, Dict.keys_set] at hkeys
    have hid : other.replayId.val = case.replayId.val := by
      have hmem : case.replayId.val ∈ Dict.addKey (store.erase case.replayId.val).keys
          other.replayId.val := by
        rw [hkeys]
        exact Dict.mem_addKey.mpr (Or.inr rfl)
      exact ((Dict.mem_addKey.mp hmem).resolve_left (not_mem_keys_erase store _)).symm
    have hlast : ComesLast store case.replayId.val := by
      by_cases hnew : case.replayId.val ∉ store.keys
      · exact Or.inl hnew
      · rw [Dict.addKey_of_mem (not_not.mp hnew), hid, Dict.addKey,
          if_neg (not_mem_keys_erase store _)] at hkeys
        right
        rw [← hkeys, List.getLast?_concat]
    rw [upsertCase_of_comesLast hkeyed.nodup hlast, hid,
      Dict.set_eq_append _ (Dict.get?_erase_self store _)] at hsame
    simp only [ReplayStore.listCases, List.map_append, List.map_cons, List.map_nil] at hsame
    exact ⟨List.singleton_inj.mp (List.append_cancel_left hsame), hlast⟩
  · rintro ⟨rfl, hlast⟩
    rw [upsertCase_of_comesLast hkeyed.nodup hlast,
      Dict.set_eq_append _ (Dict.get?_erase_self store _)]
    simp [ReplayStore.listCases]

end Upsert

/-! ## A file that mirrors the store -/

section Mirror

variable (codec : ReplayCodec β ρ)

/-- A row of a case, as it is read back. -/
def ReadsCase (row : PyStr × PyStr) (entry : PyStr × ReplayHistory β ρ) : Prop :=
  row.1 = entry.1 ∧ codec.loadCase row.2 = some entry.2.case

def ReadsRun (row : PyStr × PyStr × PyStr) (run : ReplayRunSnapshot ρ) : Prop :=
  row.2.1 = run.replayId.val ∧ codec.loadRun row.2.2 = some run

/-- The tables hold the cases of the store and the runs that were added to them. -/
structure Mirrors (database : ReplayDatabase) (store : ReplayStore β ρ)
    (added : List (ReplayRunSnapshot ρ)) : Prop where
  keyed : KeyedStore store
  caseRows : List.Forall₂ (ReadsCase codec) database.cases store
  runRows : List.Forall₂ (ReadsRun codec) database.runs added
  known : ∀ run ∈ added, run.replayId.val ∈ store.keys
  shared : ∀ entry ∈ store, entry.2.runs = added.filter (·.replayId.val = entry.1)

variable {codec}

theorem foldlM_hydrateCase {rows : List (PyStr × PyStr)} {entries : ReplayStore β ρ}
    (hrows : List.Forall₂ (ReadsCase codec) rows entries)
    (hnamed : ∀ entry ∈ entries, entry.2.case.replayId.val = entry.1) {start : ReplayStore β ρ}
    (hnodup : (start.keys ++ entries.keys).Nodup) :
    rows.foldlM (hydrateCase codec) start = some (start ++ bareCases entries) := by
  induction hrows generalizing start with
  | nil => simp [bareCases]
  | @cons row entry rows entries hrow _ ih =>
    obtain ⟨hname, hnames⟩ := List.forall_mem_cons.mp hnamed
    have hfresh : start.get? entry.1 = none := by
      rw [← Option.not_isSome_iff_eq_none, ← Dict.mem_keys_iff]
      intro hmem
      exact (List.nodup_append.mp hnodup).2.2 _ hmem _ List.mem_cons_self rfl
    have hnext : hydrateCase codec start row =
        some (start ++ [(entry.1, { entry.2 with runs := [] })]) := by
      rw [hydrateCase, hrow.2, Option.map_some, hname, Dict.set_eq_append _ hfresh]
    rw [List.foldlM_cons, hnext]
    change rows.foldlM (hydrateCase codec) _ = _
    rw [ih hnames, List.append_assoc]
    · rfl
    · have hkeys : Dict.keys (start ++ [(entry.1, { entry.2 with runs := [] })]) ++
          Dict.keys entries = start.keys ++ (entry.1 :: Dict.keys entries) := by
        simp [Dict.keys]
      rw [hkeys]
      exact hnodup

theorem forall₂_readsCase_erase {rows : List (PyStr × PyStr)} {entries : ReplayStore β ρ}
    (hrows : List.Forall₂ (ReadsCase codec) rows entries) (replayId : PyStr) :
    List.Forall₂ (ReadsCase codec) (rows.filter (·.1 ≠ replayId)) (entries.erase replayId) := by
  rw [Dict.erase, Dict.filterKeys]
  induction hrows with
  | nil => exact .nil
  | @cons row entry rows entries hrow _ ih =>
    by_cases hkey : entry.1 = replayId
    · rw [List.filter_cons_of_neg (by simp [hrow.1, hkey]),
        List.filter_cons_of_neg (by simp [hkey])]
      exact ih
    · rw [List.filter_cons_of_pos (by simp [hrow.1, hkey]),
        List.filter_cons_of_pos (by simp [hkey])]
      exact .cons hrow ih

theorem foldlM_hydrateRun {rows : List (PyStr × PyStr × PyStr)}
    {added : List (ReplayRunSnapshot ρ)} (hrows : List.Forall₂ (ReadsRun codec) rows added)
    {store : ReplayStore β ρ} (hnodup : store.keys.Nodup) :
    rows.foldlM (hydrateRun codec) store = some (attachRuns store added) := by
  induction hrows generalizing store with
  | nil => rw [attach_nil]; rfl
  | @cons row run rows added hrow _ ih =>
    have hnext : hydrateRun codec store row = some (attachRuns store [run]) := by
      rw [hydrateRun, hrow.2, Option.map_some, hrow.1, elim_set_eq_attach hnodup]
    rw [List.foldlM_cons, hnext]
    change rows.foldlM (hydrateRun codec) _ = _
    rw [ih (by rwa [keys_attach]), attach_attach]
    rfl

theorem mirrors_empty : Mirrors codec ⟨[], []⟩ ([] : ReplayStore β ρ) [] :=
  ⟨⟨List.nodup_nil, fun _ h => absurd h List.not_mem_nil⟩, .nil, .nil,
    fun _ h => absurd h List.not_mem_nil, fun _ h => absurd h List.not_mem_nil⟩

variable {database : ReplayDatabase} {store : ReplayStore β ρ}
  {added : List (ReplayRunSnapshot ρ)} (hmirrors : Mirrors codec database store added)

include hmirrors

theorem Mirrors.attach_bare : attachRuns (bareCases store) added = store := by
  rw [attachRuns, bareCases, List.map_map]
  conv_rhs => rw [← List.map_id store]
  apply List.map_congr_left
  intro entry hentry
  simp [← hmirrors.shared entry hentry]

theorem Mirrors.getRuns_eq (replayId : PyStr) :
    store.getRuns replayId = added.filter (·.replayId.val = replayId) := by
  rw [ReplayStore.getRuns]
  cases hget : store.get? replayId with
  | some history => exact hmirrors.shared _ (Dict.mem_of_get? hget)
  | none =>
    symm
    apply List.filter_eq_nil_iff.mpr
    intro run hrun hid
    have hknown := hmirrors.known run hrun
    rw [Dict.mem_keys_iff, of_decide_eq_true hid, hget] at hknown
    exact Bool.false_ne_true hknown

/-- The rows before a new row of a run read as the store. -/
theorem Mirrors.foldlM_runs :
    (database.cases.foldlM (hydrateCase codec) []).bind
      (fun start => database.runs.foldlM (hydrateRun codec) start) = some store := by
  have hcases := @foldlM_hydrateCase _ _ _ _ _ hmirrors.caseRows hmirrors.keyed.named []
    (by simpa [Dict.keys] using hmirrors.keyed.nodup)
  rw [hcases]
  change database.runs.foldlM (hydrateRun codec) (bareCases store) = _
  rw [foldlM_hydrateRun hmirrors.runRows (by rw [keys_bare]; exact hmirrors.keyed.nodup),
    hmirrors.attach_bare]

/-- A store that is opened on the tables is the mirrored one. -/
theorem Mirrors.hydrate_eq : hydrate codec database = some store :=
  hmirrors.foldlM_runs

/-- What is opened after a case was written: the other cases, then what its text reads as. -/
theorem Mirrors.hydrate_caseRow (replayId data : PyStr) :
    hydrate codec { database with cases := insertOrReplaceRow database.cases replayId data } =
      (codec.loadCase data).map fun case =>
        attachRuns (bareCases ((store.erase replayId).set case.replayId.val ⟨case, []⟩)) added := by
  have hnodup : (store.erase replayId).keys.Nodup :=
    Dict.nodup_keys_erase hmirrors.keyed.nodup replayId
  have hothers := @foldlM_hydrateCase _ _ _ _ _ (forall₂_readsCase_erase hmirrors.caseRows replayId)
    (hmirrors.keyed.erase replayId).named [] (by simpa [Dict.keys] using hnodup)
  rw [hydrate]
  simp only [insertOrReplaceRow]
  rw [List.foldlM_append, hothers]
  change (List.foldlM (hydrateCase codec) (bareCases (store.erase replayId)) [_]).bind _ = _
  rw [List.foldlM_cons]
  cases hload : codec.loadCase data with
  | none =>
    rw [hydrateCase, hload]
    rfl
  | some case =>
    rw [hydrateCase, hload]
    change database.runs.foldlM (hydrateRun codec)
      ((bareCases (store.erase replayId)).set case.replayId.val ⟨case, []⟩) = _
    rw [bare_set, foldlM_hydrateRun hmirrors.runRows]
    · rfl
    · rw [keys_bare]
      exact Dict.nodup_keys_set hnodup _ _

/-- What is opened after a run was written. -/
theorem Mirrors.hydrate_runRow (runId replayId data : PyStr) :
    hydrate codec { database with runs := database.runs ++ [(runId, replayId, data)] } =
      hydrateRun codec store (runId, replayId, data) := by
  have hbefore := hmirrors.foldlM_runs
  rw [Option.bind_eq_some_iff] at hbefore
  obtain ⟨start, hstart, hruns⟩ := hbefore
  rw [hydrate]
  simp only []
  rw [hstart, Option.bind_some, List.foldlM_append, hruns]
  change List.foldlM (hydrateRun codec) store [_] = _
  rw [List.foldlM_cons]
  cases hydrateRun codec store (runId, replayId, data) with
  | none => rfl
  | some next => rfl

end Mirror

/-! ## One call -/

section Step

variable {codec : ReplayCodec β ρ} {world : ReplayWorld β ρ}
  {added : List (ReplayRunSnapshot ρ)}

/-- The file and the reference know what the store knows, and the runs that are still to come
are new. -/
structure InStep (codec : ReplayCodec β ρ) (world : ReplayWorld β ρ) (coming : List PyStr) :
    Prop where
  mirrors : ∃ added, Mirrors codec world.database world.memory added
  reference : world.reference = world.memory
  fresh : (world.database.runs.map (·.1) ++ coming).Nodup

theorem Mirrors.upsertCase {database : ReplayDatabase} {store : ReplayStore β ρ}
    (hmirrors : Mirrors codec database store added) {case : ReplayCaseSpec β} {data : PyStr}
    (hload : codec.loadCase data = some case) (hlast : ComesLast store case.replayId.val) :
    Mirrors codec { database with
        cases := insertOrReplaceRow database.cases case.replayId.val data }
      (store.upsertCase case) added where
  keyed := by
    rw [upsertCase_eq_set]
    exact hmirrors.keyed.set case _
  caseRows := by
    rw [upsertCase_of_comesLast hmirrors.keyed.nodup hlast]
    exact List.rel_append (forall₂_readsCase_erase hmirrors.caseRows _) (.cons ⟨rfl, hload⟩ .nil)
  runRows := hmirrors.runRows
  known := by
    intro run hrun
    rw [upsertCase_eq_set, Dict.mem_keys_set]
    exact Or.inr (hmirrors.known run hrun)
  shared := by
    rw [upsertCase_eq_set]
    exact Dict.forall_mem_set (fun entry : PyStr × ReplayHistory β ρ =>
      entry.2.runs = added.filter (·.replayId.val = entry.1)) hmirrors.shared
      (hmirrors.getRuns_eq _)

theorem Mirrors.addRun {database : ReplayDatabase} {store : ReplayStore β ρ}
    (hmirrors : Mirrors codec database store added) {run : ReplayRunSnapshot ρ} {data : PyStr}
    (hload : codec.loadRun data = some run) (hmem : run.replayId.val ∈ store.keys) :
    Mirrors codec { database with
        runs := database.runs ++ [(run.runId.val, run.replayId.val, data)] }
      (attachRuns store [run]) (added ++ [run]) where
  keyed := by
    refine ⟨by rw [keys_attach]; exact hmirrors.keyed.nodup, fun entry hentry => ?_⟩
    obtain ⟨old, hold, rfl⟩ := List.mem_map.mp hentry
    exact hmirrors.keyed.named old hold
  caseRows := by
    rw [attachRuns]
    exact List.forall₂_map_right_iff.mpr hmirrors.caseRows
  runRows := List.rel_append hmirrors.runRows (.cons ⟨rfl, hload⟩ .nil)
  known := by
    intro other hother
    rw [keys_attach]
    cases List.mem_append.mp hother with
    | inl hbefore => exact hmirrors.known other hbefore
    | inr hlast => rwa [List.mem_singleton.mp hlast]
  shared := by
    intro entry hentry
    obtain ⟨old, hold, rfl⟩ := List.mem_map.mp hentry
    rw [List.filter_append, ← hmirrors.shared old hold]

theorem insertOrReplaceRow_of_new {γ : Type} {rows : List (PyStr × γ)} {key : PyStr}
    (hnew : key ∉ rows.map (·.1)) (columns : γ) :
    insertOrReplaceRow rows key columns = rows ++ [(key, columns)] := by
  rw [insertOrReplaceRow, List.filter_eq_self.mpr]
  intro row hrow
  exact decide_eq_true (ne_of_mem_of_not_mem (List.mem_map_of_mem hrow) hnew)

theorem SameHistory.of_eq {left right : ReplayStore β ρ} (hsame : left = right) :
    SameHistory left right :=
  hsame ▸ SameHistory.refl left

section Upserted

variable {case : ReplayCaseSpec β} {writeFails : Bool} {coming : List PyStr}

theorem perform_upsertCase_none (hwritten : writtenRow writeFails (codec.dumpCase case) = none) :
    performReplay codec world (.upsertCase case writeFails) =
      ({ world with memory := world.memory.upsertCase case }, false) := by
  simp only [performReplay, hwritten]

theorem perform_upsertCase_some {data : PyStr}
    (hwritten : writtenRow writeFails (codec.dumpCase case) = some data) :
    performReplay codec world (.upsertCase case writeFails) =
      ({ memory := world.memory.upsertCase case
         database := { world.database with
           cases := insertOrReplaceRow world.database.cases case.replayId.val data }
         reference := world.reference.upsertCase case }, true) := by
  simp only [performReplay, hwritten]

/-- The table refuses the case: the store has it already. -/
theorem upsert_refused_iff (hstep : InStep codec world coming)
    (hwritten : writtenRow writeFails (codec.dumpCase case) = none) :
    SurvivesReopen codec world (.upsertCase case writeFails)
        (performReplay codec world (.upsertCase case writeFails)).1 ↔
      HarmlessCall codec world (.upsertCase case writeFails) := by
  have hharmless : HarmlessCall codec world (.upsertCase case writeFails) ↔
      world.memory.getCase case.replayId.val = some case := by
    simp only [HarmlessCall, hwritten]
  have hperform : performReplay codec world (.upsertCase case writeFails) =
      ({ world with memory := world.memory.upsertCase case }, false) :=
    perform_upsertCase_none hwritten
  rw [hharmless, hperform]
  apply Iff.intro
  · intro hsurvives
    have hsame := (hsurvives.unchanged (by rw [hperform])).1
    rw [← hsame.getCase]
    exact getCase_upsertCase _ _
  · intro hcase
    have hmemory := upsertCase_of_getCase hcase
    obtain ⟨added, hmirrors⟩ := hstep.mirrors
    rw [hmemory]
    exact ⟨⟨world.memory, hmirrors.hydrate_eq, .refl _⟩, .of_eq hstep.reference.symm,
      fun _ => ⟨.refl _, rfl⟩⟩

/-- The table takes the case. -/
theorem upsert_written_iff (hstep : InStep codec world coming) {data : PyStr}
    (hwritten : writtenRow writeFails (codec.dumpCase case) = some data) :
    SurvivesReopen codec world (.upsertCase case writeFails)
        (performReplay codec world (.upsertCase case writeFails)).1 ↔
      HarmlessCall codec world (.upsertCase case writeFails) := by
  have hharmless : HarmlessCall codec world (.upsertCase case writeFails) ↔
      codec.loadCase data = some case ∧ ComesLast world.memory case.replayId.val := by
    simp only [HarmlessCall, hwritten]
  have hperform := @perform_upsertCase_some β ρ codec world case writeFails data hwritten
  obtain ⟨added, hmirrors⟩ := hstep.mirrors
  rw [hharmless, hperform]
  apply Iff.intro
  · intro hsurvives
    obtain ⟨store, hopened, hsame⟩ := hsurvives.reopened
    rw [hmirrors.hydrate_caseRow, Option.map_eq_some_iff] at hopened
    obtain ⟨other, hload, rfl⟩ := hopened
    have hlist := hsame.listCases
    rw [listCases_attach, listCases_bare] at hlist
    have hboth := (listCases_upsertCase_eq_iff hmirrors.keyed other).mp hlist
    exact ⟨hboth.1 ▸ hload, hboth.2⟩
  · intro hboth
    have hnext := hmirrors.upsertCase hboth.1 hboth.2
    refine ⟨⟨_, hnext.hydrate_eq, .refl _⟩, .of_eq ?_, fun hfalse => ?_⟩
    · rw [hstep.reference]
    · rw [hperform] at hfalse
      cases hfalse

theorem InStep.upsertCase (hstep : InStep codec world coming)
    (hharmless : HarmlessCall codec world (.upsertCase case writeFails)) :
    InStep codec (performReplay codec world (.upsertCase case writeFails)).1 coming := by
  obtain ⟨added, hmirrors⟩ := hstep.mirrors
  cases hwritten : writtenRow writeFails (codec.dumpCase case) with
  | none =>
    simp only [HarmlessCall, hwritten] at hharmless
    rw [perform_upsertCase_none hwritten, upsertCase_of_getCase hharmless]
    exact hstep
  | some data =>
    simp only [HarmlessCall, hwritten] at hharmless
    rw [perform_upsertCase_some hwritten]
    refine ⟨⟨added, hmirrors.upsertCase hharmless.1 hharmless.2⟩, ?_, hstep.fresh⟩
    rw [hstep.reference]

end Upserted

section Added

variable {run : ReplayRunSnapshot ρ} {writeFails : Bool} {coming : List PyStr}

theorem perform_addRun_unknown (hunknown : run.replayId.val ∉ world.memory.keys) :
    performReplay codec world (.addRun run writeFails) = (world, false) := by
  simp only [performReplay, addRun_of_unknown hunknown]

theorem perform_addRun_none (hnodup : world.memory.keys.Nodup)
    (hmem : run.replayId.val ∈ world.memory.keys)
    (hwritten : writtenRow writeFails (codec.dumpRun run) = none) :
    performReplay codec world (.addRun run writeFails) =
      ({ world with memory := attachRuns world.memory [run] }, false) := by
  simp only [performReplay, addRun_of_mem hnodup hmem, hwritten]

theorem perform_addRun_some (hstep : InStep codec world (run.runId.val :: coming))
    (hnodup : world.memory.keys.Nodup) (hmem : run.replayId.val ∈ world.memory.keys)
    {data : PyStr} (hwritten : writtenRow writeFails (codec.dumpRun run) = some data) :
    performReplay codec world (.addRun run writeFails) =
      ({ memory := attachRuns world.memory [run]
         database := { world.database with
           runs := world.database.runs ++ [(run.runId.val, run.replayId.val, data)] }
         reference := attachRuns world.memory [run] }, true) := by
  have hnew : run.runId.val ∉ world.database.runs.map (·.1) := fun hold =>
    (List.nodup_append.mp hstep.fresh).2.2 _ hold _ List.mem_cons_self rfl
  simp only [performReplay, addRun_of_mem hnodup hmem, hwritten, hstep.reference, Option.getD_some,
    insertOrReplaceRow_of_new hnew]

theorem getRuns_attach {store : ReplayStore β ρ} (hmem : run.replayId.val ∈ store.keys) :
    (attachRuns store [run]).getRuns run.replayId.val =
      store.getRuns run.replayId.val ++ [run] := by
  rw [Dict.mem_keys_iff, Option.isSome_iff_exists] at hmem
  obtain ⟨history, hget⟩ := hmem
  rw [ReplayStore.getRuns, ReplayStore.getRuns, get?_attach, hget]
  simp

/-- What a row of a run adds to a known case. -/
theorem hydrateRun_of_mem {store : ReplayStore β ρ} {replayId : PyStr}
    (hmem : replayId ∈ store.keys) (runId data : PyStr) {opened : ReplayStore β ρ}
    (hopened : hydrateRun codec store (runId, replayId, data) = some opened) :
    ∃ other, codec.loadRun data = some other ∧
      opened.getRuns replayId = store.getRuns replayId ++ [other] := by
  rw [Dict.mem_keys_iff, Option.isSome_iff_exists] at hmem
  obtain ⟨history, hget⟩ := hmem
  rw [hydrateRun, Option.map_eq_some_iff] at hopened
  obtain ⟨other, hload, rfl⟩ := hopened
  refine ⟨other, hload, ?_⟩
  rw [hget, Option.elim_some, ReplayStore.getRuns, Dict.get?_set_self, ReplayStore.getRuns, hget]
  rfl

theorem addRun_iff (hstep : InStep codec world (run.runId.val :: coming)) :
    SurvivesReopen codec world (.addRun run writeFails)
        (performReplay codec world (.addRun run writeFails)).1 ↔
      HarmlessCall codec world (.addRun run writeFails) := by
  obtain ⟨added, hmirrors⟩ := hstep.mirrors
  have hnodup := hmirrors.keyed.nodup
  by_cases hmem : run.replayId.val ∈ world.memory.keys
  · cases hwritten : writtenRow writeFails (codec.dumpRun run) with
    | none =>
      have hperform := @perform_addRun_none β ρ codec world run writeFails hnodup hmem hwritten
      apply Iff.intro
      · intro hsurvives
        have hsame := (hsurvives.unchanged (by rw [hperform])).1.getRuns run.replayId.val
        rw [hperform, getRuns_attach hmem] at hsame
        exact absurd hsame (List.append_right_eq_self.not.mpr (List.cons_ne_nil _ _))
      · intro hharmless
        have hread := hharmless hmem
        rw [hwritten] at hread
        cases hread
    | some data =>
      have hperform := perform_addRun_some hstep hnodup hmem hwritten
      apply Iff.intro
      · intro hsurvives _
        obtain ⟨store, hopened, hsame⟩ := hsurvives.reopened
        rw [hperform, hmirrors.hydrate_runRow] at hopened
        obtain ⟨other, hload, hruns⟩ := hydrateRun_of_mem hmem _ _ hopened
        have hboth := hsame.getRuns run.replayId.val
        rw [hruns, hperform, getRuns_attach hmem] at hboth
        rw [hwritten, Option.bind_some, hload,
          List.singleton_inj.mp (List.append_cancel_left hboth)]
      · intro hharmless
        have hread := hharmless hmem
        rw [hwritten, Option.bind_some] at hread
        rw [hperform]
        refine ⟨⟨_, (hmirrors.addRun hread hmem).hydrate_eq, .refl _⟩, .refl _, fun hfalse => ?_⟩
        rw [hperform] at hfalse
        cases hfalse
  · rw [perform_addRun_unknown hmem]
    apply Iff.intro
    · intro _ hknown
      exact absurd hknown hmem
    · intro _
      exact ⟨⟨_, hmirrors.hydrate_eq, .refl _⟩, .of_eq hstep.reference.symm,
        fun _ => ⟨.refl _, rfl⟩⟩

theorem InStep.addRun (hstep : InStep codec world (run.runId.val :: coming))
    (hharmless : HarmlessCall codec world (.addRun run writeFails)) :
    InStep codec (performReplay codec world (.addRun run writeFails)).1 coming := by
  obtain ⟨added, hmirrors⟩ := hstep.mirrors
  have hcoming : (world.database.runs.map (·.1) ++ coming).Nodup :=
    hstep.fresh.sublist (List.Sublist.append_left (List.sublist_cons_self _ _) _)
  by_cases hmem : run.replayId.val ∈ world.memory.keys
  · have hread := hharmless hmem
    cases hwritten : writtenRow writeFails (codec.dumpRun run) with
    | none =>
      rw [hwritten] at hread
      cases hread
    | some data =>
      rw [hwritten, Option.bind_some] at hread
      rw [perform_addRun_some hstep hmirrors.keyed.nodup hmem hwritten]
      refine ⟨⟨_, hmirrors.addRun hread hmem⟩, rfl, ?_⟩
      rw [List.map_append, List.append_assoc]
      exact hstep.fresh
  · rw [perform_addRun_unknown hmem]
    exact ⟨⟨added, hmirrors⟩, hstep.reference, hcoming⟩

end Added

theorem survives_iff {call : ReplayCall β ρ} {coming : List PyStr}
    (hstep : InStep codec world (call.runId?.toList ++ coming)) :
    SurvivesReopen codec world call (performReplay codec world call).1 ↔
      HarmlessCall codec world call := by
  cases call with
  | upsertCase case writeFails =>
    cases hwritten : writtenRow writeFails (codec.dumpCase case) with
    | none => exact upsert_refused_iff hstep hwritten
    | some data => exact upsert_written_iff hstep hwritten
  | addRun run writeFails => exact addRun_iff hstep

theorem InStep.perform {call : ReplayCall β ρ} {coming : List PyStr}
    (hstep : InStep codec world (call.runId?.toList ++ coming))
    (hharmless : HarmlessCall codec world call) :
    InStep codec (performReplay codec world call).1 coming := by
  cases call with
  | upsertCase case writeFails => exact InStep.upsertCase hstep hharmless
  | addRun run writeFails => exact InStep.addRun hstep hharmless

end Step

/-! ## All calls -/

theorem InStep.follows_iff {codec : ReplayCodec β ρ} {calls : List (ReplayCall β ρ)}
    {world : ReplayWorld β ρ} (hstep : InStep codec world (calls.filterMap ReplayCall.runId?)) :
    Follows (SurvivesReopen codec) world
        (history (fun world call => (performReplay codec world call).1) world calls) ↔
      Guarded (HarmlessCall codec) world
        (history (fun world call => (performReplay codec world call).1) world calls) := by
  induction calls generalizing world with
  | nil => exact Iff.rfl
  | cons call calls ih =>
    have hids : (call :: calls).filterMap ReplayCall.runId? =
        call.runId?.toList ++ calls.filterMap ReplayCall.runId? := by
      rw [List.filterMap_cons]
      cases call.runId? with
      | none => rfl
      | some runId => rfl
    rw [hids] at hstep
    rw [history, follows_cons, guarded_cons, survives_iff hstep]
    exact and_congr_right fun hharmless => ih (hstep.perform hharmless)

/-- The history survives every call exactly when every call is harmless in the state in which
it is made. -/
theorem replay_history_survives_iff (codec : ReplayCodec β ρ) (calls : List (ReplayCall β ρ))
    (hids : (calls.filterMap ReplayCall.runId?).Nodup) :
    Follows (SurvivesReopen codec) noReplays (callRun codec calls) ↔
      Guarded (HarmlessCall codec) noReplays (callRun codec calls) :=
  InStep.follows_iff ⟨⟨[], mirrors_empty⟩, rfl, hids⟩

/-- The text of a string field, up to its closing quote. -/
def quotedText (text : PyStr) : Option RequiredStr :=
  (RequiredStr.validate (text.takeWhile (· ≠ 34))).toOption

/-- Fixtures and snapshots without further fields. -/
def bareCodec : ReplayCodec Unit Unit where
  dumpCase case := some (py "\x7b\"replay_id\":\"" ++ case.replayId.val ++ py "\"\x7d")
  loadCase text := (quotedText (text.drop 14)).map fun replayId => ⟨replayId, ()⟩
  dumpRun run := some (py "\x7b\"replay_id\":\"" ++ run.replayId.val ++ py "\",\"run_id\":\"" ++
    run.runId.val ++ py "\"\x7d")
  loadRun text := (quotedText (text.drop 14)).bind fun replayId =>
    (quotedText (text.drop (26 + replayId.val.length))).map fun runId => ⟨replayId, runId, ()⟩

def caseNamed (name : String) (hname : py name ≠ []) : ReplayCaseSpec Unit :=
  ⟨RequiredStr.ofLiteral name hname, ()⟩

theorem first_run_survives : Follows (SurvivesReopen bareCodec) noReplays (callRun bareCodec
    [.upsertCase (caseNamed "a" (by decide)) false,
      .addRun ⟨RequiredStr.ofLiteral "a" (by decide), RequiredStr.ofLiteral "r1" (by decide), ()⟩
        false]) :=
  (replay_history_survives_iff bareCodec _ (by decide)).mpr
    ⟨⟨rfl, Or.inl (by decide)⟩, fun _ => rfl, trivial⟩

/-- The case that is written again becomes the last one of the file only. -/
theorem second_upsert_reorders : ¬Follows (SurvivesReopen bareCodec) noReplays (callRun bareCodec
    [.upsertCase (caseNamed "a" (by decide)) false, .upsertCase (caseNamed "b" (by decide)) false,
      .upsertCase (caseNamed "a" (by decide)) false]) := by
  intro hsurvives
  obtain ⟨store, hopened, hsame⟩ := hsurvives.2.2.1.reopened
  have hids := congrArg (List.map (·.replayId.val)) hsame.listCases
  have hstore : store.listCases.map (·.replayId.val) = [py "b", py "a"] := by
    cases hopened
    rfl
  rw [hstore] at hids
  exact absurd hids (by decide)

end RootSeeker.Storage
