import RootSeeker.Admin.CronJobs
import RootSeeker.Core.KeyedList
import RootSeeker.Core.Transition
import RootSeeker.Python.ReprReading

/-!
# The builtin jobs of the admin document

Seeding gives a list in which identifiers are distinct and each builtin job has
the fields that nobody may change; seeding such a list again changes nothing.
The calls of the store keep this.
-/

namespace RootSeeker.Admin

open Python Contracts Storage
open Dict (Amendment amendAll)

variable {std : Stdlib}

/-! ## One builtin job -/

/-- The job has all that seeding asks of a builtin job. -/
def Accepted (std : Stdlib) (builtin : BuiltinCronJob) (job : Fields) : Prop :=
  ∀ amendment ∈ builtinAmendments std builtin,
    amendment.refuses (job.get? amendment.key) = false

theorem isBlank_str {text : PyStr} (hfilled : strip text ≠ []) :
    isBlank std (some (.str text)) = false := by
  have hne : text ≠ [] := by
    rintro rfl
    exact hfilled rfl
  rw [isBlank, truthyText_text std hne, decide_eq_false_iff_not]
  exact hfilled

theorem nodup_builtinAmendments (builtin : BuiltinCronJob) :
    ((builtinAmendments std builtin).map Amendment.key).Nodup := by
  change [py "handler", py "builtin", py "deletable", py "enabled", py "schedule", py "name",
    py "timezone", py "notes"].Nodup
  decide

theorem jobId_not_mem_builtinAmendments (builtin : BuiltinCronJob) :
    py "job_id" ∉ (builtinAmendments std builtin).map Amendment.key := by
  change py "job_id" ∉ [py "handler", py "builtin", py "deletable", py "enabled",
    py "schedule", py "name", py "timezone", py "notes"]
  decide

/-- What seeding sets is accepted. -/
theorem refuses_value (builtin : BuiltinCronJob) :
    ∀ amendment ∈ builtinAmendments std builtin,
      amendment.refuses (some amendment.value) = false := by
  obtain ⟨hname, hschedule, htimezone, -⟩ := builtin.filled
  simp only [builtinAmendments, List.forall_mem_cons]
  refine ⟨by simp [equalsText], by simp [equalsFlag], by simp [equalsFlag], rfl,
    isBlank_str hschedule, isBlank_str hname, isBlank_str htimezone, by simp, ?_⟩
  exact fun _ hmem => absurd hmem List.not_mem_nil

theorem accepted_amendAll (builtin : BuiltinCronJob) (existing : Fields) :
    Accepted std builtin (amendAll (builtinAmendments std builtin) existing).1 := by
  intro amendment hmem
  rw [Dict.get?_amendAll (nodup_builtinAmendments builtin) hmem]
  split
  · exact refuses_value builtin amendment hmem
  · next haccepted => exact Bool.eq_false_iff.mpr haccepted

theorem get?_job (builtin : BuiltinCronJob) :
    ∀ amendment ∈ builtinAmendments std builtin,
      builtin.job.get? amendment.key = some amendment.value := by
  simp only [builtinAmendments, List.forall_mem_cons]
  refine ⟨rfl, rfl, rfl, rfl, rfl, rfl, rfl, rfl, ?_⟩
  exact fun _ hmem => absurd hmem List.not_mem_nil

theorem accepted_job (builtin : BuiltinCronJob) : Accepted std builtin builtin.job := by
  intro amendment hmem
  rw [get?_job builtin amendment hmem]
  exact refuses_value builtin amendment hmem

/-- The job that seeding puts under the identifier of a builtin job. -/
def seededJob (std : Stdlib) (byId : Dict PyStr Fields) (builtin : BuiltinCronJob) : Fields :=
  match byId.get? builtin.jobId with
  | none => builtin.job
  | some existing => (amendAll (builtinAmendments std builtin) existing).1

theorem accepted_seededJob (byId : Dict PyStr Fields) (builtin : BuiltinCronJob) :
    Accepted std builtin (seededJob std byId builtin) := by
  rw [seededJob]
  split
  · exact accepted_job builtin
  · exact accepted_amendAll builtin _

theorem idText_amendAll (builtin : BuiltinCronJob) (existing : Fields) :
    idText std (amendAll (builtinAmendments std builtin) existing).1 = idText std existing := by
  rw [idText, idText, Dict.get?_amendAll_of_not_mem (jobId_not_mem_builtinAmendments builtin)]

theorem seedBuiltin_fst (state : Dict PyStr Fields × Bool) (builtin : BuiltinCronJob) :
    (seedBuiltin std state builtin).1 =
      state.1.set builtin.jobId (seededJob std state.1 builtin) := by
  rw [seedBuiltin, seededJob]
  cases state.1.get? builtin.jobId <;> rfl

variable {builtin : BuiltinCronJob} {builtins : List BuiltinCronJob} {job : Fields}
  {jobId : PyStr} {jobs : List Fields} {state : Dict PyStr Fields × Bool}

theorem seedBuiltin_of_accepted (hjob : state.1.get? builtin.jobId = some job)
    (haccepted : Accepted std builtin job) : seedBuiltin std state builtin = state := by
  rw [seedBuiltin, hjob]
  simp only [Dict.amendAll_of_accepted haccepted, Bool.or_false, Dict.set_eq_self hjob]

/-! ## The dictionary of the jobs -/

/-- Each job is under its own identifier. -/
structure IsTable (std : Stdlib) (byId : Dict PyStr Fields) : Prop where
  nodup : byId.keys.Nodup
  ids : ∀ entry ∈ byId, idText std entry.2 = entry.1

theorem IsTable.idText_of_get? {byId : Dict PyStr Fields} (htable : IsTable std byId)
    (hjob : byId.get? jobId = some job) : idText std job = jobId :=
  htable.ids _ (Dict.mem_of_get? hjob)

theorem isTable_set {byId : Dict PyStr Fields} (htable : IsTable std byId)
    (hid : idText std job = jobId) : IsTable std (byId.set jobId job) where
  nodup := Dict.nodup_keys_set htable.nodup _ _
  ids := Dict.forall_mem_set _ htable.ids hid

theorem isTable_jobsById (jobs : List Fields) : IsTable std (jobsById std jobs) := by
  have hrun : ∀ byId, IsTable std byId →
      IsTable std (Dict.update byId (jobs.map fun job => (idText std job, job))) := by
    induction jobs with
    | nil => exact fun _ htable => htable
    | cons job jobs ih => exact fun byId htable => ih _ (isTable_set htable rfl)
  exact hrun [] ⟨List.nodup_nil, fun _ hmem => absurd hmem List.not_mem_nil⟩

/-- The dictionary has the last job of each identifier. -/
theorem get?_jobsById (jobs : List Fields) (jobId : PyStr) :
    (jobsById std jobs).get? jobId = KeyedList.lookup (idText std) jobId jobs := by
  rw [jobsById, Dict.get?_update, Dict.get?_nil, Option.or_none]
  induction jobs with
  | nil => rfl
  | cons job jobs ih =>
    rw [List.map_cons, List.reverse_cons, Dict.get?_append, ih, KeyedList.lookup]
    rfl

theorem jobsById_of_nodup (hnodup : (jobs.map (idText std)).Nodup) :
    jobsById std jobs = jobs.map fun job => (idText std job, job) := by
  apply Dict.update_nil_of_nodup
  rwa [Dict.keys, List.map_map]

theorem idText_seededJob {byId : Dict PyStr Fields} (htable : IsTable std byId)
    (builtin : BuiltinCronJob) : idText std (seededJob std byId builtin) = builtin.jobId := by
  rw [seededJob]
  cases hjob : byId.get? builtin.jobId with
  | none => rfl
  | some existing => exact (idText_amendAll builtin existing).trans (htable.idText_of_get? hjob)

/-! ## Seeding the dictionary -/

/-- The dictionary after the loop over the builtin jobs. -/
def seededTable (std : Stdlib) (byId : Dict PyStr Fields) : Dict PyStr Fields × Bool :=
  builtinCronJobs.foldl (seedBuiltin std) (byId, false)

theorem nodup_builtinIds : builtinIds.Nodup := by decide

theorem isTable_foldl (builtins : List BuiltinCronJob) (htable : IsTable std state.1) :
    IsTable std (builtins.foldl (seedBuiltin std) state).1 := by
  induction builtins generalizing state with
  | nil => exact htable
  | cons builtin builtins ih =>
    apply ih
    rw [seedBuiltin_fst]
    exact isTable_set htable (idText_seededJob htable builtin)

theorem get?_foldl_of_not_mem (hnone : jobId ∉ builtins.map BuiltinCronJob.jobId)
    (state : Dict PyStr Fields × Bool) :
    (builtins.foldl (seedBuiltin std) state).1.get? jobId = state.1.get? jobId := by
  induction builtins generalizing state with
  | nil => rfl
  | cons builtin builtins ih =>
    rw [List.map_cons, List.mem_cons, not_or] at hnone
    rw [List.foldl_cons, ih hnone.2, seedBuiltin_fst, Dict.get?_set_of_ne _ _ hnone.1]

theorem get?_foldl (hnodup : (builtins.map BuiltinCronJob.jobId).Nodup)
    (hmem : builtin ∈ builtins) (state : Dict PyStr Fields × Bool) :
    (builtins.foldl (seedBuiltin std) state).1.get? builtin.jobId =
      some (seededJob std state.1 builtin) := by
  induction builtins generalizing state with
  | nil => exact absurd hmem List.not_mem_nil
  | cons first builtins ih =>
    rw [List.map_cons, List.nodup_cons] at hnodup
    rw [List.foldl_cons]
    rcases List.mem_cons.mp hmem with rfl | hlater
    · rw [get?_foldl_of_not_mem hnodup.1, seedBuiltin_fst, Dict.get?_set_self]
    · have hne : builtin.jobId ≠ first.jobId := fun heq =>
        hnodup.1 (heq ▸ List.mem_map_of_mem hlater)
      rw [ih hnodup.2 hlater, seededJob, seededJob, seedBuiltin_fst, Dict.get?_set_of_ne _ _ hne]

theorem foldl_of_accepted
    (haccepted : ∀ builtin ∈ builtins, ∃ job, state.1.get? builtin.jobId = some job ∧
      Accepted std builtin job) : builtins.foldl (seedBuiltin std) state = state := by
  induction builtins with
  | nil => rfl
  | cons builtin builtins ih =>
    obtain ⟨⟨job, hjob, hfirst⟩, hrest⟩ := List.forall_mem_cons.mp haccepted
    rw [List.foldl_cons, seedBuiltin_of_accepted hjob hfirst, ih hrest]

theorem isTable_seededTable {byId : Dict PyStr Fields} (htable : IsTable std byId) :
    IsTable std (seededTable std byId).1 :=
  isTable_foldl _ htable

theorem get?_seededTable (byId : Dict PyStr Fields) (hbuiltin : builtin ∈ builtinCronJobs) :
    (seededTable std byId).1.get? builtin.jobId = some (seededJob std byId builtin) :=
  get?_foldl nodup_builtinIds hbuiltin _

/-! ## The list that seeding returns -/

section Ordered

variable {byId : Dict PyStr Fields} (htable : IsTable std byId)
include htable

theorem mem_orderedJobs_iff (job : Fields) :
    job ∈ orderedJobs byId ↔ byId.get? (idText std job) = some job := by
  have hfront : job ∈ builtinIds.filterMap byId.get? ↔
      idText std job ∈ builtinIds ∧ byId.get? (idText std job) = some job := by
    rw [List.mem_filterMap]
    constructor
    · rintro ⟨jobId, hmem, hjob⟩
      rw [htable.idText_of_get? hjob]
      exact ⟨hmem, hjob⟩
    · exact fun h => ⟨_, h⟩
  have hrest : job ∈ (byId.filterKeys (· ∉ builtinIds)).map Prod.snd ↔
      idText std job ∉ builtinIds ∧ byId.get? (idText std job) = some job := by
    rw [List.mem_map]
    constructor
    · rintro ⟨entry, hmem, rfl⟩
      obtain ⟨hentry, hkey⟩ := List.mem_filter.mp hmem
      rw [htable.ids entry hentry]
      exact ⟨of_decide_eq_true hkey, Dict.get?_of_mem htable.nodup hentry⟩
    · rintro ⟨hnone, hjob⟩
      exact ⟨_, List.mem_filter.mpr ⟨Dict.mem_of_get? hjob, decide_eq_true hnone⟩, rfl⟩
  rw [orderedJobs, List.mem_append, hfront, hrest]
  by_cases hid : idText std job ∈ builtinIds <;> simp [hid]

theorem map_idText_rest :
    ((byId.filterKeys (· ∉ builtinIds)).map Prod.snd).map (idText std) =
      byId.keys.filter (· ∉ builtinIds) := by
  have hids : ((byId.filterKeys (· ∉ builtinIds)).map fun entry => idText std entry.2) =
      (byId.filterKeys (· ∉ builtinIds)).map Prod.fst :=
    List.map_congr_left fun entry hentry => htable.ids entry (List.mem_of_mem_filter hentry)
  rw [List.map_map]
  change ((byId.filterKeys (· ∉ builtinIds)).map fun entry => idText std entry.2) = _
  rw [hids, Dict.keys, List.filter_map]
  rfl

theorem idText_of_mem_front (hjob : job ∈ builtinIds.filterMap byId.get?) :
    idText std job ∈ builtinIds := by
  obtain ⟨jobId, hmem, hget⟩ := List.mem_filterMap.mp hjob
  rwa [htable.idText_of_get? hget]

theorem nodup_orderedJobs : ((orderedJobs byId).map (idText std)).Nodup := by
  rw [orderedJobs, List.map_append, map_idText_rest htable, List.nodup_append']
  refine ⟨?_, htable.nodup.filter _, ?_⟩
  · have hsub : ∀ ids : List PyStr,
        ((ids.filterMap byId.get?).map (idText std)).Sublist ids := by
      intro ids
      induction ids with
      | nil => exact List.Sublist.slnil
      | cons jobId ids ih =>
        cases hjob : byId.get? jobId with
        | none =>
          rw [List.filterMap_cons_none hjob]
          exact ih.cons jobId
        | some job =>
          rw [List.filterMap_cons_some hjob, List.map_cons, htable.idText_of_get? hjob]
          exact ih.cons_cons jobId
    exact (hsub builtinIds).nodup nodup_builtinIds
  · intro jobId hfront hrest
    obtain ⟨job, hjob, rfl⟩ := List.mem_map.mp hfront
    exact of_decide_eq_true (List.mem_filter.mp hrest).2 (idText_of_mem_front htable hjob)

/-- Making the dictionary of an ordered list, and ordering it, gives the list back. -/
theorem orderedJobs_jobsById :
    orderedJobs (jobsById std (orderedJobs byId)) = orderedJobs byId := by
  have hnodup := nodup_orderedJobs htable
  have hsame : ∀ jobId, (jobsById std (orderedJobs byId)).get? jobId = byId.get? jobId := by
    intro jobId
    apply Option.ext
    intro job
    have hother := @isTable_jobsById std (orderedJobs byId)
    constructor
    · intro hjob
      have hmem := Dict.mem_of_get? hjob
      rw [jobsById_of_nodup hnodup] at hmem
      obtain ⟨found, hfound, heq⟩ := List.mem_map.mp hmem
      obtain ⟨rfl, rfl⟩ := Prod.ext_iff.mp heq
      exact (mem_orderedJobs_iff htable _).mp hfound
    · intro hjob
      have hid := htable.idText_of_get? hjob
      apply Dict.get?_of_mem hother.nodup
      rw [jobsById_of_nodup hnodup, ← hid]
      exact List.mem_map_of_mem ((mem_orderedJobs_iff htable job).mpr (hid.symm ▸ hjob))
  have hrest : ((jobsById std (orderedJobs byId)).filterKeys (· ∉ builtinIds)).map Prod.snd =
      (byId.filterKeys (· ∉ builtinIds)).map Prod.snd := by
    rw [jobsById_of_nodup hnodup, orderedJobs, List.map_append, Dict.filterKeys,
      List.filter_append, List.map_append]
    have hnone : ((builtinIds.filterMap byId.get?).map fun job => (idText std job, job)).filter
        (fun entry => decide (entry.1 ∉ builtinIds)) = [] := by
      rw [List.filter_eq_nil_iff]
      intro entry hentry
      obtain ⟨job, hjob, rfl⟩ := List.mem_map.mp hentry
      simp [idText_of_mem_front htable hjob]
    have hall : (((byId.filterKeys (· ∉ builtinIds)).map Prod.snd).map
        fun job => (idText std job, job)).filter (fun entry => decide (entry.1 ∉ builtinIds)) =
          ((byId.filterKeys (· ∉ builtinIds)).map Prod.snd).map
            fun job => (idText std job, job) := by
      rw [List.filter_eq_self]
      intro entry hentry
      obtain ⟨job, hjob, rfl⟩ := List.mem_map.mp hentry
      have hid : idText std job ∈ byId.keys.filter (· ∉ builtinIds) :=
        map_idText_rest htable ▸ List.mem_map_of_mem hjob
      exact (List.mem_filter.mp hid).2
    rw [hnone, hall, List.map_nil, List.nil_append, List.map_map]
    exact List.map_id _
  have hfront : builtinIds.filterMap (jobsById std (orderedJobs byId)).get? =
      builtinIds.filterMap byId.get? :=
    List.filterMap_congr fun jobId _ => hsame jobId
  rw [orderedJobs, hrest, hfront]
  rfl

end Ordered

/-- Identifiers are distinct, and every builtin job is there as seeding wants it. -/
structure SettledJobs (std : Stdlib) (jobs : List Fields) : Prop where
  nodup : (jobs.map (idText std)).Nodup
  builtin : ∀ builtin ∈ builtinCronJobs, ∃ job ∈ jobs, idText std job = builtin.jobId ∧
    Accepted std builtin job

theorem seedBuiltinCronJobs_eq (jobs : List Fields) :
    seedBuiltinCronJobs std jobs =
      (orderedJobs (seededTable std (jobsById std jobs)).1,
        (seededTable std (jobsById std jobs)).2) := rfl

theorem settledJobs_seed (jobs : List Fields) : SettledJobs std (seedBuiltinCronJobs std jobs).1 := by
  have hjobs := @isTable_jobsById std jobs
  have htable := isTable_seededTable hjobs
  refine ⟨nodup_orderedJobs htable, fun builtin hbuiltin => ?_⟩
  have hid := idText_seededJob hjobs builtin
  refine ⟨_, (mem_orderedJobs_iff htable _).mpr ?_, hid, accepted_seededJob _ builtin⟩
  rw [hid]
  exact get?_seededTable _ hbuiltin

theorem SettledJobs.get?_jobsById (hsettled : SettledJobs std jobs) (hjob : job ∈ jobs) :
    (jobsById std jobs).get? (idText std job) = some job := by
  apply Dict.get?_of_mem (isTable_jobsById jobs).nodup
  rw [jobsById_of_nodup hsettled.nodup]
  exact List.mem_map_of_mem hjob

theorem SettledJobs.seed_eq (hsettled : SettledJobs std jobs) :
    seedBuiltinCronJobs std jobs = (orderedJobs (jobsById std jobs), false) := by
  have hfixed : seededTable std (jobsById std jobs) = (jobsById std jobs, false) := by
    apply foldl_of_accepted
    intro builtin hbuiltin
    obtain ⟨job, hjob, hid, haccepted⟩ := hsettled.builtin builtin hbuiltin
    exact ⟨job, hid ▸ hsettled.get?_jobsById hjob, haccepted⟩
  rw [seedBuiltinCronJobs_eq, hfixed]

/-- Seeding keeps the jobs of such a list. -/
theorem SettledJobs.mem_seed_iff (hsettled : SettledJobs std jobs) (job : Fields) :
    job ∈ (seedBuiltinCronJobs std jobs).1 ↔ job ∈ jobs := by
  rw [hsettled.seed_eq]
  apply (mem_orderedJobs_iff (isTable_jobsById jobs) job).trans
  refine ⟨fun hjob => ?_, fun hjob => hsettled.get?_jobsById hjob⟩
  have hmem := Dict.mem_of_get? hjob
  rw [jobsById_of_nodup hsettled.nodup] at hmem
  obtain ⟨found, hfound, heq⟩ := List.mem_map.mp hmem
  have hsame : found = job := (Prod.ext_iff.mp heq).2
  exact hsame ▸ hfound

/-- Seeding a seeded list changes nothing. -/
theorem seed_seed (jobs : List Fields) :
    seedBuiltinCronJobs std (seedBuiltinCronJobs std jobs).1 =
      ((seedBuiltinCronJobs std jobs).1, false) := by
  have htable := isTable_seededTable (@isTable_jobsById std jobs)
  rw [(settledJobs_seed jobs).seed_eq, seedBuiltinCronJobs_eq, orderedJobs_jobsById htable]

end RootSeeker.Admin
