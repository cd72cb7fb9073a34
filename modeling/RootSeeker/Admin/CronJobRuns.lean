import RootSeeker.Admin.BuiltinJobs

/-!
# Runs of the cron job calls

Loading, upserting and deleting keep the builtin jobs and touch no other job than
their own, as long as what they write can be encoded, and no identifier that is
not a text reads like the one of an upsert.  A write that cannot be encoded
leaves an empty file behind.
-/

namespace RootSeeker.Admin

open Python Contracts Storage Transition
open Dict (Amendment amendAll)

/-! ## Intact builtin jobs -/

/-- No number stands for a flag of the job. -/
structure FlagsAreBooleans (job : Fields) : Prop where
  builtin : equalsFlag true (job.get? (py "builtin")) = true →
    job.get? (py "builtin") = some (.bool true)
  deletable : equalsFlag false (job.get? (py "deletable")) = true →
    job.get? (py "deletable") = some (.bool false)

/-- Every builtin job is there once, with its own handler and flags. -/
def Intact (std : Stdlib) (jobs : List Fields) : Prop :=
  ∀ builtin ∈ builtinCronJobs, ∃ job,
    jobs.filter (fun other => idText std other = builtin.jobId) = [job] ∧
      job.get? (py "handler") = some (.str builtin.handler) ∧
      job.get? (py "builtin") = some (.bool true) ∧
      job.get? (py "deletable") = some (.bool false)

variable {std : Stdlib}

theorem eq_some_of_equalsText {text : PyStr} {value : Option Json}
    (hequals : equalsText text value = true) : value = some (.str text) := by
  unfold equalsText at hequals
  split at hequals
  · rw [of_decide_eq_true hequals]
  · exact absurd hequals Bool.false_ne_true

section Accepted

variable {builtin : BuiltinCronJob} {job : Fields} (haccepted : Accepted std builtin job)
include haccepted

theorem Accepted.handler : job.get? (py "handler") = some (.str builtin.handler) := by
  have hrefuses := haccepted _ List.mem_cons_self
  rw [Bool.not_eq_false'] at hrefuses
  exact eq_some_of_equalsText hrefuses

theorem Accepted.equalsFlag_builtin : equalsFlag true (job.get? (py "builtin")) = true := by
  have hrefuses := haccepted _ (List.mem_cons_of_mem _ List.mem_cons_self)
  rwa [Bool.not_eq_false'] at hrefuses

theorem Accepted.equalsFlag_deletable : equalsFlag false (job.get? (py "deletable")) = true := by
  have hrefuses := haccepted _ (List.mem_cons_of_mem _ (List.mem_cons_of_mem _ List.mem_cons_self))
  rwa [Bool.not_eq_false'] at hrefuses

theorem Accepted.flagOf_builtin : flagOf job "builtin" false = true := by
  have hflag := haccepted.equalsFlag_builtin
  rw [flagOf]
  cases hvalue : job.get? (py "builtin") with
  | none =>
    rw [hvalue] at hflag
    exact absurd hflag Bool.false_ne_true
  | some value =>
    rw [hvalue] at hflag
    cases value with
    | bool flag => simpa [equalsFlag, Json.truthy] using hflag
    | int number =>
      have hone : number = 1 := by simpa [equalsFlag] using hflag
      simp [Json.truthy, hone]
    | float number =>
      cases number with
      | finite negative magnitude =>
        have hone : magnitude = 1 := by
          have hboth := (Bool.and_eq_true _ _ ▸ hflag :
            (decide (magnitude = (true.toNat : ℚ≥0)) = true) ∧ _)
          simpa using hboth.1
        simp [Json.truthy, PyFloat.truthy, hone]
      | nan => exact absurd hflag Bool.false_ne_true
      | inf negative => exact absurd hflag Bool.false_ne_true
    | _ => exact absurd hflag Bool.false_ne_true

end Accepted

theorem intact_of_settled {jobs : List Fields} (hsettled : SettledJobs std jobs)
    (hflags : ∀ builtin ∈ builtinCronJobs, ∀ job ∈ jobs, idText std job = builtin.jobId →
      FlagsAreBooleans job) : Intact std jobs := by
  intro builtin hbuiltin
  obtain ⟨job, hjob, hid, haccepted⟩ := hsettled.builtin builtin hbuiltin
  have hboolean := hflags builtin hbuiltin job hjob hid
  refine ⟨job, ?_, haccepted.handler, hboolean.builtin haccepted.equalsFlag_builtin,
    hboolean.deletable haccepted.equalsFlag_deletable⟩
  rw [← hid]
  exact KeyedList.filter_key_eq_singleton hsettled.nodup hjob

/-! ## What the seeded jobs come from -/

theorem mem_seed_cases {items : List Fields} {job : Fields}
    (hjob : job ∈ (seedBuiltinCronJobs std items).1) :
    (∃ builtin ∈ builtinCronJobs, idText std job = builtin.jobId ∧
      job = seededJob std (jobsById std items) builtin) ∨
    KeyedList.lookup (idText std) (idText std job) items = some job := by
  have hitems := @isTable_jobsById std items
  have hget := (mem_orderedJobs_iff (isTable_seededTable hitems) job).mp hjob
  by_cases hid : idText std job ∈ builtinIds
  · obtain ⟨builtin, hbuiltin, heq⟩ := List.mem_map.mp hid
    refine .inl ⟨builtin, hbuiltin, heq.symm, ?_⟩
    rw [← heq, get?_seededTable _ hbuiltin] at hget
    exact (Option.some.inj hget).symm
  · rw [seededTable, get?_foldl_of_not_mem hid, get?_jobsById] at hget
    exact .inr hget

theorem seededJob_cases (items : List Fields) (builtin : BuiltinCronJob) :
    seededJob std (jobsById std items) builtin = builtin.job ∨
    ∃ existing, KeyedList.lookup (idText std) builtin.jobId items = some existing ∧
      seededJob std (jobsById std items) builtin =
        (amendAll (builtinAmendments std builtin) existing).1 := by
  rw [seededJob, get?_jobsById]
  cases KeyedList.lookup (idText std) builtin.jobId items with
  | none => exact .inl rfl
  | some existing => exact .inr ⟨existing, rfl, rfl⟩

/-- The last stored job under each builtin identifier has no number for a flag. -/
def BuiltinFlagsAreBooleans (std : Stdlib) (items : List Fields) : Prop :=
  ∀ builtin ∈ builtinCronJobs, ∀ job,
    KeyedList.lookup (idText std) builtin.jobId items = some job → FlagsAreBooleans job

theorem flagsAreBooleans_amendAll (builtin : BuiltinCronJob) {existing : Fields}
    (hflags : FlagsAreBooleans existing) :
    FlagsAreBooleans (amendAll (builtinAmendments std builtin) existing).1 := by
  have hnodup := @nodup_builtinAmendments std builtin
  constructor
  · intro hequals
    have hget := Dict.get?_amendAll hnodup (List.mem_cons_of_mem _ List.mem_cons_self) existing
    change Dict.get? _ (py "builtin") = _ at hget
    rw [hget] at hequals ⊢
    split
    · rfl
    · next hkept =>
      rw [if_neg hkept] at hequals
      exact hflags.builtin hequals
  · intro hequals
    have hget := Dict.get?_amendAll hnodup
      (List.mem_cons_of_mem _ (List.mem_cons_of_mem _ List.mem_cons_self)) existing
    change Dict.get? _ (py "deletable") = _ at hget
    rw [hget] at hequals ⊢
    split
    · rfl
    · next hkept =>
      rw [if_neg hkept] at hequals
      exact hflags.deletable hequals

theorem flagsAreBooleans_seed {items : List Fields} (hflags : BuiltinFlagsAreBooleans std items) :
    ∀ builtin ∈ builtinCronJobs, ∀ job ∈ (seedBuiltinCronJobs std items).1,
      idText std job = builtin.jobId → FlagsAreBooleans job := by
  intro builtin hbuiltin job hjob hid
  rcases mem_seed_cases hjob with ⟨other, -, -, rfl⟩ | hlookup
  · rcases @seededJob_cases std items other with heq | ⟨existing, hexisting, heq⟩
    · rw [heq]
      exact ⟨fun _ => rfl, fun _ => rfl⟩
    · rw [heq]
      refine flagsAreBooleans_amendAll other (hflags builtin hbuiltin existing ?_)
      rw [heq, idText_amendAll, (KeyedList.mem_of_lookup hexisting).2] at hid
      rw [← hid]
      exact hexisting
  · rw [hid] at hlookup
    exact hflags builtin hbuiltin job hlookup

theorem intact_seed {items : List Fields} (hflags : BuiltinFlagsAreBooleans std items) :
    Intact std (seedBuiltinCronJobs std items).1 :=
  intact_of_settled (settledJobs_seed items) (flagsAreBooleans_seed hflags)

/-! ## The job that an upsert stores -/

theorem strip_strip (text : PyStr) : strip (strip text) = strip text :=
  stripBy_idem _ _

theorem strip_textOf (std : Stdlib) (fields : Fields) (key : String) (default : PyStr) :
    strip (textOf std fields key default) = textOf std fields key default :=
  strip_strip _

theorem get?_setDefaults (fields defaults : Fields) (key : PyStr) :
    (setDefaults fields defaults).get? key = (fields.get? key).or (defaults.get? key) :=
  Dict.get?_foldl_setDefault fields defaults key

theorem textOf_eq_of_get? {fields others : Fields} {key : String}
    (hget : fields.get? (py key) = others.get? (py key)) (default : PyStr) :
    textOf std fields key default = textOf std others key default := by
  rw [textOf, textOf, hget]

theorem textOf_str {fields : Fields} {key : String} {text : PyStr}
    (hget : fields.get? (py key) = some (.str text)) (hne : text ≠ []) (default : PyStr) :
    textOf std fields key default = strip text := by
  rw [textOf, hget, truthyText_text std hne]

theorem normalizeCronJob_eq_ok {raw normalized : Fields}
    (hok : normalizeCronJob std raw true = .ok normalized) :
    ∃ metadata, normalized = normalizedJob std raw metadata ∧ textOf std raw "job_id" [] ≠ [] ∧
      textOf std raw "handler" [] ∈ allowedCronHandlers ∧ textOf std raw "schedule" [] ≠ [] ∧
      (metadata = [] ∨ raw.get? (py "metadata") = some (.obj metadata)) := by
  rw [normalizeCronJob] at hok
  simp only [true_and] at hok
  split at hok
  · exact absurd hok (by simp)
  next hid =>
  split at hok
  · exact absurd hok (by simp)
  next hhandler =>
  split at hok
  · exact absurd hok (by simp)
  next hallowed =>
  split at hok
  · exact absurd hok (by simp)
  next hschedule =>
  have hmember : textOf std raw "handler" [] ∈ allowedCronHandlers := by
    by_contra hnone
    exact hallowed ⟨hhandler, hnone⟩
  cases hmetadata : raw.get? (py "metadata") with
  | none =>
    rw [hmetadata] at hok
    exact ⟨[], (Except.ok.inj hok).symm, hid, hmember, hschedule, .inl rfl⟩
  | some value =>
    rw [hmetadata] at hok
    cases value with
    | null => exact ⟨[], (Except.ok.inj hok).symm, hid, hmember, hschedule, .inl rfl⟩
    | obj metadata => exact ⟨metadata, (Except.ok.inj hok).symm, hid, hmember, hschedule, .inr rfl⟩
    | _ => exact absurd hok (by simp)

theorem orText_ne_nil {first second : PyStr} (hsecond : second ≠ []) :
    orText first second ≠ [] := by
  rw [orText]
  split
  · exact hsecond
  · next hfirst => exact hfirst

theorem strip_orText {first second : PyStr} (hfirst : strip first = first)
    (hsecond : strip second = second) : strip (orText first second) = orText first second := by
  rw [orText]
  split
  · exact hsecond
  · exact hfirst

/-- A builtin job that is normalised again is still accepted. -/
theorem accepted_lockedJob {builtin : BuiltinCronJob} {existing raw : Fields} (metadata : Fields)
    (hexisting : existing.get? (py "handler") = some (.str builtin.handler))
    (hhandler : builtin.handler ≠ []) (hid : textOf std raw "job_id" [] ≠ [])
    (hschedule : textOf std raw "schedule" [] ≠ []) :
    Accepted std builtin (lockedJob std existing (normalizedJob std raw metadata)) := by
  have hname := @orText_ne_nil (textOf std raw "name" (textOf std raw "job_id" [])) _ hid
  have htimezone : orText (textOf std raw "timezone" (py "UTC")) (py "UTC") ≠ [] :=
    orText_ne_nil (by decide)
  have hstripName := strip_orText (strip_textOf std raw "name" (textOf std raw "job_id" []))
    (strip_textOf std raw "job_id" [])
  have hstripTimezone := strip_orText (strip_textOf std raw "timezone" (py "UTC"))
    (by decide : strip (py "UTC") = py "UTC")
  have hlocked : (lockedJob std existing (normalizedJob std raw metadata)).get? (py "handler") =
      some (.str builtin.handler) := by
    rw [lockedJob, Dict.get?_set_self, hexisting, truthyText_text std hhandler]
  simp only [Accepted, builtinAmendments, List.forall_mem_cons]
  refine ⟨?_, rfl, rfl, rfl, ?_, ?_, ?_, ?_, fun _ hmem => absurd hmem List.not_mem_nil⟩
  · rw [hlocked]
    simp [equalsText]
  · exact isBlank_str (by rwa [strip_textOf])
  · exact isBlank_str (by rwa [hstripName])
  · exact isBlank_str (by rwa [hstripTimezone])
  · rfl

theorem handler_ne_nil {builtin : BuiltinCronJob} (hbuiltin : builtin ∈ builtinCronJobs) :
    builtin.handler ≠ [] := by
  have hall : (builtinCronJobs.all fun builtin => builtin.handler ≠ []) = true := by decide
  exact of_decide_eq_true (List.all_eq_true.mp hall builtin hbuiltin)

theorem mem_of_findJob {jobs : List Fields} {jobId : PyStr} {job : Fields}
    (hfound : findJob jobs jobId = some job) :
    job ∈ jobs ∧ job.get? (py "job_id") = some (.str jobId) := by
  rw [findJob] at hfound
  have hequals := List.find?_some hfound
  exact ⟨List.mem_of_find?_eq_some hfound, eq_some_of_equalsText hequals⟩

theorem idText_of_get? {job : Fields} {jobId : PyStr}
    (hget : job.get? (py "job_id") = some (.str jobId)) : idText std job = jobId := by
  rw [idText, hget]
  rfl

theorem SettledJobs.eq_of_idText {jobs : List Fields} (hsettled : SettledJobs std jobs)
    {job other : Fields} (hjob : job ∈ jobs) (hother : other ∈ jobs)
    (hsame : idText std job = idText std other) : job = other :=
  List.inj_on_of_nodup_map hsettled.nodup hjob hother hsame

theorem createdJob_eq_ok {raw normalized : Fields}
    (hok : createdJob std raw = .ok normalized) : normalizeCronJob std raw true = .ok normalized := by
  rw [createdJob] at hok
  cases hnormalized : normalizeCronJob std raw true with
  | error error =>
    rw [hnormalized] at hok
    exact absurd hok (by simp)
  | ok found =>
    rw [hnormalized] at hok
    simp only at hok
    split at hok
    · exact absurd hok (by simp)
    · exact hok

theorem isHexChar_spec {c : CodePoint} (hc : isHexChar c = true) :
    isSpace c = false ∧ isSurrogate c = false ∧ c ≠ CodePoint.ofChar '-' := by
  simp only [isHexChar, isDigit, Bool.or_eq_true, Bool.and_eq_true, decide_eq_true_eq] at hc
  refine ⟨?_, ?_, ?_⟩
  · simp only [isSpace, Bool.or_eq_false_iff, Bool.and_eq_false_iff, decide_eq_false_iff_not]
    omega
  · simp only [isSurrogate, Bool.and_eq_false_iff, decide_eq_false_iff_not]
    omega
  · rintro rfl
    exact absurd hc (by decide)

section Target

variable (generated : HexText)

theorem strip_generatedId : strip (py "cron." ++ generated) = py "cron." ++ generated := by
  apply stripBy_eq_self_of_forall
  intro c hc
  rcases List.mem_append.mp hc with hletter | hhex
  · have hletters : (py "cron.").all (!isSpace ·) = true := by decide
    simpa using List.all_eq_true.mp hletters c hletter
  · exact (isHexChar_spec (List.all_eq_true.mp generated.property c hhex)).1

theorem generatedId_not_mem_builtinIds : py "cron." ++ generated.val ∉ builtinIds := by
  intro hmem
  have hdash : CodePoint.ofChar '-' ∈ py "cron." ++ generated.val := by
    have hall : (builtinIds.all fun jobId => jobId.contains (CodePoint.ofChar '-')) = true := by
      decide
    simpa using List.all_eq_true.mp hall _ hmem
  rcases List.mem_append.mp hdash with hletter | hhex
  · exact absurd hletter (by decide)
  · exact (isHexChar_spec (List.all_eq_true.mp generated.property _ hhex)).2.2 rfl

theorem strip_targetOf (job : Fields) : strip (targetOf std job generated) =
    targetOf std job generated := by
  rw [targetOf]
  split
  · exact strip_generatedId generated
  · exact strip_textOf std job "job_id" []

theorem targetOf_ne_nil (job : Fields) : targetOf std job generated ≠ [] := by
  rw [targetOf]
  split
  · simp [py]
  · next hne => exact hne

end Target

/-- A builtin job keeps its identifier when it is edited. -/
theorem get?_editBuiltin_jobId (existing incoming : Fields) (jobId : PyStr) :
    (editBuiltin std existing incoming jobId).get? (py "job_id") = existing.get? (py "job_id") := by
  apply Dict.get?_update_of_not_mem
  have hkeys : ∀ edit ∈ builtinEdits std existing incoming jobId,
      edit.map Prod.fst ≠ some (py "job_id") := by
    have hedited : ∀ {key : String} {α : Type} (value : Option α) (result : α → Json),
        py key ≠ py "job_id" →
          (value.map fun found => (py key, result found)).map Prod.fst ≠ some (py "job_id") := by
      intro key α value result hne
      cases value with
      | none => exact (by simp)
      | some found => exact fun heq => hne (Option.some.inj heq)
    simp only [builtinEdits, List.forall_mem_cons]
    refine ⟨hedited _ _ (by decide), hedited _ _ (by decide), hedited _ _ (by decide),
      hedited _ _ (by decide), hedited _ _ (by decide), ?_,
      fun _ hmem => absurd hmem List.not_mem_nil⟩
    split
    · have hne : py "metadata" ≠ py "job_id" := by decide
      exact fun heq => hne (Option.some.inj heq)
    · simp
  intro hmem
  obtain ⟨edit, hedit, heq⟩ := List.mem_map.mp hmem
  have hfound := List.reduceOption_mem_iff.mp hedit
  exact hkeys _ hfound (congrArg some heq)

/-- What is known of the job that an upsert stores. -/
structure Upserted (std : Stdlib) (target : PyStr) (normalized : Fields) : Prop where
  jobId : normalized.get? (py "job_id") = some (.str target)
  builtin : ∀ builtin ∈ builtinCronJobs, builtin.jobId = target →
    Accepted std builtin normalized ∧ FlagsAreBooleans normalized

theorem upserted_created {target : PyStr} {raw normalized : Fields}
    (hok : createdJob std raw = .ok normalized) (hid : textOf std raw "job_id" [] = target)
    (hcustom : target ∉ builtinIds) : Upserted std target normalized := by
  obtain ⟨metadata, rfl, -⟩ := normalizeCronJob_eq_ok (createdJob_eq_ok hok)
  refine ⟨hid ▸ rfl, fun builtin hbuiltin heq => absurd ?_ hcustom⟩
  rw [← heq]
  exact List.mem_map_of_mem hbuiltin

/-- An upsert of a builtin job keeps what is locked; any other upsert is not about one. -/
theorem upserted_upsertedJob {jobs : List Fields} (hsettled : SettledJobs std jobs)
    {job normalized : Fields} {generated : HexText}
    (hlook : ∀ other ∈ jobs, idText std other = targetOf std job generated →
      other.get? (py "job_id") = some (.str (targetOf std job generated)))
    (hok : upsertedJob std jobs job generated = .ok normalized) :
    Upserted std (targetOf std job generated) normalized := by
  -- A builtin job with the target's identifier is found, and is builtin.
  have hbuiltinFound : ∀ builtin ∈ builtinCronJobs, builtin.jobId = targetOf std job generated →
      ∃ found, findJob jobs (targetOf std job generated) = some found := by
    intro builtin hbuiltin heq
    obtain ⟨other, hother, hid, -⟩ := hsettled.builtin builtin hbuiltin
    have hget := hlook other hother (hid.trans heq)
    rw [← Option.isSome_iff_exists, findJob, List.find?_isSome]
    exact ⟨other, hother, by rw [hget]; simp [equalsText]⟩
  have hacceptedOf : ∀ builtin ∈ builtinCronJobs, builtin.jobId = targetOf std job generated →
      ∀ existing, findJob jobs (targetOf std job generated) = some existing →
        Accepted std builtin existing := by
    intro builtin hbuiltin heq existing hexisting
    obtain ⟨other, hother, hid, haccepted⟩ := hsettled.builtin builtin hbuiltin
    obtain ⟨hmem, hget⟩ := mem_of_findJob hexisting
    rwa [hsettled.eq_of_idText hmem hother ((idText_of_get? hget).trans (heq.symm.trans hid.symm))]
  rw [upsertedJob] at hok
  simp only at hok
  have hblank : textOf std job "job_id" [] = [] →
      targetOf std job generated = py "cron." ++ generated := fun h => by rw [targetOf]; simp [h]
  have hgiven : textOf std job "job_id" [] ≠ [] →
      targetOf std job generated = textOf std job "job_id" [] := fun h => by
    rw [targetOf]; simp [h]
  cases hfound : findJob jobs (textOf std job "job_id" []) with
  | none =>
    rw [hfound] at hok
    simp only at hok
    by_cases hid : textOf std job "job_id" [] = []
    · rw [if_pos hid] at hok
      refine upserted_created hok ?_ ?_
      · rw [hblank hid]
        refine (textOf_str ?_ (by simp [py]) []).trans (strip_generatedId generated)
        rw [get?_setDefaults, Dict.get?_set_self]
        rfl
      · rw [hblank hid]
        exact generatedId_not_mem_builtinIds generated
    · rw [if_neg hid] at hok
      refine upserted_created hok ?_ ?_
      · rw [hgiven hid]
        refine textOf_eq_of_get? ?_ []
        rw [get?_setDefaults]
        exact Option.or_none
      · intro hmem
        obtain ⟨builtin, hbuiltin, heq⟩ := List.mem_map.mp hmem
        obtain ⟨found, hother⟩ := hbuiltinFound builtin hbuiltin heq
        rw [hgiven hid, hfound] at hother
        exact absurd hother (by simp)
  | some existing =>
    rw [hfound] at hok
    simp only at hok
    obtain ⟨hmem, hget⟩ := mem_of_findJob hfound
    split at hok
    · next hflag =>
      cases hnormalized : normalizeCronJob std
          (editBuiltin std existing job (textOf std job "job_id" [])) true with
      | error error =>
        rw [hnormalized] at hok
        exact absurd hok (by simp)
      | ok found =>
        rw [hnormalized] at hok
        obtain rfl := Except.ok.inj hok
        obtain ⟨metadata, rfl, hid, -, hschedule, -⟩ := normalizeCronJob_eq_ok hnormalized
        have hedited := @get?_editBuiltin_jobId std existing job (textOf std job "job_id" [])
        have hne : textOf std job "job_id" [] ≠ [] := by
          intro hnil
          apply hid
          rw [textOf, hedited, hget, hnil]
          rfl
        have hsame : textOf std (editBuiltin std existing job (textOf std job "job_id" []))
            "job_id" [] = targetOf std job generated := by
          rw [hgiven hne, textOf_str (hedited.trans hget) hne, strip_textOf]
        refine ⟨hsame ▸ rfl, fun builtin hbuiltin heq => ⟨?_, fun _ => rfl, fun _ => rfl⟩⟩
        have haccepted := hacceptedOf builtin hbuiltin heq existing (hgiven hne ▸ hfound)
        exact accepted_lockedJob metadata haccepted.handler (handler_ne_nil hbuiltin) hid hschedule
    · next hflag =>
      have hraw : (setDefaults job (existingDefaults existing)).get? (py "job_id") =
          job.get? (py "job_id") := by
        rw [get?_setDefaults]
        exact Option.or_none
      obtain ⟨metadata, -, hid, -⟩ := normalizeCronJob_eq_ok (createdJob_eq_ok hok)
      rw [textOf_eq_of_get? hraw] at hid
      refine upserted_created hok ?_ ?_
      · rw [hgiven hid, textOf_eq_of_get? hraw]
      · intro hcustom
        obtain ⟨builtin, hbuiltin, heq⟩ := List.mem_map.mp hcustom
        have haccepted := hacceptedOf builtin hbuiltin heq existing (hgiven hid ▸ hfound)
        exact hflag haccepted.flagOf_builtin

/-! ## What can be written -/

theorem itemsEncodable_iff (items : List Json) :
    itemsEncodable items = true ↔ ∀ item ∈ items, jsonEncodable item = true := by
  induction items with
  | nil => simp [itemsEncodable]
  | cons item rest ih => rw [itemsEncodable, Bool.and_eq_true, ih, List.forall_mem_cons]

theorem fieldsEncodable_iff (fields : Fields) : fieldsEncodable fields = true ↔
    ∀ entry ∈ fields, Encodable entry.1 ∧ jsonEncodable entry.2 = true := by
  induction fields with
  | nil => simp [fieldsEncodable]
  | cons entry rest ih =>
    obtain ⟨key, value⟩ := entry
    rw [fieldsEncodable, Bool.and_eq_true, Bool.and_eq_true, ih, List.forall_mem_cons,
      decide_eq_true_eq]

theorem jsonEncodable_of_get? {fields : Fields} (hfields : fieldsEncodable fields = true)
    {key : PyStr} {value : Json} (hvalue : fields.get? key = some value) :
    jsonEncodable value = true :=
  ((fieldsEncodable_iff fields).mp hfields _ (Dict.mem_of_get? hvalue)).2

theorem jsonEncodable_str {text : PyStr} : jsonEncodable (.str text) = true ↔ Encodable text := by
  rw [jsonEncodable, decide_eq_true_eq]

theorem fieldsEncodable_set {fields : Fields} (hfields : fieldsEncodable fields = true)
    {key : PyStr} {value : Json} (hkey : Encodable key) (hvalue : jsonEncodable value = true) :
    fieldsEncodable (fields.set key value) = true := by
  rw [fieldsEncodable_iff] at hfields ⊢
  exact Dict.forall_mem_set _ hfields ⟨hkey, hvalue⟩

theorem fieldsEncodable_setDefaults {fields defaults : Fields}
    (hfields : fieldsEncodable fields = true) (hdefaults : fieldsEncodable defaults = true) :
    fieldsEncodable (setDefaults fields defaults) = true := by
  rw [setDefaults]
  induction defaults generalizing fields with
  | nil => exact hfields
  | cons entry defaults ih =>
    rw [fieldsEncodable_iff, List.forall_mem_cons] at hdefaults
    apply ih _ ((fieldsEncodable_iff defaults).mpr hdefaults.2)
    simp only [Dict.setDefault]
    split
    · exact hfields
    · exact fieldsEncodable_set hfields hdefaults.1.1 hdefaults.1.2

/-- The payload keys whose texts are written. -/
def textKeys : List PyStr :=
  [py "job_id", py "name", py "schedule", py "timezone", py "notes"]

/-- The texts and the metadata of a payload can be written. -/
structure Plain (std : Stdlib) (fields : Fields) : Prop where
  text : ∀ key ∈ textKeys, ∀ value, fields.get? key = some value → Encodable (str std value)
  metadata : ∀ metadata, fields.get? (py "metadata") = some (.obj metadata) →
    fieldsEncodable metadata = true

theorem encodable_textOf {fields : Fields} {key : String} {default : PyStr}
    (hvalue : ∀ value, fields.get? (py key) = some value → Encodable (str std value))
    (hdefault : Encodable default) : Encodable (textOf std fields key default) := by
  rw [textOf, encodable_strip_iff]
  cases hget : fields.get? (py key) with
  | none =>
    rw [truthyText_none]
    by_cases hne : default = []
    · rw [hne, truthyText_empty]
      exact encodable_nil
    · rwa [truthyText_text std hne]
  | some value =>
    cases htruthy : value.truthy with
    | true =>
      rw [truthyText_truthy std htruthy]
      exact hvalue value hget
    | false =>
      rw [truthyText_falsy std htruthy]
      by_cases hne : default = []
      · rw [hne, truthyText_empty]
        exact encodable_nil
      · rwa [truthyText_text std hne]

theorem encodable_orText {first second : PyStr} (hfirst : Encodable first)
    (hsecond : Encodable second) : Encodable (orText first second) := by
  rw [orText]
  split
  · exact hsecond
  · exact hfirst

theorem encodable_handler {handler : PyStr} (hallowed : handler ∈ allowedCronHandlers) :
    Encodable handler := by
  have hall : (allowedCronHandlers.all (Encodable ·)) = true := by decide
  exact of_decide_eq_true (List.all_eq_true.mp hall handler hallowed)

theorem Plain.textOf {fields : Fields} (hplain : Plain std fields) {key : String}
    (hkey : py key ∈ textKeys) {default : PyStr} (hdefault : Encodable default) :
    Encodable (textOf std fields key default) :=
  encodable_textOf (hplain.text _ hkey) hdefault

theorem fieldsEncodable_normalizedJob {raw metadata : Fields} (hplain : Plain std raw)
    (hhandler : textOf std raw "handler" [] ∈ allowedCronHandlers)
    (hmetadata : fieldsEncodable metadata = true) :
    fieldsEncodable (normalizedJob std raw metadata) = true := by
  have hid := @Plain.textOf _ _ hplain "job_id" (by decide) _ encodable_nil
  have hname := encodable_orText (@Plain.textOf _ _ hplain "name" (by decide) _ hid) hid
  have hzone := encodable_orText (@Plain.textOf _ _ hplain "timezone" (by decide) _
    (encodable_py "UTC")) (encodable_py "UTC")
  simp only [fieldsEncodable_iff, normalizedJob, List.forall_mem_cons, jsonEncodable_str]
  exact ⟨⟨encodable_py _, hid⟩, ⟨encodable_py _, hname⟩,
    ⟨encodable_py _, encodable_handler hhandler⟩,
    ⟨encodable_py _, hplain.textOf (by decide) encodable_nil⟩, ⟨encodable_py _, hzone⟩,
    ⟨encodable_py _, rfl⟩, ⟨encodable_py _, rfl⟩, ⟨encodable_py _, rfl⟩,
    ⟨encodable_py _, hplain.textOf (by decide) encodable_nil⟩, ⟨encodable_py _, hmetadata⟩,
    fun _ hmem => absurd hmem List.not_mem_nil⟩

theorem fieldsEncodable_of_normalized {raw normalized : Fields} (hplain : Plain std raw)
    (hok : normalizeCronJob std raw true = .ok normalized) : fieldsEncodable normalized = true := by
  obtain ⟨metadata, rfl, -, hhandler, -, hmetadata⟩ := normalizeCronJob_eq_ok hok
  apply fieldsEncodable_normalizedJob hplain hhandler
  rcases hmetadata with rfl | hmetadata
  · rfl
  · exact hplain.metadata metadata hmetadata

/-- What an upsert keeps of the job it replaces can be written. -/
theorem fieldsEncodable_existingDefaults {existing : Fields}
    (hexisting : fieldsEncodable existing = true) :
    fieldsEncodable (existingDefaults existing) = true := by
  have hkept : ∀ (key : String) (default : Json), jsonEncodable default = true →
      jsonEncodable ((existing.get? (py key)).getD default) = true := by
    intro key default hdefault
    cases hvalue : existing.get? (py key) with
    | none => exact hdefault
    | some value => exact jsonEncodable_of_get? hexisting hvalue
  have hor : ∀ (key : String) (default : Json), jsonEncodable default = true →
      jsonEncodable (orValue (existing.get? (py key)) default) = true := by
    intro key default hdefault
    rw [orValue]
    cases hvalue : (existing.get? (py key)).filter Json.truthy with
    | none => exact hdefault
    | some value => exact jsonEncodable_of_get? hexisting (Option.eq_some_of_filter_eq_some hvalue)
  simp only [fieldsEncodable_iff, existingDefaults, List.forall_mem_cons]
  exact ⟨⟨encodable_py _, rfl⟩, ⟨encodable_py _, rfl⟩, ⟨encodable_py _, hkept _ _ rfl⟩,
    ⟨encodable_py _, hkept _ _ rfl⟩, ⟨encodable_py _, hkept _ _ rfl⟩,
    ⟨encodable_py _, hkept _ _ rfl⟩, ⟨encodable_py _, hkept _ _ rfl⟩,
    ⟨encodable_py _, hor _ _ rfl⟩, ⟨encodable_py _, hor _ _ rfl⟩,
    fun _ hmem => absurd hmem List.not_mem_nil⟩

section Printing

variable (hfloat : ∀ number, Encodable (std.floatRepr number))
include hfloat

theorem encodable_str {value : Json} (hvalue : jsonEncodable value = true) :
    Encodable (str std value) := by
  cases value with
  | str text => exact jsonEncodable_str.mp hvalue
  | _ => exact encodable_repr hfloat _

theorem plain_or {fields defaults others : Fields} (hplain : Plain std fields)
    (hdefaults : fieldsEncodable defaults = true)
    (hget : ∀ key, others.get? key = (fields.get? key).or (defaults.get? key)) :
    Plain std others where
  text key hkey value hvalue := by
    rw [hget, Option.or_eq_some_iff] at hvalue
    rcases hvalue with hown | ⟨-, hdefault⟩
    · exact hplain.text key hkey value hown
    · exact encodable_str hfloat (jsonEncodable_of_get? hdefaults hdefault)
  metadata metadata hvalue := by
    rw [hget, Option.or_eq_some_iff] at hvalue
    rcases hvalue with hown | ⟨-, hdefault⟩
    · exact hplain.metadata metadata hown
    · exact jsonEncodable_of_get? hdefaults hdefault

theorem plain_of_fieldsEncodable {fields : Fields} (hfields : fieldsEncodable fields = true) :
    Plain std fields where
  text _ _ _ hvalue := encodable_str hfloat (jsonEncodable_of_get? hfields hvalue)
  metadata _ hvalue := jsonEncodable_of_get? hfields hvalue

theorem plain_editBuiltin {existing job : Fields} {jobId : PyStr}
    (hexisting : fieldsEncodable existing = true) (hplain : Plain std job)
    (hid : Encodable jobId) : Plain std (editBuiltin std existing job jobId) := by
  have hname : Encodable (orText (strip (truthyText std
      [job.get? (py "name"), existing.get? (py "name"), some (.str jobId)])) jobId) := by
    refine encodable_orText ?_ hid
    rw [encodable_strip_iff, truthyText]
    cases hfound : [job.get? (py "name"), existing.get? (py "name"), some (Json.str jobId)].findSome?
        (Option.filter Json.truthy) with
    | none => exact encodable_nil
    | some value =>
      obtain ⟨candidate, hmem, hcandidate⟩ := List.exists_of_findSome?_eq_some hfound
      have hvalue := Option.eq_some_of_filter_eq_some hcandidate
      rcases List.mem_cons.mp hmem with rfl | hmem
      · exact hplain.text _ (by decide) value hvalue
      rcases List.mem_cons.mp hmem with rfl | hmem
      · exact encodable_str hfloat (jsonEncodable_of_get? hexisting hvalue)
      · rw [List.mem_singleton] at hmem
        obtain rfl := Option.some.inj (hmem.symm.trans hvalue)
        exact hid
  have hedits : ∀ edit ∈ builtinEdits std existing job jobId, ∀ entry, edit = some entry →
      Encodable entry.1 ∧ jsonEncodable entry.2 = true := by
    have hedited : ∀ (key : String) {α : Type} (value : Option α) (result : α → Json),
        (∀ found, jsonEncodable (result found) = true) →
          ∀ entry, (value.map fun found => (py key, result found)) = some entry →
            Encodable entry.1 ∧ jsonEncodable entry.2 = true := by
      intro key α value result hresult entry hentry
      obtain ⟨found, -, rfl⟩ := Option.map_eq_some_iff.mp hentry
      exact ⟨encodable_py key, hresult found⟩
    simp only [builtinEdits, List.forall_mem_cons]
    refine ⟨hedited _ _ _ fun _ => jsonEncodable_str.mpr hname,
      hedited _ _ _ fun _ => jsonEncodable_str.mpr (hplain.textOf (by decide) encodable_nil),
      hedited _ _ _ fun _ => jsonEncodable_str.mpr (encodable_orText
        (hplain.textOf (by decide) (encodable_py "UTC")) (encodable_py "UTC")),
      hedited _ _ _ fun _ => rfl,
      hedited _ _ _ fun _ => jsonEncodable_str.mpr (hplain.textOf (by decide) encodable_nil),
      ?_, fun _ hmem => absurd hmem List.not_mem_nil⟩
    intro entry hentry
    cases hmetadata : job.get? (py "metadata") with
    | none =>
      rw [hmetadata] at hentry
      exact absurd hentry (by simp)
    | some value =>
      rw [hmetadata] at hentry
      cases value with
      | obj fields =>
        obtain rfl := Option.some.inj hentry
        exact ⟨encodable_py _, hplain.metadata fields hmetadata⟩
      | _ => exact absurd hentry (by simp)
  have hupdates : fieldsEncodable (builtinEdits std existing job jobId).reduceOption = true := by
    rw [fieldsEncodable_iff]
    intro entry hentry
    exact hedits _ (List.reduceOption_mem_iff.mp hentry) entry rfl
  have hvalues : ∀ key value, (editBuiltin std existing job jobId).get? key = some value →
      jsonEncodable value = true := by
    intro key value hvalue
    rcases Dict.mem_or_get?_of_get?_update hvalue with hnew | hold
    · exact ((fieldsEncodable_iff _).mp hupdates _ hnew).2
    · exact jsonEncodable_of_get? hexisting hold
  exact ⟨fun key _ value hvalue => encodable_str hfloat (hvalues key value hvalue),
    fun metadata hvalue => hvalues _ _ hvalue⟩

/-- The job that an upsert stores can be written, if the payload and the stored jobs can. -/
theorem fieldsEncodable_upsertedJob {jobs : List Fields} {job normalized : Fields}
    {generated : HexText} (hjobs : ∀ other ∈ jobs, fieldsEncodable other = true)
    (hplain : Plain std job) (hok : upsertedJob std jobs job generated = .ok normalized) :
    fieldsEncodable normalized = true := by
  have hid : Encodable (textOf std job "job_id" []) := hplain.textOf (by decide) encodable_nil
  rw [upsertedJob] at hok
  simp only at hok
  cases hfound : findJob jobs (textOf std job "job_id" []) with
  | none =>
    rw [hfound] at hok
    simp only at hok
    refine fieldsEncodable_of_normalized (plain_or hfloat ?_ (by rfl : fieldsEncodable
      newJobDefaults = true) (get?_setDefaults _ _)) (createdJob_eq_ok hok)
    split
    · have hnew : Encodable (py "cron." ++ generated.val) := encodable_append.mpr
        ⟨encodable_py _, fun c hc =>
          (isHexChar_spec (List.all_eq_true.mp generated.property c hc)).2.1⟩
      constructor
      · intro key hkey value hvalue
        by_cases hsame : key = py "job_id"
        · subst hsame
          rw [Dict.get?_set_self] at hvalue
          obtain rfl := Option.some.inj hvalue
          exact hnew
        · rw [Dict.get?_set_of_ne _ _ hsame] at hvalue
          exact hplain.text key hkey value hvalue
      · intro metadata hvalue
        rw [Dict.get?_set_of_ne _ _ (by decide)] at hvalue
        exact hplain.metadata metadata hvalue
    · exact hplain
  | some existing =>
    rw [hfound] at hok
    simp only at hok
    have hexisting := hjobs existing (mem_of_findJob hfound).1
    split at hok
    · cases hnormalized : normalizeCronJob std
          (editBuiltin std existing job (textOf std job "job_id" [])) true with
      | error error =>
        rw [hnormalized] at hok
        exact absurd hok (by simp)
      | ok found =>
        rw [hnormalized] at hok
        obtain rfl := Except.ok.inj hok
        have hfields := fieldsEncodable_of_normalized
          (plain_editBuiltin hfloat hexisting hplain hid) hnormalized
        obtain ⟨metadata, rfl, -, hhandler, -⟩ := normalizeCronJob_eq_ok hnormalized
        refine fieldsEncodable_set (fieldsEncodable_set (fieldsEncodable_set hfields
          (encodable_py _) rfl) (encodable_py _) rfl) (encodable_py _) ?_
        rw [jsonEncodable_str, truthyText]
        cases hsome : [existing.get? (py "handler"), (normalizedJob std _ metadata).get?
            (py "handler")].findSome? (Option.filter Json.truthy) with
        | none => exact encodable_nil
        | some value =>
          obtain ⟨candidate, hmem, hcandidate⟩ := List.exists_of_findSome?_eq_some hsome
          have hvalue := Option.eq_some_of_filter_eq_some hcandidate
          rcases List.mem_cons.mp hmem with rfl | hmem
          · exact encodable_str hfloat (jsonEncodable_of_get? hexisting hvalue)
          · rw [List.mem_singleton] at hmem
            exact encodable_str hfloat (jsonEncodable_of_get? hfields (hmem ▸ hvalue))
    · exact fieldsEncodable_of_normalized (plain_or hfloat hplain
        (fieldsEncodable_existingDefaults hexisting) (get?_setDefaults _ _))
        (createdJob_eq_ok hok)

end Printing

theorem fieldsEncodable_seed {items : List Fields}
    (hitems : ∀ item ∈ items, fieldsEncodable item = true) :
    ∀ job ∈ (seedBuiltinCronJobs std items).1, fieldsEncodable job = true := by
  have hbuiltins : ∀ builtin ∈ builtinCronJobs, fieldsEncodable builtin.job = true := by
    have hall : (builtinCronJobs.all fun builtin => fieldsEncodable builtin.job) = true := by
      decide +kernel
    exact List.all_eq_true.mp hall
  intro job hjob
  rcases mem_seed_cases hjob with ⟨builtin, hbuiltin, -, rfl⟩ | hlookup
  · rcases @seededJob_cases std items builtin with heq | ⟨existing, hexisting, heq⟩
    · rw [heq]
      exact hbuiltins builtin hbuiltin
    · rw [heq, fieldsEncodable_iff]
      apply Dict.forall_mem_amendAll
      · exact (fieldsEncodable_iff _).mp (hitems _ (KeyedList.mem_of_lookup hexisting).1)
      · intro amendment hamendment
        have hvalue := @get?_job std builtin amendment hamendment
        exact (fieldsEncodable_iff _).mp (hbuiltins builtin hbuiltin) _ (Dict.mem_of_get? hvalue)
  · exact hitems job (KeyedList.mem_of_lookup hlookup).1

theorem fieldsEncodable_withCronJobs {data : Fields} {jobs : List Fields}
    (hdata : fieldsEncodable data = true) (hjobs : ∀ job ∈ jobs, fieldsEncodable job = true) :
    fieldsEncodable (withCronJobs data jobs) = true := by
  refine fieldsEncodable_set hdata (encodable_py _) ?_
  rw [jsonEncodable, itemsEncodable_iff]
  intro item hitem
  obtain ⟨job, hjob, rfl⟩ := List.mem_map.mp hitem
  exact hjobs job hjob

theorem fieldsEncodable_objectsIn {value : Option Json} {items : List Fields}
    (hvalue : ∀ found, value = some found → jsonEncodable found = true)
    (hitems : objectsIn value = .ok items) : ∀ item ∈ items, fieldsEncodable item = true := by
  intro item hitem
  cases value with
  | none => exact absurd hitems (by simp [objectsIn])
  | some found =>
    have hfound := hvalue found rfl
    cases found with
    | arr elements =>
      obtain rfl := Except.ok.inj hitems
      obtain ⟨element, helement, heq⟩ := List.mem_filterMap.mp hitem
      have hplain := (itemsEncodable_iff elements).mp hfound element helement
      cases element with
      | obj fields =>
        obtain rfl := Option.some.inj heq
        exact hplain
      | _ => exact absurd heq (by simp)
    | str text =>
      obtain rfl := Except.ok.inj hitems
      exact absurd hitem List.not_mem_nil
    | obj fields =>
      obtain rfl := Except.ok.inj hitems
      exact absurd hitem List.not_mem_nil
    | _ => exact absurd hitems (by simp [objectsIn])

/-! ## The calls -/

inductive CronCall where
  | load
  | upsert (job : Fields) (generated : HexText)
  | delete (jobId : PyStr)

/-- The exception of a call. -/
def raised {α : Type} : Except PyError α → Option PyError
  | .ok _ => none
  | .error error => some error

/-- The state after a call, and its exception. -/
def CronCall.perform (std : Stdlib) (backend : Backend) (stored : Stored) :
    CronCall → Stored × Option PyError
  | .load => (Admin.load std backend stored).map id raised
  | .upsert job generated => (upsertCronJob std backend stored job generated).map id raised
  | .delete jobId => (deleteCronJob std backend stored jobId).map id raised

/-- The identifier that a call is about. -/
def CronCall.target (std : Stdlib) : CronCall → Option PyStr
  | .load => none
  | .upsert job generated => some (targetOf std job generated)
  | .delete jobId => some jobId

/-- The data that a call starts from. -/
def storedData : Stored → Option Fields
  | .absent => some emptyAdminData
  | .unreadable => none
  | .document data => some data

/-- The objects in the stored list. -/
def storedItems (stored : Stored) : Option (List Fields) :=
  (storedData stored).bind fun data =>
    (objectsIn ((setDefaults data emptyAdminData).get? (py "cron_jobs"))).toOption

/-- The jobs that loading shows. -/
def loadedJobs (std : Stdlib) (stored : Stored) : Option (List Fields) :=
  (storedItems stored).map fun items => (seedBuiltinCronJobs std items).1

/-- The call has something to write besides what seeding restores. -/
def CronCall.Accepted (std : Stdlib) (jobs : List Fields) : CronCall → Prop
  | .load => False
  | .upsert job generated => ∃ normalized, upsertedJob std jobs job generated = .ok normalized
  | .delete jobId => ∃ remaining, remainingJobs jobs jobId = .ok remaining

/-- What a call relies on. -/
structure Meets (std : Stdlib) (backend : Backend) (stored : Stored) (call : CronCall) :
    Prop where
  /-- The stored builtin jobs have no number for a flag. -/
  flags : ∀ items, storedItems stored = some items → BuiltinFlagsAreBooleans std items
  /-- What is stored can be written to a file again, if the call writes at all. -/
  encodes : backend = .file → ∀ data items, storedData stored = some data →
    storedItems stored = some items →
      (seedBuiltinCronJobs std items).2 = true ∨
        call.Accepted std (seedBuiltinCronJobs std items).1 → fieldsEncodable data = true
  /-- An upsert that is accepted can be written to a file. -/
  plain : backend = .file → ∀ job generated items, call = .upsert job generated →
    storedItems stored = some items → call.Accepted std (seedBuiltinCronJobs std items).1 →
      Plain std job
  /-- Only a text reads like the identifier of an upsert that is accepted. -/
  target : ∀ job generated items, call = .upsert job generated →
    storedItems stored = some items → call.Accepted std (seedBuiltinCronJobs std items).1 →
      ∀ other, KeyedList.lookup (idText std) (targetOf std job generated) items = some other →
        other.get? (py "job_id") = some (.str (targetOf std job generated))

/-- What a call keeps. -/
structure Keeps (std : Stdlib) (backend : Backend) (stored : Stored) (call : CronCall)
    (before after : List Fields) : Prop where
  intact : Intact std after
  distinct : (after.map (idText std)).Nodup
  others : ∀ job, call.target std ≠ some (idText std job) → (job ∈ after ↔ job ∈ before)
  /-- A call that raises leaves what loading leaves: nothing changes in a seeded document. -/
  refused : (call.perform std backend stored).2 ≠ none →
    (call.perform std backend stored).1 = (load std backend stored).1 ∧
      ∀ items, storedItems stored = some items → (seedBuiltinCronJobs std items).2 = false →
        (call.perform std backend stored).1 = stored
  /-- After a call that does not raise, the stored list is seeded. -/
  seeded : (call.perform std backend stored).2 = none → ∀ items,
    storedItems (call.perform std backend stored).1 = some items →
      (seedBuiltinCronJobs std items).2 = false
  settled : seedBuiltinCronJobs std after = (after, false)

section Steps

variable {backend : Backend} {stored : Stored}

theorem objectsIn_objects (jobs : List Fields) :
    objectsIn (some (.arr (jobs.map .obj))) = .ok jobs := by
  rw [objectsIn, List.filterMap_map]
  exact congrArg Except.ok (List.filterMap_eq_map' ▸ by simp)

theorem storedItems_withCronJobs (data : Fields) (jobs : List Fields) :
    storedItems (.document (withCronJobs data jobs)) = some jobs := by
  rw [storedItems, storedData, Option.bind_some, get?_setDefaults, withCronJobs,
    Dict.get?_set_self, Option.some_or, objectsIn_objects]
  rfl

theorem loadedJobs_withCronJobs (data : Fields) (items : List Fields) :
    loadedJobs std (.document (withCronJobs data (seedBuiltinCronJobs std items).1)) =
      some (seedBuiltinCronJobs std items).1 := by
  rw [loadedJobs, storedItems_withCronJobs, Option.map_some, seed_seed]

/-- Saving what can be written either works or changes nothing. -/
theorem saving_cases {α : Type} {data : Fields} (value : α)
    (hencodes : backend = .file → fieldsEncodable data = true) :
    saving backend stored data value = (.document data, .ok value) ∨
      ∃ error, saving backend stored data value = (stored, .error error) := by
  cases backend with
  | file =>
    rw [saving, save, if_pos (hencodes rfl)]
    exact .inl rfl
  | mysql refusal =>
    rw [saving, save]
    cases hrefusal : refusal data with
    | none => exact .inl rfl
    | some error => exact .inr ⟨error, rfl⟩

/-- Loading saves what seeding changed. -/
theorem load_eq {data : Fields} {items : List Fields} (hdata : storedData stored = some data)
    (hitems : storedItems stored = some items) :
    load std backend stored =
      (let seeded := seedBuiltinCronJobs std items
       let filled := withCronJobs (setDefaults data emptyAdminData) seeded.1
       if seeded.2 then saving backend stored filled (filled, seeded.1)
       else (stored, .ok (filled, seeded.1))) := by
  cases stored with
  | unreadable => exact absurd hdata (by simp [storedData])
  | absent =>
    obtain rfl := Option.some.inj hdata
    obtain rfl : [] = items := Option.some.inj (Eq.trans rfl hitems)
    rfl
  | document found =>
    obtain rfl := Option.some.inj hdata
    rw [storedItems, storedData, Option.bind_some] at hitems
    rw [load]
    cases hobjects : objectsIn ((setDefaults found emptyAdminData).get? (py "cron_jobs")) with
    | error error =>
      rw [hobjects] at hitems
      exact absurd hitems (by simp [Except.toOption])
    | ok objects =>
      rw [hobjects] at hitems
      obtain rfl := Option.some.inj hitems
      rfl

/-! ## The lists that the calls write -/

theorem mem_withoutJob_iff {jobs : List Fields} {jobId : PyStr} {job : Fields} :
    job ∈ withoutJob jobs jobId ↔
      job ∈ jobs ∧ equalsText jobId (job.get? (py "job_id")) = false := by
  rw [withoutJob, List.mem_filter, Bool.not_eq_true']

/-- A job with another identifier stays. -/
theorem mem_withoutJob_of_ne {jobs : List Fields} {jobId : PyStr} {job : Fields}
    (hjob : job ∈ jobs) (hne : idText std job ≠ jobId) : job ∈ withoutJob jobs jobId := by
  rw [mem_withoutJob_iff, Bool.eq_false_iff]
  exact ⟨hjob, fun hequals => hne (idText_of_get? (eq_some_of_equalsText hequals))⟩

section Replacing

variable {jobs : List Fields} (hsettled : SettledJobs std jobs)
include hsettled

theorem settled_replaced {target : PyStr} {normalized : Fields}
    (hlook : ∀ other ∈ jobs, idText std other = target →
      other.get? (py "job_id") = some (.str target)) (hupserted : Upserted std target normalized) :
    SettledJobs std (withoutJob jobs target ++ [normalized]) := by
  have hid : idText std normalized = target := idText_of_get? hupserted.jobId
  constructor
  · rw [List.map_append, List.map_singleton, hid, List.nodup_append']
    refine ⟨hsettled.nodup.sublist (List.filter_sublist.map _), List.nodup_singleton _, ?_⟩
    intro jobId hkept htarget
    obtain ⟨other, hother, rfl⟩ := List.mem_map.mp hkept
    obtain ⟨hmem, hdiffers⟩ := mem_withoutJob_iff.mp hother
    rw [hlook other hmem (List.mem_singleton.mp htarget)] at hdiffers
    exact absurd hdiffers (by simp [equalsText])
  · intro builtin hbuiltin
    by_cases heq : builtin.jobId = target
    · exact ⟨normalized, by simp, hid.trans heq.symm, (hupserted.builtin builtin hbuiltin heq).1⟩
    · obtain ⟨job, hjob, hjobId, haccepted⟩ := hsettled.builtin builtin hbuiltin
      exact ⟨job, List.mem_append_left _ (mem_withoutJob_of_ne hjob (hjobId ▸ heq)), hjobId,
        haccepted⟩

theorem settled_remaining {remaining : List Fields} {jobId : PyStr}
    (hok : remainingJobs jobs jobId = .ok remaining) :
    remaining = withoutJob jobs jobId ∧ SettledJobs std remaining := by
  rw [remainingJobs] at hok
  cases hfound : findJob jobs jobId with
  | none =>
    rw [hfound] at hok
    exact absurd hok (by simp)
  | some target =>
    rw [hfound] at hok
    simp only at hok
    split at hok
    · exact absurd hok (by simp)
    next hfree =>
    rw [Bool.or_eq_true, not_or, Bool.not_eq_true] at hfree
    obtain rfl := Except.ok.inj hok
    refine ⟨rfl, hsettled.nodup.sublist (List.filter_sublist.map _), ?_⟩
    intro builtin hbuiltin
    obtain ⟨job, hjob, hid, haccepted⟩ := hsettled.builtin builtin hbuiltin
    refine ⟨job, mem_withoutJob_of_ne hjob fun hsame : idText std job = jobId => ?_, hid, haccepted⟩
    obtain ⟨hmem, hget⟩ := mem_of_findJob hfound
    have heq : job = target :=
      hsettled.eq_of_idText hjob hmem (hsame.trans (idText_of_get? hget).symm)
    have hbuiltinFlag := haccepted.flagOf_builtin
    rw [heq, hfree.1] at hbuiltinFlag
    exact Bool.false_ne_true hbuiltinFlag

end Replacing

/-! ## One call -/

section Call

variable {items : List Fields} {data : Fields} (hdata : storedData stored = some data)
  (hitems : storedItems stored = some items)

include hdata hitems in
theorem fieldsEncodable_filled (hencodable : fieldsEncodable data = true) :
    fieldsEncodable (setDefaults data emptyAdminData) = true ∧
      ∀ job ∈ (seedBuiltinCronJobs std items).1, fieldsEncodable job = true := by
  have hfilled := fieldsEncodable_setDefaults hencodable
    (by decide : fieldsEncodable emptyAdminData = true)
  refine ⟨hfilled, fieldsEncodable_seed ?_⟩
  rw [storedItems, hdata, Option.bind_some] at hitems
  cases hobjects : objectsIn ((setDefaults data emptyAdminData).get? (py "cron_jobs")) with
  | error error =>
    rw [hobjects] at hitems
    exact absurd hitems (by simp [Except.toOption])
  | ok objects =>
    rw [hobjects] at hitems
    obtain rfl := Option.some.inj hitems
    exact fieldsEncodable_objectsIn (fun _ => jsonEncodable_of_get? hfilled) hobjects

/-- The state that loading leaves shows the seeded list. -/
structure LoadedState (std : Stdlib) (stored : Stored) (items : List Fields) (next : Stored) :
    Prop where
  jobs : loadedJobs std next = some (seedBuiltinCronJobs std items).1
  seeded : ∀ others, storedItems next = some others → (seedBuiltinCronJobs std others).2 = false
  same : (seedBuiltinCronJobs std items).2 = false → next = stored

include hdata hitems in
/-- Loading works, or the database refuses what seeding has changed. -/
theorem load_cases (hencodes : backend = .file → (seedBuiltinCronJobs std items).2 = true →
      fieldsEncodable data = true) :
    (∃ next, load std backend stored = (next, .ok (withCronJobs (setDefaults data emptyAdminData)
        (seedBuiltinCronJobs std items).1, (seedBuiltinCronJobs std items).1)) ∧
      LoadedState std stored items next) ∨
    ∃ error, load std backend stored = (stored, .error error) ∧
      (seedBuiltinCronJobs std items).2 = true := by
  rw [load_eq hdata hitems]
  cases hchanged : (seedBuiltinCronJobs std items).2 with
  | false =>
    refine .inl ⟨stored, by simp [hchanged], ⟨?_, ?_, fun _ => rfl⟩⟩
    · rw [loadedJobs, hitems, Option.map_some]
    · intro others hothers
      rwa [← Option.some.inj (hitems.symm.trans hothers)]
  | true =>
    simp only [hchanged, if_true]
    have hencodable : backend = .file → fieldsEncodable (withCronJobs
        (setDefaults data emptyAdminData) (seedBuiltinCronJobs std items).1) = true := by
      intro hfile
      obtain ⟨hfilled, hjobs⟩ := @fieldsEncodable_filled std _ _ _ hdata hitems
        (hencodes hfile hchanged)
      exact fieldsEncodable_withCronJobs hfilled hjobs
    rcases @saving_cases _ stored _ _ (withCronJobs (setDefaults data emptyAdminData)
      (seedBuiltinCronJobs std items).1, (seedBuiltinCronJobs std items).1) hencodable with
      hsaved | ⟨error, herror⟩
    · refine .inl ⟨_, hsaved, loadedJobs_withCronJobs _ _, ?_, fun hfalse => ?_⟩
      · intro others hothers
        rw [storedItems_withCronJobs] at hothers
        rw [← Option.some.inj hothers, seed_seed]
      · exact absurd (hchanged.symm.trans hfalse) (by decide)
    · exact .inr ⟨error, herror, trivial⟩

include hitems in
theorem keeps_unchanged {call : CronCall} (hflags : BuiltinFlagsAreBooleans std items)
    (hload : (call.perform std backend stored).1 = (load std backend stored).1)
    (hsame : (seedBuiltinCronJobs std items).2 = false → (load std backend stored).1 = stored)
    (hseeded : (call.perform std backend stored).2 = none → ∀ others,
      storedItems (call.perform std backend stored).1 = some others →
        (seedBuiltinCronJobs std others).2 = false) :
    Keeps std backend stored call (seedBuiltinCronJobs std items).1
      (seedBuiltinCronJobs std items).1 where
  intact := intact_seed hflags
  distinct := (settledJobs_seed items).nodup
  others _ _ := Iff.rfl
  refused _ := by
    refine ⟨hload, fun others hothers hfalse => ?_⟩
    obtain rfl := Option.some.inj (hitems.symm.trans hothers)
    rw [hload, hsame hfalse]
  seeded := hseeded
  settled := seed_seed items

theorem keeps_written {call : CronCall} {filled : Fields} {jobs : List Fields}
    (hperform : call.perform std backend stored =
      (.document (withCronJobs filled (seedBuiltinCronJobs std jobs).1), none))
    (hsettled : SettledJobs std jobs)
    (hflags : ∀ builtin ∈ builtinCronJobs, ∀ job ∈ jobs, idText std job = builtin.jobId →
      FlagsAreBooleans job) (hothers : ∀ job, call.target std ≠ some (idText std job) →
      (job ∈ jobs ↔ job ∈ (seedBuiltinCronJobs std items).1)) :
    Keeps std backend stored call (seedBuiltinCronJobs std items).1
      (seedBuiltinCronJobs std jobs).1 where
  intact := intact_of_settled (settledJobs_seed jobs) fun builtin hbuiltin job hjob =>
    hflags builtin hbuiltin job ((hsettled.mem_seed_iff job).mp hjob)
  distinct := (settledJobs_seed jobs).nodup
  others job hjob := (hsettled.mem_seed_iff job).trans (hothers job hjob)
  refused hraised := absurd (congrArg Prod.snd hperform) hraised
  seeded _ others hstored := by
    rw [hperform, storedItems_withCronJobs] at hstored
    rw [← Option.some.inj hstored, seed_seed]
  settled := seed_seed jobs

/-- The jobs of a seeded list have the identifiers that they are looked up by. -/
theorem get?_jobId_of_mem_seed {target : PyStr}
    (hlook : ∀ other, KeyedList.lookup (idText std) target items = some other →
      other.get? (py "job_id") = some (.str target)) :
    ∀ other ∈ (seedBuiltinCronJobs std items).1, idText std other = target →
      other.get? (py "job_id") = some (.str target) := by
  intro other hother hid
  rcases mem_seed_cases hother with ⟨builtin, -, heq, hseeded⟩ | hlookup
  · rcases @seededJob_cases std items builtin with hjob | ⟨existing, hexisting, hjob⟩
    · rw [hseeded, hjob, ← hid, heq]
      rfl
    · rw [hseeded, hjob, Dict.get?_amendAll_of_not_mem (jobId_not_mem_builtinAmendments builtin)]
      exact hlook existing (hid ▸ heq ▸ hexisting)
  · exact hlook other (hid ▸ hlookup)

include hdata hitems in
/-- A call that meets the conditions keeps the jobs. -/
theorem keeps_of_meets (hfloat : ∀ number, Encodable (std.floatRepr number)) {call : CronCall}
    (hmeets : Meets std backend stored call) :
    ∃ after, loadedJobs std (call.perform std backend stored).1 = some after ∧
      Keeps std backend stored call (seedBuiltinCronJobs std items).1 after := by
  have hflags := hmeets.flags items hitems
  have hloadedStored : loadedJobs std stored = some (seedBuiltinCronJobs std items).1 := by
    rw [loadedJobs, hitems, Option.map_some]
  rcases @load_cases std _ _ _ _ hdata hitems (fun hfile hchanged =>
    hmeets.encodes hfile data items hdata hitems (.inl hchanged)) with
    ⟨next, hload, hnext⟩ | ⟨error, hload, hchanged⟩
  · -- Loading shows the seeded list, and the call goes on from there.
    have hunchanged : ∀ result, call.perform std backend stored = (next, result) →
        ∃ after, loadedJobs std (call.perform std backend stored).1 = some after ∧
          Keeps std backend stored call (seedBuiltinCronJobs std items).1 after := by
      intro result hperform
      refine ⟨_, ?_, keeps_unchanged hitems hflags ?_ ?_ ?_⟩
      · rw [hperform]
        exact hnext.jobs
      · rw [hperform, hload]
      · rw [hload]
        exact hnext.same
      · rw [hperform]
        exact fun _ => hnext.seeded
    have hwrites : ∀ (jobs : List Fields) {α : Type} (value : α),
        call.perform std backend stored = (saving backend next (withCronJobs (withCronJobs
          (setDefaults data emptyAdminData) (seedBuiltinCronJobs std items).1)
            (seedBuiltinCronJobs std jobs).1) value).map id raised →
        call.Accepted std (seedBuiltinCronJobs std items).1 →
        (backend = .file → (∀ job ∈ (seedBuiltinCronJobs std items).1,
          fieldsEncodable job = true) → ∀ job ∈ jobs, fieldsEncodable job = true) →
        SettledJobs std jobs →
        (∀ builtin ∈ builtinCronJobs, ∀ job ∈ jobs, idText std job = builtin.jobId →
          FlagsAreBooleans job) →
        (∀ job, call.target std ≠ some (idText std job) →
          (job ∈ jobs ↔ job ∈ (seedBuiltinCronJobs std items).1)) →
        ∃ after, loadedJobs std (call.perform std backend stored).1 = some after ∧
          Keeps std backend stored call (seedBuiltinCronJobs std items).1 after := by
      intro jobs α value hperform haccepted hjobs hsettled hjobFlags hothers
      have hencodable : backend = .file → fieldsEncodable (withCronJobs (withCronJobs
          (setDefaults data emptyAdminData) (seedBuiltinCronJobs std items).1)
            (seedBuiltinCronJobs std jobs).1) = true := by
        intro hfile
        obtain ⟨hfilled, hseededJobs⟩ := @fieldsEncodable_filled std _ _ _ hdata hitems
          (hmeets.encodes hfile data items hdata hitems (.inr haccepted))
        exact fieldsEncodable_withCronJobs (fieldsEncodable_withCronJobs hfilled hseededJobs)
          (fieldsEncodable_seed (hjobs hfile hseededJobs))
      rcases @saving_cases _ next _ _ value hencodable with hsaved | ⟨error, hrefused⟩
      · rw [hsaved] at hperform
        refine ⟨_, ?_, keeps_written hperform hsettled hjobFlags hothers⟩
        rw [hperform]
        exact loadedJobs_withCronJobs _ _
      · rw [hrefused] at hperform
        exact hunchanged _ hperform
    have hseeded := @settledJobs_seed std items
    have hseedFlags := flagsAreBooleans_seed hflags
    cases call with
    | load =>
      apply hunchanged none
      rw [CronCall.perform, hload]
      rfl
    | upsert job generated =>
      cases hupserted : upsertedJob std (seedBuiltinCronJobs std items).1 job generated with
      | error error =>
        apply hunchanged (some error)
        rw [CronCall.perform, upsertCronJob, hload]
        simp only [hupserted]
        rfl
      | ok normalized =>
        have haccepted : (CronCall.upsert job generated).Accepted std
            (seedBuiltinCronJobs std items).1 := ⟨normalized, hupserted⟩
        have hlook := get?_jobId_of_mem_seed
          (hmeets.target job generated items rfl hitems haccepted)
        have hnew := upserted_upsertedJob hseeded hlook hupserted
        have hid : textOf std normalized "job_id" [] = targetOf std job generated :=
          (textOf_str hnew.jobId (targetOf_ne_nil generated job) []).trans
            (strip_targetOf generated job)
        have hnewId := @idText_of_get? std _ _ hnew.jobId
        apply hwrites (withoutJob (seedBuiltinCronJobs std items).1
          (targetOf std job generated) ++ [normalized]) normalized
        · rw [CronCall.perform, upsertCronJob, hload]
          simp only [hupserted, hid]
        · exact haccepted
        · intro hfile hjobs other hother
          rcases List.mem_append.mp hother with hkept | hlast
          · exact hjobs other (List.mem_of_mem_filter hkept)
          · rw [List.mem_singleton.mp hlast]
            exact fieldsEncodable_upsertedJob hfloat hjobs
              (hmeets.plain hfile job generated items rfl hitems haccepted) hupserted
        · exact settled_replaced hseeded hlook hnew
        · intro builtin hbuiltin other hother hotherId
          rcases List.mem_append.mp hother with hkept | hlast
          · exact hseedFlags builtin hbuiltin other (List.mem_of_mem_filter hkept) hotherId
          · rw [List.mem_singleton.mp hlast] at hotherId ⊢
            exact (hnew.builtin builtin hbuiltin (hotherId.symm.trans hnewId)).2
        · intro other hother
          have hne : idText std other ≠ targetOf std job generated := fun heq =>
            hother (congrArg some heq.symm)
          rw [List.mem_append, List.mem_singleton]
          constructor
          · rintro (hkept | rfl)
            · exact List.mem_of_mem_filter hkept
            · exact absurd hnewId hne
          · exact fun hmem => .inl (mem_withoutJob_of_ne hmem hne)
    | delete jobId =>
      cases hremaining : remainingJobs (seedBuiltinCronJobs std items).1 jobId with
      | error error =>
        apply hunchanged (some error)
        rw [CronCall.perform, deleteCronJob, hload]
        simp only [hremaining]
        rfl
      | ok remaining =>
        obtain ⟨hkept, hsettled⟩ := settled_remaining hseeded hremaining
        have hsubset : ∀ job ∈ remaining, job ∈ (seedBuiltinCronJobs std items).1 := by
          rw [hkept]
          exact fun job hjob => List.mem_of_mem_filter hjob
        apply hwrites remaining ()
        · rw [CronCall.perform, deleteCronJob, hload]
          simp only [hremaining]
        · exact ⟨remaining, hremaining⟩
        · exact fun _ hjobs job hjob => hjobs job (hsubset job hjob)
        · exact hsettled
        · exact fun builtin hbuiltin job hjob =>
            hseedFlags builtin hbuiltin job (hsubset job hjob)
        · intro other hother
          refine ⟨hsubset other, fun hmem => ?_⟩
          rw [hkept]
          exact mem_withoutJob_of_ne hmem fun heq => hother (congrArg some heq.symm)
  · have hperform : call.perform std backend stored = (stored, some error) := by
      cases call with
      | load => rw [CronCall.perform, hload]; rfl
      | upsert job generated => rw [CronCall.perform, upsertCronJob, hload]; rfl
      | delete jobId => rw [CronCall.perform, deleteCronJob, hload]; rfl
    refine ⟨_, ?_, keeps_unchanged hitems hflags ?_ ?_ ?_⟩
    · rw [hperform]
      exact hloadedStored
    · rw [hperform, hload]
    · exact fun _ => by rw [hload]
    · rw [hperform]
      exact fun hnone => absurd hnone (by simp)

end Call

end Steps

/-! ## Runs -/

/-- The state after a call. -/
def CronCall.next (std : Stdlib) (backend : Backend) (stored : Stored) (call : CronCall) :
    Stored :=
  (call.perform std backend stored).1

/-- A step that keeps the jobs. -/
def KeepsJobs (std : Stdlib) (backend : Backend) (stored : Stored) (call : CronCall)
    (next : Stored) : Prop :=
  ∃ before after, loadedJobs std stored = some before ∧ loadedJobs std next = some after ∧
    Keeps std backend stored call before after

/-- Calls that meet the conditions keep the jobs throughout a run. -/
theorem cronJobs_kept {std : Stdlib} (hfloat : ∀ number, Encodable (std.floatRepr number))
    (backend : Backend) {data : Fields} {jobs : List Fields}
    (hdata : data.get? (py "cron_jobs") = some (.arr (jobs.map .obj))) {calls : List CronCall}
    (hmeets : Guarded (Meets std backend) (.document data)
      (history (CronCall.next std backend) (.document data) calls)) :
    Follows (KeepsJobs std backend) (.document data)
      (history (CronCall.next std backend) (.document data) calls) := by
  have hstart : (loadedJobs std (.document data)).isSome := by
    rw [loadedJobs, Option.isSome_map, storedItems, storedData, Option.bind_some,
      get?_setDefaults, hdata, Option.some_or, objectsIn_objects]
    rfl
  apply follows_of_guarded (fun stored => (loadedJobs std stored).isSome)
    (follows_history (CronCall.next std backend) (.document data) calls) hmeets hstart
  rintro stored call _ hloaded hguard rfl
  rw [loadedJobs, Option.isSome_map] at hloaded
  obtain ⟨items, hitems⟩ := Option.isSome_iff_exists.mp hloaded
  obtain ⟨found, hfound, -⟩ := Option.bind_eq_some_iff.mp hitems
  obtain ⟨after, hafter, hkeeps⟩ := keeps_of_meets hfound hitems hfloat hguard
  refine ⟨⟨_, after, ?_, hafter, hkeeps⟩, ?_⟩
  · rw [loadedJobs, hitems, Option.map_some]
  · rw [CronCall.next, hafter]
    rfl

/-- A document without jobs. -/
def bareDocument : Fields :=
  [(py "cron_jobs", .arr [])]

/-- A nightly job with metadata. -/
def nightlyJob (metadata : Fields) : Fields :=
  [(py "job_id", .str (py "cron.nightly")), (py "handler", .str (py "repo.sync_all")),
    (py "schedule", .str (py "0 3 * * *")), (py "metadata", .obj metadata)]

theorem encodable_floatRepr_ascii (number : PyFloat) :
    Encodable (asciiStdlib.floatRepr number) := by
  have hfraction : ∀ magnitude : ℚ≥0,
      Encodable (decimal magnitude.num ++ py "." ++ decimal magnitude.den) := fun magnitude =>
    encodable_append.mpr ⟨encodable_append.mpr
      ⟨encodable_intText (Int.ofNat magnitude.num), encodable_py "."⟩,
      encodable_intText (Int.ofNat magnitude.den)⟩
  cases number with
  | nan => exact encodable_py "nan"
  | inf negative => cases negative <;> exact encodable_py _
  | finite negative magnitude =>
    cases negative with
    | false => exact hfraction magnitude
    | true =>
      have hminus := encodable_append.mpr ⟨encodable_py "-", hfraction magnitude⟩
      rwa [← List.append_assoc, ← List.append_assoc] at hminus

/-- What a file has after a document without jobs is loaded. -/
theorem next_load_bareDocument :
    CronCall.next asciiStdlib .file (.document bareDocument) .load =
      .document (withCronJobs (setDefaults bareDocument emptyAdminData)
        (seedBuiltinCronJobs asciiStdlib []).1) := by
  have hencodable := fieldsEncodable_withCronJobs
    (by decide : fieldsEncodable (setDefaults bareDocument emptyAdminData) = true)
    (@fieldsEncodable_seed asciiStdlib [] (by simp))
  rw [CronCall.next, CronCall.perform,
    @load_eq _ _ _ _ [] (rfl : storedData (.document bareDocument) = some bareDocument) rfl]
  simp only
  rw [if_pos (by decide +kernel), saving, save, if_pos hencodable]
  rfl

theorem nightlyRun_kept :
    Follows (KeepsJobs asciiStdlib .file) (.document bareDocument)
      (history (CronCall.next asciiStdlib .file) (.document bareDocument)
        [.load, .upsert (nightlyJob []) ⟨py "0badcafe0bad", by decide⟩]) := by
  have hnone : BuiltinFlagsAreBooleans asciiStdlib [] := fun _ _ _ hjob =>
    absurd hjob (by simp [KeyedList.lookup])
  apply @cronJobs_kept _ encodable_floatRepr_ascii .file _ [] rfl
  refine ⟨⟨?_, ?_, ?_, ?_⟩, ?_, trivial⟩
  · intro items hitems
    rwa [← Option.some.inj (Eq.trans (by rfl) hitems : some [] = some items)]
  · intro _ found items hfound _ _
    obtain rfl := Option.some.inj hfound
    decide
  · rintro _ job generated items ⟨⟩
  · rintro job generated items ⟨⟩
  · change Meets asciiStdlib .file (CronCall.next asciiStdlib .file (.document bareDocument) .load) _
    rw [next_load_bareDocument]
    have hstored := storedItems_withCronJobs (setDefaults bareDocument emptyAdminData)
      (seedBuiltinCronJobs asciiStdlib []).1
    refine ⟨?_, ?_, ?_, ?_⟩
    · intro items hitems builtin hbuiltin job hjob
      obtain rfl := Option.some.inj (hstored.symm.trans hitems)
      obtain ⟨hmem, hid⟩ := KeyedList.mem_of_lookup hjob
      exact flagsAreBooleans_seed hnone builtin hbuiltin job hmem hid
    · intro _ found items hfound _ _
      obtain rfl := Option.some.inj hfound
      exact fieldsEncodable_withCronJobs (by decide) (fieldsEncodable_seed (by simp))
    · intro _ job generated items hcall _ _
      obtain ⟨rfl, rfl⟩ := CronCall.upsert.inj hcall
      exact plain_of_fieldsEncodable encodable_floatRepr_ascii (by decide)
    · intro job generated items _ hitems _ other hother
      obtain rfl := Option.some.inj (hstored.symm.trans hitems)
      obtain ⟨hmem, hid⟩ := KeyedList.mem_of_lookup hother
      exact get?_jobId_of_mem_seed (fun _ h => absurd h (by simp [KeyedList.lookup])) other hmem hid

/-- A job with an unpaired surrogate in its metadata. -/
def brokenJob : Fields :=
  nightlyJob [(py "note", .str [⟨0xD800, CodePoint.surrogate_lt⟩])]

/-- The upsert of that job raises and leaves an empty file. -/
theorem brokenJob_loses_document :
    ¬Follows (KeepsJobs asciiStdlib .file) (.document bareDocument)
      (history (CronCall.next asciiStdlib .file) (.document bareDocument)
        [.load, .upsert brokenJob ⟨py "0badcafe0bad", by decide⟩]) := by
  rintro ⟨-, ⟨before, after, -, hafter, -⟩, -⟩
  have hnone : (loadedJobs asciiStdlib (CronCall.next asciiStdlib .file
      (CronCall.next asciiStdlib .file (.document bareDocument) .load)
      (.upsert brokenJob ⟨py "0badcafe0bad", by decide⟩))).isNone = true := by
    decide +kernel
  rw [hafter] at hnone
  exact Bool.false_ne_true hnone

end RootSeeker.Admin
