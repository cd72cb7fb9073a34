import RootSeeker.Admin.McpDiscovery
import RootSeeker.Core.Transition
import RootSeeker.Python.Repr

/-!
# Runs of discovery jobs beside edits

A job writes back what it has read before, so an edit between its read and its
write is undone.  As long as every write finds the record as the writer knows
it, no deleted server comes back and the tools of a ready server are those of
its configuration.
-/

namespace RootSeeker.Admin

open Python Storage Transition

variable {std : Stdlib} {store : McpServerStore} {jobs : List DiscoveryJob}
  {log : List Discovery} {serverId : PyStr} {index : ℕ} {job : DiscoveryJob}

/-! ## What holds of ready servers -/

/-- The job has yet to write a result. -/
def Phase.awaited : Phase → Bool
  | .scheduled | .fetched _ | .marked _ | .discovered _ _ | .writing _ _ _ => true
  | .reloading _ | .finished => false

/-- Another job than the one at `index` has yet to write a result for the server. -/
def AwaitedApart (jobs : List DiscoveryJob) (index : ℕ) (serverId : PyStr) : Prop :=
  ∃ other job, other ≠ index ∧ jobs[other]? = some job ∧ job.serverId = serverId ∧
    job.phase.awaited = true

def Awaited (jobs : List DiscoveryJob) (serverId : PyStr) : Prop :=
  ∃ job ∈ jobs, job.serverId = serverId ∧ job.phase.awaited = true

/-- The server has given its tools when started with its configuration. -/
def Discovered (log : List Discovery) (server : McpServerPayload) : Prop :=
  { serverId := server.serverId, config := server.config, tools := server.tools } ∈ log

/-- What a job carries from one of its operations to the next. -/
def Phase.Carries (log : List Discovery) (serverId : PyStr) : Phase → Prop
  | .scheduled | .finished => True
  | .fetched server | .marked server | .reloading server => server.serverId = serverId
  | .discovered server outcome =>
    server.serverId = serverId ∧ ∀ tools, outcome = .ok tools →
      { serverId := serverId, config := server.val.config, tools := tools } ∈ log
  | .writing server back outcome =>
    back.serverId = serverId ∧ server.serverId = serverId ∧ ∀ tools, outcome = .ok tools →
      { serverId := serverId, config := server.val.config, tools := tools } ∈ log

/-- No job brings a deleted server back, and what is ready is discovered, or a job is still to
write over it. -/
structure Sound (store : McpServerStore) (jobs : List DiscoveryJob) (log : List Discovery) :
    Prop where
  gone : ∀ job ∈ jobs, job.deletedSince = true → store.getServer job.serverId = none
  ready : ∀ server ∈ store.servers, server.val.discoveryStatus = .ready →
    Discovered log server.val ∨ Awaited jobs server.serverId
  carried : ∀ job ∈ jobs, job.phase.Carries log job.serverId

theorem awaited_of_apart (hapart : AwaitedApart jobs index serverId) : Awaited jobs serverId := by
  obtain ⟨other, job, _, hjob, hid, hawaited⟩ := hapart
  exact ⟨job, List.mem_of_getElem? hjob, hid, hawaited⟩

/-- A job for another server, or one that has nothing to write, is not the one awaited. -/
theorem awaitedApart_of_awaited (hawaited : Awaited jobs serverId) (hjob : jobs[index]? = some job)
    (hother : job.serverId ≠ serverId ∨ job.phase.awaited = false) :
    AwaitedApart jobs index serverId := by
  obtain ⟨waiting, hmem, hid, hphase⟩ := hawaited
  obtain ⟨other, hwaiting⟩ := List.getElem?_of_mem hmem
  refine ⟨other, waiting, ?_, hwaiting, hid, hphase⟩
  rintro rfl
  rw [hjob] at hwaiting
  obtain rfl := Option.some.inj hwaiting
  rcases hother with hne | hnot
  · exact hne hid
  · exact absurd hphase (by simp [hnot])

theorem awaited_set_of_apart (hapart : AwaitedApart jobs index serverId) (next : DiscoveryJob) :
    Awaited (jobs.set index next) serverId := by
  obtain ⟨other, waiting, hne, hwaiting, hid, hphase⟩ := hapart
  refine ⟨waiting, ?_, hid, hphase⟩
  apply List.mem_of_getElem?
  rw [List.getElem?_set_ne (Ne.symm hne)]
  exact hwaiting

theorem awaited_set_self (hjob : jobs[index]? = some job) {next : DiscoveryJob}
    (hid : next.serverId = serverId) (hphase : next.phase.awaited = true) :
    Awaited (jobs.set index next) serverId := by
  refine ⟨next, ?_, hid, hphase⟩
  apply List.mem_of_getElem?
  rw [List.getElem?_set_self', hjob]
  rfl

variable {phase : Phase}

theorem Phase.Carries.mono (hcarries : phase.Carries log serverId) {later : List Discovery}
    (hsub : log ⊆ later) : phase.Carries later serverId := by
  cases phase with
  | scheduled | finished => trivial
  | fetched server | marked server | reloading server => exact hcarries
  | discovered server outcome =>
    exact ⟨hcarries.1, fun tools houtcome => hsub (hcarries.2 tools houtcome)⟩
  | writing server back outcome =>
    exact ⟨hcarries.1, hcarries.2.1, fun tools houtcome => hsub (hcarries.2.2 tools houtcome)⟩

namespace Sound

section

variable (hsound : Sound store jobs log)

include hsound

/-- More discoveries do no harm. -/
theorem mono {later : List Discovery} (hsub : log ⊆ later) :
    Sound store jobs later where
  gone := hsound.gone
  ready server hserver hready :=
    (hsound.ready server hserver hready).imp_left fun hdiscovered => hsub hdiscovered
  carried job hjob := (hsound.carried job hjob).mono hsub

theorem schedule (serverId : PyStr) :
    Sound store (jobs ++ [⟨serverId, .scheduled, false⟩]) log where
  gone job hjob hdeleted := by
    rcases List.mem_append.mp hjob with hmem | hnew
    · exact hsound.gone job hmem hdeleted
    · rw [List.mem_singleton.mp hnew] at hdeleted
      exact absurd hdeleted (by simp)
  ready server hserver hready := by
    rcases hsound.ready server hserver hready with hdiscovered | ⟨waiting, hmem, hwaiting⟩
    · exact .inl hdiscovered
    · exact .inr ⟨waiting, List.mem_append_left _ hmem, hwaiting⟩
  carried job hjob := by
    rcases List.mem_append.mp hjob with hmem | hnew
    · exact hsound.carried job hmem
    · rw [List.mem_singleton.mp hnew]
      trivial

/-- A write of a server that no job has seen deleted, discovered if it is ready. -/
theorem put {saved : McpServer}
    (hkept : ∀ job ∈ jobs, job.serverId = saved.serverId → job.deletedSince = false)
    (hready : saved.val.discoveryStatus = .ready →
      Discovered log saved.val ∨ Awaited jobs saved.serverId) :
    Sound (store.put saved) jobs log where
  gone job hjob hdeleted := by
    apply McpServerStore.getServer_put_eq_none _ (hsound.gone job hjob hdeleted)
    intro hid
    rw [hkept job hjob hid] at hdeleted
    exact absurd hdeleted (by simp)
  ready server hserver hstatus := by
    rcases McpServerStore.mem_put_iff.mp hserver with ⟨hmem, _⟩ | rfl
    · exact hsound.ready server hmem hstatus
    · exact hready hstatus
  carried := hsound.carried

theorem delete (serverId : PyStr) :
    Sound (store.deleteServer serverId) (jobs.map (·.markDeleted serverId)) log where
  gone job hjob hdeleted := by
    obtain ⟨before, hbefore, rfl⟩ := List.mem_map.mp hjob
    rw [DiscoveryJob.markDeleted] at hdeleted ⊢
    split at hdeleted
    next hmarked =>
      rw [if_pos hmarked, of_decide_eq_true (Bool.and_eq_true_iff.mp hmarked).1]
      exact McpServerStore.getServer_deleteServer_self store serverId
    next hmarked =>
      rw [if_neg hmarked]
      exact McpServerStore.getServer_deleteServer_eq_none serverId
        (hsound.gone before hbefore hdeleted)
  ready server hserver hstatus := by
    have hmem := (McpServerStore.mem_deleteServer_iff.mp hserver).1
    rcases hsound.ready server hmem hstatus with hdiscovered | ⟨waiting, hwaiting, hid, hphase⟩
    · exact .inl hdiscovered
    · refine .inr ⟨waiting.markDeleted serverId, List.mem_map_of_mem hwaiting, ?_, ?_⟩
      · rw [DiscoveryJob.serverId_markDeleted, hid]
      · rw [DiscoveryJob.phase_markDeleted, hphase]
  carried job hjob := by
    obtain ⟨before, hbefore, rfl⟩ := List.mem_map.mp hjob
    rw [DiscoveryJob.phase_markDeleted, DiscoveryJob.serverId_markDeleted]
    exact hsound.carried before hbefore

/-- A job may go on where nothing ready waits for it alone. -/
theorem advance (hjob : jobs[index]? = some job) (hcarries : phase.Carries log job.serverId)
    (hready : phase.awaited = false → job.phase.awaited = true → ∀ server ∈ store.servers,
      server.serverId = job.serverId → server.val.discoveryStatus = .ready →
        Discovered log server.val ∨ AwaitedApart jobs index job.serverId) :
    Sound store (jobs.set index { job with phase := phase }) log where
  gone other hother hdeleted := by
    rcases List.mem_or_eq_of_mem_set hother with hmem | rfl
    · exact hsound.gone other hmem hdeleted
    · exact hsound.gone job (List.mem_of_getElem? hjob) hdeleted
  ready server hserver hstatus := by
    rcases hsound.ready server hserver hstatus with hdiscovered | hawaited
    · exact .inl hdiscovered
    by_cases hid : job.serverId = server.serverId
    · cases hnext : phase.awaited with
      | true => exact .inr (awaited_set_self hjob hid hnext)
      | false =>
        cases hphase : job.phase.awaited with
        | true =>
          have hserved := hready hnext hphase server hserver hid.symm hstatus
          rw [hid] at hserved
          exact hserved.imp_right fun hapart => awaited_set_of_apart hapart _
        | false =>
          have hapart := awaitedApart_of_awaited hawaited hjob (.inr hphase)
          exact .inr (awaited_set_of_apart hapart _)
    · exact .inr (awaited_set_of_apart (awaitedApart_of_awaited hawaited hjob (.inl hid)) _)
  carried other hother := by
    rcases List.mem_or_eq_of_mem_set hother with hmem | rfl
    · exact hsound.carried other hmem
    · exact hcarries

/-- No job has seen a stored server deleted. -/
theorem kept {server : McpServer} (hserver : server ∈ store.servers) :
    ∀ job ∈ jobs, job.serverId = server.serverId → job.deletedSince = false := by
  intro job hjob hid
  apply Bool.eq_false_of_not_eq_true
  intro hdeleted
  exact McpServerStore.getServer_eq_none_iff.mp (hsound.gone job hjob hdeleted) server hserver
    hid.symm

end

end Sound

/-! ## Writes that meet what their writer has read -/

/-- A request writes back a ready server: a job is still to write over it, or the record is as
the request has read it.  And it brings no server back that a job has seen deleted. -/
def MayWriteBack (store : McpServerStore) (jobs : List DiscoveryJob) (request : PendingWrite) :
    Prop :=
  ((store.getServer request.server.serverId).isSome ∨
    ∀ job ∈ jobs, job.serverId = request.server.serverId → job.deletedSince = false) ∧
  (request.payload.discoveryStatus = .ready →
    Awaited jobs request.server.serverId ∨
      ∃ stored, store.getServer request.server.serverId = some stored ∧
        stored.val.discoveryStatus = .ready ∧ stored.val.config = request.payload.config ∧
          stored.val.tools = request.payload.tools)

/-- A job writes: its server is stored, no other server has taken its name, and a discovered
list is for the stored configuration, or another job is still to write over it. -/
def MayRun (store : McpServerStore) (jobs : List DiscoveryJob) (index : ℕ)
    (job : DiscoveryJob) : Prop :=
  match job.phase with
  | .fetched server => (store.getServer job.serverId).isSome ∧ ¬store.NameTaken server
  | .writing server back (.ok _) =>
    ∃ stored, store.getServer job.serverId = some stored ∧
      (AwaitedApart jobs index job.serverId ∨
        back.val.config = server.val.config ∧ stored.val.config = server.val.config)
  | .writing _ back (.error _) => (store.getServer job.serverId).isSome ∧ ¬store.NameTaken back
  | _ => True

/-- The condition on a step. -/
def Undisturbed (admin : ServerAdmin) (step : Step) : Prop :=
  match step.action with
  | .writeBack index => ∀ request, admin.requests[index]? = some request →
      MayWriteBack admin.store admin.jobs request
  | .runJob index => ∀ job, admin.jobs[index]? = some job →
      MayRun admin.store admin.jobs index job
  | _ => True

/-! ## Steps of a job -/

/-- What a write by a job saves. -/
theorem of_upsert_normal {uuid : FreshId} {payload : McpServer}
    {result : McpServer × McpServerStore}
    (hok : store.upsertServer std payload.val uuid = .ok result) :
    result.2 = store.put result.1 ∧ result.1.serverId = payload.serverId ∧
      result.1.val.discoveryStatus = payload.val.discoveryStatus ∧
        result.1.val.tools = payload.val.tools := by
  obtain ⟨hput, hfields⟩ := McpServerStore.of_upsertServer_eq_ok hok
  refine ⟨hput, ?_, ?_, ?_⟩
  · rw [McpServer.serverId, hfields]
    exact serverId_normalFields std payload.property.serverId _ _
  · rw [hfields]
    rfl
  · rw [hfields]
    rfl

/-- Writing a server that is not ready and ending, or going on. -/
theorem sound_mark (hsound : Sound store jobs log) (hjob : jobs[index]? = some job)
    {saved stored : McpServer} (hstored : store.getServer job.serverId = some stored)
    (hid : saved.serverId = job.serverId) (hstatus : saved.val.discoveryStatus ≠ .ready)
    (hcarries : phase.Carries log job.serverId) :
    Sound (store.put saved) (jobs.set index { job with phase := phase }) log := by
  obtain ⟨hmem, hsame⟩ := McpServerStore.getServer_eq_some_iff.mp hstored
  have hput : Sound (store.put saved) jobs log := by
    apply hsound.put
    · rw [hid, ← hsame]
      exact hsound.kept hmem
    · exact fun hready => absurd hready hstatus
  apply hput.advance hjob hcarries
  intro _ _ server hserver hserverId hready
  rcases McpServerStore.mem_put_iff.mp hserver with ⟨_, hne⟩ | rfl
  · exact absurd (hserverId.trans hid.symm) hne
  · exact absurd hready hstatus

/-- Writing a list of tools that is for the stored configuration, or that another job is
still to write over. -/
theorem sound_found (hsound : Sound store jobs log) (hjob : jobs[index]? = some job)
    {server back stored : McpServer} {tools : List Json}
    (hphase : job.phase = .writing server back (.ok tools))
    (hstored : store.getServer job.serverId = some stored)
    (hcurrent : AwaitedApart jobs index job.serverId ∨
      back.val.config = server.val.config ∧ stored.val.config = server.val.config)
    {uuid : FreshId} {result : McpServer × McpServerStore}
    (hok : store.upsertServer std (withOutcome back (.ok tools)).val uuid = .ok result) :
    Sound result.2 (jobs.set index { job with phase := .reloading server }) log := by
  have hcarried := hsound.carried job (List.mem_of_getElem? hjob)
  rw [hphase] at hcarried
  obtain ⟨hback, hserver, hlogged⟩ := hcarried
  obtain ⟨hput, hid, _, htools⟩ := of_upsert_normal hok
  obtain ⟨hmem, hsame⟩ := McpServerStore.getServer_eq_some_iff.mp hstored
  have hsaved : result.1.serverId = job.serverId := hid.trans hback
  have hdiscovered : AwaitedApart jobs index job.serverId ∨ Discovered log result.1.val := by
    refine hcurrent.imp_right fun hconfig => ?_
    have hexisting : store.existingFor (withOutcome back (.ok tools)).val = some stored := by
      apply McpServerStore.existingFor_of_stored (hback.trans hsame.symm)
      rw [hsame]
      exact hstored
    have hfields := (McpServerStore.of_upsertServer_eq_ok hok).2
    rw [hexisting] at hfields
    have hwritten : result.1.val.config = server.val.config := by
      rw [hfields]
      apply (config_normalFields_of_same std _ uuid).trans hconfig.2
      exact hconfig.1.trans hconfig.2.symm
    rw [Discovered, hwritten, htools, show result.1.val.serverId = job.serverId from hsaved]
    exact hlogged tools rfl
  rw [hput]
  have hwritten : Sound (store.put result.1) jobs log := by
    apply hsound.put
    · rw [hsaved, ← hsame]
      exact hsound.kept hmem
    · intro _
      rw [hsaved]
      exact hdiscovered.symm.imp_right awaited_of_apart
  apply hwritten.advance hjob
  · exact hserver
  · intro _ _ other hother hotherId _
    rcases McpServerStore.mem_put_iff.mp hother with ⟨_, hne⟩ | rfl
    · exact absurd (hotherId.trans hsaved.symm) hne
    · exact hdiscovered.symm

/-- A store operation of a job that meets what the job has read. -/
theorem sound_nextOperation (hsound : Sound store jobs log) (hjob : jobs[index]? = some job)
    (hmay : MayRun store jobs index job) {uuid : FreshId} {next : McpServerStore × Phase}
    (hnext : job.nextOperation std store uuid = some next) :
    Sound next.1 (jobs.set index { job with phase := next.2 }) log := by
  have hcarried := hsound.carried job (List.mem_of_getElem? hjob)
  cases hphase : job.phase with
  | scheduled =>
    simp only [DiscoveryJob.nextOperation, hphase] at hnext
    split at hnext
    next hnone =>
      obtain rfl := Option.some.inj hnext
      apply hsound.advance hjob
      · exact trivial
      · intro _ _ server hserver hid _
        exact absurd hid (McpServerStore.getServer_eq_none_iff.mp hnone server hserver)
    next server hserver =>
      obtain rfl := Option.some.inj hnext
      apply hsound.advance hjob
      · exact (McpServerStore.getServer_eq_some_iff.mp hserver).2
      · intro hnot
        exact absurd hnot (by simp [Phase.awaited])
  | fetched server =>
    simp only [DiscoveryJob.nextOperation, hphase] at hnext
    rw [MayRun, hphase] at hmay
    rw [hphase] at hcarried
    obtain ⟨stored, hstored⟩ := Option.isSome_iff_exists.mp hmay.1
    obtain ⟨result, hok⟩ := McpServerStore.upsertServer_of_normal (discovering server) uuid hmay.2
    rw [hok] at hnext
    obtain rfl := Option.some.inj hnext
    obtain ⟨hput, hid, hstatus, _⟩ := of_upsert_normal hok
    dsimp only
    rw [hput]
    apply sound_mark hsound hjob hstored (hid.trans hcarried)
    · rw [hstatus]
      exact fun hready => DiscoveryStatus.noConfusion hready
    · exact hcarried
  | discovered server outcome =>
    simp only [DiscoveryJob.nextOperation, hphase] at hnext
    rw [hphase] at hcarried
    obtain rfl := Option.some.inj hnext
    apply hsound.advance hjob
    · refine ⟨?_, hcarried⟩
      cases hget : store.getServer job.serverId with
      | none => exact hcarried.1
      | some back => exact (McpServerStore.getServer_eq_some_iff.mp hget).2
    · intro hnot
      exact absurd hnot (by simp [Phase.awaited])
  | writing server back outcome =>
    simp only [DiscoveryJob.nextOperation, hphase] at hnext
    rw [MayRun, hphase] at hmay
    rw [hphase] at hcarried
    cases outcome with
    | ok tools =>
      obtain ⟨stored, hstored, hcurrent⟩ := hmay
      cases hwrite : store.upsertServer std (withOutcome back (.ok tools)).val uuid with
      | ok result =>
        rw [hwrite] at hnext
        obtain rfl := Option.some.inj hnext
        exact sound_found hsound hjob hphase hstored hcurrent hwrite
      | error text =>
        rw [hwrite] at hnext
        obtain rfl := Option.some.inj hnext
        apply hsound.advance hjob
        · exact ⟨hcarried.2.1, fun _ hfailed => absurd hfailed (by simp)⟩
        · intro hnot
          exact absurd hnot (by simp [Phase.awaited])
    | error text =>
      obtain ⟨stored, hstored⟩ := Option.isSome_iff_exists.mp hmay.1
      obtain ⟨result, hok⟩ :=
        McpServerStore.upsertServer_of_normal (withOutcome back (.error text)) uuid hmay.2
      rw [hok] at hnext
      obtain rfl := Option.some.inj hnext
      obtain ⟨hput, hid, hstatus, _⟩ := of_upsert_normal hok
      dsimp only
      rw [hput]
      apply sound_mark hsound hjob hstored (hid.trans hcarried.1)
      · rw [hstatus]
        exact fun hready => DiscoveryStatus.noConfusion hready
      · exact trivial
  | marked server | reloading server | finished =>
    simp only [DiscoveryJob.nextOperation, hphase] at hnext
    exact absurd hnext (by simp)

/-! ## Steps of a request -/

namespace ServerAdmin

variable {admin : ServerAdmin} {uuid : FreshId}

/-- `Sound` of the whole state. -/
abbrev Sound (admin : ServerAdmin) : Prop :=
  Admin.Sound admin.store admin.jobs admin.discoveries

theorem sound_createMcpServer (hsound : admin.Sound) (hfresh : uuid.val ∉ admin.usedIds)
    (req : AdminMcpServerRequest) : (admin.createMcpServer std req uuid).Sound := by
  rw [createMcpServer]
  split
  · exact hsound
  split
  · exact hsound
  next result hok =>
    obtain ⟨hput, hfields⟩ := McpServerStore.of_upsertServer_eq_ok hok
    apply Admin.Sound.schedule
    rw [hput]
    apply hsound.put
    · cases hexisting : admin.store.existingFor (createPayload req) with
      | none =>
        have hid : result.1.serverId = uuid.val := by
          rw [McpServer.serverId, hfields, hexisting]
          rfl
        intro job hjob hsame
        apply absurd _ hfresh
        rw [← hid, ← hsame]
        exact List.mem_append_left _ (List.mem_append_right _ (List.mem_map_of_mem hjob))
      | some existing =>
        have hid : result.1.serverId = existing.serverId := by
          have htrimmed := existing.property.serverId
          rw [McpServer.serverId, hfields, hexisting]
          exact (congrArg₂ orText htrimmed.1 rfl).trans (orText_of_ne htrimmed.2 _)
        rw [hid]
        exact hsound.kept (McpServerStore.mem_of_existingFor hexisting)
    · intro hready
      rw [hfields] at hready
      exact DiscoveryStatus.noConfusion hready

theorem sound_writeBack (hsound : admin.Sound) {request : PendingWrite}
    (hmay : MayWriteBack admin.store admin.jobs request) :
    (admin.writeBack std request uuid).Sound := by
  have hsaved : ∀ result, admin.store.upsertServer std request.payload uuid = .ok result →
      Admin.Sound result.2 admin.jobs admin.discoveries := by
    intro result hok
    obtain ⟨hput, hfields⟩ := McpServerStore.of_upsertServer_eq_ok hok
    have hid : result.1.serverId = request.server.serverId := by
      have htrimmed := request.server.property.serverId
      rw [← McpServer.serverId, ← request.sameServer] at htrimmed
      rw [McpServer.serverId, hfields, serverId_normalFields std htrimmed, request.sameServer]
    rw [hput]
    apply hsound.put
    · rw [hid]
      rcases hmay.1 with hsome | hkept
      · obtain ⟨stored, hstored⟩ := Option.isSome_iff_exists.mp hsome
        obtain ⟨hmem, hsame⟩ := McpServerStore.getServer_eq_some_iff.mp hstored
        rw [← hsame]
        exact hsound.kept hmem
      · exact hkept
    · intro hready
      rw [hfields] at hready
      rw [hid]
      rcases hmay.2 hready with hawaited | ⟨stored, hstored, hstatus, hconfig, htools⟩
      · exact .inr hawaited
      · obtain ⟨hmem, hsame⟩ := McpServerStore.getServer_eq_some_iff.mp hstored
        refine (hsound.ready stored hmem hstatus).imp ?_ ?_
        · intro hdiscovered
          have hexisting : admin.store.existingFor request.payload = some stored := by
            apply McpServerStore.existingFor_of_stored (request.sameServer.trans hsame.symm)
            rw [hsame]
            exact hstored
          have hwritten : result.1.val.config = stored.val.config := by
            rw [hfields, hexisting]
            exact config_normalFields_of_same std hconfig.symm uuid
          have hlisted : result.1.val.tools = stored.val.tools := by
            rw [hfields, htools]
            rfl
          rw [Discovered, hwritten, hlisted,
            show result.1.val.serverId = stored.val.serverId from hid.trans hsame.symm]
          exact hdiscovered
        · intro hawaited
          rw [hsame] at hawaited
          exact hawaited
  rw [writeBack]
  split
  · exact hsound
  next result hok =>
    split
    · exact (hsaved result hok).schedule _
    · exact hsaved result hok

theorem sound_deleteMcpServer (hsound : admin.Sound) (serverId : PyStr) :
    (admin.deleteMcpServer serverId).Sound := by
  rw [deleteMcpServer]
  split
  · exact hsound
  · exact hsound.delete serverId

theorem sound_readForUpdate (hsound : admin.Sound) (serverId : PyStr)
    (req : AdminMcpServerUpdateRequest) : (admin.readForUpdate serverId req).Sound := by
  rw [readForUpdate]
  split
  · exact hsound
  split
  · exact hsound
  · exact hsound

theorem sound_readForSync (hsound : admin.Sound) (serverId : PyStr) :
    (admin.readForSync serverId).Sound := by
  rw [readForSync]
  split
  · exact hsound
  · exact hsound

variable {next : ServerAdmin}

theorem sound_runJob (hsound : admin.Sound)
    (hmay : ∀ job, admin.jobs[index]? = some job → MayRun admin.store admin.jobs index job)
    (hnext : admin.runJob std index uuid = some next) : next.Sound := by
  rw [runJob, Option.bind_eq_some_iff] at hnext
  obtain ⟨job, hjob, hnext⟩ := hnext
  rw [Option.map_eq_some_iff] at hnext
  obtain ⟨after, hafter, rfl⟩ := hnext
  exact sound_nextOperation hsound hjob (hmay job hjob) hafter

theorem sound_discoverTools (hsound : admin.Sound) {outcome : Except PyStr (List Json)}
    (hnext : admin.discoverTools index outcome = some next) : next.Sound := by
  rw [discoverTools, Option.bind_eq_some_iff] at hnext
  obtain ⟨job, hjob, hnext⟩ := hnext
  have hcarried := hsound.carried job (List.mem_of_getElem? hjob)
  split at hnext
  next server hphase =>
    rw [hphase] at hcarried
    obtain rfl := Option.some.inj hnext
    apply (hsound.mono (List.subset_append_left _ _)).advance hjob
    · refine ⟨hcarried, ?_⟩
      rintro tools rfl
      exact List.mem_append_right _ List.mem_cons_self
    · intro hnot
      exact absurd hnot (by simp [Phase.awaited])
  · exact absurd hnext (by simp)

theorem sound_reloadServers (hsound : admin.Sound) {outcome : Except PyStr Unit}
    (hnext : admin.reloadServers index outcome = some next) : next.Sound := by
  rw [reloadServers, Option.bind_eq_some_iff] at hnext
  obtain ⟨job, hjob, hnext⟩ := hnext
  have hcarried := hsound.carried job (List.mem_of_getElem? hjob)
  split at hnext
  next server done hphase =>
    obtain rfl := Option.some.inj hnext
    apply Admin.Sound.advance hsound hjob
    · exact trivial
    · intro _ hawaited
      exact absurd hawaited (by simp [hphase, Phase.awaited])
  next server text hphase =>
    rw [hphase] at hcarried
    obtain rfl := Option.some.inj hnext
    apply Admin.Sound.advance hsound hjob
    · exact ⟨hcarried, fun _ hfailed => absurd hfailed (by simp)⟩
    · intro hnot
      exact absurd hnot (by simp [Phase.awaited])
  · exact absurd hnext (by simp)

theorem sound_step (hsound : admin.Sound) {step : Step} (hmay : Undisturbed admin step)
    (hnext : admin.step std step = some next) : next.Sound := by
  obtain ⟨uuid, action⟩ := step
  rw [ServerAdmin.step] at hnext
  split at hnext
  · exact absurd hnext (by simp)
  next hfresh =>
    cases action with
    | createMcpServer req =>
      obtain rfl := Option.some.inj hnext
      exact sound_createMcpServer hsound hfresh req
    | readForUpdate serverId req =>
      obtain rfl := Option.some.inj hnext
      exact sound_readForUpdate hsound serverId req
    | readForSync serverId =>
      obtain rfl := Option.some.inj hnext
      exact sound_readForSync hsound serverId
    | writeBack request =>
      obtain ⟨pending, hpending, rfl⟩ := Option.map_eq_some_iff.mp hnext
      apply sound_writeBack
      · exact hsound
      · exact hmay pending hpending
    | deleteMcpServer serverId =>
      obtain rfl := Option.some.inj hnext
      exact sound_deleteMcpServer hsound serverId
    | runJob index => exact sound_runJob hsound hmay hnext
    | discoverTools index outcome => exact sound_discoverTools hsound hnext
    | reloadServers index outcome => exact sound_reloadServers hsound hnext

end ServerAdmin

/-! ## Runs -/

/-- What discovery promises beside the edits. -/
def RespectsEdits (admin : ServerAdmin) : Prop :=
  (∀ job ∈ admin.jobs, job.phase = .finished → job.deletedSince = true →
    admin.store.getServer job.serverId = none) ∧
  ((∀ job ∈ admin.jobs, job.phase = .finished) → ∀ server ∈ admin.store.servers,
    server.val.discoveryStatus = .ready → Discovered admin.discoveries server.val)

theorem respectsEdits_of_sound {admin : ServerAdmin} (hsound : admin.Sound) :
    RespectsEdits admin := by
  constructor
  · exact fun job hjob _ hdeleted => hsound.gone job hjob hdeleted
  · intro hfinished server hserver hready
    apply (hsound.ready server hserver hready).resolve_right
    rintro ⟨job, hjob, _, hawaited⟩
    rw [hfinished job hjob] at hawaited
    exact absurd hawaited (by simp [Phase.awaited])

/-- A start without jobs, at which every ready server has been discovered. -/
def Settled (admin : ServerAdmin) : Prop :=
  admin.jobs = [] ∧ ∀ server ∈ admin.store.servers, server.val.discoveryStatus = .ready →
    Discovered admin.discoveries server.val

theorem sound_of_settled {admin : ServerAdmin} (hsettled : Settled admin) : admin.Sound where
  gone job hjob := by
    rw [hsettled.1] at hjob
    exact absurd hjob (by simp)
  ready server hserver hready := .inl (hsettled.2 server hserver hready)
  carried job hjob := by
    rw [hsettled.1] at hjob
    exact absurd hjob (by simp)

/-- In a run whose writes meet what their writers have read, no deleted server comes back and
no ready server has the tools of another configuration. -/
theorem discovery_respects_edits (std : Stdlib) {start : ServerAdmin}
    {trace : Trace ServerAdmin Step} (hsettled : Settled start)
    (hrun : Follows (fun admin step next => admin.step std step = some next) start trace)
    (hguarded : Guarded Undisturbed start trace) : ∀ entry ∈ trace, RespectsEdits entry.2 := by
  intro entry hentry
  apply respectsEdits_of_sound
  apply (invariant_of_guarded hrun hguarded (sound_of_settled hsettled) _).1 entry hentry
  intro admin step next hsound hmay htaken
  exact ServerAdmin.sound_step hsound hmay htaken

def noServers : ServerAdmin where
  store := ⟨[], List.nodup_nil⟩
  jobs := []
  requests := []
  discoveries := []

def serverTrace (steps : List Step) : Trace ServerAdmin Step :=
  (record (ServerAdmin.step asciiStdlib) noServers steps).getD []

def echoRequest : AdminMcpServerRequest where
  name := .ofLiteral "echo" (by decide)
  transport := py "stdio"
  command := .ofLiteral "npx" (by decide)
  args := []
  env := []
  cwd := []
  enabled := true
  timeoutSeconds := .finite false 120

/-- Creating a server and running its job to the end. -/
def createAndDiscover : List Step :=
  [⟨⟨py "id", by decide⟩, .createMcpServer echoRequest⟩] ++
    [.runJob 0, .runJob 0, .discoverTools 0 (.ok [.str (py "echo")]), .runJob 0, .runJob 0,
      .reloadServers 0 (.ok ())].map (Step.mk ⟨py "unused", by decide⟩)

/-- The server is deleted while its tools are asked for. -/
def deleteWhileDiscovering : List Step :=
  [⟨⟨py "id", by decide⟩, .createMcpServer echoRequest⟩] ++
    [.runJob 0, .runJob 0, .deleteMcpServer (py "id"),
      .discoverTools 0 (.ok [.str (py "echo")]), .runJob 0, .runJob 0,
      .reloadServers 0 (.ok ())].map (Step.mk ⟨py "unused", by decide⟩)

theorem settled_noServers : Settled noServers :=
  ⟨rfl, fun _ hserver => absurd hserver List.not_mem_nil⟩

theorem created_server_is_discovered :
    RespectsEdits (last noServers (serverTrace createAndDiscover)) := by
  have hrecord : record (ServerAdmin.step asciiStdlib) noServers createAndDiscover =
      some (serverTrace createAndDiscover) := rfl
  have hlast : 6 < (serverTrace createAndDiscover).length := by decide
  refine discovery_respects_edits asciiStdlib settled_noServers (follows_of_record hrecord) ?_ _
    (List.getElem_mem hlast)
  refine ⟨trivial, ?_, ?_, trivial, ?_, ?_, trivial, trivial⟩
  · rintro _ ⟨rfl⟩
    exact trivial
  · rintro _ ⟨rfl⟩
    exact ⟨rfl, by decide⟩
  · rintro _ ⟨rfl⟩
    exact trivial
  · rintro _ ⟨rfl⟩
    exact ⟨_, rfl, .inr ⟨rfl, rfl⟩⟩

theorem deleted_server_returns :
    Settled noServers ∧
      Follows (fun admin step next => admin.step asciiStdlib step = some next) noServers
        (serverTrace deleteWhileDiscovering) ∧
      ¬∀ entry ∈ serverTrace deleteWhileDiscovering, RespectsEdits entry.2 := by
  have hrecord : record (ServerAdmin.step asciiStdlib) noServers deleteWhileDiscovering =
      some (serverTrace deleteWhileDiscovering) := rfl
  refine ⟨settled_noServers, follows_of_record hrecord, ?_⟩
  intro hrespects
  have hlast : 7 < (serverTrace deleteWhileDiscovering).length := by decide
  have hgone := (hrespects _ (List.getElem_mem hlast)).1 ⟨py "id", .finished, true⟩
    (List.mem_of_getElem? (i := 0) rfl) rfl rfl
  have hsome : ((serverTrace deleteWhileDiscovering)[7].2.store.getServer
      (py "id")).isSome = true := rfl
  rw [hgone] at hsome
  exact absurd hsome (by simp)

end RootSeeker.Admin
