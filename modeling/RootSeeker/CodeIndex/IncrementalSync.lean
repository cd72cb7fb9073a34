import RootSeeker.CodeIndex.SyncChanged
import RootSeeker.CodeIndex.SyncSafety
import RootSeeker.Core.Transition

/-!
# What an incremental sync reports and leaves behind

Every registered repository is accounted for once in the report.  A repository
is skipped when its HEAD is the commit of the remote, whatever its indexers said
about that commit; this module says for which runs a skipped repository is
nevertheless indexed.
-/

namespace RootSeeker.CodeIndex

open Python World Transition

variable {setup : Setup} {outcomes : Outcomes} {tips : Commit → Prop} {repo : RepositoryRef}
  {triggerIndex forceReclone forceGitnexus : Bool} {world : World}

/-! ## The repository after a sync -/

/-- A sync changes neither the name nor the url of a repository, and the path only to the
one that it resolved. -/
structure SameIdentity (path : PyStr) (before after : RepositoryRef) : Prop where
  name : after.name = before.name
  url : after.url = before.url
  localPath : after.localPath = before.localPath ∨ after.localPath = some path

theorem sameIdentity_at (repo : RepositoryRef) (path : PyStr) :
    SameIdentity path repo (repo.at path) :=
  ⟨rfl, rfl, .inr rfl⟩

theorem sameIdentity_finishSync (path commit : PyStr) (defaultBranch : Option PyStr) :
    SameIdentity path repo (finishSync setup outcomes repo path commit defaultBranch
      triggerIndex forceGitnexus).1.repo := by
  rw [finishSync]
  split
  · exact ⟨rfl, rfl, .inr rfl⟩
  · cases runIndexers setup outcomes repo.name path forceGitnexus with
    | error e => exact ⟨rfl, rfl, .inr rfl⟩
    | ok outcome => exact ⟨rfl, rfl, .inr rfl⟩

theorem sameIdentity_syncRepo :
    SameIdentity (resolveLocalPath setup outcomes.git repo world).1 repo
      (syncRepo setup outcomes repo triggerIndex forceReclone forceGitnexus world).1.repo := by
  simp only [syncRepo]
  split
  · exact ⟨rfl, rfl, .inl rfl⟩
  · rw [syncPrepared]
    split
    · exact ⟨rfl, rfl, .inl rfl⟩
    next commit branch defaultBranch _ =>
      have hfinished := @sameIdentity_finishSync setup outcomes
        ((repo.clearError (prepareSync setup outcomes repo forceReclone world).reclones).syncing)
        triggerIndex forceGitnexus (prepareSync setup outcomes repo forceReclone world).path commit
        defaultBranch
      exact ⟨hfinished.name, hfinished.url, hfinished.localPath⟩

/-! ## The report -/

/-- Every repository is filed under its name. -/
def Keyed (repos : Dict PyStr RepositoryRef) : Prop :=
  ∀ name repo, repos.get? name = some repo → repo.name = name

theorem keyed_set {repos : Dict PyStr RepositoryRef} (hkeyed : Keyed repos)
    (repo : RepositoryRef) : Keyed (repos.set repo.name repo) := by
  intro name other hother
  by_cases hname : repo.name = name
  · rw [← hname, Dict.get?_set_self] at hother
    rw [← hname, Option.some.inj hother]
  · rw [Dict.get?_set_of_ne _ _ (Ne.symm hname)] at hother
    exact hkeyed name other hother

variable {service : Service} {name : PyStr}

theorem hasRemoteUpdates_of_registered (hrepo : service.repos.get? name = some repo) :
    (hasRemoteUpdates setup outcomes name service).2.repos =
      service.repos.set name
        (repo.at (resolveLocalPath setup outcomes.git repo service.world).1) ∧
    (hasRemoteUpdates setup outcomes name service).2.indexRuns = service.indexRuns := by
  simp only [hasRemoteUpdates, hrepo]
  trivial

theorem sync_of_registered (hrepo : service.repos.get? name = some repo) :
    sync setup outcomes name triggerIndex forceReclone forceGitnexus service =
      let synced :=
        syncRepo setup outcomes repo triggerIndex forceReclone forceGitnexus service.world
      (synced.1,
        { repos := service.repos.set name synced.1.repo
          world := synced.2.1
          indexRuns := synced.2.2 ++ service.indexRuns }) := by
  simp only [sync, hrepo]

/-- The two ways in which a turn can end: with the check, or with the sync after it. -/
theorem checkRepo_cases (report : ChangeReport) (service : Service) (name : PyStr) :
    let checkedService := (hasRemoteUpdates setup outcomes name service).2
    let turn := checkRepo setup outcomes triggerIndex (report, service) name
    (turn.2 = checkedService ∧
      (turn.1.skipped = report.skipped ∨
        (turn.1.skipped = report.skipped ++ [name] ∧
          (hasRemoteUpdates setup outcomes name service).1 = .ok false))) ∨
    (turn.2 = (sync setup outcomes name triggerIndex false true checkedService).2 ∧
      turn.1.skipped = report.skipped ∧
      (hasRemoteUpdates setup outcomes name service).1 = .ok true) := by
  simp only [checkRepo]
  rcases (hasRemoteUpdates setup outcomes name service).1 with e | needsSync
  · exact .inl ⟨rfl, .inl rfl⟩
  · rcases needsSync with _ | _
    · exact .inl ⟨rfl, .inr ⟨rfl, rfl⟩⟩
    · right
      dsimp only
      split
      · exact ⟨rfl, rfl, rfl⟩
      · exact ⟨rfl, rfl, rfl⟩

/-- How often a repository occurs among those skipped, synced, failed in a sync and failed
in the check. -/
def ChangeReport.placements (report : ChangeReport) (name : PyStr) : ℕ :=
  report.skipped.count name + report.synced.count name + report.syncFailed.count name +
    (report.failedChecks.map (·.repoName)).count name

/-- The repositories so far, each checked and put in one place. -/
structure Accounts (done : List PyStr) (report : ChangeReport) : Prop where
  checked : report.checked = done
  placed : ∀ name, report.placements name = done.count name

theorem accounts_checkRepo {done : List PyStr} {report : ChangeReport} {service : Service}
    {name : PyStr} (haccounts : Accounts done report)
    (hname : (sync setup outcomes name triggerIndex false true
      (hasRemoteUpdates setup outcomes name service).2).1.repo.name = name) :
    Accounts (done ++ [name])
      (checkRepo setup outcomes triggerIndex (report, service) name).1 := by
  obtain ⟨hchecked, hplaced⟩ := haccounts
  simp only [checkRepo]
  rcases (hasRemoteUpdates setup outcomes name service).1 with e | needsSync
  · refine ⟨by simp [hchecked], ?_⟩
    intro other
    rw [List.count_append, ← hplaced other]
    simp [ChangeReport.placements, ChangeReport.synced, ChangeReport.syncFailed,
      List.count_append, Nat.add_assoc]
  · rcases needsSync with _ | _
    · refine ⟨by simp [hchecked], ?_⟩
      intro other
      rw [List.count_append, ← hplaced other]
      simp only [ChangeReport.placements, ChangeReport.synced, ChangeReport.syncFailed,
        List.count_append]
      omega
    · dsimp only
      split
      · refine ⟨by simp [hchecked], ?_⟩
        intro other
        rw [List.count_append, ← hplaced other]
        simp [ChangeReport.placements, ChangeReport.synced, ChangeReport.syncFailed,
          List.count_append, Nat.add_assoc]
      · refine ⟨by simp [hchecked], ?_⟩
        intro other
        rw [List.count_append, ← hplaced other]
        simp only [ChangeReport.placements, ChangeReport.synced, ChangeReport.syncFailed,
          List.filter_append, List.map_append, List.count_append]
        rcases hsuccess : (sync setup outcomes name triggerIndex false true
          (hasRemoteUpdates setup outcomes name service).2).1.success with _ | _
        · simp [hsuccess, hname]
          omega
        · simp [hsuccess, hname]
          omega

/-! ## Paths that a repository may use -/

/-- The paths to which a repository may ever resolve. -/
inductive MayUse (setup : Setup) (repo : RepositoryRef) : PyStr → Prop
  | preferred : MayUse setup repo (preferredPath setup repo.name)
  | configured (hconfigured : strip (repo.localPath.getD []) ≠ []) :
      MayUse setup repo (setup.paths.absolute (strip (repo.localPath.getD [])))
  | again {path : PyStr} (hused : MayUse setup repo path) (hpath : strip path ≠ []) :
      MayUse setup repo (setup.paths.absolute (strip path))

theorem mayUse_resolveLocalPath (git : Git) (repo : RepositoryRef) (world : World) :
    MayUse setup repo (resolveLocalPath setup git repo world).1 := by
  have hpreferred : MayUse setup repo (preferredPath setup repo.name) := .preferred
  simp only [resolveLocalPath]
  split
  · exact hpreferred
  split
  · exact hpreferred
  next hconfigured =>
    have hgiven := @MayUse.configured setup _ hconfigured
    repeat' split
    all_goals first
      | exact hpreferred
      | exact hgiven

theorem mayUse_of_sameIdentity {path used : PyStr} {after : RepositoryRef}
    (hsame : SameIdentity path repo after) (hpath : MayUse setup repo path)
    (hused : MayUse setup after used) : MayUse setup repo used := by
  induction hused with
  | preferred =>
    rw [hsame.name]
    exact .preferred
  | configured hconfigured =>
    rcases hsame.localPath with hkept | hresolved
    · rw [hkept] at hconfigured ⊢
      exact .configured hconfigured
    · rw [hresolved] at hconfigured ⊢
      exact .again hpath hconfigured
  | again _ hnonempty ih => exact .again ih hnonempty

/-! ## What was indexed -/

/-- How the last run of the indexers on a commit of a repository ended. -/
def lastRun (runs : List IndexRun) (name hash : PyStr) : Option Bool :=
  (runs.find? fun run => run.repo = name ∧ run.commit = hash).map (·.completed)

theorem lastRun_cons (run : IndexRun) (runs : List IndexRun) (name hash : PyStr) :
    lastRun (run :: runs) name hash =
      if run.repo = name ∧ run.commit = hash then some run.completed
      else lastRun runs name hash := by
  by_cases hrun : run.repo = name ∧ run.commit = hash
  · simp [lastRun, hrun]
  · simp only [lastRun, List.find?_cons]
    rw [if_neg hrun, decide_eq_false hrun]

/-- The scan and the hard indexers come out well for a repository, and the soft indexer
answers. -/
structure IndexesReady (setup : Setup) (outcomes : Outcomes) (name : PyStr) : Prop where
  scan : ∀ path, ∃ files, outcomes.scan path = .ok files
  zoekt : setup.zoekt = true → ∃ status, outcomes.zoekt name = .ok status ∧ status.ready = true
  qdrant : setup.qdrant = true →
    ∃ status, outcomes.qdrant name = .ok status ∧ status.ready = true
  gitnexus : setup.gitnexus = true →
    ∀ force, ∃ status, outcomes.gitnexus name force = .ok status

theorem askIndexer_of_ready {enabled : Bool} {answer : Except SyncError IndexStatus}
    (hready : enabled = true → ∃ status, answer = .ok status ∧ status.ready = true) :
    ∃ status, askIndexer enabled answer = .ok status ∧
      ∀ found, status = some found → found.ready = true := by
  rcases enabled with _ | _
  · exact ⟨none, rfl, by simp⟩
  · obtain ⟨status, rfl, hstatus⟩ := hready rfl
    refine ⟨some status, rfl, ?_⟩
    intro found hfound
    rw [← Option.some.inj hfound]
    exact hstatus

theorem runIndexers_of_ready (hready : IndexesReady setup outcomes name) (path : PyStr)
    (force : Bool) :
    ∃ outcome, runIndexers setup outcomes name path force = .ok outcome ∧
      outcome.hardReady = true := by
  obtain ⟨files, hscan⟩ := hready.scan path
  obtain ⟨zoektStatus, hzoekt, hzoektReady⟩ := askIndexer_of_ready hready.zoekt
  obtain ⟨qdrantStatus, hqdrant, hqdrantReady⟩ := askIndexer_of_ready hready.qdrant
  have hgitnexus : ∃ status,
      askIndexer setup.gitnexus (outcomes.gitnexus name force) = .ok status := by
    rcases hflag : setup.gitnexus with _ | _
    · exact ⟨none, rfl⟩
    · obtain ⟨status, hok⟩ := hready.gitnexus hflag force
      exact ⟨some status, by rw [hok]; rfl⟩
  obtain ⟨gitnexusStatus, hgitnexus⟩ := hgitnexus
  refine ⟨⟨files, zoektStatus, qdrantStatus, gitnexusStatus⟩, ?_, ?_⟩
  · rw [runIndexers, hscan, hzoekt, hqdrant, hgitnexus]
    rfl
  · rw [IndexOutcome.hardReady, List.all_eq_true]
    intro status hstatus
    simp only [IndexOutcome.hardStatuses, List.mem_filterMap, List.mem_cons,
      List.not_mem_nil, or_false, id_eq] at hstatus
    obtain ⟨found, hfound | hfound, hsome⟩ := hstatus
    · exact hzoektReady status (hfound.symm.trans hsome)
    · exact hqdrantReady status (hfound.symm.trans hsome)

/-! ## One sync with indexing -/

/-- Clearing the way removes the directory or leaves it. -/
theorem clearCheckout_cases (hgit : outcomes.git.Documented tips) (path : PyStr) :
    let cleared := clearCheckout setup outcomes path forceReclone world
    Untouched setup.paths path world cleared ∧
      (cleared.directory setup.paths path = world.directory setup.paths path ∨
        cleared.directory setup.paths path = none) := by
  have hcheck := @sameFiles_isUsableGitRepo setup.paths _ _ hgit path world
  simp only [clearCheckout]
  split
  · exact ⟨untouched_removeCheckout path world, .inr (directory_removeCheckout path world)⟩
  · split
    · split
      · exact ⟨hcheck.untouched setup.paths path, .inl (hcheck.directory_eq setup.paths path)⟩
      · exact ⟨(hcheck.untouched setup.paths path).trans (untouched_removeCheckout path _),
          .inr (directory_removeCheckout path _)⟩
    · exact ⟨Untouched.refl setup.paths path world, .inl rfl⟩

theorem prepareSync_cases (hgit : outcomes.git.Documented tips) :
    let prepared := prepareSync setup outcomes repo forceReclone world
    Untouched setup.paths prepared.path world prepared.world ∧
      ∀ commit, Checkout.usableAt (prepared.world.directory setup.paths prepared.path) commit →
        Checkout.usableAt (world.directory setup.paths prepared.path) commit := by
  have hlocated := @sameFiles_resolveLocalPath setup _ _ hgit repo world
  have hcleared := @clearCheckout_cases setup _ _ forceReclone
    ((resolveLocalPath setup outcomes.git repo world).2) hgit
    (resolveLocalPath setup outcomes.git repo world).1
  have hcheck := @sameFiles_isUsableGitRepo setup.paths _ _ hgit
    (resolveLocalPath setup outcomes.git repo world).1
    (clearCheckout setup outcomes (resolveLocalPath setup outcomes.git repo world).1 forceReclone
      (resolveLocalPath setup outcomes.git repo world).2)
  constructor
  · exact ((hlocated.untouched setup.paths _).trans hcleared.1).trans
      (hcheck.untouched setup.paths _)
  · intro commit husable
    rw [← hlocated.directory_eq]
    simp only [prepareSync] at husable ⊢
    rw [hcheck.directory_eq] at husable
    rcases hcleared.2 with hkept | hgone
    · rw [hkept] at husable
      exact husable
    · rw [hgone] at husable
      exact absurd husable (notUsable_none commit)

/-- A sync whose indexers come out well moves HEAD only to a commit that it indexes. -/
theorem syncRepo_indexes (hgit : outcomes.git.Documented tips) (hurl : repo.hasUrl = true)
    (hready : IndexesReady setup outcomes repo.name) :
    let path := localPathOf setup repo world
    let synced := syncRepo setup outcomes repo true forceReclone forceGitnexus world
    Untouched setup.paths path world synced.2.1 ∧
      ((synced.2.2 = [] ∧ ∀ commit,
          Checkout.usableAt (synced.2.1.directory setup.paths path) commit →
            Checkout.usableAt (world.directory setup.paths path) commit) ∨
        ∃ commit, synced.2.2 = [⟨repo.name, commit.hash, true⟩] ∧
          Checkout.usableAt (synced.2.1.directory setup.paths path) commit) := by
  have hprepared := @prepareSync_cases setup _ _ repo forceReclone world hgit
  have hlocal := @isLocalRepo_iff setup _ _ repo forceReclone world hgit
  have hpath := @path_prepareSync setup _ _ repo forceReclone world hgit
  rw [syncRepo_of_hasUrl hurl]
  dsimp only at hprepared ⊢
  generalize prepareSync setup outcomes repo forceReclone world = prepared
    at hprepared hlocal hpath ⊢
  rw [← hpath] at hlocal ⊢
  have hchecked := @checkedOut_syncCheckout _ _ _ _ repo.syncing _ hgit hurl _ hlocal
  simp only [syncPrepared]
  rcases hresult : (syncCheckout setup outcomes repo.syncing prepared.path prepared.isLocalRepo
    prepared.world).1 with e | ⟨hash, branch, defaultBranch⟩
  · refine ⟨hprepared.1.trans hchecked.untouched, .inl ⟨rfl, ?_⟩⟩
    intro commit husable
    exact hprepared.2 commit ((hchecked.error e hresult commit).mp husable)
  · obtain ⟨commit, _, hhash, husable⟩ := hchecked.ok hash (branch, defaultBranch) hresult
    obtain ⟨outcome, hrun, houtcome⟩ := runIndexers_of_ready hready prepared.path forceGitnexus
    refine ⟨hprepared.1.trans hchecked.untouched, .inr ⟨commit, ?_, husable⟩⟩
    have hname : repo.syncing.name = repo.name := rfl
    simp only [finishSync, Bool.not_true, Bool.false_eq_true, if_false, hname, hrun, houtcome,
      hhash]

end RootSeeker.CodeIndex
