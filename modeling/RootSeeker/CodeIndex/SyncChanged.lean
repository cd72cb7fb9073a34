import RootSeeker.CodeIndex.RepoSync

/-!
# Incremental synchronisation

`sync_changed` asks for every registered repository whether its remote has
moved and syncs those that have.  It reports which repositories were checked,
skipped and synced, and for which the check failed.
-/

namespace RootSeeker.CodeIndex

open Python

structure FailedCheck where
  repoName : PyStr
  error : PyStr

structure ChangeReport where
  checked : List PyStr
  changed : List PyStr
  skipped : List PyStr
  failedChecks : List FailedCheck
  results : List RepoSyncResult

namespace ChangeReport

def empty : ChangeReport := ⟨[], [], [], [], []⟩

def synced (report : ChangeReport) : List PyStr :=
  (report.results.filter (·.success)).map (·.repo.name)

def syncFailed (report : ChangeReport) : List PyStr :=
  (report.results.filter (!·.success)).map (·.repo.name)

def ok (report : ChangeReport) : Bool :=
  report.syncFailed.isEmpty

end ChangeReport

variable (setup : Setup) (outcomes : Outcomes)

def remoteCommitHash (path branch : PyStr) (world : World) : Option PyStr × World :=
  let answer := world.runGit setup.paths outcomes.git (.revParse (py "origin/" ++ branch)) path
  if answer.1.returncode ≠ 0 then (none, answer.2)
  else ((some (strip answer.1.stdout)).filter (· ≠ []), answer.2)

/-- The fetch of `has_remote_updates`, once more on the branch of the remote where `branch`
is missing there: the branch, and how the last fetch ended. -/
def fetchForCheck (path branch url : PyStr) (world : World) :
    Except SyncError PyStr × World :=
  let fetch := world.runGit setup.paths outcomes.git (.fetch branch) path
  let failed (answer : Completed) : SyncError :=
    .calledProcessError
      (textOr answer.stderr (textOr answer.stdout (py "git fetch failed"))) []
  if fetch.1.returncode = 0 then (.ok branch, fetch.2)
  else if isMissingRemoteBranchError setup.std (textOr fetch.1.stderr fetch.1.stdout) then
    let detected := detectRemoteDefaultBranch setup outcomes.git url path fetch.2
    match detected.1 with
    | none => (.error (failed fetch.1), detected.2)
    | some other =>
      if other = branch then (.error (failed fetch.1), detected.2)
      else
        let again := detected.2.runGit setup.paths outcomes.git (.fetch other) path
        if again.1.returncode = 0 then (.ok other, again.2)
        else (.error (failed again.1), again.2)
  else (.error (failed fetch.1), fetch.2)

/-- The comparison of `has_remote_updates` for a usable checkout with a remote. -/
def remoteMoved (repo : RepositoryRef) (path : PyStr) (world : World) :
    Except SyncError Bool × World :=
  match authenticatedGitUrl setup repo with
  | .error e => (.error e, world)
  | .ok url =>
    let origin := setOriginUrl setup outcomes.git path url world
    match origin.1 with
    | .error e => (.error e, origin.2)
    | .ok _ =>
      let current := getCurrentBranch setup outcomes.git path origin.2
      let fetched := fetchForCheck setup outcomes path
        (current.1.getD repo.branchOrMain) url current.2
      match fetched.1 with
      | .error e => (.error e, fetched.2)
      | .ok branch =>
        let localHash := getCommitHash setup outcomes.git path fetched.2
        match localHash.1 with
        | .error e => (.error e, localHash.2)
        | .ok hash =>
          let remoteHash := remoteCommitHash setup outcomes path branch localHash.2
          (.ok (remoteHash.1 ≠ none ∧ remoteHash.1 ≠ some hash), remoteHash.2)

def RepositoryRef.at (repo : RepositoryRef) (path : PyStr) : RepositoryRef :=
  { repo with localPath := some path }

def hasRemoteUpdates (repoName : PyStr) (service : Service) :
    Except SyncError Bool × Service :=
  match service.repos.get? repoName with
  | none => (.error (.other (py "Repository not found: " ++ repoName)), service)
  | some repo =>
    let located := resolveLocalPath setup outcomes.git repo service.world
    let repo := repo.at located.1
    let usable := located.2.isUsableGitRepo setup.paths outcomes.git located.1
    let answer : Except SyncError Bool × World :=
      if !usable.1 then (.ok repo.hasUrl, usable.2)
      else if !repo.hasUrl then (.ok false, usable.2)
      else remoteMoved setup outcomes repo located.1 usable.2
    (answer.1,
      { service with repos := service.repos.set repoName repo, world := answer.2 })

/-- One turn of the loop of `sync_changed`. -/
def checkRepo (triggerIndex : Bool) (state : ChangeReport × Service) (repoName : PyStr) :
    ChangeReport × Service :=
  let report := { state.1 with checked := state.1.checked ++ [repoName] }
  let needsSync := hasRemoteUpdates setup outcomes repoName state.2
  match needsSync.1 with
  | .error e =>
    let failed := ⟨repoName, setup.sanitize (setup.errorText e)⟩
    ({ report with failedChecks := report.failedChecks ++ [failed] }, needsSync.2)
  | .ok false => ({ report with skipped := report.skipped ++ [repoName] }, needsSync.2)
  | .ok true =>
    let report := { report with changed := report.changed ++ [repoName] }
    let synced := sync setup outcomes repoName triggerIndex false true needsSync.2
    if !synced.1.success && isMissingRemoteBranchError setup.std synced.1.message then
      let failed :=
        ⟨repoName, setup.sanitize (textOr synced.1.message (py "remote branch missing"))⟩
      ({ report with failedChecks := report.failedChecks ++ [failed] }, synced.2)
    else ({ report with results := report.results ++ [synced.1] }, synced.2)

def syncChanged (triggerIndex : Bool) (service : Service) : ChangeReport × Service :=
  service.repos.keys.foldl (checkRepo setup outcomes triggerIndex) (.empty, service)

end RootSeeker.CodeIndex
