import RootSeeker.CodeIndex.Checkout
import RootSeeker.Python.Repr

/-!
# Repository synchronisation

`RepoSyncService` keeps a checkout of every registered repository and has it
indexed.  This module embeds `sync` and `sync_changed` with the path
resolution, the clone and pull retries and the exception handlers.  The answers
of git and of the indexers in one call are parameters; an indexer is asked at
most once for a repository in a call.  Beside the repositories, the state keeps
the runs of the indexers.
-/

namespace RootSeeker.CodeIndex

open Python

inductive RepoSyncState where
  | pending
  | syncing
  | indexing
  | completed
  | failed
  deriving DecidableEq

structure RepoSyncStatus where
  state : RepoSyncState
  errorMessage : Option PyStr
  commitHash : Option PyStr
  filesIndexed : ℕ

structure RepositoryRef where
  name : PyStr
  url : Option PyStr
  defaultBranch : Option PyStr
  localPath : Option PyStr
  syncStatus : RepoSyncStatus
  metadata : Fields

inductive IndexKind where
  | zoekt
  | qdrant
  | gitnexus
  deriving DecidableEq

def IndexKind.value : IndexKind → PyStr
  | .zoekt => py "zoekt"
  | .qdrant => py "qdrant"
  | .gitnexus => py "gitnexus"

structure IndexStatus where
  kind : IndexKind
  ready : Bool
  detail : Fields

/-- The exceptions that `sync` tells apart, with the texts that it reads from them. -/
inductive SyncError where
  | valueError (text : PyStr)
  | calledProcessError (stderr stdout : PyStr)
  | other (text : PyStr)

structure GitCredentials where
  username : PyStr
  token : PyStr
  provider : PyStr

structure RepoSyncResult where
  repo : RepositoryRef
  success : Bool
  message : PyStr
  zoektStatus : Option IndexStatus
  qdrantStatus : Option IndexStatus
  gitnexusStatus : Option IndexStatus

/-- What stays the same over the life of a service. -/
structure Setup where
  paths : PathLib
  std : Stdlib
  basePath : PyStr
  zoekt : Bool
  qdrant : Bool
  gitnexus : Bool
  credentialResolver : Option (RepositoryRef → Option GitCredentials)
  /-- `assert_git_url_allowed_for_provider` and `build_authenticated_git_url`; an error is
  the text of the `ValueError`. -/
  injectCredentials : PyStr → GitCredentials → Except PyStr PyStr
  /-- `sanitize_git_error_message`. -/
  sanitize : PyStr → PyStr
  /-- `str` of an exception. -/
  errorText : SyncError → PyStr

/-- What git and the indexers do in one call. -/
structure Outcomes where
  git : Git
  /-- `scan_code_files` and `chunk_code_files`: the number of files. -/
  scan : PyStr → Except SyncError ℕ
  zoekt : PyStr → Except SyncError IndexStatus
  qdrant : PyStr → Except SyncError IndexStatus
  gitnexus : PyStr → Bool → Except SyncError IndexStatus

/-- A run of the indexers: the commit that was checked out, and whether the run ended
with the state `COMPLETED`. -/
structure IndexRun where
  repo : PyStr
  commit : PyStr
  completed : Bool
  deriving DecidableEq

structure Service where
  repos : Dict PyStr RepositoryRef
  world : World
  indexRuns : List IndexRun

/-- `first or second`. -/
def textOr (first second : PyStr) : PyStr :=
  if first = [] then second else first

/-- `bool(repo.url)`. -/
def RepositoryRef.hasUrl (repo : RepositoryRef) : Bool :=
  repo.url.getD [] ≠ []

/-- `repo.default_branch or "main"`. -/
def RepositoryRef.branchOrMain (repo : RepositoryRef) : PyStr :=
  textOr (repo.defaultBranch.getD []) (py "main")

/-! ## Texts -/

def isMissingRemoteBranchError (std : Stdlib) (stderr : PyStr) : Bool :=
  let lowered := lower std stderr
  (py "remote branch" <:+: lowered ∧ py "not found" <:+: lowered) ∨
    py "couldn't find remote ref" <:+: lowered ∨
      py "not found in upstream origin" <:+: lowered

def slash : CodePoint := CodePoint.ofChar '/'

/-- What repeated `norm.replace("//", "/")` leaves. -/
def collapseSlashes : PyStr → PyStr
  | [] => []
  | c :: rest =>
    match collapseSlashes rest with
    | [] => [c]
    | d :: tail => if c = slash ∧ d = slash then d :: tail else c :: d :: tail

/-- `norm[2:]` where a drive prefix stands. -/
def dropDrive : PyStr → PyStr
  | letter :: colon :: third :: rest =>
    if colon = CodePoint.ofChar ':' ∧ third = slash then third :: rest
    else letter :: colon :: third :: rest
  | text => text

def isContainerStyleRepoPath (std : Stdlib) (value : PyStr) : Bool :=
  let norm := lower std (value.map fun c => if c = backslash then slash else c)
  let norm := dropDrive (collapseSlashes norm)
  norm = py "/data/repos" ∨ py "/data/repos/" <+: norm

section Paths

variable (setup : Setup) (git : Git)

/-- `(self.base_path / repo.name).absolute()`. -/
def preferredPath (name : PyStr) : PyStr :=
  setup.paths.absolute (setup.paths.join setup.basePath name)

def resolveLocalPath (repo : RepositoryRef) (world : World) : PyStr × World :=
  let preferred := preferredPath setup repo.name
  let configured := strip (repo.localPath.getD [])
  let configuredAbs := setup.paths.absolute configured
  let same : Bool := setup.paths.resolve preferred = setup.paths.resolve configured
  if world.pathExists setup.paths preferred then (preferred, world)
  else if configured = [] then (preferred, world)
  else if world.pathExists setup.paths configured && same then (preferred, world)
  else
    let usable := world.isUsableGitRepo setup.paths git configured
    if usable.1 then
      if (world.pathExists setup.paths preferred ||
          world.pathExists setup.paths (setup.paths.parent preferred)) && same then
        (preferred, usable.2)
      else (configuredAbs, usable.2)
    else if world.pathExists setup.paths configured && world.hasGit setup.paths configured then
      if same then (preferred, usable.2) else (configuredAbs, usable.2)
    else if isContainerStyleRepoPath setup.std configured then (preferred, usable.2)
    else if setup.paths.isAbsolute configured then (configuredAbs, usable.2)
    else (preferred, usable.2)

end Paths

/-! ## Git operations -/

section GitOperations

variable (setup : Setup) (git : Git)

def resolveGitCredentials (repo : RepositoryRef) : Option GitCredentials :=
  let token := strip (truthyText setup.std [repo.metadata.get? (py "git_token")])
  let username := strip (truthyText setup.std [repo.metadata.get? (py "git_username")])
  let provider := textOr (truthyText setup.std [repo.metadata.get? (py "provider")]) (py "custom")
  if token ≠ [] then some ⟨username, token, lower setup.std (strip provider)⟩
  else setup.credentialResolver.bind fun resolver => resolver repo

def authenticatedGitUrl (repo : RepositoryRef) : Except SyncError PyStr :=
  let url := repo.url.getD []
  if url = [] ∨ py "git@" <+: url then .ok url
  else if ¬py "http://" <+: url ∧ ¬py "https://" <+: url then .ok url
  else
    match resolveGitCredentials setup repo with
    | none => .ok url
    | some credentials =>
      match setup.injectCredentials url credentials with
      | .error text => .error (.valueError text)
      | .ok authenticated => .ok authenticated

/-- The branch that `git ls-remote --symref` shows. -/
def detectRemoteDefaultBranch (url path : PyStr) (world : World) :
    Option PyStr × World :=
  let answer := world.runGit setup.paths git (.lsRemote url) path
  if answer.1.returncode ≠ 0 then (none, answer.2)
  else
    let marker := py "ref: refs/heads/"
    let lines := answer.1.stdout.splitOnP isLineBreak
    let branch := (lines.find? fun line => decide (marker <+: line)).map fun line =>
      strip ((line.drop marker.length).takeWhile (· ≠ CodePoint.ofChar '\t'))
    (branch.filter (· ≠ []), answer.2)

def getCommitHash (path : PyStr) (world : World) : Except SyncError PyStr × World :=
  let answer := world.runGit setup.paths git .revParseHead path
  if answer.1.returncode ≠ 0 then
    (.error (.calledProcessError answer.1.stderr answer.1.stdout), answer.2)
  else (.ok (strip answer.1.stdout), answer.2)

def getCurrentBranch (path : PyStr) (world : World) : Option PyStr × World :=
  let answer := world.runGit setup.paths git .showCurrentBranch path
  if answer.1.returncode ≠ 0 then (none, answer.2)
  else ((some (strip answer.1.stdout)).filter (· ≠ []), answer.2)

/-- `stderr or stdout or fallback`. -/
def errorText (answer : Completed) (command : PyStr) : PyStr :=
  textOr answer.stderr (textOr answer.stdout
    (command ++ py " failed with exit code " ++ intText answer.returncode))

def setOriginUrl (path url : PyStr) (world : World) : Except SyncError Unit × World :=
  let result := world.runGit setup.paths git (.setOriginUrl url) path
  if result.1.returncode = 0 then (.ok (), result.2)
  else
    let add := result.2.runGit setup.paths git (.addOrigin url) path
    if add.1.returncode ≠ 0 then
      (.error (.calledProcessError
        (textOr add.1.stderr (textOr result.1.stderr (py "failed to set origin url"))) []), add.2)
    else (.ok (), add.2)

/-- `None`, or the text of the error. -/
def runGitFetchReset (path branch : PyStr) (world : World) : Option PyStr × World :=
  let fetch := world.runGit setup.paths git (.fetch branch) path
  if fetch.1.returncode ≠ 0 then (some (errorText fetch.1 (py "git fetch")), fetch.2)
  else
    let reset := fetch.2.runGit setup.paths git (.reset branch) path
    if reset.1.returncode ≠ 0 then (some (errorText reset.1 (py "git reset")), reset.2)
    else (none, reset.2)

/-- The commit hash together with the branch it was found on. -/
def commitOn (path branch : PyStr) (world : World) :
    Except SyncError (PyStr × PyStr) × World :=
  let commit := getCommitHash setup git path world
  (commit.1.map fun hash => (hash, branch), commit.2)

/-- The second attempt of `_git_pull`, on the branch that the checkout or the remote shows. -/
def retryPull (path branch url error : PyStr) (world : World) :
    Except SyncError (PyStr × PyStr) × World :=
  let giveUp : Except SyncError (PyStr × PyStr) := .error (.calledProcessError error [])
  if isMissingRemoteBranchError setup.std error then
    let current := getCurrentBranch setup git path world
    let detected :=
      if current.1 = none ∧ url ≠ [] then
        detectRemoteDefaultBranch setup git url path current.2
      else current
    match detected.1 with
    | none => (giveUp, detected.2)
    | some other =>
      if other = branch then (giveUp, detected.2)
      else
        let retry := runGitFetchReset setup git path other detected.2
        match retry.1 with
        | none => commitOn setup git path other retry.2
        | some _ => (giveUp, retry.2)
  else (giveUp, world)

def gitPull (path branch url : PyStr) (world : World) :
    Except SyncError (PyStr × PyStr) × World :=
  let origin : Except SyncError Unit × World :=
    if url ≠ [] then setOriginUrl setup git path url world else (.ok (), world)
  match origin.1 with
  | .error e => (.error e, origin.2)
  | .ok _ =>
    let first := runGitFetchReset setup git path branch origin.2
    match first.1 with
    | none => commitOn setup git path branch first.2
    | some error => retryPull setup git path branch url error first.2

/-- `None`, or the text of the error. -/
def runGitClone (url path branch : PyStr) (world : World) : Option PyStr × World :=
  let answer := world.runGit setup.paths git (.clone branch url) path
  if answer.1.returncode = 0 then (none, answer.2)
  else (some (errorText answer.1 (py "git clone")), answer.2)

/-- The loop of `_git_clone` over the candidate branches. -/
def tryCandidates (url path : PyStr) :
    List PyStr → PyStr → World → Except SyncError (PyStr × PyStr) × World
  | [], error, world => (.error (.calledProcessError error []), world)
  | candidate :: rest, _, world =>
    let retry := runGitClone setup git url path candidate (world.removeCheckout setup.paths path)
    match retry.1 with
    | none => commitOn setup git path candidate retry.2
    | some retryError =>
      if isMissingRemoteBranchError setup.std retryError then
        tryCandidates url path rest retryError retry.2
      else (.error (.calledProcessError retryError []), retry.2)

/-- The branches that are left to try, each once. -/
def cloneCandidates (detected : Option PyStr) (branch : PyStr) : List PyStr :=
  ([detected, some (py "master"), some (py "develop"), some (py "release")].filterMap
    fun candidate => candidate.filter fun name => name ≠ [] ∧ name ≠ branch).foldl
    (fun chosen name => if name ∈ chosen then chosen else chosen ++ [name]) []

/-- The further attempts of `_git_clone`. -/
def retryClone (url path branch error : PyStr) (world : World) :
    Except SyncError (PyStr × PyStr) × World :=
  if isMissingRemoteBranchError setup.std error then
    let detected := detectRemoteDefaultBranch setup git url path world
    tryCandidates setup git url path (cloneCandidates detected.1 branch) error detected.2
  else (.error (.calledProcessError error []), world)

def gitClone (url path branch : PyStr) (world : World) :
    Except SyncError (PyStr × PyStr) × World :=
  let first := runGitClone setup git url path branch world
  match first.1 with
  | none => commitOn setup git path branch first.2
  | some error => retryClone setup git url path branch error first.2

end GitOperations

/-! ## Indexing -/

section Indexing

variable (setup : Setup) (outcomes : Outcomes)

structure IndexOutcome where
  files : ℕ
  zoektStatus : Option IndexStatus
  qdrantStatus : Option IndexStatus
  gitnexusStatus : Option IndexStatus

/-- An indexer that is not there gives no status. -/
def askIndexer (enabled : Bool) (answer : Except SyncError IndexStatus) :
    Except SyncError (Option IndexStatus) :=
  if enabled then answer.map some else .ok none

def runIndexers (name path : PyStr) (forceGitnexus : Bool) : Except SyncError IndexOutcome := do
  let files ← outcomes.scan path
  let zoektStatus ← askIndexer setup.zoekt (outcomes.zoekt name)
  let qdrantStatus ← askIndexer setup.qdrant (outcomes.qdrant name)
  let gitnexusStatus ← askIndexer setup.gitnexus (outcomes.gitnexus name forceGitnexus)
  return { files, zoektStatus, qdrantStatus, gitnexusStatus }

namespace IndexOutcome

/-- The statuses whose failure fails the sync. -/
def hardStatuses (outcome : IndexOutcome) : List IndexStatus :=
  [outcome.zoektStatus, outcome.qdrantStatus].filterMap id

def hardReady (outcome : IndexOutcome) : Bool :=
  outcome.hardStatuses.all (·.ready)

/-- `str(status.detail.get("error", default))`. -/
def statusError (std : Stdlib) (fallback : PyStr) (status : IndexStatus) : PyStr :=
  match status.detail.get? (py "error") with
  | some error => str std error
  | none => fallback

def errorMessage (std : Stdlib) (outcome : IndexOutcome) : Option PyStr :=
  if outcome.hardReady then
    match outcome.gitnexusStatus with
    | some status =>
      if status.ready then none else some (statusError std (py "gitnexus not ready") status)
    | none => none
  else
    some (join (py "; ") ((outcome.hardStatuses.filter fun status => !status.ready).map
      fun status => statusError std (status.kind.value ++ py " not ready") status))

end IndexOutcome

end Indexing

/-! ## The service -/

section Service

variable (setup : Setup) (outcomes : Outcomes)

def unsynced : RepoSyncStatus where
  state := .pending
  errorMessage := none
  commitHash := none
  filesIndexed := 0

/-- The git half of the `try` block: the commit, the branch, and the default branch to
keep. -/
def syncCheckout (repo : RepositoryRef) (path : PyStr) (isLocalRepo : Bool) (world : World) :
    Except SyncError (PyStr × PyStr × Option PyStr) × World :=
  let branch := repo.branchOrMain
  if isLocalRepo && !repo.hasUrl then
    let commit := getCommitHash setup outcomes.git path world
    (commit.1.map fun hash => (hash, branch, repo.defaultBranch), commit.2)
  else
    match authenticatedGitUrl setup repo with
    | .error e => (.error e, world)
    | .ok url =>
      let current : Option PyStr × World :=
        if isLocalRepo then getCurrentBranch setup outcomes.git path world else (none, world)
      let synced :=
        if isLocalRepo then
          gitPull setup outcomes.git path (current.1.getD branch) url current.2
        else gitClone setup outcomes.git url path branch current.2
      (synced.1.map fun found => (found.1, found.2, some found.2), synced.2)

/-- The exception handlers. -/
def handled : SyncError → PyStr
  | .valueError text => setup.sanitize text
  | .calledProcessError stderr stdout =>
    setup.sanitize (py "Git operation failed: " ++
      textOr stderr (textOr stdout (py "git command failed")))
  | .other text => setup.sanitize (py "Unexpected error: " ++ text)

def failedResult (repo : RepositoryRef) (message : PyStr) : RepoSyncResult where
  repo := repo
  success := false
  message := message
  zoektStatus := none
  qdrantStatus := none
  gitnexusStatus := none

def RepositoryRef.clearError (repo : RepositoryRef) (cleared : Bool) : RepositoryRef :=
  { repo with
    syncStatus :=
      { repo.syncStatus with
        errorMessage := if cleared then none else repo.syncStatus.errorMessage } }

def RepositoryRef.syncing (repo : RepositoryRef) : RepositoryRef :=
  { repo with
    syncStatus := { repo.syncStatus with state := .syncing, errorMessage := none } }

/-- The repository after an exception. -/
def RepositoryRef.withFailure (repo : RepositoryRef) (message : PyStr) : RepositoryRef :=
  { repo with
    syncStatus := { repo.syncStatus with state := .failed, errorMessage := some message } }

/-- The directories that are removed before anything else: the whole checkout when a
reclone is forced, and a `.git` without a resolvable HEAD. -/
def clearCheckout (path : PyStr) (forceReclone : Bool) (world : World) : World :=
  if forceReclone then world.removeCheckout setup.paths path
  else if world.pathExists setup.paths path && world.hasGit setup.paths path then
    let usable := world.isUsableGitRepo setup.paths outcomes.git path
    if usable.1 then usable.2 else usable.2.removeCheckout setup.paths path
  else world

/-- The repository once its checkout stands at a commit. -/
def RepositoryRef.withCommit (repo : RepositoryRef) (path commit : PyStr)
    (defaultBranch : Option PyStr) (triggerIndex : Bool) : RepositoryRef :=
  { repo with
    defaultBranch := defaultBranch
    localPath := some path
    syncStatus :=
      { repo.syncStatus with
        state := if triggerIndex then .indexing else .completed
        commitHash := some commit } }

/-- The repository after its indexers have answered. -/
def RepositoryRef.withIndex (repo : RepositoryRef) (outcome : IndexOutcome) : RepositoryRef :=
  { repo with
    syncStatus :=
      { repo.syncStatus with
        state := if outcome.hardReady then .completed else .failed
        errorMessage := outcome.errorMessage setup.std
        filesIndexed := outcome.files } }

/-- The part of `sync` after the checkout stands at a commit. -/
def finishSync (repo : RepositoryRef) (path commit : PyStr) (defaultBranch : Option PyStr)
    (triggerIndex forceGitnexus : Bool) : RepoSyncResult × List IndexRun :=
  let synced := repo.withCommit path commit defaultBranch triggerIndex
  let message := textOr (synced.syncStatus.errorMessage.getD [])
    (py "Synced and indexed at " ++ commit)
  if !triggerIndex then
    ({ failedResult synced message with success := true }, [])
  else
    match runIndexers setup outcomes repo.name path forceGitnexus with
    | .error e =>
      let failed := synced.withFailure (handled setup e)
      (failedResult failed (handled setup e), [⟨repo.name, commit, false⟩])
    | .ok outcome =>
      let indexed := synced.withIndex setup outcome
      ({ repo := indexed
         success := outcome.hardReady
         message := textOr (indexed.syncStatus.errorMessage.getD [])
           (py "Synced and indexed at " ++ commit)
         zoektStatus := outcome.zoektStatus
         qdrantStatus := outcome.qdrantStatus
         gitnexusStatus := outcome.gitnexusStatus },
        [⟨repo.name, commit, outcome.hardReady⟩])

/-- Where a sync stands before its `try` block. -/
structure Prepared where
  path : PyStr
  reclones : Bool
  isLocalRepo : Bool
  world : World

def prepareSync (repo : RepositoryRef) (forceReclone : Bool) (world : World) : Prepared :=
  let located := resolveLocalPath setup outcomes.git repo world
  let cleared := clearCheckout setup outcomes located.1 forceReclone located.2
  let isLocalRepo := cleared.isUsableGitRepo setup.paths outcomes.git located.1
  { path := located.1
    reclones := forceReclone && located.2.pathExists setup.paths located.1
    isLocalRepo := isLocalRepo.1
    world := isLocalRepo.2 }

/-- The `try` block with its handlers. -/
def syncPrepared (repo : RepositoryRef) (prepared : Prepared)
    (triggerIndex forceGitnexus : Bool) : RepoSyncResult × World × List IndexRun :=
  let checkout := syncCheckout setup outcomes repo prepared.path prepared.isLocalRepo prepared.world
  match checkout.1 with
  | .error e =>
    (failedResult (repo.withFailure (handled setup e)) (handled setup e), checkout.2, [])
  | .ok (commit, _, defaultBranch) =>
    let finished := finishSync setup outcomes repo prepared.path commit defaultBranch
      triggerIndex forceGitnexus
    (finished.1, checkout.2, finished.2)

/-- `sync` on a registered repository. -/
def syncRepo (repo : RepositoryRef) (triggerIndex forceReclone forceGitnexus : Bool)
    (world : World) : RepoSyncResult × World × List IndexRun :=
  let prepared := prepareSync setup outcomes repo forceReclone world
  let repo := repo.clearError prepared.reclones
  if !repo.hasUrl && !prepared.isLocalRepo then
    (failedResult repo (py "Repository URL is required for sync unless local_path points to a git repository"),
      prepared.world, [])
  else syncPrepared setup outcomes repo.syncing prepared triggerIndex forceGitnexus

def sync (repoName : PyStr) (triggerIndex forceReclone forceGitnexus : Bool)
    (service : Service) : RepoSyncResult × Service :=
  match service.repos.get? repoName with
  | none =>
    let unknown : RepositoryRef := ⟨repoName, none, some (py "main"), none, unsynced, []⟩
    (failedResult unknown (py "Repository not found: " ++ repoName), service)
  | some repo =>
    let synced := syncRepo setup outcomes repo triggerIndex forceReclone forceGitnexus service.world
    (synced.1,
      { repos := service.repos.set repoName synced.1.repo
        world := synced.2.1
        indexRuns := synced.2.2 ++ service.indexRuns })

def register (git : Git) (service : Service) (repo : RepositoryRef) : Service :=
  let located := resolveLocalPath setup git repo service.world
  { service with
    repos := service.repos.set repo.name { repo with localPath := some located.1 }
    world := located.2 }

end Service

/-- A service below `/srv/repos` with both hard indexers, for runs on fixed inputs. -/
def localSetup : Setup where
  paths := slashPaths
  std := asciiStdlib
  basePath := py "/srv/repos"
  zoekt := true
  qdrant := true
  gitnexus := false
  credentialResolver := none
  injectCredentials url _ := .ok url
  sanitize text := text
  errorText
    | .valueError text => text
    | .calledProcessError stderr _ => stderr
    | .other text => text

end RootSeeker.CodeIndex
