import RootSeeker.CodeIndex.RepoSync

/-!
# What the git commands of a sync leave behind

A pull that fails leaves the checkout as it was, a clone that fails leaves no
checkout, and one that succeeds stands at a commit of the remote.  Other
directories are never touched.
-/

namespace RootSeeker.CodeIndex

open Python World

/-- The result of a git operation in the directory of `path`; `failed` says what an error
leaves there. -/
structure CheckedOut {α : Type} (paths : PathLib) (tips : Commit → Prop) (path : PyStr)
    (failed : Option Checkout → Prop) (before : World)
    (result : Except SyncError (PyStr × α) × World) : Prop where
  untouched : Untouched paths path before result.2
  error : ∀ e, result.1 = .error e → failed (result.2.directory paths path)
  ok : ∀ hash rest, result.1 = .ok (hash, rest) → ∃ commit, tips commit ∧
    hash = commit.hash ∧ Checkout.usableAt (result.2.directory paths path) commit

variable {setup : Setup} {git : Git} {tips : Commit → Prop} {path : PyStr}
  {failed : Option Checkout → Prop}

namespace CheckedOut

variable {α β : Type}

theorem of_error {world after : World} {e : SyncError}
    (huntouched : Untouched setup.paths path world after)
    (hfailed : failed (after.directory setup.paths path)) :
    CheckedOut (α := α) setup.paths tips path failed world (.error e, after) where
  untouched := huntouched
  error _ _ := hfailed
  ok _ _ hok := absurd hok (by simp)

theorem of_untouched {first second : World} {result : Except SyncError (PyStr × α) × World}
    (huntouched : Untouched setup.paths path first second)
    (hresult : CheckedOut setup.paths tips path failed second result) :
    CheckedOut setup.paths tips path failed first result where
  untouched := huntouched.trans hresult.untouched
  error := hresult.error
  ok := hresult.ok

theorem map {world : World} {result : Except SyncError (PyStr × α) × World} (change : α → β)
    (hresult : CheckedOut setup.paths tips path failed world result) :
    CheckedOut setup.paths tips path failed world
      (result.1.map fun found => (found.1, change found.2), result.2) where
  untouched := hresult.untouched
  error e herror := by
    obtain ⟨first, after⟩ := result
    rcases first with e' | found
    · exact hresult.error e' rfl
    · exact absurd herror (by simp [Except.map])
  ok hash rest hok := by
    obtain ⟨first, after⟩ := result
    rcases first with e' | found
    · exact absurd hok (by simp [Except.map])
    · have hfound : (found.1, change found.2) = (hash, rest) := Except.ok.inj hok
      have hhash : found.1 = hash := congrArg Prod.fst hfound
      rw [← hhash]
      exact hresult.ok found.1 found.2 rfl

theorem mono {world : World} {result : Except SyncError (PyStr × α) × World}
    {failed' : Option Checkout → Prop} (hfailed : ∀ directory, failed directory → failed' directory)
    (hresult : CheckedOut setup.paths tips path failed world result) :
    CheckedOut setup.paths tips path failed' world result where
  untouched := hresult.untouched
  error e herror := hfailed _ (hresult.error e herror)
  ok := hresult.ok

end CheckedOut

/-! ## Reading commands -/

theorem sameFiles_getCommitHash (hgit : git.Documented tips) (world : World) :
    SameFiles world (getCommitHash setup git path world).2 := by
  rw [getCommitHash]
  split
  · exact sameFiles_runGit hgit rfl path world
  · exact sameFiles_runGit hgit rfl path world

/-- The commit hash of a usable checkout is read without an error. -/
theorem getCommitHash_of_usable (hgit : git.Documented tips) {commit : Commit} {world : World}
    (husable : Checkout.usableAt (world.directory setup.paths path) commit) :
    (getCommitHash setup git path world).1 = .ok commit.hash := by
  have hprinted := hgit.head_printed world.clock commit
  have hanswer : (world.runGit setup.paths git .revParseHead path).1 =
      (git world.clock .revParseHead (some { git := true, head := some commit })).1 := by
    rw [runGit, husable]
  have hcode : ¬(world.runGit setup.paths git .revParseHead path).1.returncode ≠ 0 := by
    rw [hanswer, not_not]
    exact hprinted.1
  simp only [getCommitHash, if_neg hcode]
  rw [hanswer, hprinted.2]

theorem sameFiles_getCurrentBranch (hgit : git.Documented tips) (world : World) :
    SameFiles world (getCurrentBranch setup git path world).2 := by
  rw [getCurrentBranch]
  split
  · exact sameFiles_runGit hgit rfl path world
  · exact sameFiles_runGit hgit rfl path world

theorem sameFiles_detectRemoteDefaultBranch (hgit : git.Documented tips) (url : PyStr)
    (world : World) : SameFiles world (detectRemoteDefaultBranch setup git url path world).2 := by
  rw [detectRemoteDefaultBranch]
  split
  · exact sameFiles_runGit hgit rfl path world
  · exact sameFiles_runGit hgit rfl path world

theorem sameFiles_setOriginUrl (hgit : git.Documented tips) (url : PyStr) (world : World) :
    SameFiles world (setOriginUrl setup git path url world).2 := by
  have hset := @sameFiles_runGit setup.paths _ _ hgit (.setOriginUrl url) rfl path world
  have hadd := @sameFiles_runGit setup.paths _ _ hgit (.addOrigin url) rfl path
    (world.runGit setup.paths git (.setOriginUrl url) path).2
  simp only [setOriginUrl]
  split
  · exact hset
  · split
    · exact hset.trans hadd
    · exact hset.trans hadd

theorem checkedOut_commitOn (hgit : git.Documented tips) {commit : Commit} {branch : PyStr}
    {world : World} (htip : tips commit)
    (husable : Checkout.usableAt (world.directory setup.paths path) commit) :
    CheckedOut setup.paths tips path failed world (commitOn setup git path branch world) := by
  have hsame := @sameFiles_getCommitHash setup _ _ path hgit world
  have hread := @getCommitHash_of_usable setup _ _ _ hgit _ _ husable
  have hresult : (commitOn setup git path branch world).1 = .ok (commit.hash, branch) := by
    rw [commitOn, hread]
    rfl
  constructor
  · exact hsame.untouched setup.paths path
  · intro e herror
    rw [hresult] at herror
    exact absurd herror (by simp)
  · intro hash other hok
    rw [hresult] at hok
    have hpair := Except.ok.inj hok
    refine ⟨commit, htip, (congrArg Prod.fst hpair).symm, ?_⟩
    rw [commitOn, hsame.directory_eq]
    exact husable

/-! ## Pulling -/

theorem untouched_runGitFetchReset (branch : PyStr) (world : World) :
    Untouched setup.paths path world (runGitFetchReset setup git path branch world).2 := by
  have hfetch := @untouched_runGit setup.paths git (.fetch branch) path world
  have hreset := @untouched_runGit setup.paths git (.reset branch) path
    (world.runGit setup.paths git (.fetch branch) path).2
  simp only [runGitFetchReset]
  split
  · exact hfetch
  · split
    · exact hfetch.trans hreset
    · exact hfetch.trans hreset

/-- A fetch and reset that fails leaves the directory as it was; one that succeeds leaves it
at a commit of the remote. -/
theorem runGitFetchReset_cases (hgit : git.Documented tips) (branch : PyStr) (world : World) :
    (∃ error, (runGitFetchReset setup git path branch world).1 = some error ∧
      (runGitFetchReset setup git path branch world).2.directory setup.paths path =
        world.directory setup.paths path) ∨
    ((runGitFetchReset setup git path branch world).1 = none ∧ ∃ commit, tips commit ∧
      Checkout.usableAt ((runGitFetchReset setup git path branch world).2.directory
        setup.paths path) commit) := by
  have hfetched := @sameFiles_runGit setup.paths _ _ hgit (.fetch branch) rfl path world
  simp only [runGitFetchReset]
  by_cases hfetch : (world.runGit setup.paths git (.fetch branch) path).1.returncode ≠ 0
  · rw [if_pos hfetch]
    exact .inl ⟨_, rfl, hfetched.directory_eq setup.paths path⟩
  · rw [if_neg hfetch]
    by_cases hreset : ((world.runGit setup.paths git (.fetch branch) path).2.runGit setup.paths
        git (.reset branch) path).1.returncode ≠ 0
    · rw [if_pos hreset]
      refine .inl ⟨_, rfl, ?_⟩
      rw [directory_runGit, hgit.reset_failed _ _ _ hreset]
      exact hfetched.directory_eq setup.paths path
    · rw [if_neg hreset]
      refine .inr ⟨rfl, ?_⟩
      rw [directory_runGit]
      exact hgit.reset_done _ _ _ (not_not.mp hreset)

/-- A fetch and reset followed by reading the commit, with `onError` in the other case. -/
theorem checkedOut_fetchReset (hgit : git.Documented tips) (branch : PyStr) (world : World)
    (onError : PyStr → World → Except SyncError (PyStr × PyStr) × World) (honError : ∀ error after,
      after.directory setup.paths path = world.directory setup.paths path →
        CheckedOut setup.paths tips path failed after (onError error after)) :
    CheckedOut setup.paths tips path failed world
      (match (runGitFetchReset setup git path branch world).1 with
      | none => commitOn setup git path branch (runGitFetchReset setup git path branch world).2
      | some error => onError error (runGitFetchReset setup git path branch world).2) := by
  have hdisk := @untouched_runGitFetchReset setup git path branch world
  rcases @runGitFetchReset_cases setup _ _ path hgit branch world with
    ⟨error, herror, hkept⟩ | ⟨hnone, commit, htip, husable⟩
  · rw [herror]
    exact CheckedOut.of_untouched hdisk (honError error _ hkept)
  · rw [hnone]
    exact CheckedOut.of_untouched hdisk (checkedOut_commitOn hgit htip husable)

theorem checkedOut_retryPull (hgit : git.Documented tips) (branch url error : PyStr) (world : World) :
    CheckedOut setup.paths tips path (· = world.directory setup.paths path) world
      (retryPull setup git path branch url error world) := by
  have hgiveUp : ∀ after : World, SameFiles world after →
      CheckedOut (α := PyStr) setup.paths tips path
        (· = world.directory setup.paths path) world
        (.error (.calledProcessError error []), after) := by
    intro after hsame
    exact CheckedOut.of_error (hsame.untouched setup.paths path)
      (hsame.directory_eq setup.paths path)
  simp only [retryPull]
  by_cases hmissing : isMissingRemoteBranchError setup.std error = true
  · rw [if_pos hmissing]
    have hcurrent := @sameFiles_getCurrentBranch setup _ _ path hgit world
    generalize getCurrentBranch setup git path world = current at hcurrent ⊢
    have hdetected : SameFiles world
        (if current.1 = none ∧ url ≠ [] then
          detectRemoteDefaultBranch setup git url path current.2 else current).2 := by
      split
      · exact hcurrent.trans (sameFiles_detectRemoteDefaultBranch hgit url _)
      · exact hcurrent
    generalize (if current.1 = none ∧ url ≠ [] then
      detectRemoteDefaultBranch setup git url path current.2 else current) = detected
      at hdetected ⊢
    rcases detected.1 with _ | other
    · exact hgiveUp _ hdetected
    · dsimp only
      by_cases heq : other = branch
      · rw [if_pos heq]
        exact hgiveUp _ hdetected
      · rw [if_neg heq]
        apply CheckedOut.of_untouched (hdetected.untouched setup.paths path)
        apply checkedOut_fetchReset hgit other detected.2
          (fun _ after => (.error (.calledProcessError error []), after))
        intro _ after hafter
        apply CheckedOut.of_error (Untouched.refl setup.paths path _)
        rw [hafter, hdetected.directory_eq]
  · rw [if_neg hmissing]
    exact hgiveUp _ (SameFiles.refl world)

theorem checkedOut_gitPull (hgit : git.Documented tips) (branch url : PyStr) (world : World) :
    CheckedOut setup.paths tips path (· = world.directory setup.paths path) world
      (gitPull setup git path branch url world) := by
  have horigin : SameFiles world (if url ≠ [] then setOriginUrl setup git path url world
      else ((.ok () : Except SyncError Unit), world)).2 := by
    split
    · exact sameFiles_setOriginUrl hgit url world
    · exact SameFiles.refl world
  simp only [gitPull]
  generalize (if url ≠ [] then setOriginUrl setup git path url world
    else ((.ok () : Except SyncError Unit), world)) = origin at horigin ⊢
  have hstart := horigin.directory_eq setup.paths path
  apply CheckedOut.of_untouched (horigin.untouched setup.paths path)
  rw [← hstart]
  rcases origin.1 with e | _
  · exact CheckedOut.of_error (Untouched.refl setup.paths path _) rfl
  · apply checkedOut_fetchReset hgit branch origin.2 (retryPull setup git path branch url)
    intro error first hfirst
    rw [← hfirst]
    exact checkedOut_retryPull hgit branch url error first

/-! ## Cloning -/

theorem untouched_runGitClone (url branch : PyStr) (world : World) :
    Untouched setup.paths path world (runGitClone setup git url path branch world).2 := by
  simp only [runGitClone]
  split
  · exact untouched_runGit git _ path world
  · exact untouched_runGit git _ path world

/-- A clone followed by reading the commit, with `onError` in the other case. -/
theorem checkedOut_clone (hgit : git.Documented tips) (url branch : PyStr) (world : World)
    (onError : PyStr → World → Except SyncError (PyStr × PyStr) × World) (honError : ∀ error after,
      after.directory setup.paths path = world.directory setup.paths path →
        CheckedOut setup.paths tips path failed after (onError error after)) :
    CheckedOut setup.paths tips path failed world
      (match (runGitClone setup git url path branch world).1 with
      | none => commitOn setup git path branch (runGitClone setup git url path branch world).2
      | some error => onError error (runGitClone setup git url path branch world).2) := by
  apply CheckedOut.of_untouched (untouched_runGitClone url branch world)
  by_cases hcode : (world.runGit setup.paths git (.clone branch url) path).1.returncode = 0
  · have hcloned : runGitClone setup git url path branch world =
        (none, (world.runGit setup.paths git (.clone branch url) path).2) := if_pos hcode
    rw [hcloned]
    obtain ⟨commit, htip, husable⟩ := hgit.clone_done _ branch url
      (world.directory setup.paths path) hcode
    apply checkedOut_commitOn hgit htip
    rw [directory_runGit]
    exact husable
  · have hcloned : runGitClone setup git url path branch world =
        (some (errorText (world.runGit setup.paths git (.clone branch url) path).1
          (py "git clone")), (world.runGit setup.paths git (.clone branch url) path).2) :=
      if_neg hcode
    rw [hcloned]
    apply honError
    rw [directory_runGit]
    exact hgit.clone_failed _ branch url _ hcode

/-- Nothing usable is at the path. -/
def NotUsable (directory : Option Checkout) : Prop :=
  ∀ commit, ¬Checkout.usableAt directory commit

theorem notUsable_none : NotUsable none :=
  fun _ husable => absurd husable (by simp [Checkout.usableAt])

theorem checkedOut_tryCandidates (hgit : git.Documented tips) (url : PyStr)
    (candidates : List PyStr) (error : PyStr) (world : World)
    (hnot : NotUsable (world.directory setup.paths path)) :
    CheckedOut setup.paths tips path NotUsable world
      (tryCandidates setup git url path candidates error world) := by
  induction candidates generalizing error world with
  | nil => exact CheckedOut.of_error (Untouched.refl setup.paths path _) hnot
  | cons candidate rest ih =>
    rw [tryCandidates]
    apply CheckedOut.of_untouched (untouched_removeCheckout path world)
    have hcleared := @directory_removeCheckout setup.paths path world
    apply checkedOut_clone hgit url candidate (world.removeCheckout setup.paths path)
      (fun retryError after =>
        if isMissingRemoteBranchError setup.std retryError then
          tryCandidates setup git url path rest retryError after
        else (.error (.calledProcessError retryError []), after))
    intro retryError after hafter
    rw [hcleared] at hafter
    have hnotAfter : NotUsable (after.directory setup.paths path) := by
      rw [hafter]
      exact notUsable_none
    by_cases hmissing : isMissingRemoteBranchError setup.std retryError = true
    · rw [if_pos hmissing]
      exact ih retryError after hnotAfter
    · rw [if_neg hmissing]
      exact CheckedOut.of_error (Untouched.refl setup.paths path _) hnotAfter

theorem checkedOut_retryClone (hgit : git.Documented tips) (url branch error : PyStr)
    (world : World) (hnot : NotUsable (world.directory setup.paths path)) :
    CheckedOut setup.paths tips path NotUsable world
      (retryClone setup git url path branch error world) := by
  rw [retryClone]
  split
  · have hdetected :=
      @sameFiles_detectRemoteDefaultBranch setup _ _ path hgit url world
    apply CheckedOut.of_untouched (hdetected.untouched setup.paths path)
    apply checkedOut_tryCandidates hgit
    rw [hdetected.directory_eq]
    exact hnot
  · exact CheckedOut.of_error (Untouched.refl setup.paths path _) hnot

theorem checkedOut_gitClone (hgit : git.Documented tips) (url branch : PyStr) (world : World)
    (hnot : NotUsable (world.directory setup.paths path)) :
    CheckedOut setup.paths tips path NotUsable world
      (gitClone setup git url path branch world) := by
  rw [gitClone]
  apply checkedOut_clone hgit url branch world (retryClone setup git url path branch)
  intro error first hfirst
  apply checkedOut_retryClone hgit url branch error first
  rw [hfirst]
  exact hnot

end RootSeeker.CodeIndex
