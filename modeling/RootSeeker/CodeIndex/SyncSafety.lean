import RootSeeker.CodeIndex.GitStage

/-!
# When a failed sync keeps the checkout

`sync` removes a directory before it knows whether it can be cloned again.  This
module says for which repositories and arguments a call that returns
`success=False` is safe whatever git and the indexers do.
-/

namespace RootSeeker.CodeIndex

open Python World

/-! ## The local path -/

/-- A git that reads honestly and whose fetches, resets and clones fail. -/
def offlineGit : Git := fun _ command directory =>
  match command, directory with
  | .revParse _, some { git := true, head := some commit } => (⟨0, commit.hash, []⟩, directory)
  | .setOriginUrl _, _ => (⟨0, [], []⟩, directory)
  | _, _ => (⟨1, [], py "fatal"⟩, directory)

theorem documented_offlineGit (tips : Commit → Prop) : offlineGit.Documented tips where
  keeps n command directory hkeeps := by
    dsimp only [offlineGit]
    split <;> rfl
  head_printed n commit := ⟨rfl, commit.strip_hash⟩
  head_missing n := by simp [offlineGit, GitCommand.revParseHead]
  reset_done n branch directory hdone := absurd hdone (by simp [offlineGit])
  reset_failed n branch directory _ := rfl
  clone_done n branch url directory hdone := absurd hdone (by simp [offlineGit])
  clone_failed n branch url directory _ := rfl

/-- The directory that the repository resolves to. -/
def localPathOf (setup : Setup) (repo : RepositoryRef) (world : World) : PyStr :=
  (resolveLocalPath setup offlineGit repo world).1

variable {setup : Setup} {outcomes : Outcomes} {git : Git} {tips : Commit → Prop}
  {path : PyStr}

theorem sameFiles_resolveLocalPath (hgit : git.Documented tips) (repo : RepositoryRef)
    (world : World) : SameFiles world (resolveLocalPath setup git repo world).2 := by
  have hcheck := @sameFiles_isUsableGitRepo setup.paths _ _ hgit (strip (repo.localPath.getD []))
    world
  simp only [resolveLocalPath]
  repeat' split
  all_goals first
    | exact SameFiles.refl world
    | exact hcheck

theorem resolveLocalPath_fst (hgit : git.Documented tips) (repo : RepositoryRef) (world : World) :
    (resolveLocalPath setup git repo world).1 = localPathOf setup repo world := by
  have hcheck : (world.isUsableGitRepo setup.paths git (strip (repo.localPath.getD []))).1 =
      (world.isUsableGitRepo setup.paths offlineGit (strip (repo.localPath.getD []))).1 := by
    rw [Bool.eq_iff_iff, isUsableGitRepo_iff hgit, isUsableGitRepo_iff (documented_offlineGit tips)]
  simp only [localPathOf, resolveLocalPath, apply_ite Prod.fst, hcheck]

/-! ## What is removed -/

/-- Nothing is removed from a path that is absent, or kept and usable or without `.git`. -/
theorem sameFiles_clearCheckout (hgit : outcomes.git.Documented tips) {forceReclone : Bool}
    {world : World} (hkeep : ∀ checkout, world.directory setup.paths path = some checkout →
      forceReclone = false ∧ (checkout.git = true → checkout.head.isSome = true)) :
    SameFiles world (clearCheckout setup outcomes path forceReclone world) := by
  have hexists : world.pathExists setup.paths path =
      (world.directory setup.paths path).isSome := rfl
  rcases hdirectory : world.directory setup.paths path with _ | checkout
  · have habsent : world.pathExists setup.paths path = false := by rw [hexists, hdirectory]; rfl
    have hremoved : world.removeCheckout setup.paths path = world :=
      if_neg (by rw [habsent]; simp)
    rw [clearCheckout, hremoved, habsent]
    split
    · exact SameFiles.refl world
    · exact SameFiles.refl world
  · obtain ⟨hforce, hhead⟩ := hkeep checkout hdirectory
    rw [clearCheckout, hforce, if_neg (by simp)]
    split
    next hgitDir =>
      have husable : (world.isUsableGitRepo setup.paths outcomes.git path).1 = true := by
        rw [isUsableGitRepo_iff hgit, hdirectory]
        obtain ⟨dotGit, head⟩ := checkout
        have hdot : dotGit = true := by
          simpa [World.hasGit, hdirectory] using And.right (Bool.and_eq_true_iff.mp hgitDir)
        obtain ⟨commit, hcommit⟩ := Option.isSome_iff_exists.mp (hhead hdot)
        have hcommit' : head = some commit := hcommit
        exact ⟨commit, by rw [Checkout.usableAt, hdot, hcommit']⟩
      simp only [husable, if_true]
      exact sameFiles_isUsableGitRepo hgit path world
    · exact SameFiles.refl world

/-- A forced reclone removes what is there, and so does a `.git` without a commit. -/
theorem clearCheckout_removes (hgit : outcomes.git.Documented tips) {forceReclone : Bool}
    {world : World} {checkout : Checkout}
    (hdirectory : world.directory setup.paths path = some checkout)
    (hclears : forceReclone = true ∨ (checkout.git = true ∧ checkout.head = none)) :
    let cleared := clearCheckout setup outcomes path forceReclone world
    cleared.directory setup.paths path = none ∧
      cleared.removed = setup.paths.resolve path :: world.removed := by
  have hremove : ∀ other : World, SameFiles world other →
      (other.removeCheckout setup.paths path).directory setup.paths path = none ∧
        (other.removeCheckout setup.paths path).removed =
          setup.paths.resolve path :: world.removed := by
    intro other hsame
    have hexists : other.pathExists setup.paths path = true := by
      rw [pathExists, hsame.directory_eq, hdirectory]
      rfl
    refine ⟨directory_removeCheckout path other, ?_⟩
    rw [removeCheckout, if_pos hexists, hsame.2]
  dsimp only
  rw [clearCheckout]
  by_cases hforce : forceReclone = true
  · rw [if_pos hforce]
    exact hremove world (SameFiles.refl world)
  · obtain ⟨hdot, hhead⟩ := hclears.resolve_left hforce
    have hboth : (world.pathExists setup.paths path && world.hasGit setup.paths path) = true := by
      simp [pathExists, World.hasGit, hdirectory, hdot]
    have husable : ¬(world.isUsableGitRepo setup.paths outcomes.git path).1 = true := by
      rw [isUsableGitRepo_iff hgit, hdirectory]
      rintro ⟨commit, husable⟩
      have hsome : some checkout = some { git := true, head := some commit } := husable
      rw [Option.some.inj hsome] at hhead
      exact absurd hhead (by simp)
    rw [if_neg hforce, if_pos hboth]
    simp only [if_neg husable]
    exact hremove _ (sameFiles_isUsableGitRepo hgit path world)

/-! ## The state before the `try` block -/

variable {repo : RepositoryRef} {triggerIndex forceReclone forceGitnexus : Bool}
  {world : World}

theorem path_prepareSync (hgit : outcomes.git.Documented tips) :
    (prepareSync setup outcomes repo forceReclone world).path = localPathOf setup repo world :=
  resolveLocalPath_fst hgit repo world

/-- `is_local_repo` says whether the path is usable once the way is cleared. -/
theorem isLocalRepo_iff (hgit : outcomes.git.Documented tips) :
    (prepareSync setup outcomes repo forceReclone world).isLocalRepo = true ↔
      ∃ commit, Checkout.usableAt ((prepareSync setup outcomes repo forceReclone
        world).world.directory setup.paths (localPathOf setup repo world)) commit := by
  simp only [prepareSync]
  rw [isUsableGitRepo_iff hgit, (sameFiles_isUsableGitRepo hgit _ _).directory_eq,
    resolveLocalPath_fst hgit]

theorem sameFiles_prepareSync (hgit : outcomes.git.Documented tips)
    (hkeep : ∀ checkout, world.directory setup.paths (localPathOf setup repo world) =
      some checkout → forceReclone = false ∧ (checkout.git = true → checkout.head.isSome = true)) :
    SameFiles world (prepareSync setup outcomes repo forceReclone world).world := by
  have hlocated := @sameFiles_resolveLocalPath setup _ _ hgit repo world
  have hcleared : SameFiles (resolveLocalPath setup outcomes.git repo world).2
      (clearCheckout setup outcomes (localPathOf setup repo world) forceReclone
        (resolveLocalPath setup outcomes.git repo world).2) := by
    apply sameFiles_clearCheckout hgit
    intro checkout hdirectory
    rw [hlocated.directory_eq] at hdirectory
    exact hkeep checkout hdirectory
  simp only [prepareSync, resolveLocalPath_fst hgit]
  exact (hlocated.trans hcleared).trans (sameFiles_isUsableGitRepo hgit _ _)

theorem prepareSync_removes (hgit : outcomes.git.Documented tips) {checkout : Checkout}
    (hdirectory : world.directory setup.paths (localPathOf setup repo world) = some checkout)
    (hclears : forceReclone = true ∨ (checkout.git = true ∧ checkout.head = none)) :
    let prepared := prepareSync setup outcomes repo forceReclone world
    prepared.world.directory setup.paths (localPathOf setup repo world) = none ∧
      prepared.world.removed =
        setup.paths.resolve (localPathOf setup repo world) :: world.removed := by
  have hlocated := @sameFiles_resolveLocalPath setup _ _ hgit repo world
  have hcleared := @clearCheckout_removes setup _ _ _ hgit _
    ((resolveLocalPath setup outcomes.git repo world).2) _
    ((hlocated.directory_eq _ _).trans hdirectory) hclears
  have hcheck := @sameFiles_isUsableGitRepo setup.paths _ _ hgit (localPathOf setup repo world)
    (clearCheckout setup outcomes (localPathOf setup repo world) forceReclone
      (resolveLocalPath setup outcomes.git repo world).2)
  simp only [prepareSync, resolveLocalPath_fst hgit]
  rw [hcheck.directory_eq, hcheck.2, hcleared.2, hlocated.2]
  exact ⟨hcleared.1, rfl⟩

/-! ## The checkout after the `try` block -/

/-- Without a url the `try` block only reads HEAD. -/
theorem sameFiles_syncRepo_of_noUrl (hgit : outcomes.git.Documented tips)
    (hurl : repo.hasUrl = false) :
    SameFiles (prepareSync setup outcomes repo forceReclone world).world
      (syncRepo setup outcomes repo triggerIndex forceReclone forceGitnexus world).2.1 := by
  simp only [syncRepo]
  generalize prepareSync setup outcomes repo forceReclone world = prepared
  have hcleared : (repo.clearError prepared.reclones).hasUrl = false := hurl
  have hsyncing : (repo.clearError prepared.reclones).syncing.hasUrl = false := hurl
  rw [hcleared]
  rcases hlocal : prepared.isLocalRepo with _ | _
  · exact SameFiles.refl _
  · have hread := @sameFiles_getCommitHash setup _ _ prepared.path hgit prepared.world
    simp only [Bool.not_true, Bool.and_false, Bool.false_eq_true, if_false, syncPrepared,
      syncCheckout, hlocal, hsyncing, Bool.not_false, Bool.and_true, if_true]
    cases (getCommitHash setup outcomes.git prepared.path prepared.world).1 with
    | error e => exact hread
    | ok hash => exact hread

/-- The git half of the `try` block for a repository with a url: an error keeps a checkout
that was usable, and makes none. -/
theorem checkedOut_syncCheckout (hgit : outcomes.git.Documented tips) (hurl : repo.hasUrl = true)
    {isLocalRepo : Bool} (hlocal : isLocalRepo = true ↔
      ∃ commit, Checkout.usableAt (world.directory setup.paths path) commit) :
    CheckedOut setup.paths tips path
      (fun directory => ∀ commit, Checkout.usableAt directory commit ↔
        Checkout.usableAt (world.directory setup.paths path) commit) world
      (syncCheckout setup outcomes repo path isLocalRepo world) := by
  rw [syncCheckout, hurl, Bool.not_true, Bool.and_false]
  simp only [Bool.false_eq_true, if_false]
  rcases authenticatedGitUrl setup repo with e | url
  · exact CheckedOut.of_error (Untouched.refl setup.paths path _) (fun _ => Iff.rfl)
  dsimp only
  rcases isLocalRepo with _ | _
  · have hnot : NotUsable (world.directory setup.paths path) := by
      intro commit husable
      exact absurd (hlocal.mpr ⟨commit, husable⟩) (by simp)
    simp only [Bool.false_eq_true, if_false]
    apply @CheckedOut.map setup _ _ _ _ _ _ _ fun branch : PyStr => (branch, some branch)
    apply (checkedOut_gitClone hgit url repo.branchOrMain world hnot).mono
    intro directory hfailed commit
    exact iff_of_false (hfailed commit) (hnot commit)
  · simp only [if_true]
    have hcurrent := @sameFiles_getCurrentBranch setup _ _ path hgit world
    apply @CheckedOut.map setup _ _ _ _ _ _ _ fun branch : PyStr => (branch, some branch)
    apply CheckedOut.of_untouched (hcurrent.untouched setup.paths path)
    apply (checkedOut_gitPull hgit _ url _).mono
    intro directory hfailed commit
    rw [hfailed, hcurrent.directory_eq]

/-! ## A remote that was rewound -/

/-- A git that fetches, and whose reset goes to `tip`. -/
def fetchingGit (tip : Commit) : Git := fun n command directory =>
  match command with
  | .fetch _ => (⟨0, [], []⟩, directory)
  | .reset _ => (⟨0, [], []⟩, some { git := true, head := some tip })
  | _ => offlineGit n command directory

theorem documented_fetchingGit {tip : Commit} (htip : tips tip) :
    (fetchingGit tip).Documented tips where
  keeps n command directory hkeeps := by
    have hoffline := (documented_offlineGit tips).keeps n command directory hkeeps
    cases command with
    | fetch branch => rfl
    | reset branch => exact absurd hkeeps (by simp [GitCommand.keepsCheckout])
    | _ => exact hoffline
  head_printed n commit := ⟨rfl, commit.strip_hash⟩
  head_missing n := by simp [fetchingGit, offlineGit, GitCommand.revParseHead]
  reset_done n branch directory _ := ⟨tip, htip, rfl⟩
  reset_failed n branch directory hfailed := absurd rfl hfailed
  clone_done n branch url directory hdone :=
    absurd hdone (by simp [fetchingGit, offlineGit])
  clone_failed n branch url directory _ := rfl

/-- A pull from a remote that answers ends at its tip. -/
theorem gitPull_fetchingGit (tip : Commit) (branch url : PyStr) (world : World) :
    (gitPull setup (fetchingGit tip) path branch url world).1 = .ok (tip.hash, branch) := by
  have horigin : (if url ≠ [] then setOriginUrl setup (fetchingGit tip) path url world
      else ((.ok () : Except SyncError Unit), world)).1 = .ok () := by
    split
    · rfl
    · rfl
  simp only [gitPull]
  generalize (if url ≠ [] then setOriginUrl setup (fetchingGit tip) path url world
    else ((.ok () : Except SyncError Unit), world)) = origin at horigin ⊢
  have hnone : (runGitFetchReset setup (fetchingGit tip) path branch origin.2).1 = none := rfl
  have hdirectory : Checkout.usableAt
      ((runGitFetchReset setup (fetchingGit tip) path branch origin.2).2.directory setup.paths
        path) tip :=
    directory_runGit (fetchingGit tip) (.reset branch) path _
  have hread := @getCommitHash_of_usable setup _ _ _ (@documented_fetchingGit (· = tip) _ rfl) _ _
    hdirectory
  rw [horigin]
  dsimp only
  rw [hnone]
  dsimp only [commitOn]
  rw [hread]
  rfl

/-! ## The safe syncs -/

/-- The promise of a call: a failure leaves a usable checkout at the same or a newer commit,
and nothing of a repository without url is ever removed. -/
def KeepsCheckout (paths : PathLib) (newer : Commit → Commit → Prop) (path : PyStr)
    (repo : RepositoryRef) (before : World) (success : Bool) (after : World) : Prop :=
  (success = false → ∀ commit, Checkout.usableAt (before.directory paths path) commit →
    ∃ now, Checkout.usableAt (after.directory paths path) now ∧
      (now = commit ∨ newer commit now)) ∧
  (repo.hasUrl = false → after.removed = before.removed)

/-- What makes a sync safe: nothing is removed that only the host has, and the remote can
only bring commits that are as new. -/
structure SafeToSync (setup : Setup) (newer : Commit → Commit → Prop) (tips : Commit → Prop)
    (repo : RepositoryRef) (world : World) (triggerIndex forceReclone : Bool) : Prop where
  local_kept : repo.hasUrl = false → ∀ checkout,
    world.directory setup.paths (localPathOf setup repo world) = some checkout →
      forceReclone = false ∧ (checkout.git = true → checkout.head.isSome = true)
  remote_kept : repo.hasUrl = true → ∀ commit,
    Checkout.usableAt (world.directory setup.paths (localPathOf setup repo world)) commit →
      forceReclone = false ∧
        (triggerIndex = true → (∃ url, authenticatedGitUrl setup repo.syncing = .ok url) →
          ∀ tip, tips tip → tip = commit ∨ newer commit tip)

variable {newer : Commit → Commit → Prop}

/-- A repository with a url gets as far as the `try` block. -/
theorem syncRepo_of_hasUrl (hurl : repo.hasUrl = true) :
    syncRepo setup outcomes repo triggerIndex forceReclone forceGitnexus world =
      syncPrepared setup outcomes repo.syncing
        (prepareSync setup outcomes repo forceReclone world) triggerIndex forceGitnexus := by
  have hcleared : ∀ flag, (repo.clearError flag).hasUrl = true := fun _ => hurl
  simp only [syncRepo, hcleared, Bool.not_true, Bool.false_and, Bool.false_eq_true, if_false]
  rfl

/-- Where the `try` block finds a commit, the url was accepted. -/
theorem authenticated_of_syncCheckout (hurl : repo.hasUrl = true) {isLocalRepo : Bool}
    {found : PyStr × PyStr × Option PyStr}
    (hok : (syncCheckout setup outcomes repo path isLocalRepo world).1 = .ok found) :
    ∃ url, authenticatedGitUrl setup repo = .ok url := by
  rcases hauthenticated : authenticatedGitUrl setup repo with e | url
  · rw [syncCheckout, hurl, Bool.not_true, Bool.and_false, hauthenticated] at hok
    exact absurd hok (by simp)
  · exact ⟨url, rfl⟩

theorem keepsCheckout_of_safe (hgit : outcomes.git.Documented tips)
    (hsafe : SafeToSync setup newer tips repo world triggerIndex forceReclone) :
    KeepsCheckout setup.paths newer (localPathOf setup repo world) repo world
      (syncRepo setup outcomes repo triggerIndex forceReclone forceGitnexus world).1.success
      (syncRepo setup outcomes repo triggerIndex forceReclone forceGitnexus world).2.1 := by
  rcases hurl : repo.hasUrl with _ | _
  · have hsame := (sameFiles_prepareSync hgit (hsafe.local_kept hurl)).trans
      (@sameFiles_syncRepo_of_noUrl _ _ _ _ triggerIndex _ forceGitnexus _ hgit hurl)
    constructor
    · intro _ commit husable
      refine ⟨commit, ?_, .inl rfl⟩
      rw [hsame.directory_eq]
      exact husable
    · exact fun _ => hsame.2
  · refine ⟨?_, fun hnone => absurd (hurl.symm.trans hnone) (by simp)⟩
    intro hfailure commit husable
    obtain ⟨hforce, htips⟩ := hsafe.remote_kept hurl commit husable
    have hprepared := @sameFiles_prepareSync setup _ _ repo forceReclone world hgit (by
        intro checkout hdirectory
        have heq := Option.some.inj (hdirectory.symm.trans husable)
        exact ⟨hforce, fun _ => by rw [heq]; rfl⟩)
    have hlocal := @isLocalRepo_iff setup _ _ repo forceReclone world hgit
    have hpath := @path_prepareSync setup _ _ repo forceReclone world hgit
    rw [syncRepo_of_hasUrl hurl] at hfailure ⊢
    generalize prepareSync setup outcomes repo forceReclone world = prepared
      at hprepared hlocal hpath hfailure ⊢
    rw [← hpath] at husable hlocal ⊢
    rw [← hprepared.directory_eq] at husable
    have hchecked := @checkedOut_syncCheckout _ _ _ _ repo.syncing _ hgit hurl _ hlocal
    simp only [syncPrepared] at hfailure ⊢
    rcases hresult : (syncCheckout setup outcomes repo.syncing prepared.path
      prepared.isLocalRepo prepared.world).1 with e | ⟨hash, branch, defaultBranch⟩
    · exact ⟨commit, (hchecked.error e hresult commit).mpr husable, .inl rfl⟩
    · obtain ⟨tip, htip, _, hnow⟩ := hchecked.ok hash (branch, defaultBranch) hresult
      rcases htrigger : triggerIndex with _ | _
      · rw [hresult, htrigger] at hfailure
        exact absurd hfailure (by simp [finishSync])
      · exact ⟨tip, hnow, htips htrigger
          (@authenticated_of_syncCheckout _ _ _ repo.syncing _ hurl _ _ hresult) tip htip⟩

/-! ## The unsafe syncs -/

/-- The outcomes of a call whose scan raises. -/
def failingOutcomes (git : Git) : Outcomes where
  git := git
  scan _ := .error (.other (py "permission denied"))
  zoekt _ := .error (.other [])
  qdrant _ := .error (.other [])
  gitnexus _ _ := .error (.other [])

/-- What `sync` removes without a url is gone for good. -/
theorem not_keeps_of_noUrl (hgit : outcomes.git.Documented tips) (hurl : repo.hasUrl = false)
    {checkout : Checkout}
    (hdirectory : world.directory setup.paths (localPathOf setup repo world) = some checkout)
    (hclears : forceReclone = true ∨ (checkout.git = true ∧ checkout.head = none)) (success : Bool) :
    ¬KeepsCheckout setup.paths newer (localPathOf setup repo world) repo world success
      (syncRepo setup outcomes repo triggerIndex forceReclone forceGitnexus world).2.1 := by
  have hremoved := (@prepareSync_removes setup _ _ repo _ _ hgit _ hdirectory hclears).2
  have hsame := @sameFiles_syncRepo_of_noUrl setup _ _ _ triggerIndex forceReclone forceGitnexus
    world hgit hurl
  intro hkeeps
  have hkept := hkeeps.2 hurl
  rw [hsame.2, hremoved] at hkept
  exact absurd hkept (List.cons_ne_self _ _)

/-- A forced reclone from a remote that is out of reach loses the checkout. -/
theorem not_keeps_of_force (hurl : repo.hasUrl = true) {commit : Commit}
    (husable : Checkout.usableAt
      (world.directory setup.paths (localPathOf setup repo world)) commit) :
    ¬KeepsCheckout setup.paths newer (localPathOf setup repo world) repo world
      (syncRepo setup (failingOutcomes offlineGit) repo triggerIndex true forceGitnexus
        world).1.success
      (syncRepo setup (failingOutcomes offlineGit) repo triggerIndex true forceGitnexus
        world).2.1 := by
  have hgit : (failingOutcomes offlineGit).git.Documented (fun _ => False) :=
    documented_offlineGit _
  have hcleared := (@prepareSync_removes setup _ _ repo true _ hgit _ husable (.inl rfl)).1
  have hlocal := @isLocalRepo_iff setup _ _ repo true world hgit
  have hpath := @path_prepareSync setup _ _ repo true world hgit
  rw [syncRepo_of_hasUrl hurl]
  generalize prepareSync setup (failingOutcomes offlineGit) repo true world = prepared
    at hcleared hlocal hpath ⊢
  rw [← hpath] at husable hcleared hlocal ⊢
  have hchecked := @checkedOut_syncCheckout _ _ _ _ repo.syncing _ hgit hurl _ hlocal
  simp only [syncPrepared]
  rcases hresult : (syncCheckout setup (failingOutcomes offlineGit) repo.syncing prepared.path
    prepared.isLocalRepo prepared.world).1 with e | ⟨hash, branch, defaultBranch⟩
  · intro hkeeps
    obtain ⟨now, hnow, _⟩ := hkeeps.1 rfl commit husable
    have hstill := (hchecked.error e hresult now).mp hnow
    rw [hcleared] at hstill
    exact notUsable_none now hstill
  · obtain ⟨_, hfalse, _⟩ := hchecked.ok hash (branch, defaultBranch) hresult
    exact hfalse.elim

/-- A pull from a rewound remote moves the checkout back before the indexing fails. -/
theorem not_keeps_of_rewound (hurl : repo.hasUrl = true) {commit tip : Commit}
    (husable : Checkout.usableAt
      (world.directory setup.paths (localPathOf setup repo world)) commit)
    {url : PyStr} (hauthenticated : authenticatedGitUrl setup repo.syncing = .ok url)
    (hrewound : ¬(tip = commit ∨ newer commit tip)) :
    ¬KeepsCheckout setup.paths newer (localPathOf setup repo world) repo world
      (syncRepo setup (failingOutcomes (fetchingGit tip)) repo true false forceGitnexus
        world).1.success
      (syncRepo setup (failingOutcomes (fetchingGit tip)) repo true false forceGitnexus
        world).2.1 := by
  have hgit : (failingOutcomes (fetchingGit tip)).git.Documented (· = tip) :=
    documented_fetchingGit rfl
  have hprepared := @sameFiles_prepareSync setup _ _ repo false world hgit (by
      intro checkout hdirectory
      have heq := Option.some.inj (hdirectory.symm.trans husable)
      exact ⟨rfl, fun _ => by rw [heq]; rfl⟩)
  have hlocal := @isLocalRepo_iff setup _ _ repo false world hgit
  have hpath := @path_prepareSync setup _ _ repo false world hgit
  rw [syncRepo_of_hasUrl hurl]
  generalize prepareSync setup (failingOutcomes (fetchingGit tip)) repo false world = prepared
    at hprepared hlocal hpath ⊢
  rw [← hpath] at husable hlocal ⊢
  have husable' := husable
  rw [← hprepared.directory_eq] at husable'
  have hisLocal : prepared.isLocalRepo = true := hlocal.mpr ⟨commit, husable'⟩
  have hchecked := @checkedOut_syncCheckout _ _ _ _ repo.syncing _ hgit hurl _ hlocal
  simp only [syncPrepared]
  rcases hresult : (syncCheckout setup (failingOutcomes (fetchingGit tip)) repo.syncing
    prepared.path prepared.isLocalRepo prepared.world).1 with e | ⟨hash, branch, defaultBranch⟩
  · have hsyncing : repo.syncing.hasUrl = true := hurl
    rw [syncCheckout, hsyncing, hisLocal, hauthenticated] at hresult
    have hpull := @gitPull_fetchingGit setup prepared.path tip
    simp only [failingOutcomes, Bool.not_true, Bool.and_false, Bool.false_eq_true, if_false,
      if_true, hpull] at hresult
    exact absurd hresult (by simp [Except.map])
  · obtain ⟨now, hnow, _, hstands⟩ := hchecked.ok hash (branch, defaultBranch) hresult
    intro hkeeps
    obtain ⟨kept, hkept, hnewer⟩ := hkeeps.1 rfl commit husable
    have hsome : some { git := true, head := some now } =
        some ({ git := true, head := some kept } : Checkout) := hstands.symm.trans hkept
    have heq : now = kept := by
      have hcheckout := Option.some.inj hsome
      simpa using hcheckout
    rw [← heq, hnow] at hnewer
    exact hrewound hnewer

def firstCommit : Commit := ⟨py "c0ffee", by decide, by decide⟩

/-- A repository that was imported from a directory of the host. -/
def importedRepo : RepositoryRef where
  name := py "demo"
  url := none
  defaultBranch := some (py "main")
  localPath := some (py "/home/dev/demo")
  syncStatus := unsynced
  metadata := []

/-- The same with a url. -/
def clonedRepo : RepositoryRef :=
  { importedRepo with url := some (py "https://example.com/demo.git") }

/-- One repository and its checkout. -/
def demoService (repo : RepositoryRef) : Service where
  repos := [(repo.name, repo)]
  world :=
    { disk := fun location =>
        if location = py "/home/dev/demo" then some { git := true, head := some firstCommit }
        else none
      clock := 0
      removed := [] }
  indexRuns := []

end RootSeeker.CodeIndex
