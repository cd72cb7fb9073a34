import RootSeeker.CodeIndex.IncrementalSync

/-!
# Runs in which skipped repositories are indexed

Each turn of `sync_changed` works on one repository.  Where no two repositories
share a directory and the indexers come out well, every turn keeps this: the
commit at which a checkout stands was indexed last with `COMPLETED`.
-/

namespace RootSeeker.CodeIndex

open Python World Transition

variable {setup : Setup} {outcomes : Outcomes} {tips : Commit → Prop} {repo : RepositoryRef}
  {world : World} {path name : PyStr}

/-! ## The check only reads -/

theorem sameFiles_remoteCommitHash (hgit : outcomes.git.Documented tips) (branch : PyStr)
    (world : World) : SameFiles world (remoteCommitHash setup outcomes path branch world).2 := by
  simp only [remoteCommitHash]
  split
  · exact sameFiles_runGit hgit rfl path world
  · exact sameFiles_runGit hgit rfl path world

theorem sameFiles_fetchForCheck (hgit : outcomes.git.Documented tips) (branch url : PyStr)
    (world : World) : SameFiles world (fetchForCheck setup outcomes path branch url world).2 := by
  have hfetch := @sameFiles_runGit setup.paths _ _ hgit (.fetch branch) rfl path world
  have hdetect := hfetch.trans (@sameFiles_detectRemoteDefaultBranch setup _ _ path hgit url
    (world.runGit setup.paths outcomes.git (.fetch branch) path).2)
  simp only [fetchForCheck]
  split
  · exact hfetch
  · split
    · split
      · exact hdetect
      · split
        · exact hdetect
        next other _ _ =>
          have hagain := hdetect.trans (@sameFiles_runGit setup.paths _ _ hgit (.fetch other) rfl
            path _)
          split
          · exact hagain
          · exact hagain
    · exact hfetch

theorem sameFiles_remoteMoved (hgit : outcomes.git.Documented tips) (repo : RepositoryRef)
    (path : PyStr) (world : World) :
    SameFiles world (remoteMoved setup outcomes repo path world).2 := by
  rw [remoteMoved]
  split
  · exact SameFiles.refl world
  next url _ =>
    have horigin := @sameFiles_setOriginUrl setup _ _ path hgit url world
    dsimp only
    split
    · exact horigin
    · have hcurrent := horigin.trans (@sameFiles_getCurrentBranch setup _ _ path hgit _)
      have hfetched := hcurrent.trans (@sameFiles_fetchForCheck setup _ _ path hgit
        ((getCurrentBranch setup outcomes.git path
          (setOriginUrl setup outcomes.git path url world).2).1.getD repo.branchOrMain) url _)
      split
      · exact hfetched
      next branch _ =>
        have hhash := hfetched.trans (@sameFiles_getCommitHash setup _ _ path hgit _)
        split
        · exact hhash
        · exact hhash.trans (sameFiles_remoteCommitHash hgit branch _)

/-- The check leaves the directories alone, and it lets a repository with a url off only
when its checkout is usable. -/
theorem hasRemoteUpdates_reads (hgit : outcomes.git.Documented tips) {service : Service}
    (hrepo : service.repos.get? name = some repo) :
    SameFiles service.world (hasRemoteUpdates setup outcomes name service).2.world ∧
      ((hasRemoteUpdates setup outcomes name service).1 = .ok false → repo.hasUrl = true →
        ∃ commit, Checkout.usableAt
          (service.world.directory setup.paths (localPathOf setup repo service.world)) commit) := by
  have hlocated := @sameFiles_resolveLocalPath setup _ _ hgit repo service.world
  have hcheck := hlocated.trans (@sameFiles_isUsableGitRepo setup.paths _ _ hgit
    (resolveLocalPath setup outcomes.git repo service.world).1 _)
  have husable := @isUsableGitRepo_iff setup.paths _ _ hgit
    (resolveLocalPath setup outcomes.git repo service.world).1
    (resolveLocalPath setup outcomes.git repo service.world).2
  rw [hlocated.directory_eq, resolveLocalPath_fst hgit] at husable
  have hurl : (repo.at (localPathOf setup repo service.world)).hasUrl = repo.hasUrl := rfl
  simp only [hasRemoteUpdates, hrepo, resolveLocalPath_fst hgit, hurl]
  rw [resolveLocalPath_fst hgit] at hcheck
  rcases hlocal : (isUsableGitRepo setup.paths outcomes.git
    (localPathOf setup repo service.world)
    (resolveLocalPath setup outcomes.git repo service.world).2).1 with _ | _
  · refine ⟨hcheck, ?_⟩
    intro hanswer hhas
    simp [hhas] at hanswer
  · constructor
    · simp only [Bool.not_true, Bool.false_eq_true, if_false]
      split
      · exact hcheck
      · exact hcheck.trans (sameFiles_remoteMoved hgit _ _ _)
    · exact fun _ _ => husable.mp hlocal

/-! ## One turn -/

section Turn

variable (setup) (home : PyStr → PyStr → Prop)

/-- No path of one repository leads into a path of another. -/
def Apart : Prop :=
  ∀ left right, left ≠ right → ∀ p q, home left p → home right q →
    setup.paths.within (setup.paths.resolve p) (setup.paths.resolve q) = false

/-- The repositories keep to their paths, and the commits at which their checkouts stand were
indexed. -/
structure Settled (service : Service) : Prop where
  keyed : Keyed service.repos
  homes : ∀ name repo, service.repos.get? name = some repo →
    ∀ path, MayUse setup repo path → home name path
  indexed : ∀ name repo, service.repos.get? name = some repo → repo.hasUrl = true →
    ∀ path, home name path → ∀ commit,
      Checkout.usableAt (service.world.directory setup.paths path) commit →
        lastRun service.indexRuns name commit.hash = some true

/-- A turn for one repository does not touch the others. -/
structure TurnFrame (turned : PyStr) (before after : Service) : Prop where
  repos : ∀ name, name ≠ turned → after.repos.get? name = before.repos.get? name
  directory : ∀ name path, name ≠ turned → home name path →
    after.world.directory setup.paths path = before.world.directory setup.paths path
  runs : ∀ name, name ≠ turned → ∀ hash,
    lastRun after.indexRuns name hash = lastRun before.indexRuns name hash

variable {setup} {home}

theorem TurnFrame.trans {turned : PyStr} {first second third : Service}
    (hfirst : TurnFrame setup home turned first second)
    (hsecond : TurnFrame setup home turned second third) :
    TurnFrame setup home turned first third where
  repos name hne := (hsecond.repos name hne).trans (hfirst.repos name hne)
  directory name path hne hhome :=
    (hsecond.directory name path hne hhome).trans (hfirst.directory name path hne hhome)
  runs name hne hash := (hsecond.runs name hne hash).trans (hfirst.runs name hne hash)

/-- A turn settles the service when it settles its own repository. -/
theorem settled_of_turn {turned : PyStr} {before after : Service} {turnedRepo : RepositoryRef}
    (hsettled : Settled setup home before) (hframe : TurnFrame setup home turned before after)
    (hrepo : after.repos.get? turned = some turnedRepo) (hname : turnedRepo.name = turned)
    (hhome : ∀ path, MayUse setup turnedRepo path → home turned path)
    (hindexed : turnedRepo.hasUrl = true → ∀ path, home turned path → ∀ commit,
      Checkout.usableAt (after.world.directory setup.paths path) commit →
        lastRun after.indexRuns turned commit.hash = some true) :
    Settled setup home after where
  keyed name repo hget := by
    by_cases heq : name = turned
    · rw [heq, hrepo] at hget
      rw [← Option.some.inj hget, hname, heq]
    · rw [hframe.repos name heq] at hget
      exact hsettled.keyed name repo hget
  homes name repo hget := by
    by_cases heq : name = turned
    · rw [heq, hrepo] at hget
      rw [← Option.some.inj hget, heq]
      exact hhome
    · rw [hframe.repos name heq] at hget
      exact hsettled.homes name repo hget
  indexed name repo hget hurl path hpath commit husable := by
    by_cases heq : name = turned
    · rw [heq, hrepo] at hget
      rw [← Option.some.inj hget] at hurl
      rw [heq] at hpath ⊢
      exact hindexed hurl path hpath commit husable
    · rw [hframe.repos name heq] at hget
      rw [hframe.directory name path heq hpath] at husable
      rw [hframe.runs name heq]
      exact hsettled.indexed name repo hget hurl path hpath commit husable

theorem frame_hasRemoteUpdates (hgit : outcomes.git.Documented tips) {service : Service}
    (hrepo : service.repos.get? name = some repo) :
    TurnFrame setup home name service (hasRemoteUpdates setup outcomes name service).2 := by
  obtain ⟨hrepos, hruns⟩ := @hasRemoteUpdates_of_registered setup outcomes _ _ _ hrepo
  have hsame := (@hasRemoteUpdates_reads setup _ _ _ _ hgit _ hrepo).1
  constructor
  · intro other hne
    rw [hrepos, Dict.get?_set_of_ne _ _ hne]
  · intro _ path _ _
    exact hsame.directory_eq setup.paths path
  · intro _ _ hash
    rw [hruns]

theorem settled_hasRemoteUpdates (hgit : outcomes.git.Documented tips) {service : Service}
    (hsettled : Settled setup home service) (hrepo : service.repos.get? name = some repo) :
    Settled setup home (hasRemoteUpdates setup outcomes name service).2 := by
  obtain ⟨hrepos, hruns⟩ := @hasRemoteUpdates_of_registered setup outcomes _ _ _ hrepo
  have hsame := (@hasRemoteUpdates_reads setup _ _ _ _ hgit _ hrepo).1
  have hget : (hasRemoteUpdates setup outcomes name service).2.repos.get? name =
      some (repo.at (resolveLocalPath setup outcomes.git repo service.world).1) := by
    rw [hrepos, Dict.get?_set_self]
  apply settled_of_turn hsettled (frame_hasRemoteUpdates hgit hrepo) hget
  · exact hsettled.keyed name repo hrepo
  · intro path hused
    apply hsettled.homes name repo hrepo
    exact mayUse_of_sameIdentity (sameIdentity_at repo _)
      (mayUse_resolveLocalPath outcomes.git repo service.world) hused
  · intro hurl path hpath commit husable
    rw [hsame.directory_eq] at husable
    rw [hruns]
    exact hsettled.indexed name repo hrepo hurl path hpath commit husable

/-- What another repository's path sees of a sync. -/
theorem directory_of_untouched (hapart : Apart setup home) {other used : PyStr}
    {after : World} (hne : other ≠ name) (hhome : home name path) (hused : home other used)
    (huntouched : Untouched setup.paths path world after) :
    after.directory setup.paths used = world.directory setup.paths used := by
  have hout := hapart other name hne used path hused hhome
  have hlocation : setup.paths.resolve used ≠ setup.paths.resolve path := by
    intro heq
    rw [heq, setup.paths.within_self] at hout
    exact absurd hout (by simp)
  rcases huntouched _ hlocation with hsame | ⟨hwithin, _⟩
  · exact hsame
  · rw [hout] at hwithin
    exact absurd hwithin (by simp)

/-- Away from the synced directory a sync makes nothing usable. -/
theorem usable_of_untouched {used : PyStr} {after : World} {commit : Commit}
    (huntouched : Untouched setup.paths path world after)
    (hlocation : setup.paths.resolve used ≠ setup.paths.resolve path)
    (husable : Checkout.usableAt (after.directory setup.paths used) commit) :
    Checkout.usableAt (world.directory setup.paths used) commit := by
  rcases huntouched _ hlocation with hsame | ⟨_, hgone⟩
  · rw [directory, hsame] at husable
    exact husable
  · rw [directory, hgone] at husable
    exact absurd husable (notUsable_none commit)

theorem frame_sync (hapart : Apart setup home) (hgit : outcomes.git.Documented tips)
    {service : Service} (hsettled : Settled setup home service)
    (hrepo : service.repos.get? name = some repo) (hurl : repo.hasUrl = true)
    (hready : IndexesReady setup outcomes name) :
    TurnFrame setup home name service
      (sync setup outcomes name true false true service).2 := by
  have hname := hsettled.keyed name repo hrepo
  have hhome : home name (localPathOf setup repo service.world) :=
    hsettled.homes name repo hrepo _ (mayUse_resolveLocalPath offlineGit repo service.world)
  obtain ⟨huntouched, hruns⟩ := @syncRepo_indexes setup _ _ repo false true service.world hgit hurl
    (by rw [hname]; exact hready)
  rw [sync_of_registered hrepo]
  constructor
  · intro other hne
    exact Dict.get?_set_of_ne _ _ hne
  · intro other used hne hused
    exact directory_of_untouched hapart hne hhome hused huntouched
  · intro other hne hash
    rcases hruns with ⟨hnone, _⟩ | ⟨commit, hone, _⟩
    · dsimp only
      rw [hnone, List.nil_append]
    · dsimp only
      rw [hone, hname, List.singleton_append, lastRun_cons, if_neg]
      exact fun hboth => hne hboth.1.symm

theorem settled_sync (hapart : Apart setup home) (hgit : outcomes.git.Documented tips)
    {service : Service} (hsettled : Settled setup home service)
    (hrepo : service.repos.get? name = some repo) (hurl : repo.hasUrl = true)
    (hready : IndexesReady setup outcomes name) :
    Settled setup home (sync setup outcomes name true false true service).2 := by
  have hframe := frame_sync hapart hgit hsettled hrepo hurl hready
  have hname := hsettled.keyed name repo hrepo
  have hidentity := @sameIdentity_syncRepo setup outcomes repo true false true service.world
  obtain ⟨huntouched, hruns⟩ := @syncRepo_indexes setup _ _ repo false true service.world hgit hurl
    (by rw [hname]; exact hready)
  rw [sync_of_registered hrepo] at hframe ⊢
  apply settled_of_turn hsettled hframe (Dict.get?_set_self _ _ _)
  · rw [hidentity.name, hname]
  · intro path hused
    apply hsettled.homes name repo hrepo
    exact mayUse_of_sameIdentity hidentity
      (mayUse_resolveLocalPath outcomes.git repo service.world) hused
  · intro _ path hpath commit husable
    dsimp only at husable ⊢
    have hbefore := hsettled.indexed name repo hrepo hurl path hpath commit
    rcases hruns with ⟨hnone, hkept⟩ | ⟨tip, hone, htip⟩
    · rw [hnone, List.nil_append]
      apply hbefore
      by_cases hlocation : setup.paths.resolve path =
          setup.paths.resolve (localPathOf setup repo service.world)
      · rw [directory, hlocation] at husable ⊢
        exact hkept commit husable
      · exact usable_of_untouched huntouched hlocation husable
    · rw [hone, hname, List.singleton_append, lastRun_cons]
      split
      · rfl
      next hother =>
        apply hbefore
        by_cases hlocation : setup.paths.resolve path =
            setup.paths.resolve (localPathOf setup repo service.world)
        · rw [directory, hlocation] at husable
          have hsome : some { git := true, head := some tip } =
              some ({ git := true, head := some commit } : Checkout) := htip.symm.trans husable
          have heq : tip = commit := by simpa using hsome
          exact absurd ⟨rfl, congrArg Commit.hash heq⟩ hother
        · exact usable_of_untouched huntouched hlocation husable

/-- At the path that was resolved last, HEAD is a commit whose last indexing was
`COMPLETED`. -/
def IndexedAtHead (setup : Setup) (home : PyStr → PyStr → Prop) (service : Service)
    (name : PyStr) : Prop :=
  ∀ repo, service.repos.get? name = some repo → repo.hasUrl = true →
    ∃ path commit, repo.localPath = some path ∧ home name path ∧
      Checkout.usableAt (service.world.directory setup.paths path) commit ∧
        lastRun service.indexRuns name commit.hash = some true

theorem indexedAtHead_of_frame {turned : PyStr} {before after : Service}
    (hframe : TurnFrame setup home turned before after) (hne : name ≠ turned)
    (hindexed : IndexedAtHead setup home before name) : IndexedAtHead setup home after name := by
  intro repo hget hurl
  rw [hframe.repos name hne] at hget
  obtain ⟨path, commit, hpath, hhome, husable, hrun⟩ := hindexed repo hget hurl
  refine ⟨path, commit, hpath, hhome, ?_, ?_⟩
  · rw [hframe.directory name path hne hhome]
    exact husable
  · rw [hframe.runs name hne]
    exact hrun

/-- Only repositories with a url are found to have moved. -/
theorem hasUrl_of_needsSync {service : Service} (hrepo : service.repos.get? name = some repo)
    (hneeds : (hasRemoteUpdates setup outcomes name service).1 = .ok true) :
    repo.hasUrl = true := by
  by_contra hnone
  rw [Bool.not_eq_true] at hnone
  have hat : ∀ path, (repo.at path).hasUrl = false := fun _ => hnone
  simp only [hasRemoteUpdates, hrepo, hat, Bool.not_false, if_true] at hneeds
  split at hneeds
  · exact absurd hneeds (by simp)
  · exact absurd hneeds (by simp)

/-- A turn settles its repository, and skips it only when it is indexed. -/
theorem checkRepo_turn (hapart : Apart setup home) (hgit : outcomes.git.Documented tips)
    {service : Service} (hsettled : Settled setup home service)
    (hrepo : service.repos.get? name = some repo)
    (hready : repo.hasUrl = true → IndexesReady setup outcomes name) (report : ChangeReport) :
    let turn := checkRepo setup outcomes true (report, service) name
    Settled setup home turn.2 ∧ TurnFrame setup home name service turn.2 ∧
      (turn.1.skipped = report.skipped ∨
        (turn.1.skipped = report.skipped ++ [name] ∧ IndexedAtHead setup home turn.2 name)) := by
  have hchecked := settled_hasRemoteUpdates hgit hsettled hrepo
  have hframe := @frame_hasRemoteUpdates setup _ _ _ _ home hgit _ hrepo
  obtain ⟨hsame, husable⟩ := @hasRemoteUpdates_reads setup _ _ _ _ hgit _ hrepo
  obtain ⟨hrepos, hruns⟩ := @hasRemoteUpdates_of_registered setup outcomes _ _ _ hrepo
  have hget : (hasRemoteUpdates setup outcomes name service).2.repos.get? name =
      some (repo.at (resolveLocalPath setup outcomes.git repo service.world).1) := by
    rw [hrepos, Dict.get?_set_self]
  rcases @checkRepo_cases setup outcomes true report service
    name with ⟨hafter, hskipped⟩ | ⟨hafter, hskipped, hneeds⟩
  · dsimp only
    rw [hafter]
    refine ⟨hchecked, hframe, ?_⟩
    rcases hskipped with hkept | ⟨hadded, hnone⟩
    · exact .inl hkept
    · refine .inr ⟨hadded, ?_⟩
      intro other hother hurl
      rw [hget] at hother
      obtain rfl := Option.some.inj hother
      obtain ⟨commit, hcommit⟩ := husable hnone hurl
      have hhome : home name (localPathOf setup repo service.world) :=
        hsettled.homes name repo hrepo _ (mayUse_resolveLocalPath offlineGit repo service.world)
      refine ⟨localPathOf setup repo service.world, commit, ?_, hhome, ?_, ?_⟩
      · exact congrArg some (resolveLocalPath_fst hgit repo service.world)
      · rw [hsame.directory_eq]
        exact hcommit
      · rw [hruns]
        exact hsettled.indexed name repo hrepo hurl _ hhome commit hcommit
  · dsimp only
    rw [hafter]
    have hurl := hasUrl_of_needsSync hrepo hneeds
    refine ⟨?_, ?_, .inl hskipped⟩
    · exact settled_sync hapart hgit hchecked hget hurl (hready hurl)
    · exact hframe.trans (frame_sync hapart hgit hchecked hget hurl (hready hurl))

/-- The loop over repositories, the ones in `names` still to come. -/
theorem checkRepo_loop (hapart : Apart setup home) (hgit : outcomes.git.Documented tips)
    (names : List PyStr) (hnodup : names.Nodup) (report : ChangeReport) (service : Service)
    (hsettled : Settled setup home service)
    (hregistered : ∀ name ∈ names, ∃ repo, service.repos.get? name = some repo ∧
      (repo.hasUrl = true → IndexesReady setup outcomes name))
    (hskipped : ∀ name ∈ report.skipped, name ∉ names ∧
      IndexedAtHead setup home service name) :
    let result := names.foldl (checkRepo setup outcomes true) (report, service)
    Settled setup home result.2 ∧
      ∀ name ∈ result.1.skipped, IndexedAtHead setup home result.2 name := by
  induction names generalizing report service with
  | nil => exact ⟨hsettled, fun name hname => (hskipped name hname).2⟩
  | cons head rest ih =>
    obtain ⟨repo, hrepo, hready⟩ := hregistered head List.mem_cons_self
    obtain ⟨hnotin, hrest⟩ := List.nodup_cons.mp hnodup
    have hturned := checkRepo_turn hapart hgit hsettled hrepo hready report
    rw [List.foldl_cons]
    generalize checkRepo setup outcomes true (report, service) head = turn at hturned ⊢
    obtain ⟨report', service'⟩ := turn
    obtain ⟨hsettled', hframe, hturn⟩ := hturned
    apply ih hrest report' service' hsettled'
    · intro name hname
      obtain ⟨other, hother, hotherReady⟩ := hregistered name (List.mem_cons_of_mem _ hname)
      refine ⟨other, ?_, hotherReady⟩
      rw [hframe.repos name (fun heq => hnotin (heq ▸ hname))]
      exact hother
    · have hold : ∀ name ∈ report.skipped, name ∉ rest ∧
          IndexedAtHead setup home service' name := by
        intro name hname
        obtain ⟨hout, hindexed⟩ := hskipped name hname
        refine ⟨fun hin => hout (List.mem_cons_of_mem _ hin), ?_⟩
        exact indexedAtHead_of_frame hframe (fun heq => hout (heq ▸ List.mem_cons_self)) hindexed
      rcases hturn with hsame | ⟨hadded, hindexed⟩
      · rw [hsame]
        exact hold
      · rw [hadded]
        intro name hname
        rcases List.mem_append.mp hname with hbefore | hnew
        · exact hold name hbefore
        · rw [List.mem_singleton.mp hnew]
          exact ⟨hnotin, hindexed⟩

end Turn

/-! ## Every repository is accounted for -/

/-- Repositories as `register` leaves them. -/
structure Registered (repos : Dict PyStr RepositoryRef) : Prop where
  keyed : Keyed repos
  nodup : repos.keys.Nodup

theorem Registered.set {repos : Dict PyStr RepositoryRef} (hregistered : Registered repos)
    (repo : RepositoryRef) : Registered (repos.set repo.name repo) :=
  ⟨keyed_set hregistered.keyed repo, Dict.nodup_keys_set hregistered.nodup _ _⟩

theorem registered_hasRemoteUpdates {service : Service} (hregistered : Registered service.repos)
    (name : PyStr) : Registered (hasRemoteUpdates setup outcomes name service).2.repos := by
  rcases hrepo : service.repos.get? name with _ | repo
  · simp only [hasRemoteUpdates, hrepo]
    exact hregistered
  · have hname : (repo.at
        (resolveLocalPath setup outcomes.git repo service.world).1).name = name :=
      hregistered.keyed name repo hrepo
    rw [(hasRemoteUpdates_of_registered hrepo).1, ← hname]
    exact hregistered.set _

theorem name_sync {service : Service} (hregistered : Registered service.repos) (name : PyStr)
    (triggerIndex forceReclone forceGitnexus : Bool) :
    (sync setup outcomes name triggerIndex forceReclone forceGitnexus
      service).1.repo.name = name := by
  rcases hrepo : service.repos.get? name with _ | repo
  · simp only [sync, hrepo]
    rfl
  · rw [sync_of_registered hrepo]
    exact sameIdentity_syncRepo.name.trans (hregistered.keyed name repo hrepo)

theorem registered_sync {service : Service} (hregistered : Registered service.repos)
    (name : PyStr) (triggerIndex forceReclone forceGitnexus : Bool) :
    Registered (sync setup outcomes name triggerIndex forceReclone forceGitnexus
      service).2.repos := by
  have hname := @name_sync setup outcomes _ hregistered name triggerIndex forceReclone forceGitnexus
  rcases hrepo : service.repos.get? name with _ | repo
  · simp only [sync, hrepo]
    exact hregistered
  · rw [sync_of_registered hrepo] at hname ⊢
    dsimp only at hname ⊢
    have hset := hregistered.set (syncRepo setup outcomes repo triggerIndex forceReclone
      forceGitnexus service.world).1.repo
    rw [hname] at hset
    exact hset

theorem checkRepo_accounts (triggerIndex : Bool) (names : List PyStr) (done : List PyStr)
    (report : ChangeReport) (service : Service) (hregistered : Registered service.repos)
    (haccounts : Accounts done report) :
    let result := names.foldl (checkRepo setup outcomes triggerIndex) (report, service)
    Registered result.2.repos ∧ Accounts (done ++ names) result.1 := by
  induction names generalizing done report service with
  | nil => exact ⟨hregistered, by rw [List.append_nil]; exact haccounts⟩
  | cons head rest ih =>
    have hchecked := @registered_hasRemoteUpdates setup outcomes _ hregistered head
    have hturned := @accounts_checkRepo _ _ triggerIndex _ _ service _ haccounts
      (@name_sync setup outcomes _ hchecked head triggerIndex false true)
    have hservice : Registered
        (checkRepo setup outcomes triggerIndex (report, service) head).2.repos := by
      rcases @checkRepo_cases setup outcomes triggerIndex report service
        head with ⟨hafter, _⟩ | ⟨hafter, _⟩
      · rw [hafter]
        exact hchecked
      · rw [hafter]
        exact registered_sync hchecked head triggerIndex false true
    rw [List.foldl_cons, List.append_cons]
    generalize checkRepo setup outcomes triggerIndex (report, service) head = turn
      at hturned hservice ⊢
    obtain ⟨report', service'⟩ := turn
    exact ih _ report' service' hservice hturned

/-- In the report of a call every registered repository is checked once and ends in one
place. -/
def AccountsForAll (service : Service) (report : ChangeReport) : Prop :=
  ∀ name ∈ service.repos.keys, report.checked.count name = 1 ∧ report.placements name = 1

theorem syncChanged_accounts {service : Service} (hregistered : Registered service.repos)
    (triggerIndex : Bool) :
    Registered (syncChanged setup outcomes triggerIndex service).2.repos ∧
      AccountsForAll service (syncChanged setup outcomes triggerIndex service).1 := by
  obtain ⟨hafter, hchecked, hplaced⟩ := @checkRepo_accounts setup outcomes triggerIndex
    service.repos.keys [] .empty service hregistered ⟨rfl, fun name => rfl⟩
  refine ⟨hafter, ?_⟩
  intro name hname
  have hcount := List.count_eq_one_of_mem hregistered.nodup hname
  constructor
  · rw [syncChanged, hchecked]
    exact hcount
  · rw [syncChanged, hplaced name]
    exact hcount

/-! ## Runs -/

/-- A git whose commands have their documented effects. -/
abbrev DocumentedGit := {git : Git // git.Documented fun _ => True}

/-- What git and the indexers do in one call. -/
abbrev Call := {outcomes : Outcomes // outcomes.git.Documented fun _ => True}

def registerAll (setup : Setup) (git : Git) (repos : List RepositoryRef) (service : Service) :
    Service :=
  repos.foldl (register setup git) service

theorem registered_registerAll (git : Git) (repos : List RepositoryRef) (service : Service)
    (hregistered : Registered service.repos) :
    Registered (registerAll setup git repos service).repos := by
  induction repos generalizing service with
  | nil => exact hregistered
  | cons head rest ih =>
    apply ih
    exact hregistered.set
      { head with localPath := some (resolveLocalPath setup git head service.world).1 }

/-- The paths of the repositories that are registered at the start. -/
def homeOf (setup : Setup) (start : Service) (name path : PyStr) : Prop :=
  ∃ repo, start.repos.get? name = some repo ∧ MayUse setup repo path

/-- Every checkout that the repositories find stands at a commit whose last indexing was
`COMPLETED`. -/
def CheckoutsIndexed (setup : Setup) (service : Service) : Prop :=
  ∀ name repo, service.repos.get? name = some repo → repo.hasUrl = true →
    ∀ path, MayUse setup repo path → ∀ commit,
      Checkout.usableAt (service.world.directory setup.paths path) commit →
        lastRun service.indexRuns name commit.hash = some true

theorem settled_start {start : Service} (hregistered : Registered start.repos)
    (hindexed : CheckoutsIndexed setup start) : Settled setup (homeOf setup start) start where
  keyed := hregistered.keyed
  homes name repo hrepo path hpath := ⟨repo, hrepo, hpath⟩
  indexed name repo hrepo hurl path hpath commit husable := by
    obtain ⟨other, hother, hused⟩ := hpath
    rw [hrepo] at hother
    rw [← Option.some.inj hother] at hused
    exact hindexed name repo hrepo hurl path hused commit husable

/-- In this call the indexers come out well for every registered repository with a url. -/
def AllReady (setup : Setup) (service : Service) (outcomes : Outcomes) : Prop :=
  ∀ name repo, service.repos.get? name = some repo → repo.hasUrl = true →
    IndexesReady setup outcomes name

/-- After the call the HEAD of every skipped repository with a url is a commit whose last
indexing was `COMPLETED`. -/
def SkipsIndexed (setup : Setup) (call : ChangeReport × Service) : Prop :=
  ∀ name ∈ call.1.skipped, ∀ repo, call.2.repos.get? name = some repo → repo.hasUrl = true →
    ∃ path commit, repo.localPath = some path ∧
      Checkout.usableAt (call.2.world.directory setup.paths path) commit ∧
        lastRun call.2.indexRuns name commit.hash = some true

/-- A call keeps a settled service settled and skips only what is indexed. -/
theorem syncChanged_settled {home : PyStr → PyStr → Prop} (hapart : Apart setup home)
    (hgit : outcomes.git.Documented tips) {service : Service}
    (hregistered : Registered service.repos) (hsettled : Settled setup home service)
    (hready : AllReady setup service outcomes) :
    SkipsIndexed setup (syncChanged setup outcomes true service) ∧
      Settled setup home (syncChanged setup outcomes true service).2 := by
  obtain ⟨hafter, hskipped⟩ := checkRepo_loop hapart hgit service.repos.keys hregistered.nodup
    .empty service hsettled (by
      intro name hname
      rw [Dict.mem_keys_iff, Option.isSome_iff_exists] at hname
      obtain ⟨repo, hrepo⟩ := hname
      exact ⟨repo, hrepo, hready name repo hrepo⟩)
    (fun name hname => absurd hname List.not_mem_nil)
  refine ⟨?_, hafter⟩
  intro name hname repo hrepo hurl
  obtain ⟨path, commit, hpath, _, husable, hrun⟩ := hskipped name hname repo hrepo hurl
  exact ⟨path, commit, hpath, husable, hrun⟩

/-- A remote whose branches all stand at `tip`. -/
def remoteGit (tip : Commit) : Git := fun n command directory =>
  match command with
  | .revParse ref =>
    if ref = py "HEAD" then offlineGit n command directory
    else (⟨0, tip.hash, []⟩, directory)
  | .clone _ _ => (⟨0, [], []⟩, some { git := true, head := some tip })
  | _ => fetchingGit tip n command directory

theorem documented_remoteGit (tip : Commit) :
    (remoteGit tip).Documented fun _ => True where
  keeps n command directory hkeeps := by
    have hfetching :=
      (@documented_fetchingGit (fun _ => True) tip trivial).keeps n command
        directory hkeeps
    have hoffline := (documented_offlineGit fun _ => True).keeps n command directory hkeeps
    cases command with
    | revParse ref =>
      simp only [remoteGit]
      split
      · exact hoffline
      · rfl
    | clone branch url => exact absurd hkeeps (by simp [GitCommand.keepsCheckout])
    | _ => exact hfetching
  head_printed n commit := ⟨rfl, commit.strip_hash⟩
  head_missing n := by simp [remoteGit, offlineGit, GitCommand.revParseHead]
  reset_done n branch directory _ := ⟨tip, trivial, rfl⟩
  reset_failed n branch directory hfailed := absurd rfl hfailed
  clone_done n branch url directory _ := ⟨tip, trivial, rfl⟩
  clone_failed n branch url directory hfailed := absurd rfl hfailed

/-- A call in which the remote answers and zoekt comes out as given. -/
def remoteCall (zoektReady : Bool) : Call where
  val :=
    { git := remoteGit firstCommit
      scan := fun _ => .ok 1
      zoekt := fun _ => .ok ⟨.zoekt, zoektReady, []⟩
      qdrant := fun _ => .ok ⟨.qdrant, true, []⟩
      gitnexus := fun _ _ => .error (.other []) }
  property := documented_remoteGit firstCommit

def emptyDisk : World := ⟨fun _ => none, 0, []⟩

/-- The service before its first call: one repository, nothing cloned. -/
def freshService : Service :=
  registerAll localSetup offlineGit [{ clonedRepo with localPath := none }] ⟨[], emptyDisk, []⟩

end RootSeeker.CodeIndex
