import RootSeeker.Python.Text

/-!
# Checkouts and git commands

The service works on directories of the host through `git` and `shutil`.  A
directory is known by the location its path resolves to; what counts about it
is whether it has a `.git` and which commit HEAD names.  Git itself is a
parameter: the `n`-th command of a call may exit and print as it likes, within
what `Git.Documented` says of its effect on the directory.
-/

namespace RootSeeker.CodeIndex

open Python

/-- A commit, by its hash. -/
structure Commit where
  hash : PyStr
  hash_ne : hash ≠ []
  strip_hash : strip hash = hash
  deriving DecidableEq

/-- A directory: whether `.git` exists in it, and the commit that HEAD resolves to. -/
structure Checkout where
  git : Bool
  head : Option Commit
  deriving DecidableEq

/-- `_is_usable_git_repo`: a work tree with a resolvable HEAD commit. -/
def Checkout.usableAt (directory : Option Checkout) (commit : Commit) : Prop :=
  directory = some { git := true, head := some commit }

instance (directory : Option Checkout) (commit : Commit) :
    Decidable (Checkout.usableAt directory commit) :=
  inferInstanceAs (Decidable (_ = _))

inductive GitCommand where
  | revParse (ref : PyStr)
  | showCurrentBranch
  | lsRemote (url : PyStr)
  | setOriginUrl (url : PyStr)
  | addOrigin (url : PyStr)
  | fetch (branch : PyStr)
  | reset (branch : PyStr)
  | clone (branch url : PyStr)
  deriving DecidableEq

/-- `git rev-parse HEAD`. -/
def GitCommand.revParseHead : GitCommand := .revParse (py "HEAD")

/-- The commands that leave the files and HEAD alone. -/
def GitCommand.keepsCheckout : GitCommand → Bool
  | .reset _ => false
  | .clone _ _ => false
  | _ => true

/-- `subprocess.CompletedProcess`. -/
structure Completed where
  returncode : ℤ
  stdout : PyStr
  stderr : PyStr
  deriving DecidableEq

/-- What the `n`-th command answers in a directory, and the directory afterwards. -/
abbrev Git := ℕ → GitCommand → Option Checkout → Completed × Option Checkout

/-- The documented effects of the commands.  `tips` are the commits at which the branches
of the remote stand while the call runs. -/
structure Git.Documented (git : Git) (tips : Commit → Prop) : Prop where
  keeps : ∀ n command directory, command.keepsCheckout = true →
    (git n command directory).2 = directory
  head_printed : ∀ n commit,
    let answer := (git n .revParseHead (some { git := true, head := some commit })).1
    answer.returncode = 0 ∧ strip answer.stdout = commit.hash
  head_missing : ∀ n, (git n .revParseHead (some { git := true, head := none })).1.returncode ≠ 0
  reset_done : ∀ n branch directory, (git n (.reset branch) directory).1.returncode = 0 →
    ∃ commit, tips commit ∧ Checkout.usableAt (git n (.reset branch) directory).2 commit
  reset_failed : ∀ n branch directory, (git n (.reset branch) directory).1.returncode ≠ 0 →
    (git n (.reset branch) directory).2 = directory
  clone_done : ∀ n branch url directory,
    (git n (.clone branch url) directory).1.returncode = 0 →
      ∃ commit, tips commit ∧ Checkout.usableAt (git n (.clone branch url) directory).2 commit
  clone_failed : ∀ n branch url directory,
    (git n (.clone branch url) directory).1.returncode ≠ 0 →
      (git n (.clone branch url) directory).2 = directory

/-- How paths lead to directories. -/
structure PathLib where
  /-- `base / name`. -/
  join : PyStr → PyStr → PyStr
  absolute : PyStr → PyStr
  /-- The location that the path leads to, links followed. -/
  resolve : PyStr → PyStr
  parent : PyStr → PyStr
  isAbsolute : PyStr → Bool
  /-- The first location is the second one or lies below it. -/
  within : PyStr → PyStr → Bool
  within_self : ∀ location, within location location = true
  resolve_absolute : ∀ path, resolve (absolute path) = resolve path

/-- Paths with slashes and without links, below a fixed working directory, for runs on
fixed inputs. -/
def slashPaths : PathLib where
  join base name := base ++ py "/" ++ name
  absolute path := if py "/" <+: path then path else py "/srv/" ++ path
  resolve path := if py "/" <+: path then path else py "/srv/" ++ path
  parent path := (path.reverse.dropWhile (· ≠ CodePoint.ofChar '/')).tail.reverse
  isAbsolute path := py "/" <+: path
  within location directory := location = directory ∨ directory ++ py "/" <+: location
  within_self location := by simp
  resolve_absolute path := by
    have hsrv : py "/" <+: py "/srv/" ++ path :=
      List.IsPrefix.trans (by decide) (List.prefix_append (py "/srv/") path)
    by_cases hslash : py "/" <+: path
    · rw [if_pos hslash, if_pos hslash]
    · rw [if_neg hslash, if_pos hsrv]

/-- The directories of the host, the number of git commands so far, and the locations
that were removed. -/
structure World where
  disk : PyStr → Option Checkout
  clock : ℕ
  removed : List PyStr

namespace World

variable (paths : PathLib)

def directory (world : World) (path : PyStr) : Option Checkout :=
  world.disk (paths.resolve path)

/-- `path.exists()`. -/
def pathExists (world : World) (path : PyStr) : Bool :=
  (world.directory paths path).isSome

/-- `(path / ".git").exists()`. -/
def hasGit (world : World) (path : PyStr) : Bool :=
  match world.directory paths path with
  | some checkout => checkout.git
  | none => false

/-- `_remove_checkout`. -/
def removeCheckout (world : World) (path : PyStr) : World :=
  if world.pathExists paths path then
    { world with
      disk := fun location =>
        if paths.within location (paths.resolve path) then none else world.disk location
      removed := paths.resolve path :: world.removed }
  else world

/-- `_run_git(command, cwd=path)`, and a clone into `path`. -/
def runGit (git : Git) (command : GitCommand) (path : PyStr) (world : World) :
    Completed × World :=
  let answer := git world.clock command (world.directory paths path)
  (answer.1,
    { world with
      disk := Function.update world.disk (paths.resolve path) answer.2
      clock := world.clock + 1 })

/-- `_is_usable_git_repo`. -/
def isUsableGitRepo (git : Git) (path : PyStr) (world : World) : Bool × World :=
  if !world.pathExists paths path || !world.hasGit paths path then (false, world)
  else
    let head := runGit paths git .revParseHead path world
    (head.1.returncode = 0 ∧ strip head.1.stdout ≠ [], head.2)

/-- Away from the directory of `path` nothing changes, except that what lies below it may be
removed with it. -/
def Untouched (path : PyStr) (before after : World) : Prop :=
  ∀ location, location ≠ paths.resolve path →
    after.disk location = before.disk location ∨
      (paths.within location (paths.resolve path) = true ∧ after.disk location = none)

/-- The directories and the removals are the same; only commands were counted. -/
def SameFiles (before after : World) : Prop :=
  after.disk = before.disk ∧ after.removed = before.removed

theorem SameFiles.refl (world : World) : SameFiles world world :=
  ⟨rfl, rfl⟩

theorem SameFiles.trans {first second third : World} (hfirst : SameFiles first second)
    (hsecond : SameFiles second third) : SameFiles first third :=
  ⟨hsecond.1.trans hfirst.1, hsecond.2.trans hfirst.2⟩

theorem Untouched.refl (path : PyStr) (world : World) : Untouched paths path world world :=
  fun _ _ => .inl rfl

theorem Untouched.trans {paths} {path : PyStr} {first second third : World}
    (hfirst : Untouched paths path first second)
    (hsecond : Untouched paths path second third) : Untouched paths path first third := by
  intro location hne
  rcases hsecond location hne with hsame | hgone
  · rw [hsame]
    exact hfirst location hne
  · exact .inr hgone

theorem SameFiles.untouched {before after : World} (hsame : SameFiles before after)
    (path : PyStr) : Untouched paths path before after :=
  fun location _ => .inl (congrFun hsame.1 location)

theorem SameFiles.directory_eq {before after : World} (hsame : SameFiles before after)
    (path : PyStr) : after.directory paths path = before.directory paths path := by
  rw [directory, hsame.1, directory]

variable {paths} {git : Git} {tips : Commit → Prop}

theorem sameFiles_runGit (hgit : git.Documented tips) {command : GitCommand}
    (hkeeps : command.keepsCheckout = true) (path : PyStr) (world : World) :
    SameFiles world (runGit paths git command path world).2 := by
  constructor
  · rw [runGit, hgit.keeps _ _ _ hkeeps]
    exact Function.update_eq_self _ world.disk
  · rfl

theorem sameFiles_isUsableGitRepo (hgit : git.Documented tips) (path : PyStr)
    (world : World) : SameFiles world (isUsableGitRepo paths git path world).2 := by
  rw [isUsableGitRepo]
  split
  · exact SameFiles.refl world
  · exact sameFiles_runGit hgit rfl path world

/-- The check tells usable directories from the others. -/
theorem isUsableGitRepo_iff (hgit : git.Documented tips) (path : PyStr) (world : World) :
    (isUsableGitRepo paths git path world).1 = true ↔
      ∃ commit, Checkout.usableAt (world.directory paths path) commit := by
  have hexists : world.pathExists paths path = (world.directory paths path).isSome := rfl
  rcases hdirectory : world.directory paths path with _ | ⟨hasGit, head⟩
  · simp [isUsableGitRepo, hexists, hdirectory, Checkout.usableAt]
  · rcases hasGit with _ | _
    · simp [isUsableGitRepo, hexists, World.hasGit, hdirectory, Checkout.usableAt]
    · have hchecked : isUsableGitRepo paths git path world =
          (decide ((runGit paths git .revParseHead path world).1.returncode = 0 ∧
            strip (runGit paths git .revParseHead path world).1.stdout ≠ []),
            (runGit paths git .revParseHead path world).2) := by
        simp [isUsableGitRepo, hexists, World.hasGit, hdirectory]
      rw [hchecked, decide_eq_true_iff, runGit, hdirectory]
      rcases head with _ | commit
      · have hmissing := hgit.head_missing world.clock
        simp [Checkout.usableAt, hmissing]
      · have hprinted := hgit.head_printed world.clock commit
        simp [Checkout.usableAt, hprinted.1, hprinted.2, commit.hash_ne]

theorem directory_runGit (git : Git) (command : GitCommand) (path : PyStr) (world : World) :
    (runGit paths git command path world).2.directory paths path =
      (git world.clock command (world.directory paths path)).2 :=
  Function.update_self _ _ _

theorem untouched_runGit (git : Git) (command : GitCommand) (path : PyStr) (world : World) :
    Untouched paths path world (runGit paths git command path world).2 :=
  fun _ hne => .inl (Function.update_of_ne hne _ _)

theorem directory_removeCheckout (path : PyStr) (world : World) :
    (world.removeCheckout paths path).directory paths path = none := by
  rw [removeCheckout]
  split
  · simp [directory, paths.within_self]
  next habsent =>
    simpa [pathExists] using habsent

theorem untouched_removeCheckout (path : PyStr) (world : World) :
    Untouched paths path world (world.removeCheckout paths path) := by
  intro location _
  rw [removeCheckout]
  split
  · rcases hwithin : paths.within location (paths.resolve path) with _ | _
    · exact .inl (by simp [hwithin])
    · exact .inr ⟨rfl, by simp [hwithin]⟩
  · exact .inl rfl

end World

end RootSeeker.CodeIndex
