import RootSeeker.SkillSystem.Packages

/-!
# Installing skill packages

The packages below a source directory are checked, then copied below the
external root, one after the other.  Any file operation may fail.
-/

namespace RootSeeker.SkillSystem

open Python Contracts

variable {β : Type}

/-- The name of a package that is to be installed, and its directory. -/
abbrev Planned := List (PyStr × SkillPath)

/-- How the operations on one package fail. -/
inductive CopyFault (β : Type) where
  /-- `dest.exists()` raises. -/
  | probe
  /-- Removing the old package raises and leaves the entries that are kept. -/
  | removeTree (kept : SkillPath → Bool)
  /-- Copying raises and leaves the given tree. -/
  | copyTree (left : Files β)

/-- The errors of a run. -/
structure Faults (β : Type) where
  read : SkillPath → Bool
  mkdir : Bool
  package : ℕ → Option (CopyFault β)
  /-- What is left when a directory is copied into a directory below it, which never ends well. -/
  spill : ℕ → Files β
  /-- The entries that the clean-up of a destination cannot remove. -/
  kept : SkillPath → SkillPath → Bool

/-- The arguments of `install_from_directory`. -/
structure InstallRequest where
  source : SkillPath
  externalRoot : SkillPath
  builtinNames : List PyStr
  existingNames : List PyStr
  overwrite : Bool
  onlyName : Option PyStr

namespace InstallRequest

/-- The directory of an installed package. -/
def dest (request : InstallRequest) (name : PyStr) : SkillPath :=
  request.externalRoot ++ [name]

/-! ## Checking -/

def discoverPackages (request : InstallRequest) (files : Files β) :
    Except SkillFailure (List SkillPath) :=
  let found := (discoverSkillFiles files request.source).filter fun path =>
    request.onlyName.elim true fun name => pathName (parent path) = name
  if found = [] then
    .error (.skillError (py "SKILL_INVALID_PACKAGE")
      (py "no skill packages found in " ++ pathText request.source))
  else .ok found

/-- The loop of `_validate_packages`; the names that were seen are those planned. -/
def validatePackages (request : InstallRequest) (std : Stdlib) (loader : Loader β)
    (faults : Faults β) (files : Files β) : List SkillPath → Planned →
      Except SkillFailure Planned
  | [], planned => .ok planned
  | path :: rest, planned =>
    (if faults.read path then .error .osError
      else loadSkillFromPath std loader files path .external).bind fun spec =>
      if spec.name ∈ planned.map Prod.fst then
        .error (.skillError (py "SKILL_INVALID_PACKAGE")
          (py "duplicate skill name in package: " ++ spec.name))
      else if spec.name ∈ request.builtinNames then
        .error (.skillError (py "SKILL_NAME_CONFLICT")
          (py "skill name conflicts with builtin: " ++ spec.name))
      else if spec.name ∈ request.existingNames ∧ !request.overwrite then
        .error (.skillError (py "SKILL_NAME_CONFLICT")
          (py "skill name already exists: " ++ spec.name))
      else
        validatePackages request std loader faults files rest
          (planned ++ [(spec.name, parent path)])

def plan (request : InstallRequest) (std : Stdlib) (loader : Loader β) (faults : Faults β)
    (files : Files β) : Except SkillFailure Planned :=
  (request.discoverPackages files).bind fun found =>
    request.validatePackages std loader faults files found []

/-! ## Copying -/

/-- `external_root.mkdir(parents=True, exist_ok=True)`. -/
def makeDirs (files : Files β) (path : SkillPath) : Option (Files β) :=
  path.inits.foldlM (fun files ancestor =>
    match files.get? ancestor with
    | none => some (files.set ancestor .dir)
    | some .dir => some files
    | some (.file _) => none) files

/-- Make room for a package. -/
def clear (request : InstallRequest) (faults : Faults β) (index : ℕ) (name : PyStr)
    (files : Files β) : Files β × Option SkillFailure :=
  let dest := request.dest name
  match faults.package index with
  | some .probe => (files, some .osError)
  | fault =>
    if files.exists? dest then
      if !request.overwrite then
        (files, some (.skillError (py "SKILL_NAME_CONFLICT")
          (py "skill name already exists: " ++ name)))
      else
        match fault with
        | some (.removeTree kept) =>
          (files.graft dest ((files.below dest).filterKeys kept), some .osError)
        | _ => if files.isDir dest then (files.remove dest, none) else (files, some .osError)
    else (files, none)

/-- What copying a package writes, and whether it raises. -/
def written (request : InstallRequest) (faults : Faults β) (index : ℕ) (dir : SkillPath)
    (files : Files β) : Files β × Bool :=
  match faults.package index with
  | some (.copyTree left) => (left, true)
  | _ =>
    if !files.isDir dir then ([], true)
    else if dir <+: request.externalRoot ∧ dir ≠ request.externalRoot then
      (faults.spill index, true)
    else (files.below dir, false)

/-- The files after one package, whether its destination is one to clean up, and the
exception. -/
structure CopyStep (β : Type) where
  files : Files β
  copied : Bool
  raised : Option SkillFailure

def copyPackage (request : InstallRequest) (faults : Faults β) (index : ℕ)
    (package : PyStr × SkillPath) (files : Files β) : CopyStep β :=
  match request.clear faults index package.1 files with
  | (cleared, some raised) => { files := cleared, copied := false, raised := some raised }
  | (cleared, none) =>
    let outcome := request.written faults index package.2 cleared
    { files := cleared.graft (request.dest package.1) outcome.1
      copied := true
      raised := if outcome.2 then some .osError else none }

/-- The loop over the planned packages, with the names whose destinations were touched. -/
def copyLoop (request : InstallRequest) (faults : Faults β) :
    ℕ → Planned → Files β → Files β × List PyStr × Option SkillFailure
  | _, [], files => (files, [], none)
  | index, package :: rest, files =>
    let step := request.copyPackage faults index package files
    let own := if step.copied then [package.1] else []
    match step.raised with
    | some raised => (step.files, own, some raised)
    | none =>
      let (after, copied, raised) := copyLoop request faults (index + 1) rest step.files
      (after, own ++ copied, raised)

/-- `shutil.rmtree(dest, ignore_errors=True)` of every destination that was touched. -/
def cleanUp (request : InstallRequest) (faults : Faults β) (copied : List PyStr)
    (files : Files β) : Files β :=
  copied.foldl (fun files name =>
    files.graft (request.dest name)
      ((files.below (request.dest name)).filterKeys (faults.kept (request.dest name)))) files

def copyPackages (request : InstallRequest) (faults : Faults β) (planned : Planned)
    (files : Files β) : Files β × Except SkillFailure (List PyStr) :=
  match if faults.mkdir then none else makeDirs files request.externalRoot with
  | none => (files, .error .osError)
  | some ready =>
    let (after, copied, raised) := request.copyLoop faults 0 planned ready
    match raised with
    | some raised => (request.cleanUp faults copied after, .error raised)
    | none => (after, .ok (planned.map Prod.fst))

def installFromDirectory (request : InstallRequest) (std : Stdlib) (loader : Loader β)
    (faults : Faults β) (files : Files β) : Files β × Except SkillFailure (List PyStr) :=
  match request.plan std loader faults files with
  | .error raised => (files, .error raised)
  | .ok planned => request.copyPackages faults planned files

end InstallRequest

end RootSeeker.SkillSystem
