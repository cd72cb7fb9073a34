import RootSeeker.Core.Loops
import RootSeeker.SkillSystem.Installer

/-!
# All or nothing

When an installation that raises leaves the installed packages as they were,
and one that returns has installed what the source held.
-/

namespace RootSeeker.SkillSystem

open Python Contracts

variable {β : Type}

namespace InstallRequest

variable (request : InstallRequest) (faults : Faults β)

/-- An entry of the package with the given name below the external root. -/
def slot (files : Files β) (name : PyStr) (relative : SkillPath) : Option (Entry β) :=
  files.get? (request.dest name ++ relative)

/-- The packages below the external root are the same. -/
def SamePackages (before after : Files β) : Prop :=
  ∀ name relative, request.slot after name relative = request.slot before name relative

/-- The external root holds the source content of every installed package, and the other
packages as they were. -/
structure Installed (planned : Planned) (names : List PyStr) (before after : Files β) :
    Prop where
  installed : ∀ package ∈ planned, ∀ relative,
    request.slot after package.1 relative = before.get? (package.2 ++ relative)
  others : ∀ name ∉ names, ∀ relative,
    request.slot after name relative = request.slot before name relative

/-- What is claimed of an installation. -/
def AllOrNothing (plan : Except SkillFailure Planned) (before : Files β)
    (result : Files β × Except SkillFailure (List PyStr)) : Prop :=
  match plan, result.2 with
  | .ok planned, .ok names => request.Installed planned names before result.1
  | _, _ => request.SamePackages before result.1

/-- When a package is copied, its source directory is still as it was at the call. -/
def SourcesIntact (start : Files β) : ℕ → Planned → Files β → Prop
  | _, [], _ => True
  | index, package :: rest, files =>
    (∀ relative, (request.clear faults index package.1 files).1.get? (package.2 ++ relative) =
        start.get? (package.2 ++ relative)) ∧
      SourcesIntact start (index + 1) rest
        (request.copyPackage faults index package files).files

/-- What the step and the clean-up leave of an entry. -/
def residue (step : CopyStep β) (name : PyStr) (relative : SkillPath) : Option (Entry β) :=
  if step.copied ∧ !faults.kept (request.dest name) relative then none
  else request.slot step.files name relative

/-- Up to the step that raises, the clean-up leaves of every package what was there: nothing
of a new one; an old one is only there where its removal failed at once, or where what
cannot be removed of the new one is the old one. -/
def Restored : ℕ → Planned → Files β → Prop
  | _, [], _ => True
  | index, package :: rest, files =>
    let step := request.copyPackage faults index package files
    (∀ relative, residue request faults step package.1 relative =
        request.slot files package.1 relative) ∧
      (step.raised = none → Restored (index + 1) rest step.files)

/-- When an installation is all or nothing. -/
def Undisturbed (plan : Except SkillFailure Planned) (files : Files β) : Prop :=
  match plan, if faults.mkdir then none else makeDirs files request.externalRoot with
  | .ok planned, some ready =>
    match (request.copyLoop faults 0 planned ready).2.2 with
    | none => request.SourcesIntact faults files 0 planned ready
    | some _ => request.Restored faults 0 planned ready
  | _, _ => True

variable {request faults} {files : Files β} {name other : PyStr}

/-! ## Other packages -/

theorem not_prefix_dest (hne : other ≠ name) (relative : SkillPath) :
    ¬request.dest name <+: request.dest other ++ relative := by
  rw [dest, dest, List.append_assoc, List.prefix_append_right_inj, List.singleton_append]
  intro hprefix
  exact hne (List.cons_prefix_cons.mp hprefix).1.symm

theorem slot_graft_of_ne (hne : other ≠ name) (tree : Files β) (relative : SkillPath) :
    request.slot (files.graft (request.dest name) tree) other relative =
      request.slot files other relative :=
  FileTree.get?_graft_of_not_prefix (not_prefix_dest hne relative) files tree

theorem slot_graft_self (tree : Files β) (relative : SkillPath) :
    request.slot (files.graft (request.dest name) tree) name relative = tree.get? relative :=
  FileTree.get?_graft_append files (request.dest name) relative tree

variable {path : SkillPath} {package : PyStr × SkillPath} {planned : Planned}

/-- Making room touches nothing but the destination. -/
theorem get?_clear (hpath : ¬request.dest name <+: path) (index : ℕ) :
    (request.clear faults index name files).1.get? path = files.get? path := by
  simp only [clear]
  split
  · rfl
  · by_cases hexists : files.exists? (request.dest name) = true
    · rw [if_pos hexists]
      by_cases hoverwrite : (!request.overwrite) = true
      · rw [if_pos hoverwrite]
      · rw [if_neg hoverwrite]
        split
        · exact FileTree.get?_graft_of_not_prefix hpath files _
        · by_cases hdir : files.isDir (request.dest name) = true
          · rw [if_pos hdir]
            exact FileTree.get?_remove_of_not_prefix hpath files
          · rw [if_neg hdir]
    · rw [if_neg hexists]

theorem get?_copyPackage (hpath : ¬request.dest package.1 <+: path) (index : ℕ) :
    (request.copyPackage faults index package files).files.get? path = files.get? path := by
  have hclear : (request.clear faults index package.1 files).1.get? path = files.get? path :=
    get?_clear hpath index
  unfold copyPackage
  split
  · rename_i cleared raised hcleared
    rw [hcleared] at hclear
    exact hclear
  · rename_i cleared hcleared
    rw [hcleared] at hclear
    exact (FileTree.get?_graft_of_not_prefix hpath cleared _).trans hclear

theorem slot_copyPackage_of_ne (index : ℕ) (hne : other ≠ package.1) (relative : SkillPath) :
    request.slot (request.copyPackage faults index package files).files other relative =
      request.slot files other relative :=
  get?_copyPackage (not_prefix_dest hne relative) index

/-- The loop touches nothing but its destinations. -/
theorem get?_copyLoop (hpath : ∀ name ∈ planned.map Prod.fst, ¬request.dest name <+: path)
    (index : ℕ) : (request.copyLoop faults index planned files).1.get? path = files.get? path := by
  induction planned generalizing index files with
  | nil => rfl
  | cons package rest ih =>
    rw [List.map_cons, List.forall_mem_cons] at hpath
    have hstep : (request.copyPackage faults index package files).files.get? path =
        files.get? path := get?_copyPackage hpath.1 index
    rw [copyLoop]
    split
    · exact hstep
    · exact (ih hpath.2 (index + 1)).trans hstep

theorem slot_copyLoop_of_not_mem (index : ℕ) (hname : name ∉ planned.map Prod.fst)
    (relative : SkillPath) :
    request.slot (request.copyLoop faults index planned files).1 name relative =
      request.slot files name relative := by
  apply get?_copyLoop _ index
  intro copied hcopied
  apply not_prefix_dest
  rintro rfl
  exact hname hcopied

theorem copied_subset (index : ℕ) (planned : Planned) :
    ∀ copied ∈ (request.copyLoop faults index planned files).2.1,
      copied ∈ planned.map Prod.fst := by
  induction planned generalizing index files with
  | nil => exact fun copied hcopied => absurd hcopied List.not_mem_nil
  | cons package rest ih =>
    have hown : ∀ copied ∈ if (request.copyPackage faults index package files).copied then
        [package.1] else [], copied = package.1 := by
      intro copied hcopied
      split at hcopied
      · exact List.mem_singleton.mp hcopied
      · exact absurd hcopied List.not_mem_nil
    intro copied hcopied
    rw [copyLoop] at hcopied
    rw [List.map_cons, List.mem_cons]
    split at hcopied
    · exact Or.inl (hown copied hcopied)
    · exact (List.mem_append.mp hcopied).imp (hown copied) (ih (index + 1) copied)

/-- The clean-up leaves of a destination what cannot be removed. -/
theorem slot_cleanUp (copied : List PyStr) (relative : SkillPath) :
    request.slot (request.cleanUp faults copied files) name relative =
      if name ∈ copied ∧ !faults.kept (request.dest name) relative then none
      else request.slot files name relative := by
  induction copied generalizing files with
  | nil => simp [cleanUp]
  | cons first rest ih =>
    have hstep : request.cleanUp faults (first :: rest) files =
        request.cleanUp faults rest (files.graft (request.dest first)
          ((files.below (request.dest first)).filterKeys
            (faults.kept (request.dest first)))) := rfl
    rw [hstep, ih]
    by_cases hname : name = first
    · rw [hname, slot_graft_self, Dict.get?_filterKeys, FileTree.get?_below]
      by_cases hkept : faults.kept (request.dest first) relative = true
      · simp [hkept, slot]
      · simp [hkept]
    · rw [slot_graft_of_ne hname]
      simp [hname]

/-! ## Runs that return -/

theorem written_of_returns {index : ℕ} {dir : SkillPath}
    (hreturns : (request.written faults index dir files).2 = false) :
    (request.written faults index dir files).1 = files.below dir := by
  revert hreturns
  rw [written]
  split
  · exact fun hreturns => absurd hreturns (by simp)
  · by_cases hdir : (!files.isDir dir) = true
    · rw [if_pos hdir]
      exact fun hreturns => absurd hreturns (by simp)
    · rw [if_neg hdir]
      by_cases hinside : dir <+: request.externalRoot ∧ dir ≠ request.externalRoot
      · rw [if_pos hinside]
        exact fun hreturns => absurd hreturns (by simp)
      · rw [if_neg hinside]
        exact fun _ => rfl

/-- A package that is copied without an error shows its source directory as it is when the
old package is gone. -/
theorem copyPackage_of_returns {index : ℕ}
    (hreturns : (request.copyPackage faults index package files).raised = none) :
    (request.copyPackage faults index package files).copied = true ∧
      ∀ relative,
        request.slot (request.copyPackage faults index package files).files package.1 relative =
          (request.clear faults index package.1 files).1.get? (package.2 ++ relative) := by
  revert hreturns
  rw [copyPackage]
  split
  · exact fun hreturns => absurd hreturns (by simp)
  · rename_i cleared hcleared
    rw [hcleared]
    dsimp only
    intro hreturns
    refine ⟨rfl, fun relative => ?_⟩
    have hdone : (request.written faults index package.2 cleared).2 = false := by
      simpa using hreturns
    rw [slot_graft_self, written_of_returns hdone, FileTree.get?_below]

theorem copyLoop_cons (index : ℕ) (package : PyStr × SkillPath) (rest : Planned) :
    request.copyLoop faults index (package :: rest) files =
      (let step := request.copyPackage faults index package files
       let own := if step.copied then [package.1] else []
       let later := request.copyLoop faults (index + 1) rest step.files
       match step.raised with
       | some raised => (step.files, own, some raised)
       | none => (later.1, own ++ later.2.1, later.2.2)) :=
  rfl

theorem installed_iff_sourcesIntact {start : Files β} (index : ℕ)
    (hnames : (planned.map Prod.fst).Nodup)
    (hreturns : (request.copyLoop faults index planned files).2.2 = none) :
    (∀ package ∈ planned, ∀ relative,
      request.slot (request.copyLoop faults index planned files).1 package.1 relative =
        start.get? (package.2 ++ relative)) ↔
      request.SourcesIntact faults start index planned files := by
  induction planned generalizing index files with
  | nil => exact iff_of_true (by simp) trivial
  | cons package rest ih =>
    obtain ⟨hfresh, hrest⟩ := List.nodup_cons.mp hnames
    rw [copyLoop_cons] at hreturns ⊢
    dsimp only at hreturns ⊢
    cases hraised : (request.copyPackage faults index package files).raised with
    | some raised =>
      rw [hraised] at hreturns
      exact absurd hreturns (by simp)
    | none =>
      rw [hraised] at hreturns
      rw [List.forall_mem_cons, SourcesIntact]
      apply and_congr
      · apply forall_congr'
        intro relative
        rw [slot_copyLoop_of_not_mem (index + 1) hfresh, (copyPackage_of_returns hraised).2]
      · exact ih (index + 1) hrest hreturns

/-! ## Runs that raise -/

/-- The clean-up after one package touches nothing but its destination. -/
theorem slot_cleanUp_own {index : ℕ} {step : CopyStep β}
    (hstep : request.copyPackage faults index package files = step) (relative : SkillPath) :
    request.slot (request.cleanUp faults (if step.copied then [package.1] else []) step.files)
        name relative =
      if name = package.1 then residue request faults step package.1 relative
      else request.slot files name relative := by
  rw [slot_cleanUp]
  by_cases hname : name = package.1
  · rw [if_pos hname, hname, residue]
    cases step.copied <;> simp
  · have hkept : request.slot step.files name relative = request.slot files name relative := by
      rw [← hstep]
      exact slot_copyPackage_of_ne index hname relative
    rw [if_neg hname, hkept]
    cases step.copied <;> simp [hname]

theorem restored_iff (index : ℕ) (hnames : (planned.map Prod.fst).Nodup)
    (hraises : (request.copyLoop faults index planned files).2.2 ≠ none) :
    request.SamePackages files (request.cleanUp faults
      (request.copyLoop faults index planned files).2.1
        (request.copyLoop faults index planned files).1) ↔
      request.Restored faults index planned files := by
  induction planned generalizing index files with
  | nil => exact absurd rfl hraises
  | cons package rest ih =>
    obtain ⟨hfresh, hrest⟩ := List.nodup_cons.mp hnames
    rw [copyLoop_cons] at hraises ⊢
    dsimp only at hraises ⊢
    rw [Restored]
    cases hraised : (request.copyPackage faults index package files).raised with
    | some raised =>
      dsimp only
      rw [and_iff_left fun hnone => absurd hnone (by simp)]
      constructor
      · intro hsame relative
        have hown := hsame package.1 relative
        rwa [slot_cleanUp_own rfl, if_pos rfl] at hown
      · intro hresidue name relative
        rw [slot_cleanUp_own rfl]
        split
        · rename_i hname
          rw [hname, hresidue relative]
        · rfl
    | none =>
      rw [hraised] at hraises
      dsimp only at hraises ⊢
      have hcopied := (copyPackage_of_returns hraised).1
      have hlater := ih (index + 1) hrest hraises
      rw [← hlater, if_pos hcopied]
      have hfirst : ∀ relative, request.slot
          (request.copyLoop faults (index + 1) rest
            (request.copyPackage faults index package files).files).1 package.1 relative =
          request.slot (request.copyPackage faults index package files).files package.1
            relative :=
        slot_copyLoop_of_not_mem (index + 1) hfresh
      have hnot : package.1 ∉ (request.copyLoop faults (index + 1) rest
          (request.copyPackage faults index package files).files).2.1 :=
        fun hmem => hfresh (copied_subset (index + 1) rest _ hmem)
      constructor
      · intro hsame
        constructor
        · intro relative
          have hown := hsame package.1 relative
          rw [slot_cleanUp, hfirst] at hown
          rw [residue, hcopied]
          simpa using hown
        · intro _ name relative
          by_cases hname : name = package.1
          · rw [hname, slot_cleanUp, hfirst, if_neg fun hmem => hnot hmem.1]
          · have hother := hsame name relative
            rw [slot_cleanUp] at hother ⊢
            rw [slot_copyPackage_of_ne index hname]
            simpa [hname] using hother
      · rintro ⟨hresidue, hsame⟩ name relative
        by_cases hname : name = package.1
        · have hown := hresidue relative
          rw [residue, hcopied] at hown
          rw [hname, slot_cleanUp, hfirst]
          simpa using hown
        · have hother := hsame rfl name relative
          rw [slot_cleanUp, slot_copyPackage_of_ne index hname] at hother
          rw [slot_cleanUp]
          simpa [hname] using hother

/-! ## The whole call -/

theorem nodup_validatePackages {std : Stdlib} {loader : Loader β} {paths : List SkillPath}
    {result : Planned} (hnames : (planned.map Prod.fst).Nodup)
    (hvalid : request.validatePackages std loader faults files paths planned = .ok result) :
    (result.map Prod.fst).Nodup := by
  induction paths generalizing planned with
  | nil =>
    obtain rfl := Except.ok.inj hvalid
    exact hnames
  | cons path rest ih =>
    rw [validatePackages] at hvalid
    obtain ⟨spec, _, hchecked⟩ := Loops.exists_of_bind_eq_ok hvalid
    split_ifs at hchecked with hseen
    apply ih _ hchecked
    rw [List.map_append, List.map_singleton]
    exact List.nodup_append.mpr ⟨hnames, List.nodup_singleton _, by
      intro name hname other hother
      rw [List.mem_singleton.mp hother]
      rintro rfl
      exact hseen hname⟩

theorem nodup_plan {std : Stdlib} {loader : Loader β}
    (hplan : request.plan std loader faults files = .ok planned) :
    (planned.map Prod.fst).Nodup := by
  obtain ⟨paths, _, hvalid⟩ := Loops.exists_of_bind_eq_ok hplan
  have hnil : (List.map Prod.fst ([] : Planned)).Nodup := List.nodup_nil
  exact nodup_validatePackages hnil hvalid

/-- Creating directories changes nothing but ancestors. -/
theorem get?_makeDirs {root : SkillPath} {ready : Files β}
    (hready : makeDirs files root = some ready) (hpath : ¬path <+: root) :
    ready.get? path = files.get? path := by
  have hall : ∀ ancestor ∈ root.inits, ancestor <+: root := by
    intro ancestor hancestor
    exact List.mem_inits ancestor root |>.mp hancestor
  rw [makeDirs] at hready
  generalize root.inits = ancestors at hready hall
  induction ancestors generalizing files with
  | nil => rw [Option.some.inj hready]
  | cons ancestor rest ih =>
    rw [List.forall_mem_cons] at hall
    rw [List.foldlM_cons, Option.bind_eq_bind, Option.bind_eq_some_iff] at hready
    obtain ⟨next, hnext, hrest⟩ := hready
    rw [ih hrest hall.2]
    split at hnext
    · have hne : path ≠ ancestor := by
        rintro rfl
        exact hpath hall.1
      rw [← Option.some.inj hnext, Dict.get?_set_of_ne _ _ hne]
    · rw [Option.some.inj hnext]
    · exact absurd hnext (by simp)

theorem slot_makeDirs {ready : Files β} (hready : makeDirs files request.externalRoot = some ready)
    (name : PyStr) (relative : SkillPath) :
    request.slot ready name relative = request.slot files name relative := by
  apply get?_makeDirs hready
  intro hbelow
  have hlength := hbelow.length_le
  rw [dest, List.length_append, List.length_append, List.length_singleton] at hlength
  omega

/-- One package in the source, and an older version of it below the external root. -/
def twoVersions : Files PyStr :=
  [([], .dir), ([py "source"], .dir), ([py "source", py "notes"], .dir),
    ([py "source", py "notes", skillFilename], .file (py "new")),
    ([py "external"], .dir), ([py "external", py "notes"], .dir),
    ([py "external", py "notes", skillFilename], .file (py "old"))]

def namedNotes : Loader PyStr where
  frontmatter _ := .ok [(py "name", .str (py "notes"))]

def overwriteNotes : InstallRequest where
  source := [py "source"]
  externalRoot := [py "external"]
  builtinNames := []
  existingNames := [py "notes"]
  overwrite := true
  onlyName := none

/-- Copying the first package raises at once. -/
def copyFails : Faults PyStr where
  read _ := false
  mkdir := false
  package index := if index = 0 then some (.copyTree []) else none
  spill _ := []
  kept _ _ := false

end InstallRequest

end RootSeeker.SkillSystem
