import RootSeeker.SkillSystem.InstallAtomicity
import RootSeeker.SkillSystem.RegistryBuild

/-!
# Installing and building again

When the registry can be built again after an installation, and shows what was
installed.
-/

namespace RootSeeker.SkillSystem

open Python Contracts

variable {β : Type} {std : Stdlib} {loader : Loader β}

/-! ## What an installation leaves alone -/

/-- The two file systems agree below the root. -/
def SameBelow (root : SkillPath) (before after : Files β) : Prop :=
  ∀ path, root <+: path → after.get? path = before.get? path

section Congruence

variable {before after : Files β} {root : SkillPath}

theorem discover_congr (hsame : SameBelow root before after) :
    discoverSkillFiles after root = discoverSkillFiles before root := by
  have hdir : after.isDir root = before.isDir root := by
    rw [FileTree.isDir, FileTree.isDir, hsame root (List.prefix_refl root)]
  have hmem : ∀ path, path ∈ (after.keys.filter fun path =>
      root <+: path ∧ path ≠ root ∧ pathName path = skillFilename) ↔
        path ∈ (before.keys.filter fun path =>
          root <+: path ∧ path ≠ root ∧ pathName path = skillFilename) := by
    intro path
    rw [List.mem_filter, List.mem_filter, Dict.mem_keys_iff, Dict.mem_keys_iff]
    by_cases hroot : root <+: path
    · rw [hsame path hroot]
    · simp [hroot]
  have hperm := (List.perm_ext_iff_of_nodup (List.nodup_dedup _) (List.nodup_dedup _)).mpr
    fun path => List.mem_dedup.trans ((hmem path).trans List.mem_dedup.symm)
  rw [discoverSkillFiles, discoverSkillFiles, hdir]
  split
  · apply ((List.perm_insertionSort _ _).trans
      (hperm.trans (List.perm_insertionSort _ _).symm)).eq_of_pairwise _
        (List.pairwise_insertionSort _ _) (List.pairwise_insertionSort _ _)
    exact fun left right _ _ hle hge => le_antisymm hle hge
  · rfl

theorem root_of_discovered {path : SkillPath} (hpath : path ∈ discoverSkillFiles before root) :
    root <+: path ∧ pathName path = skillFilename := by
  rw [discoverSkillFiles] at hpath
  split at hpath
  · rw [List.mem_insertionSort, List.mem_dedup, List.mem_filter, decide_eq_true_eq] at hpath
    exact ⟨hpath.2.1, hpath.2.2.2⟩
  · exact absurd hpath List.not_mem_nil

theorem load_congr (hsame : SameBelow root before after) {path : SkillPath}
    (hpath : root <+: path) (source : SkillSourceKind) :
    loadSkillFromPath std loader after path source =
      loadSkillFromPath std loader before path source := by
  rw [loadSkillFromPath, loadSkillFromPath, readFile, readFile, hsame path hpath]

theorem buildInner_congr {roots : SkillRoots} (hbuiltin : SameBelow roots.builtin before after)
    (hcustom : SameBelow roots.custom before after) :
    buildInner std loader after roots = buildInner std loader before roots := by
  have hfirst : buildBuiltin std loader after roots.builtin =
      buildBuiltin std loader before roots.builtin := by
    rw [buildBuiltin, buildBuiltin, discover_congr hbuiltin]
    apply Loops.foldlM_congr
    intro path hpath registry
    rw [load_congr hbuiltin (root_of_discovered hpath).1]
  have hsecond : ∀ names registry,
      addSkills std loader after names .custom roots.custom registry =
        addSkills std loader before names .custom roots.custom registry := by
    intro names registry
    rw [addSkills, addSkills, discover_congr hcustom]
    apply Loops.foldlM_congr
    intro path hpath state
    rw [load_congr hcustom (root_of_discovered hpath).1]
  rw [buildInner, buildInner, hfirst]
  exact congrArg _ (funext fun builtins => congrArg _ (hsecond _ _))

end Congruence

/-- The external root is apart from the others. -/
structure SkillRoots.Separate (roots : SkillRoots) : Prop where
  builtin : ¬roots.external <+: roots.builtin ∧ ¬roots.builtin <+: roots.external
  custom : ¬roots.external <+: roots.custom ∧ ¬roots.custom <+: roots.external

instance (roots : SkillRoots) : Decidable roots.Separate :=
  decidable_of_iff ((¬roots.external <+: roots.builtin ∧ ¬roots.builtin <+: roots.external) ∧
      ¬roots.external <+: roots.custom ∧ ¬roots.custom <+: roots.external)
    ⟨fun hboth => ⟨hboth.1, hboth.2⟩, fun hseparate => ⟨hseparate.builtin, hseparate.custom⟩⟩

namespace InstallRequest

variable {request : InstallRequest} {faults : Faults β} {files after : Files β}
  {names : List PyStr} {planned : Planned}

/-- A directory apart from the external root is left alone. -/
theorem sameBelow_of_install {root : SkillPath}
    (hroot : ¬request.externalRoot <+: root ∧ ¬root <+: request.externalRoot)
    (hinstall : request.installFromDirectory std loader faults files = (after, .ok names)) :
    SameBelow root files after := by
  intro path hpath
  have hdest : ∀ name, ¬request.dest name <+: path := by
    intro name hname
    have hexternal : request.externalRoot <+: path :=
      (List.prefix_append request.externalRoot [name]).trans hname
    exact (List.prefix_or_prefix_of_prefix hexternal hpath).elim hroot.1 hroot.2
  rw [installFromDirectory] at hinstall
  split at hinstall
  · exact absurd (Prod.mk.inj hinstall).2 (by simp)
  · simp only [copyPackages] at hinstall
    split at hinstall
    · exact absurd (Prod.mk.inj hinstall).2 (by simp)
    · rename_i ready hready
      have hmade : makeDirs files request.externalRoot = some ready := by
        by_cases hmkdir : faults.mkdir = true
        · rw [if_pos hmkdir] at hready
          exact absurd hready (by simp)
        · rwa [if_neg hmkdir] at hready
      split at hinstall
      · exact absurd (Prod.mk.inj hinstall).2 (by simp)
      · rw [← (Prod.mk.inj hinstall).1, get?_copyLoop (fun name _ => hdest name) 0]
        exact get?_makeDirs hmade fun hancestor => hroot.2 (hpath.trans hancestor)

/-- The planned packages have valid names, none of them a builtin one. -/
theorem planned_of_validate {paths : List SkillPath} {start : Planned}
    (hvalid : request.validatePackages std loader faults files paths start = .ok planned)
    (hstart : ∀ package ∈ start, ValidName package.1 ∧ package.1 ∉ request.builtinNames) :
    ∀ package ∈ planned, ValidName package.1 ∧ package.1 ∉ request.builtinNames := by
  induction paths generalizing start with
  | nil =>
    obtain rfl := Except.ok.inj hvalid
    exact hstart
  | cons path rest ih =>
    rw [validatePackages] at hvalid
    obtain ⟨spec, _, hchecked⟩ := Loops.exists_of_bind_eq_ok hvalid
    split_ifs at hchecked with _ hbuiltin
    apply ih hchecked
    intro package hpackage
    cases List.mem_append.mp hpackage with
    | inl hold => exact hstart package hold
    | inr hnew =>
      rw [List.mem_singleton.mp hnew]
      exact ⟨spec.valid, hbuiltin⟩

theorem planned_of_plan (hplan : request.plan std loader faults files = .ok planned) :
    ∀ package ∈ planned, ValidName package.1 ∧ package.1 ∉ request.builtinNames := by
  obtain ⟨paths, _, hvalid⟩ := Loops.exists_of_bind_eq_ok hplan
  exact planned_of_validate hvalid (by simp)

end InstallRequest

/-! ## The registry after an installation -/

section Rebuild

variable (std : Stdlib) (loader : Loader β)

/-- The skill that a package gives once it is in another directory. -/
def packageSpec (files : Files β) (directory dest : SkillPath) :
    Except SkillFailure SkillSpec :=
  (readFile files (directory ++ [skillFilename])).bind fun content =>
    (loader.frontmatter content).bind fun data => skillOfFrontmatter std data dest .external

/-- The registry after an installation shows what was installed and the builtin skills, and
indexes the tools of what it shows. -/
structure ShowsInstalled (overlay : Option SkillOverlayState) (request : InstallRequest)
    (planned : Planned) (files : Files β) (before registry : SkillRegistry) : Prop where
  installed : ∀ package ∈ planned, ∃ spec,
    packageSpec std loader files package.2 (request.dest package.1) = .ok spec ∧
      registry.get package.1 = some (SkillRegistry.overlaid overlay spec)
  builtin : ∀ spec ∈ before.listSkills, spec.sourceKind = .builtin →
    registry.get spec.name = some spec
  index : ∀ action key, registry.toolActionIndex.get? action = some key →
    ∃ spec, registry.get key = some spec ∧ spec.skillKind = .tool ∧ action ∈ spec.boundTools

/-- The registry can be built again and shows what was installed. -/
def Rebuilds (roots : SkillRoots) (overlay : Option SkillOverlayState)
    (request : InstallRequest) (planned : Planned) (files after : Files β)
    (before : SkillRegistry) : Prop :=
  ∃ registry, buildSkillRegistry std loader after roots overlay = .ok registry ∧
    ShowsInstalled std loader overlay request planned files before registry

/-- Every external skill found after the installation loads and, at its turn in the scan,
binds no tool of another skill in force; and the last one found with the name of an
installed package is that package. -/
def KeepsRegistry (roots : SkillRoots) (overlay : Option SkillOverlayState)
    (request : InstallRequest) (planned : Planned) (files after : Files β) : Prop :=
  ∃ names inner specs, buildInner std loader files roots = .ok (names, inner) ∧
    (discoverSkillFiles after roots.external).mapM
      (loadSkillFromPath std loader after · .external) = .ok specs ∧
    SkillRegistry.Compatible std names inner specs ∧
    ∀ package ∈ planned, ∃ spec,
      packageSpec std loader files package.2 (request.dest package.1) = .ok spec ∧
        (KeyedList.lookup SkillSpec.slug package.1 specs).map (SkillRegistry.overlaid overlay) =
          some (SkillRegistry.overlaid overlay spec)

end Rebuild

section Rebuilds

variable {roots : SkillRoots} {overlay : Option SkillOverlayState} {request : InstallRequest}
  {planned : Planned} {files after : Files β} {before registry : SkillRegistry}
  {names : List PyStr} {inner : SkillRegistry} {specs old : List SkillSpec}

/-- The builtin skills are those with a builtin name. -/
theorem builtin_iff_mem (hfacts : InnerFacts names inner)
    (hold : (discoverSkillFiles files roots.external).mapM
      (loadSkillFromPath std loader files · .external) = .ok old)
    (hget : ∀ key, before.bySlug.get? key = inForce overlay names inner old key)
    {key : PyStr} {spec : SkillSpec} (hspec : before.bySlug.get? key = some spec) :
    spec.sourceKind = .builtin ↔ key ∈ names := by
  obtain ⟨loaded, source, rfl, hfrom, hiff⟩ :=
    loadedAs_of_inForce hfacts hold ((hget key).symm.trans hspec)
  rw [SkillRegistry.sourceKind_overlaid, hfrom.sourceKind, hiff]

theorem get_of_valid {name : PyStr} (hname : ValidName name) :
    registry.get name = registry.bySlug.get? name := by
  rw [SkillRegistry.get, normalizeSkillName_of_valid hname]

/-- A rebuilt registry shows what was installed exactly when the last external skill with the
name of each package is that package. -/
theorem showsInstalled_iff (hfacts : InnerFacts names inner)
    (hold : (discoverSkillFiles files roots.external).mapM
      (loadSkillFromPath std loader files · .external) = .ok old)
    (hbefore : ∀ key, before.bySlug.get? key = inForce overlay names inner old key)
    (hspecs : (discoverSkillFiles after roots.external).mapM
      (loadSkillFromPath std loader after · .external) = .ok specs) (hindexed : registry.Indexed)
    (hget : ∀ key, registry.bySlug.get? key = inForce overlay names inner specs key)
    (hplanned : ∀ package ∈ planned, ValidName package.1 ∧ package.1 ∉ names) :
    ShowsInstalled std loader overlay request planned files before registry ↔
      ∀ package ∈ planned, ∃ spec,
        packageSpec std loader files package.2 (request.dest package.1) = .ok spec ∧
          (KeyedList.lookup SkillSpec.slug package.1 specs).map
            (SkillRegistry.overlaid overlay) = some (SkillRegistry.overlaid overlay spec) := by
  have hinstalled : ∀ package ∈ planned, ∀ spec,
      packageSpec std loader files package.2 (request.dest package.1) = .ok spec →
        (registry.get package.1 = some (SkillRegistry.overlaid overlay spec) ↔
          (KeyedList.lookup SkillSpec.slug package.1 specs).map
            (SkillRegistry.overlaid overlay) = some (SkillRegistry.overlaid overlay spec)) := by
    intro package hpackage spec hspec
    obtain ⟨hvalid, hname⟩ := hplanned package hpackage
    rw [get_of_valid hvalid, hget, inForce, if_neg hname]
    cases hlookup : KeyedList.lookup SkillSpec.slug package.1 specs with
    | some found => rfl
    | none =>
      rw [Option.none_or, Option.map_none]
      apply iff_of_false _ (by simp)
      -- a custom skill is no external one
      intro hcustom
      obtain ⟨custom, hinner, hsame⟩ := Option.map_eq_some_iff.mp hcustom
      have hkind := congrArg SkillSpec.sourceKind hsame
      obtain ⟨content, _, hspec⟩ := Loops.exists_of_bind_eq_ok hspec
      obtain ⟨data, _, hspec⟩ := Loops.exists_of_bind_eq_ok hspec
      rw [SkillRegistry.sourceKind_overlaid, SkillRegistry.sourceKind_overlaid,
        (hfacts.custom _ hname custom hinner).sourceKind,
        (loadedAs_of_frontmatter hspec).sourceKind] at hkind
      exact SkillSourceKind.noConfusion hkind
  constructor
  · intro hshows package hpackage
    obtain ⟨spec, hspec, hregistered⟩ := hshows.installed package hpackage
    exact ⟨spec, hspec, (hinstalled package hpackage spec hspec).mp hregistered⟩
  · intro hlast
    refine ⟨fun package hpackage => ?_, fun spec hmem hbuiltin => ?_, fun action key hbound => ?_⟩
    · obtain ⟨spec, hspec, hfound⟩ := hlast package hpackage
      exact ⟨spec, hspec, (hinstalled package hpackage spec hspec).mpr hfound⟩
    · have hspec := SkillRegistry.mem_listSkills_iff.mp hmem
      have hname := (builtin_iff_mem hfacts hold hbefore hspec).mp hbuiltin
      rw [get_of_valid spec.valid, ← spec.named, hget, inForce, if_pos hname, ← hspec, hbefore,
        inForce, if_pos hname]
    · obtain ⟨spec, hspec, htool, hlists⟩ := hindexed.sound action key hbound
      have hslug : spec.slug = key := (registry.keyed _ (Dict.mem_of_get? hspec)).symm
      obtain ⟨loaded, source, rfl, hfrom, _⟩ :=
        loadedAs_of_inForce hfacts hspecs ((hget key).symm.trans hspec)
      refine ⟨_, ?_, ?_, hlists⟩
      · rw [SkillRegistry.get, ← hslug, SkillSpec.normalize_slug, hslug]
        exact hspec
      · have hgroup := hfrom.skillKind
        rw [SkillRegistry.skillKind_overlaid] at htool ⊢
        cases hkind : loaded.skillKind with
        | flow => exact absurd hkind htool
        | tool => rfl
        | toolGroup => exact absurd hkind hgroup

end Rebuilds

/-! ## Two packages beside a builtin skill -/

def frontmatterOf (name tools : String) : Fields :=
  [(py "name", .str (py name)), (py "allowed-tools", .str (py tools))]

def decoded : Loader Fields where
  frontmatter data := .ok data

def skillRoots : SkillRoots where
  builtin := [py "builtin"]
  custom := [py "custom"]
  external := [py "external"]

/-- A builtin skill, and two packages in the source: one binds the same tool, one none. -/
def searchFiles : Files Fields :=
  [([], .dir), ([py "builtin"], .dir), ([py "builtin", py "search"], .dir),
    ([py "builtin", py "search", skillFilename], .file (frontmatterOf "search" "log.search")),
    ([py "external"], .dir), ([py "source"], .dir), ([py "source", py "grep"], .dir),
    ([py "source", py "grep", skillFilename], .file (frontmatterOf "grep" "log.search")),
    ([py "source", py "notes"], .dir),
    ([py "source", py "notes", skillFilename], .file (frontmatterOf "notes" ""))]

def installOnly (name : String) : InstallRequest where
  source := [py "source"]
  externalRoot := [py "external"]
  builtinNames := [py "search"]
  existingNames := [py "search"]
  overwrite := false
  onlyName := some (py name)

def noFaults : Faults Fields where
  read _ := false
  mkdir := false
  package _ := none
  spill _ := []
  kept _ _ := false

def planOf (name : String) : Planned :=
  [(py name, [py "source", py name])]

def filesAfter (name : String) : Files Fields :=
  ((installOnly name).installFromDirectory asciiStdlib decoded noFaults searchFiles).1

def searchRegistry : SkillRegistry :=
  (buildSkillRegistry asciiStdlib decoded searchFiles skillRoots none).toOption.getD .new

end RootSeeker.SkillSystem
