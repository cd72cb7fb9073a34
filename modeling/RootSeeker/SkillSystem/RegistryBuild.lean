import RootSeeker.Core.KeyedList
import RootSeeker.Core.Loops
import RootSeeker.SkillSystem.Packages

/-!
# Building the skill registry

The builtin skills are registered first, then the custom and the external ones
replace each other by name, then the overlay is applied to every skill.  The
build fails where two skills that are in force bind the same tool.
-/

namespace RootSeeker.SkillSystem

open Python Contracts

variable {β : Type}

/-- The three directories that are scanned. -/
structure SkillRoots where
  builtin : SkillPath
  custom : SkillPath
  external : SkillPath

namespace SkillRegistry

/-- The registry, or the exception that was raised. -/
def outcome (result : SkillRegistry × Option SkillFailure) : Except SkillFailure SkillRegistry :=
  match result.2 with
  | some raised => .error raised
  | none => .ok result.1

def registerSkill (std : Stdlib) (registry : SkillRegistry) (spec : SkillSpec) :
    Except SkillFailure SkillRegistry :=
  outcome (registry.register std spec)

/-- A skill with the name of a builtin one is skipped. -/
def upsertUnlessBuiltin (std : Stdlib) (builtinNames : List PyStr) (registry : SkillRegistry)
    (spec : SkillSpec) : Except SkillFailure SkillRegistry :=
  if normalizeSkillName spec.slug ∈ builtinNames then .ok registry
  else outcome (registry.upsert std spec)

def withOverlay (std : Stdlib) (overlay : SkillOverlayState) (registry : SkillRegistry) :
    Except SkillFailure SkillRegistry :=
  registry.listSkills.foldlM (fun registry spec =>
    outcome (registry.upsert std (applyOverlay overlay spec))) registry

end SkillRegistry

section Build

variable (std : Stdlib) (loader : Loader β) (files : Files β)

/-- The builtin skills. -/
def buildBuiltin (root : SkillPath) : Except SkillFailure SkillRegistry :=
  (discoverSkillFiles files root).foldlM (fun registry path =>
    (loadSkillFromPath std loader files path .builtin).bind
      (SkillRegistry.registerSkill std registry)) SkillRegistry.new

/-- The skills of one of the other roots. -/
def addSkills (builtinNames : List PyStr) (source : SkillSourceKind) (root : SkillPath)
    (registry : SkillRegistry) : Except SkillFailure SkillRegistry :=
  (discoverSkillFiles files root).foldlM (fun registry path =>
    (loadSkillFromPath std loader files path source).bind
      (SkillRegistry.upsertUnlessBuiltin std builtinNames registry)) registry

/-- The builtin names and the registry after the builtin and the custom skills. -/
def buildInner (roots : SkillRoots) : Except SkillFailure (List PyStr × SkillRegistry) :=
  (buildBuiltin std loader files roots.builtin).bind fun builtins =>
    (addSkills std loader files builtins.bySlug.keys .custom roots.custom builtins).map
      fun withCustom => (builtins.bySlug.keys, withCustom)

def buildSkillRegistry (roots : SkillRoots) (overlay : Option SkillOverlayState) :
    Except SkillFailure SkillRegistry :=
  (buildInner std loader files roots).bind fun inner =>
    (addSkills std loader files inner.1 .external roots.external inner.2).bind fun registry =>
      overlay.elim (.ok registry) fun overlay => registry.withOverlay std overlay

end Build

/-! ## The index of the tools -/

variable {after : SkillRegistry} {names : List PyStr} {specs : List SkillSpec}
  {spec : SkillSpec}

namespace SkillRegistry

/-- The index maps an action exactly to the registered tool skill that lists it. -/
structure Indexed (registry : SkillRegistry) : Prop where
  sound : ∀ action key, registry.toolActionIndex.get? action = some key →
    ∃ spec, registry.bySlug.get? key = some spec ∧ spec.skillKind ≠ .flow ∧
      action ∈ spec.boundTools
  complete : ∀ key spec, registry.bySlug.get? key = some spec → spec.skillKind ≠ .flow →
    ∀ action ∈ spec.boundTools, registry.toolActionIndex.get? action = some key

theorem indexed_new : new.Indexed where
  sound _ _ hget := absurd hget (by simp [new])
  complete _ _ hget := absurd hget (by simp [new])

/-- Another tool skill in force lists one of the actions. -/
def Clashes (registry : SkillRegistry) (spec : SkillSpec) : Prop :=
  spec.skillKind ≠ .flow ∧ ∃ other ∈ registry.listSkills, other.slug ≠ spec.slug ∧
    other.skillKind ≠ .flow ∧ ∃ action ∈ spec.boundTools, action ∈ other.boundTools

variable {std : Stdlib} {registry : SkillRegistry}

theorem mem_listSkills_iff :
    spec ∈ registry.listSkills ↔ registry.bySlug.get? spec.slug = some spec := by
  rw [listSkills, List.mem_map]
  constructor
  · rintro ⟨entry, hmem, rfl⟩
    have hkey := registry.keyed entry hmem
    rw [← hkey]
    exact Dict.get?_of_mem registry.nodup hmem
  · intro hget
    exact ⟨_, Dict.mem_of_get? hget, rfl⟩

theorem conflicts_iff_clashes (hindexed : registry.Indexed) (spec : SkillSpec) :
    registry.Conflicts spec ↔ registry.Clashes spec := by
  rw [Conflicts, Clashes]
  apply and_congr_right
  intro _
  constructor
  · rintro ⟨action, haction, hbound⟩
    rw [Option.any_eq_true] at hbound
    obtain ⟨key, hget, hne⟩ := hbound
    obtain ⟨other, hother, htool, hlists⟩ := hindexed.sound action key hget
    have hslug : other.slug = key := (registry.keyed _ (Dict.mem_of_get? hother)).symm
    subst hslug
    exact ⟨other, mem_listSkills_iff.mpr hother, by simpa using hne, htool, action, haction, hlists⟩
  · rintro ⟨other, hother, hne, htool, action, haction, hlists⟩
    refine ⟨action, haction, ?_⟩
    rw [hindexed.complete _ _ (mem_listSkills_iff.mp hother) htool action hlists, Option.any_some]
    simpa using hne

theorem get?_unindex (key : PyStr) (actions : List PyStr) (index : Dict PyStr PyStr)
    (action : PyStr) :
    (unindex key actions index).get? action =
      if action ∈ actions ∧ index.get? action = some key then none else index.get? action := by
  induction actions generalizing index with
  | nil => simp [unindex]
  | cons first rest ih =>
    have hstep : unindex key (first :: rest) index =
        unindex key rest (if index.get? first = some key then index.erase first else index) :=
      rfl
    rw [hstep, ih]
    by_cases hfirst : action = first
    · subst hfirst
      by_cases hbound : index.get? action = some key <;> simp [hbound]
    · by_cases hbound : index.get? first = some key
      · rw [if_pos hbound, Dict.get?_erase_of_ne _ hfirst]
        simp [hfirst]
      · rw [if_neg hbound]
        simp [hfirst]

/-- Taking a skill out of a sound index takes out all that is bound to it. -/
theorem get?_indexWithout (hindexed : registry.Indexed) (key action : PyStr) :
    (registry.indexWithout key).get? action =
      if registry.toolActionIndex.get? action = some key then none
      else registry.toolActionIndex.get? action := by
  rw [indexWithout]
  cases hget : registry.bySlug.get? key with
  | none =>
    rw [Option.elim_none, if_neg]
    intro hbound
    obtain ⟨spec, hspec, _⟩ := hindexed.sound action key hbound
    rw [hget] at hspec
    exact absurd hspec (by simp)
  | some existing =>
    rw [Option.elim_some, get?_unindex]
    by_cases hbound : registry.toolActionIndex.get? action = some key
    · obtain ⟨spec, hspec, _, hlists⟩ := hindexed.sound action key hbound
      obtain rfl := Option.some.inj (hget.symm.trans hspec)
      rw [if_pos ⟨hlists, hbound⟩, if_pos hbound]
    · rw [if_neg fun hboth => hbound hboth.2, if_neg hbound]

theorem get?_bindActions {key : PyStr} {actions : List PyStr} {index : Dict PyStr PyStr}
    (hreturns : (bindActions std key actions index).2 = none) (action : PyStr) :
    (bindActions std key actions index).1.get? action =
      if action ∈ actions then some key else index.get? action := by
  induction actions generalizing index with
  | nil => rfl
  | cons first rest ih =>
    rw [bindActions] at hreturns ⊢
    split at hreturns
    · exact absurd hreturns (by simp)
    · rename_i hfree
      rw [ih hreturns]
      by_cases hfirst : action = first
      · subst hfirst
        simp
      · rw [Dict.get?_set_of_ne _ _ hfirst]
        simp [hfirst]

/-- The index after a skill was put in without an exception. -/
theorem get?_upsert_index (hindexed : registry.Indexed)
    (hreturns : (registry.upsert std spec).2 = none) (action : PyStr) :
    (registry.upsert std spec).1.toolActionIndex.get? action =
      if spec.skillKind ≠ .flow ∧ action ∈ spec.boundTools then some spec.slug
      else if registry.toolActionIndex.get? action = some spec.slug then none
      else registry.toolActionIndex.get? action := by
  have hindex : (registry.upsert std spec).1.toolActionIndex =
      (indexBoundTools std spec spec.slug (registry.indexWithout spec.slug)).1 := by
    simp [upsert]
  have hraised : (registry.upsert std spec).2 =
      (indexBoundTools std spec spec.slug (registry.indexWithout spec.slug)).2 := by
    simp [upsert]
  rw [hraised] at hreturns
  rw [hindex]
  rw [indexBoundTools] at hreturns ⊢
  by_cases hflow : spec.skillKind = .flow
  · have hnot : ¬(spec.skillKind ≠ .flow ∧ action ∈ spec.boundTools) :=
      fun hboth => hboth.1 hflow
    rw [if_pos hflow, get?_indexWithout hindexed, if_neg hnot]
  · rw [if_neg hflow] at hreturns ⊢
    rw [get?_bindActions hreturns, get?_indexWithout hindexed]
    simp [hflow]

theorem not_conflicts_of_upsert (hreturns : (registry.upsert std spec).2 = none) :
    ¬registry.Conflicts spec := by
  have hraises : (registry.upsert std spec).2.isSome ↔ registry.Conflicts spec :=
    upsert_raises_iff registry spec
  rw [← hraises, hreturns]
  exact Bool.false_ne_true

theorem indexed_upsert (hindexed : registry.Indexed)
    (hreturns : (registry.upsert std spec).2 = none) :
    (registry.upsert std spec).1.Indexed where
  sound action key hget := by
    rw [get?_upsert_index hindexed hreturns] at hget
    split_ifs at hget with hown hold
    · obtain rfl := Option.some.inj hget
      exact ⟨spec, upsert_get?_self spec, hown⟩
    · have hkey : key ≠ spec.slug := by
        rintro rfl
        exact hold hget
      obtain ⟨other, hother, hlists⟩ := hindexed.sound action key hget
      exact ⟨other, (upsert_get?_of_ne spec hkey).trans hother, hlists⟩
  complete key other hother htool action haction := by
    rw [get?_upsert_index hindexed hreturns]
    by_cases hkey : key = spec.slug
    · rw [hkey, upsert_get?_self] at hother
      obtain rfl := Option.some.inj hother
      rw [if_pos ⟨htool, haction⟩, hkey]
    · rw [upsert_get?_of_ne spec hkey] at hother
      have hbound := hindexed.complete key other hother htool action haction
      have hnot : ¬(spec.skillKind ≠ .flow ∧ action ∈ spec.boundTools) := by
        intro hown
        apply not_conflicts_of_upsert hreturns
        exact ⟨hown.1, action, hown.2, by rw [hbound]; simpa using hkey⟩
      have hne : registry.toolActionIndex.get? action ≠ some spec.slug := by
        rw [hbound]
        exact fun hsame => hkey (Option.some.inj hsame)
      rw [if_neg hnot, if_neg hne, hbound]

/-! ## The scan -/

theorem outcome_eq_ok_iff {result : SkillRegistry × Option SkillFailure} :
    outcome result = .ok after ↔ result.2 = none ∧ result.1 = after := by
  unfold outcome
  cases result.2 <;> simp

/-- The registry after a skill that does not raise. -/
def absorbed (std : Stdlib) (builtinNames : List PyStr) (registry : SkillRegistry)
    (spec : SkillSpec) : SkillRegistry :=
  if spec.slug ∈ builtinNames then registry else (registry.upsert std spec).1

/-- At its turn, no skill of the scan clashes with the skills then in force. -/
def Compatible (std : Stdlib) (builtinNames : List PyStr) :
    SkillRegistry → List SkillSpec → Prop
  | _, [] => True
  | registry, spec :: rest =>
    (spec.slug ∉ builtinNames → ¬registry.Clashes spec) ∧
      Compatible std builtinNames (registry.absorbed std builtinNames spec) rest

theorem upsertUnlessBuiltin_eq_ok_iff (hindexed : registry.Indexed) :
    registry.upsertUnlessBuiltin std names spec = .ok after ↔
      (spec.slug ∉ names → ¬registry.Clashes spec) ∧ registry.absorbed std names spec = after := by
  rw [upsertUnlessBuiltin, spec.normalize_slug, absorbed]
  by_cases hname : spec.slug ∈ names
  · rw [if_pos hname, if_pos hname, Except.ok.injEq]
    exact (and_iff_right fun hnot => absurd hname hnot).symm
  · have hraises : (registry.upsert std spec).2.isSome ↔ registry.Conflicts spec :=
      upsert_raises_iff registry spec
    rw [if_neg hname, if_neg hname, outcome_eq_ok_iff, imp_iff_right hname,
      ← conflicts_iff_clashes hindexed, ← hraises, Option.not_isSome_iff_eq_none]

theorem indexed_absorbed (hindexed : registry.Indexed)
    (hfree : spec.slug ∉ names → ¬registry.Clashes spec) :
    (registry.absorbed std names spec).Indexed := by
  obtain ⟨after, hafter⟩ : ∃ after, registry.upsertUnlessBuiltin std names spec = .ok after :=
    ⟨_, (upsertUnlessBuiltin_eq_ok_iff hindexed).mpr ⟨hfree, rfl⟩⟩
  rw [upsertUnlessBuiltin, spec.normalize_slug] at hafter
  rw [absorbed]
  by_cases hname : spec.slug ∈ names
  · rwa [if_pos hname]
  · rw [if_neg hname] at hafter ⊢
    exact indexed_upsert hindexed (outcome_eq_ok_iff.mp hafter).1

/-- A scan goes through exactly when its skills are compatible. -/
theorem scan_eq_ok_iff (hindexed : registry.Indexed) :
    specs.foldlM (upsertUnlessBuiltin std names) registry = .ok after ↔
      Compatible std names registry specs ∧ specs.foldl (absorbed std names) registry = after := by
  induction specs generalizing registry with
  | nil => simp [Compatible, pure, Except.pure]
  | cons spec rest ih =>
    rw [List.foldlM_cons, Compatible, List.foldl_cons]
    constructor
    · intro hscan
      obtain ⟨next, hnext, hrest⟩ := Loops.exists_of_bind_eq_ok hscan
      obtain ⟨hfree, rfl⟩ := (upsertUnlessBuiltin_eq_ok_iff hindexed).mp hnext
      obtain ⟨hcompatible, hafter⟩ := (ih (indexed_absorbed hindexed hfree)).mp hrest
      exact ⟨⟨hfree, hcompatible⟩, hafter⟩
    · rintro ⟨⟨hfree, hcompatible⟩, hafter⟩
      rw [(upsertUnlessBuiltin_eq_ok_iff hindexed).mpr ⟨hfree, rfl⟩]
      exact (ih (indexed_absorbed hindexed hfree)).mpr ⟨hcompatible, hafter⟩

theorem indexed_scan (hindexed : registry.Indexed)
    (hcompatible : Compatible std names registry specs) :
    (specs.foldl (absorbed std names) registry).Indexed := by
  induction specs generalizing registry with
  | nil => exact hindexed
  | cons spec rest ih => exact ih (indexed_absorbed hindexed hcompatible.1) hcompatible.2

/-- After a scan the last skill with a name is in force, unless the name is a builtin one. -/
theorem get?_scan (names : List PyStr) (specs : List SkillSpec) (key : PyStr) :
    (specs.foldl (absorbed std names) registry).bySlug.get? key =
      if key ∈ names then registry.bySlug.get? key
      else (KeyedList.lookup SkillSpec.slug key specs).or (registry.bySlug.get? key) := by
  induction specs generalizing registry with
  | nil => simp [KeyedList.lookup]
  | cons spec rest ih =>
    rw [List.foldl_cons, ih, KeyedList.lookup, absorbed]
    by_cases hkey : key ∈ names
    · rw [if_pos hkey, if_pos hkey]
      by_cases hname : spec.slug ∈ names
      · rw [if_pos hname]
      · have hne : key ≠ spec.slug := by
          rintro rfl
          exact hname hkey
        rw [if_neg hname, upsert_get?_of_ne spec hne]
    · rw [if_neg hkey, if_neg hkey]
      cases KeyedList.lookup SkillSpec.slug key rest with
      | some found => rfl
      | none =>
        rw [Option.none_or, Option.none_or]
        by_cases hsame : spec.slug = key
        · subst hsame
          rw [if_neg hkey, if_pos rfl, upsert_get?_self, Option.some_or]
        · rw [if_neg hsame, Option.none_or]
          by_cases hname : spec.slug ∈ names
          · rw [if_pos hname]
          · rw [if_neg hname, upsert_get?_of_ne spec (Ne.symm hsame)]

/-! ## Applying the overlay -/

/-- The data of a registered skill. -/
def overlaid (overlay : Option SkillOverlayState) (spec : SkillSpec) : SkillSpec :=
  overlay.elim spec fun overlay => applyOverlay overlay spec

@[simp]
theorem sourceKind_overlaid (overlay : Option SkillOverlayState) (spec : SkillSpec) :
    (overlaid overlay spec).sourceKind = spec.sourceKind := by
  cases overlay with
  | none => rfl
  | some overlay =>
    rw [overlaid, Option.elim_some, applyOverlay]
    split <;> rfl

@[simp]
theorem skillKind_overlaid (overlay : Option SkillOverlayState) (spec : SkillSpec) :
    (overlaid overlay spec).skillKind = spec.skillKind := by
  cases overlay with
  | none => rfl
  | some overlay =>
    rw [overlaid, Option.elim_some, applyOverlay]
    split <;> rfl

/-- A registered skill does not clash with itself. -/
theorem not_conflicts_of_registered (hindexed : registry.Indexed)
    (hget : registry.bySlug.get? spec.slug = some spec) : ¬registry.Conflicts spec := by
  rintro ⟨htool, action, haction, hbound⟩
  rw [hindexed.complete _ _ hget htool action haction, Option.any_some] at hbound
  simp at hbound

theorem upsert_overlay_returns (hindexed : registry.Indexed)
    (hget : registry.bySlug.get? spec.slug = some spec) (overlay : SkillOverlayState) :
    (registry.upsert std (applyOverlay overlay spec)).2 = none := by
  have hraises : (registry.upsert std (applyOverlay overlay spec)).2.isSome ↔ _ :=
    upsert_raises_iff registry (applyOverlay overlay spec)
  rw [← Option.not_isSome_iff_eq_none, hraises, conflicts_applyOverlay]
  exact not_conflicts_of_registered hindexed hget

theorem withOverlay_loop (overlay : SkillOverlayState)
    (hslugs : (specs.map SkillSpec.slug).Nodup) (hindexed : registry.Indexed)
    (hspecs : ∀ spec ∈ specs, registry.bySlug.get? spec.slug = some spec) :
    ∃ after, specs.foldlM (fun registry spec =>
        outcome (registry.upsert std (applyOverlay overlay spec))) registry = .ok after ∧
      after.Indexed ∧ ∀ key, after.bySlug.get? key =
        if key ∈ specs.map SkillSpec.slug then
          (registry.bySlug.get? key).map (applyOverlay overlay)
        else registry.bySlug.get? key := by
  induction specs generalizing registry with
  | nil => exact ⟨registry, rfl, hindexed, fun key => rfl⟩
  | cons spec rest ih =>
    obtain ⟨hfresh, hrest⟩ := List.nodup_cons.mp hslugs
    rw [List.forall_mem_cons] at hspecs
    have hreturns : (registry.upsert std (applyOverlay overlay spec)).2 = none :=
      upsert_overlay_returns hindexed hspecs.1 overlay
    have hself : (registry.upsert std (applyOverlay overlay spec)).1.bySlug.get? spec.slug =
        some (applyOverlay overlay spec) := by
      have hown : (registry.upsert std (applyOverlay overlay spec)).1.bySlug.get?
          (applyOverlay overlay spec).slug = _ := upsert_get?_self _
      rwa [slug_applyOverlay] at hown
    have hothers : ∀ key, key ≠ spec.slug →
        (registry.upsert std (applyOverlay overlay spec)).1.bySlug.get? key =
          registry.bySlug.get? key := by
      intro key hkey
      apply upsert_get?_of_ne
      rwa [slug_applyOverlay]
    have hkept : ∀ other ∈ rest,
        (registry.upsert std (applyOverlay overlay spec)).1.bySlug.get? other.slug =
          some other := by
      intro other hother
      rw [hothers other.slug fun hsame => hfresh (hsame ▸ List.mem_map_of_mem hother)]
      exact hspecs.2 other hother
    obtain ⟨after, hafter, hafterIndexed, hget⟩ := ih hrest (indexed_upsert hindexed hreturns) hkept
    refine ⟨after, ?_, hafterIndexed, fun key => ?_⟩
    · rw [List.foldlM_cons, outcome_eq_ok_iff.mpr ⟨hreturns, rfl⟩]
      exact hafter
    · rw [hget key, List.map_cons]
      by_cases hkey : key = spec.slug
      · rw [hkey, if_neg hfresh, if_pos List.mem_cons_self, hself, hspecs.1, Option.map_some]
      · simp [hothers key hkey, hkey]

/-- Applying the overlay to a well indexed registry does not raise. -/
theorem overlay_pass (hindexed : registry.Indexed) (overlay : Option SkillOverlayState) :
    ∃ after, overlay.elim (.ok registry) (fun overlay => registry.withOverlay std overlay) =
        .ok after ∧ after.Indexed ∧
      ∀ key, after.bySlug.get? key = (registry.bySlug.get? key).map (overlaid overlay) := by
  cases overlay with
  | none =>
    have hid : overlaid none = id := rfl
    refine ⟨registry, rfl, hindexed, fun key => ?_⟩
    rw [hid, Option.map_id, id]
  | some overlay =>
    have hslugs : registry.listSkills.map SkillSpec.slug = registry.bySlug.keys := by
      rw [listSkills, List.map_map]
      apply List.map_congr_left
      exact fun entry hentry => (registry.keyed entry hentry).symm
    obtain ⟨after, hafter, hafterIndexed, hget⟩ := withOverlay_loop overlay
      (hslugs ▸ registry.nodup) hindexed fun spec hspec => mem_listSkills_iff.mp hspec
    refine ⟨after, hafter, hafterIndexed, fun key => ?_⟩
    rw [hget key, hslugs]
    by_cases hkey : key ∈ registry.bySlug.keys
    · rw [if_pos hkey]
      rfl
    · rw [if_neg hkey]
      rw [Dict.mem_keys_iff, Option.not_isSome_iff_eq_none] at hkey
      rw [hkey, Option.map_none]

/-! ## The whole build -/

/-- Registering a new skill is putting it in. -/
theorem register_eq_upsert (hfresh : spec.slug ∉ registry.bySlug.keys) :
    registry.register std spec = registry.upsert std spec := by
  have hget : registry.bySlug.get? spec.slug = none := by
    rwa [← Option.not_isSome_iff_eq_none, ← Dict.mem_keys_iff]
  have herase : registry.bySlug.erase spec.slug = registry.bySlug :=
    Dict.filterKeys_eq_self hfresh
  simp only [register, upsert, spec.normalize_slug, if_neg hfresh, indexWithout, hget,
    Option.elim_none, herase]

theorem indexed_registerSkill (hindexed : registry.Indexed)
    (hregister : registry.registerSkill std spec = .ok after) : after.Indexed := by
  rw [registerSkill, outcome_eq_ok_iff] at hregister
  by_cases hfresh : spec.slug ∈ registry.bySlug.keys
  · have hraises : (registry.register std spec).2 ≠ none := by
      simp [register, hfresh]
    exact absurd hregister.1 hraises
  · rw [register_eq_upsert hfresh] at hregister
    rw [← hregister.2]
    exact indexed_upsert hindexed hregister.1

end SkillRegistry

section Build

variable {std : Stdlib} {loader : Loader β} {files : Files β}

variable {source : SkillSourceKind} {roots : SkillRoots} {inner : SkillRegistry}
  {root : SkillPath}

theorem addSkills_eq_ok_iff {registry : SkillRegistry} (hindexed : registry.Indexed) :
    addSkills std loader files names source root registry = .ok after ↔
      ∃ specs, (discoverSkillFiles files root).mapM
          (loadSkillFromPath std loader files · source) = .ok specs ∧
        SkillRegistry.Compatible std names registry specs ∧
        specs.foldl (SkillRegistry.absorbed std names) registry = after := by
  rw [addSkills, Loops.foldlM_bind_eq_ok_iff]
  apply exists_congr
  intro specs
  rw [SkillRegistry.scan_eq_ok_iff hindexed]

theorem indexed_buildBuiltin {builtins : SkillRegistry}
    (hbuild : buildBuiltin std loader files root = .ok builtins) : builtins.Indexed := by
  apply Loops.foldlM_preserves SkillRegistry.Indexed _ SkillRegistry.indexed_new hbuild
  intro registry path next hindexed hnext
  obtain ⟨spec, _, hregister⟩ := Loops.exists_of_bind_eq_ok hnext
  exact SkillRegistry.indexed_registerSkill hindexed hregister

/-- What holds of a skill by the way it is loaded. -/
structure LoadedAs (source : SkillSourceKind) (spec : SkillSpec) : Prop where
  sourceKind : spec.sourceKind = source
  skillKind : spec.skillKind ≠ .toolGroup

theorem loadedAs_of_frontmatter {data : Fields} {directory : SkillPath}
    (hspec : skillOfFrontmatter std data directory source = .ok spec) : LoadedAs source spec := by
  simp only [skillOfFrontmatter] at hspec
  split_ifs at hspec
  obtain ⟨given, _, hspec⟩ := Loops.exists_of_bind_eq_ok hspec
  split at hspec
  · obtain rfl := Except.ok.inj hspec
    refine ⟨rfl, ?_⟩
    dsimp only
    split_ifs <;> decide
  · exact absurd hspec (by simp)

theorem loadedAs_of_load {path : SkillPath}
    (hload : loadSkillFromPath std loader files path source = .ok spec) : LoadedAs source spec := by
  obtain ⟨content, _, hload⟩ := Loops.exists_of_bind_eq_ok hload
  obtain ⟨data, _, hspec⟩ := Loops.exists_of_bind_eq_ok hload
  exact loadedAs_of_frontmatter hspec

/-- Every skill of a scan comes from its source. -/
theorem loadedAs_of_lookup {key : PyStr} (hspecs : (discoverSkillFiles files root).mapM
      (loadSkillFromPath std loader files · source) = .ok specs)
    (hlookup : KeyedList.lookup SkillSpec.slug key specs = some spec) : LoadedAs source spec := by
  obtain ⟨path, _, hload⟩ := Loops.exists_item_of_mem (Loops.forall₂_of_mapM_ok hspecs)
    (KeyedList.mem_of_lookup hlookup).1
  exact loadedAs_of_load hload

theorem builtin_of_buildBuiltin {builtins : SkillRegistry}
    (hbuild : buildBuiltin std loader files root = .ok builtins) :
    ∀ key spec, builtins.bySlug.get? key = some spec → LoadedAs .builtin spec := by
  have hstart : ∀ key spec, SkillRegistry.new.bySlug.get? key = some spec →
      LoadedAs .builtin spec := fun _ _ hget => absurd hget (by simp [SkillRegistry.new])
  apply Loops.foldlM_preserves (fun registry : SkillRegistry =>
    ∀ key spec, registry.bySlug.get? key = some spec → LoadedAs .builtin spec) _ hstart hbuild
  intro registry path next hregistry hnext
  obtain ⟨spec, hload, hregister⟩ := Loops.exists_of_bind_eq_ok hnext
  rw [SkillRegistry.registerSkill, SkillRegistry.outcome_eq_ok_iff] at hregister
  by_cases hfresh : spec.slug ∈ registry.bySlug.keys
  · have hraises : (registry.register std spec).2 ≠ none := by
      simp [SkillRegistry.register, hfresh]
    exact absurd hregister.1 hraises
  · rw [SkillRegistry.register_eq_upsert hfresh] at hregister
    rw [← hregister.2]
    intro key found hget
    by_cases hkey : key = spec.slug
    · rw [hkey, SkillRegistry.upsert_get?_self] at hget
      rw [← Option.some.inj hget]
      exact loadedAs_of_load hload
    · rw [SkillRegistry.upsert_get?_of_ne spec hkey] at hget
      exact hregistry key found hget

/-- What the builtin and the custom skills leave: a well indexed registry, whose builtin
skills are those with a builtin name. -/
structure InnerFacts (names : List PyStr) (inner : SkillRegistry) : Prop where
  indexed : inner.Indexed
  registered : ∀ key ∈ names, ∃ spec, inner.bySlug.get? key = some spec ∧
    LoadedAs .builtin spec
  custom : ∀ key ∉ names, ∀ spec, inner.bySlug.get? key = some spec → LoadedAs .custom spec

theorem innerFacts (hinner : buildInner std loader files roots = .ok (names, inner)) :
    InnerFacts names inner := by
  obtain ⟨builtins, hbuiltin, hrest⟩ := Loops.exists_of_bind_eq_ok hinner
  obtain ⟨withCustom, hcustom, hpair⟩ := Loops.exists_of_map_eq_ok hrest
  obtain ⟨rfl, rfl⟩ := Prod.mk.inj hpair
  have hindexed := indexed_buildBuiltin hbuiltin
  obtain ⟨specs, hspecs, hcompatible, rfl⟩ := (addSkills_eq_ok_iff hindexed).mp hcustom
  refine ⟨SkillRegistry.indexed_scan hindexed hcompatible, fun key hkey => ?_,
    fun key hkey spec hget => ?_⟩
  · obtain ⟨spec, hspec⟩ := Option.isSome_iff_exists.mp ((Dict.mem_keys_iff _ _).mp hkey)
    rw [SkillRegistry.get?_scan, if_pos hkey]
    exact ⟨spec, hspec, builtin_of_buildBuiltin hbuiltin key spec hspec⟩
  · rw [SkillRegistry.get?_scan, if_neg hkey] at hget
    rw [Dict.mem_keys_iff, Option.not_isSome_iff_eq_none] at hkey
    rw [hkey, Option.or_none] at hget
    exact loadedAs_of_lookup hspecs hget

/-- The entry of a name: the last external skill with it, or what the inner part left. -/
def inForce (overlay : Option SkillOverlayState) (names : List PyStr) (inner : SkillRegistry)
    (specs : List SkillSpec) (key : PyStr) : Option SkillSpec :=
  (if key ∈ names then inner.bySlug.get? key
    else (KeyedList.lookup SkillSpec.slug key specs).or (inner.bySlug.get? key)).map
      (SkillRegistry.overlaid overlay)

/-- Where the skill in force comes from. -/
theorem loadedAs_of_inForce {overlay : Option SkillOverlayState} {key : PyStr}
    (hfacts : InnerFacts names inner) (hspecs : (discoverSkillFiles files root).mapM
      (loadSkillFromPath std loader files · .external) = .ok specs)
    (hget : inForce overlay names inner specs key = some spec) :
    ∃ loaded source, spec = SkillRegistry.overlaid overlay loaded ∧ LoadedAs source loaded ∧
      (source = .builtin ↔ key ∈ names) := by
  rw [inForce, Option.map_eq_some_iff] at hget
  obtain ⟨loaded, hloaded, rfl⟩ := hget
  by_cases hkey : key ∈ names
  · rw [if_pos hkey] at hloaded
    obtain ⟨builtin, hbuiltin, hfrom⟩ := hfacts.registered key hkey
    obtain rfl := Option.some.inj (hbuiltin.symm.trans hloaded)
    exact ⟨builtin, .builtin, rfl, hfrom, iff_of_true rfl hkey⟩
  · rw [if_neg hkey, Option.or_eq_some_iff] at hloaded
    cases hloaded with
    | inl hexternal =>
      exact ⟨loaded, .external, rfl, loadedAs_of_lookup hspecs hexternal,
        iff_of_false (by decide) hkey⟩
    | inr hcustom =>
      exact ⟨loaded, .custom, rfl, hfacts.custom key hkey loaded hcustom.2,
        iff_of_false (by decide) hkey⟩

/-- A build whose external skills load and are compatible goes through. -/
theorem build_of_compatible (overlay : Option SkillOverlayState)
    (hinner : buildInner std loader files roots = .ok (names, inner))
    (hspecs : (discoverSkillFiles files roots.external).mapM
      (loadSkillFromPath std loader files · .external) = .ok specs)
    (hcompatible : SkillRegistry.Compatible std names inner specs) :
    ∃ registry, buildSkillRegistry std loader files roots overlay = .ok registry ∧
      registry.Indexed ∧
        ∀ key, registry.bySlug.get? key = inForce overlay names inner specs key := by
  have hindexed := (innerFacts hinner).indexed
  have hadded : addSkills std loader files names .external roots.external inner = .ok _ :=
    (addSkills_eq_ok_iff hindexed).mpr ⟨specs, hspecs, hcompatible, rfl⟩
  obtain ⟨registry, hregistry, hafter, hget⟩ :=
    SkillRegistry.overlay_pass (SkillRegistry.indexed_scan hindexed hcompatible) overlay
  refine ⟨registry, ?_, hafter, fun key => ?_⟩
  · rw [buildSkillRegistry, hinner, Except.bind, hadded, Except.bind, hregistry]
  · rw [hget, SkillRegistry.get?_scan, inForce]

/-- What a build that goes through has found. -/
theorem exists_of_build {overlay : Option SkillOverlayState} {registry : SkillRegistry}
    (hbuild : buildSkillRegistry std loader files roots overlay = .ok registry) :
    ∃ names inner specs, buildInner std loader files roots = .ok (names, inner) ∧
      (discoverSkillFiles files roots.external).mapM
        (loadSkillFromPath std loader files · .external) = .ok specs ∧
      SkillRegistry.Compatible std names inner specs := by
  obtain ⟨⟨names, inner⟩, hinner, hrest⟩ := Loops.exists_of_bind_eq_ok hbuild
  obtain ⟨withExternal, hadded, _⟩ := Loops.exists_of_bind_eq_ok hrest
  obtain ⟨specs, hspecs, hcompatible, _⟩ :=
    (addSkills_eq_ok_iff (innerFacts hinner).indexed).mp hadded
  exact ⟨names, inner, specs, hinner, hspecs, hcompatible⟩

end Build

end RootSeeker.SkillSystem
