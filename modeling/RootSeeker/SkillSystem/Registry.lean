import RootSeeker.Python.Repr
import RootSeeker.SkillSystem.Names

/-!
# The skill registry

The registry keeps the skills under their names and remembers for every tool
action the skill that binds it.
-/

namespace RootSeeker.SkillSystem

open Python

inductive SkillSourceKind where
  | builtin
  | custom
  | generated
  | external
  deriving DecidableEq

inductive SkillKind where
  | flow
  | tool
  | toolGroup
  deriving DecidableEq

/-- A skill as it is loaded from its package: the slug is the name. -/
structure SkillSpec where
  name : PyStr
  slug : PyStr
  description : PyStr
  skillKind : SkillKind
  boundTools : List PyStr
  sourceKind : SkillSourceKind
  metadata : Fields
  named : slug = name
  valid : ValidName name

@[simp]
theorem SkillSpec.normalize_slug (spec : SkillSpec) : normalizeSkillName spec.slug = spec.slug := by
  rw [spec.named]
  exact normalizeSkillName_of_valid spec.valid

@[simp]
theorem SkillSpec.normalize_name (spec : SkillSpec) : normalizeSkillName spec.name = spec.slug := by
  rw [spec.named]
  exact normalizeSkillName_of_valid spec.valid

theorem SkillSpec.slug_ne_nil (spec : SkillSpec) : spec.slug ≠ [] :=
  spec.named ▸ spec.valid.ne_nil

inductive SkillFailure where
  | skillError (code message : PyStr)
  | valueError (message : PyStr)
  | validationError
  | typeError
  | osError
  | unicodeEncodeError
  | yamlError
  deriving DecidableEq

structure SkillRegistry where
  bySlug : Dict PyStr SkillSpec
  toolActionIndex : Dict PyStr PyStr
  keyed : ∀ entry ∈ bySlug, entry.1 = entry.2.slug
  nodup : bySlug.keys.Nodup

namespace SkillRegistry

def new : SkillRegistry where
  bySlug := []
  toolActionIndex := []
  keyed := by simp
  nodup := List.nodup_nil

def get (registry : SkillRegistry) (slug : PyStr) : Option SkillSpec :=
  registry.bySlug.get? (normalizeSkillName slug)

def listSkills (registry : SkillRegistry) : List SkillSpec :=
  registry.bySlug.map Prod.snd

def resolveToolSkill (registry : SkillRegistry) (action : PyStr) : Option SkillSpec :=
  (registry.toolActionIndex.get? action).bind registry.get

section Index

variable (std : Stdlib)

/-- The loop of `_index_bound_tools`; the actions bound before the one that raises stay. -/
def bindActions (key : PyStr) : List PyStr → Dict PyStr PyStr →
    Dict PyStr PyStr × Option SkillFailure
  | [], index => (index, none)
  | action :: rest, index =>
    match (index.get? action).filter fun existing => existing ≠ key with
    | some existing =>
      (index, some (.valueError
        (py "Tool action " ++ reprText std action ++ py " already bound to skill " ++
          reprText std existing ++ py ", cannot bind to " ++ reprText std key)))
    | none => bindActions key rest (index.set action key)

def indexBoundTools (spec : SkillSpec) (key : PyStr) (index : Dict PyStr PyStr) :
    Dict PyStr PyStr × Option SkillFailure :=
  if spec.skillKind = .flow then (index, none) else bindActions std key spec.boundTools index

end Index

/-- Drop the entries of the actions that are bound to the skill. -/
def unindex (key : PyStr) (actions : List PyStr) (index : Dict PyStr PyStr) :
    Dict PyStr PyStr :=
  actions.foldl (fun index action =>
    if index.get? action = some key then index.erase action else index) index

/-- The index after the skill under the key is taken out. -/
def indexWithout (registry : SkillRegistry) (key : PyStr) : Dict PyStr PyStr :=
  (registry.bySlug.get? key).elim registry.toolActionIndex fun existing =>
    unindex key existing.boundTools registry.toolActionIndex

theorem keyed_erase_set (registry : SkillRegistry) (spec : SkillSpec) :
    ∀ entry ∈ (registry.bySlug.erase spec.slug).set spec.slug spec,
      entry.1 = entry.2.slug := by
  apply Dict.forall_mem_set (fun entry : PyStr × SkillSpec => entry.1 = entry.2.slug) _ rfl
  exact fun entry hentry => registry.keyed entry (Dict.mem_of_mem_erase hentry)

/-- Put the skill under its name, at the end. -/
def upsert (std : Stdlib) (registry : SkillRegistry) (spec : SkillSpec) :
    SkillRegistry × Option SkillFailure :=
  let key := normalizeSkillName spec.slug
  let (index, raised) := indexBoundTools std spec key (registry.indexWithout key)
  ({ bySlug := (registry.bySlug.erase key).set key spec
     toolActionIndex := index
     keyed := by simpa [key] using registry.keyed_erase_set spec
     nodup := Dict.nodup_keys_set (Dict.nodup_keys_erase registry.nodup key) key spec }, raised)

def register (std : Stdlib) (registry : SkillRegistry) (spec : SkillSpec) :
    SkillRegistry × Option SkillFailure :=
  let key := normalizeSkillName spec.slug
  if key ∈ registry.bySlug.keys then
    (registry, some (.valueError (py "Duplicate skill slug: " ++ key)))
  else
    let (index, raised) := indexBoundTools std spec key registry.toolActionIndex
    ({ bySlug := registry.bySlug.set key spec
       toolActionIndex := index
       keyed := by
        apply Dict.forall_mem_set (fun entry : PyStr × SkillSpec => entry.1 = entry.2.slug)
          registry.keyed
        exact spec.normalize_slug
       nodup := Dict.nodup_keys_set registry.nodup key spec }, raised)

def unregister (registry : SkillRegistry) (slug : PyStr) : SkillRegistry :=
  let key := normalizeSkillName slug
  { bySlug := registry.bySlug.erase key
    toolActionIndex := registry.indexWithout key
    keyed := fun entry hentry => registry.keyed entry (Dict.mem_of_mem_erase hentry)
    nodup := Dict.nodup_keys_erase registry.nodup key }

/-- Some action of the skill is bound to another skill. -/
def Conflicts (registry : SkillRegistry) (spec : SkillSpec) : Prop :=
  spec.skillKind ≠ .flow ∧ ∃ action ∈ spec.boundTools,
    ((registry.toolActionIndex.get? action).any fun other => other ≠ spec.slug) = true

instance (registry : SkillRegistry) (spec : SkillSpec) : Decidable (registry.Conflicts spec) :=
  inferInstanceAs (Decidable (_ ∧ _))

/-! ## What the operations do -/

section Lookup

variable {std : Stdlib} {registry : SkillRegistry}

theorem slug_of_get {name : PyStr} {spec : SkillSpec} (hget : registry.get name = some spec) :
    spec.slug = normalizeSkillName name :=
  (registry.keyed _ (Dict.mem_of_get? hget)).symm

@[simp]
theorem upsert_get?_self (spec : SkillSpec) :
    (registry.upsert std spec).1.bySlug.get? spec.slug = some spec := by
  have hkey : (registry.upsert std spec).1.bySlug =
      (registry.bySlug.erase spec.slug).set spec.slug spec := by
    simp [upsert]
  rw [hkey, Dict.get?_set_self]

theorem upsert_get?_of_ne (spec : SkillSpec) {key : PyStr} (hkey : key ≠ spec.slug) :
    (registry.upsert std spec).1.bySlug.get? key = registry.bySlug.get? key := by
  have hslug : (registry.upsert std spec).1.bySlug =
      (registry.bySlug.erase spec.slug).set spec.slug spec := by
    simp [upsert]
  rw [hslug, Dict.get?_set_of_ne _ _ hkey, Dict.get?_erase_of_ne _ hkey]

theorem unregister_get?_of_ne {name key : PyStr} (hkey : key ≠ normalizeSkillName name) :
    (registry.unregister name).bySlug.get? key = registry.bySlug.get? key :=
  Dict.get?_erase_of_ne _ hkey

theorem unregister_get?_self (name : PyStr) :
    (registry.unregister name).bySlug.get? (normalizeSkillName name) = none :=
  Dict.get?_erase_self _ _

end Lookup

section Binding

variable {std : Stdlib} {key : PyStr}

/-- Taking a skill out of the index leaves the bindings of the others. -/
theorem unindex_any_ne (actions : List PyStr) (index : Dict PyStr PyStr) (action : PyStr) :
    (((unindex key actions index).get? action).any fun other => other ≠ key) =
      (index.get? action).any fun other => other ≠ key := by
  induction actions generalizing index with
  | nil => rfl
  | cons first rest ih =>
    rw [unindex, List.foldl_cons]
    refine (ih _).trans ?_
    split
    · rename_i hbound
      by_cases hfirst : action = first
      · rw [hfirst, Dict.get?_erase_self, hbound]
        simp
      · rw [Dict.get?_erase_of_ne _ hfirst]
    · rfl

/-- Binding raises exactly when an action is bound to another skill. -/
theorem bindActions_isSome_iff (actions : List PyStr) (index : Dict PyStr PyStr) :
    (bindActions std key actions index).2.isSome ↔
      ∃ action ∈ actions, ((index.get? action).any fun other => other ≠ key) = true := by
  induction actions generalizing index with
  | nil => simp [bindActions]
  | cons action rest ih =>
    rw [List.exists_mem_cons_iff, bindActions]
    cases hother : (index.get? action).filter fun existing => existing ≠ key with
    | some existing =>
      apply iff_of_true rfl
      apply Or.inl
      obtain ⟨hget, hne⟩ := Option.filter_eq_some_iff.mp hother
      rw [hget]
      exact hne
    | none =>
      have hnot : ¬((index.get? action).any fun other => other ≠ key) = true := by
        cases hget : index.get? action with
        | none => simp
        | some existing => simpa [hget] using hother
      rw [or_iff_right hnot]
      refine (ih _).trans ?_
      apply exists_congr
      intro other
      apply and_congr_right
      intro _
      by_cases hsame : other = action
      · rw [hsame, Dict.get?_set_self]
        exact iff_of_false (by simp) hnot
      · rw [Dict.get?_set_of_ne _ _ hsame]

theorem upsert_raises_iff (registry : SkillRegistry) (spec : SkillSpec) :
    (registry.upsert std spec).2.isSome ↔ registry.Conflicts spec := by
  have hraised : (registry.upsert std spec).2 =
      (indexBoundTools std spec spec.slug (registry.indexWithout spec.slug)).2 := by
    simp [upsert]
  rw [hraised, indexBoundTools, Conflicts]
  by_cases hflow : spec.skillKind = .flow
  · simp [hflow]
  · rw [if_neg hflow, bindActions_isSome_iff]
    apply Iff.trans _ (and_iff_right hflow).symm
    apply exists_congr
    intro action
    apply and_congr_right
    intro _
    rw [indexWithout]
    cases registry.bySlug.get? spec.slug with
    | none => exact Iff.rfl
    | some existing => rw [Option.elim_some, unindex_any_ne]

end Binding

end SkillRegistry

/-! ## The overlay -/

structure SkillOverlayState where
  defaultPlaybook : PyStr
  overlays : Dict PyStr Fields

/-- `if key in entry: metadata[key] = entry[key]`. -/
def override (entry : Fields) (key : PyStr) (metadata : Fields) : Fields :=
  (entry.get? key).elim metadata fun value => metadata.set key value

def applyOverlay (overlay : SkillOverlayState) (spec : SkillSpec) : SkillSpec :=
  match overlay.overlays.get? (normalizeSkillName spec.slug) with
  | none => spec
  | some entry =>
    { spec with
      metadata := override entry (py "role") (override entry (py "enabled") spec.metadata) }

@[simp]
theorem slug_applyOverlay (overlay : SkillOverlayState) (spec : SkillSpec) :
    (applyOverlay overlay spec).slug = spec.slug := by
  unfold applyOverlay
  split <;> rfl

theorem conflicts_applyOverlay {registry : SkillRegistry} (overlay : SkillOverlayState)
    (spec : SkillSpec) :
    registry.Conflicts (applyOverlay overlay spec) ↔ registry.Conflicts spec := by
  unfold applyOverlay
  split <;> rfl

end RootSeeker.SkillSystem
