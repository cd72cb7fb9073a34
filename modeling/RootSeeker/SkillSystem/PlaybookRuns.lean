import RootSeeker.SkillSystem.Playbook

/-!
# There is a playbook to run

Which calls of the resolver leave a default that is registered, enabled and a
playbook, so that every case finds a playbook.
-/

namespace RootSeeker.SkillSystem

open Python Transition

namespace PlaybookResolver

variable (std : Stdlib)

/-- The key under which the default is looked up. -/
def current (resolver : PlaybookResolver) : PyStr :=
  normalizeSkillName resolver.overlay.defaultPlaybook

/-- The name is that of a registered, enabled playbook. -/
def Usable (resolver : PlaybookResolver) (name : PyStr) : Prop :=
  (resolver.usablePlaybook std name).isSome

instance (resolver : PlaybookResolver) (name : PyStr) : Decidable (resolver.Usable std name) :=
  inferInstanceAs (Decidable (_ = true))

def DefaultUsable (resolver : PlaybookResolver) : Prop :=
  resolver.Usable std resolver.overlay.defaultPlaybook

instance (resolver : PlaybookResolver) : Decidable (resolver.DefaultUsable std) :=
  inferInstanceAs (Decidable (resolver.Usable std _))

/-- Every case finds a playbook, and the default is one. -/
structure Serves (resolver : PlaybookResolver) : Prop where
  resolves : ∀ metadata, ∃ spec, resolver.resolve std metadata = .ok spec
  default : resolver.DefaultUsable std

/-- What is to hold after a call. -/
structure ServesAfter (before : PlaybookResolver) (call : PlaybookCall)
    (after : PlaybookResolver) : Prop where
  serves : after.Serves std
  unchanged : ∀ code message, (before.perform std call).2 = some (.skillError code message) →
    after = before

/-- The overlay gives the default a role that counts as none, such as the empty text. -/
def MutedRole (resolver : PlaybookResolver) : Prop :=
  ((resolver.overlay.overlays.get? resolver.current).bind
    fun entry => entry.get? (py "role")).any (fun role => !role.truthy) = true

instance (resolver : PlaybookResolver) : Decidable resolver.MutedRole :=
  inferInstanceAs (Decidable (_ = true))

/-- The default stays usable where the call writes to another entry of the overlay: a skill
that is put back with a muted role is no playbook any more. -/
def KeptBeside (resolver : PlaybookResolver) (spec : SkillSpec) : Prop :=
  resolver.DefaultUsable std ∧ (spec.slug = resolver.current → ¬resolver.MutedRole)

instance (resolver : PlaybookResolver) (spec : SkillSpec) :
    Decidable (resolver.KeptBeside std spec) :=
  inferInstanceAs (Decidable (_ ∧ _))

/-- When a call leaves a usable default: one that addresses the current default must not
take its role away, nor be stopped by a conflict of tools before the fallback is set; one
whose name is not in normal form is not recognised as addressing the default. -/
def KeepsDefault (resolver : PlaybookResolver) : PlaybookCall → Prop
  | .setDefault name => resolver.Usable std (normalizeSkillName name) ∨ resolver.DefaultUsable std
  | .setRole name role =>
    match resolver.registry.get (normalizeSkillName name) with
    | none => resolver.DefaultUsable std
    | some spec =>
      if role ∉ roles then resolver.DefaultUsable std
      else if normalizeSkillName name = resolver.current then
        spec.slug = resolver.current ∧ resolver.isEnabled spec ∧ role = py "playbook"
      else resolver.KeptBeside std spec
  | .setEnabled name enabled =>
    match resolver.registry.get (normalizeSkillName name) with
    | none => resolver.DefaultUsable std
    | some spec =>
      if normalizeSkillName name = resolver.current then
        if enabled then
          spec.slug = resolver.current ∧
            resolver.effectiveRole std spec = py "playbook" ∧ ¬resolver.MutedRole
        else if resolver.canFallbackToBuiltin std (normalizeSkillName name) then
          ¬resolver.registry.Conflicts spec
        else resolver.DefaultUsable std
      else resolver.KeptBeside std spec
  | .deleteUserSkill name =>
    match resolver.registry.get (normalizeSkillName name) with
    | none => resolver.DefaultUsable std
    | some spec =>
      if !isUserSource spec.sourceKind then resolver.DefaultUsable std
      else if normalizeSkillName name = resolver.current then
        resolver.canFallbackToBuiltin std (normalizeSkillName name) ∨
          resolver.DefaultUsable std
      else resolver.DefaultUsable std ∧ spec.slug ≠ resolver.current

/-! ## A skill with its entry of the overlay -/

def roleFor (entry : Option Fields) (metadata : Fields) : PyStr :=
  truthyText std [(entry.getD []).get? (py "role"), metadata.get? (py "role"),
    some (.str (py "helper"))]

def enabledFor (entry : Option Fields) (metadata : Fields) : Bool :=
  (entry.bind fun given => given.get? (py "enabled")).elim (enabledByMetadata metadata)
    Json.truthy

def mutedIn (entry : Option Fields) : Bool :=
  (entry.bind fun given => given.get? (py "role")).any fun role => !role.truthy

def slotUsable (spec : Option SkillSpec) (entry : Option Fields) : Bool :=
  spec.any fun found =>
    enabledFor entry found.metadata && roleFor std entry found.metadata = py "playbook"

variable {std} {resolver : PlaybookResolver}

theorem effectiveRole_eq (spec : SkillSpec) :
    resolver.effectiveRole std spec =
      roleFor std (resolver.overlay.overlays.get? spec.slug) spec.metadata := by
  rw [effectiveRole, spec.normalize_name, roleFor]

theorem isEnabled_eq (spec : SkillSpec) :
    resolver.isEnabled spec =
      enabledFor (resolver.overlay.overlays.get? spec.slug) spec.metadata := by
  rw [isEnabled, spec.normalize_name, enabledFor]

theorem usable_iff (name : PyStr) :
    resolver.Usable std name ↔
      slotUsable std (resolver.registry.bySlug.get? (normalizeSkillName name))
        (resolver.overlay.overlays.get? (normalizeSkillName name)) = true := by
  rw [Usable, usablePlaybook, Option.isSome_filter]
  unfold SkillRegistry.get
  cases hget : resolver.registry.bySlug.get? (normalizeSkillName name) with
  | none => exact Iff.rfl
  | some spec =>
    have hslug : spec.slug = normalizeSkillName name := SkillRegistry.slug_of_get hget
    rw [Option.any_some, slotUsable, Option.any_some, isEnabled_eq, effectiveRole_eq, hslug]

theorem usable_key {key : PyStr} (hkey : normalizeSkillName key = key) :
    resolver.Usable std key ↔
      slotUsable std (resolver.registry.bySlug.get? key)
        (resolver.overlay.overlays.get? key) = true := by
  rw [usable_iff, hkey]

theorem defaultUsable_iff :
    resolver.DefaultUsable std ↔
      slotUsable std (resolver.registry.bySlug.get? resolver.current)
        (resolver.overlay.overlays.get? resolver.current) = true :=
  usable_iff _

theorem mutedRole_iff :
    resolver.MutedRole ↔
      mutedIn (resolver.overlay.overlays.get? resolver.current) = true := Iff.rfl

theorem get?_override_self (entry metadata : Fields) (key : PyStr) :
    (override entry key metadata).get? key = (entry.get? key).or (metadata.get? key) := by
  unfold override
  cases entry.get? key with
  | none => rfl
  | some value => exact Dict.get?_set_self _ _ _

theorem get?_override_of_ne (entry metadata : Fields) {key other : PyStr} (hne : other ≠ key) :
    (override entry key metadata).get? other = metadata.get? other := by
  unfold override
  cases entry.get? key with
  | none => rfl
  | some value => exact Dict.get?_set_of_ne _ _ hne

theorem role_ne_enabled : py "role" ≠ py "enabled" := by
  decide

/-- A skill that is put back takes over what its entry says; a muted role leaves none. -/
theorem slotUsable_applyOverlay (overlay : SkillOverlayState) (spec : SkillSpec) :
    slotUsable std (some (applyOverlay overlay spec)) (overlay.overlays.get? spec.slug) =
      (slotUsable std (some spec) (overlay.overlays.get? spec.slug) &&
        !mutedIn (overlay.overlays.get? spec.slug)) := by
  rw [applyOverlay, spec.normalize_slug]
  cases overlay.overlays.get? spec.slug with
  | none => simp [mutedIn]
  | some entry =>
    have henabled : enabledFor (some entry)
        (override entry (py "role") (override entry (py "enabled") spec.metadata)) =
          enabledFor (some entry) spec.metadata := by
      rw [enabledFor, enabledFor, Option.bind_some]
      cases hgiven : entry.get? (py "enabled") with
      | some value => rfl
      | none =>
        rw [Option.elim_none, Option.elim_none, enabledByMetadata, enabledByMetadata,
          get?_override_of_ne _ _ role_ne_enabled.symm, get?_override_self, hgiven,
          Option.none_or]
    have hrole : (override entry (py "role")
        (override entry (py "enabled") spec.metadata)).get? (py "role") =
          (entry.get? (py "role")).or (spec.metadata.get? (py "role")) := by
      rw [get?_override_self, get?_override_of_ne _ _ role_ne_enabled]
    rw [slotUsable, slotUsable, Option.any_some, Option.any_some, henabled, Bool.and_assoc]
    apply congrArg
    rw [roleFor, roleFor, hrole, Option.getD_some, mutedIn, Option.bind_some]
    cases hgiven : entry.get? (py "role") with
    | none => rw [Option.none_or, Option.any_none, Bool.not_false, Bool.and_true]
    | some value =>
      by_cases htruthy : value.truthy = true
      · simp [truthyText, htruthy]
      · rw [Bool.not_eq_true] at htruthy
        rw [Option.some_or, truthyText_falsy std htruthy, truthyText_falsy std htruthy,
          truthyText_text std (by decide)]
        have hhelper : py "helper" ≠ py "playbook" := by decide
        simp [htruthy, hhelper]

/-! ## One call -/

section Reapply

variable {name key : PyStr} {value : Json} {spec : SkillSpec}

/-- The resolver after an entry of the overlay is written and the skill put back. -/
abbrev rewritten (std : Stdlib) (resolver : PlaybookResolver) (name key : PyStr) (value : Json)
    (spec : SkillSpec) : PlaybookResolver :=
  (reapply std resolver.registry (writeOverlay resolver.overlay name key value) spec).1

theorem get?_of_get (hget : resolver.registry.get name = some spec) :
    resolver.registry.bySlug.get? spec.slug = some spec := by
  rw [SkillRegistry.slug_of_get hget]
  exact hget

/-- A key that is not in normal form holds no skill. -/
theorem slug_of_registered {found : SkillSpec}
    (hfound : resolver.registry.bySlug.get? key = some found) : found.slug = key :=
  (resolver.registry.keyed _ (Dict.mem_of_get? hfound)).symm

theorem rewritten_of_ne (hkey : key ≠ spec.slug) {field : PyStr} :
    slotUsable std ((rewritten std resolver name field value spec).registry.bySlug.get? key)
        ((rewritten std resolver name field value spec).overlay.overlays.get? key) =
      slotUsable std (resolver.registry.bySlug.get? key)
        ((writeOverlay resolver.overlay name field value).overlays.get? key) := by
  have hslug := hkey
  rw [← slug_applyOverlay (writeOverlay resolver.overlay name field value) spec] at hslug
  exact congrArg (fun found => slotUsable std found _) (SkillRegistry.upsert_get?_of_ne _ hslug)

theorem rewritten_self {field : PyStr} :
    slotUsable std ((rewritten std resolver name field value spec).registry.bySlug.get? spec.slug)
        ((rewritten std resolver name field value spec).overlay.overlays.get? spec.slug) =
      (slotUsable std (some spec)
          ((writeOverlay resolver.overlay name field value).overlays.get? spec.slug) &&
        !mutedIn ((writeOverlay resolver.overlay name field value).overlays.get? spec.slug)) := by
  have hself : (rewritten std resolver name field value spec).registry.bySlug.get? spec.slug =
      some (applyOverlay (writeOverlay resolver.overlay name field value) spec) := by
    have hslug := slug_applyOverlay (writeOverlay resolver.overlay name field value) spec
    calc (rewritten std resolver name field value spec).registry.bySlug.get? spec.slug
        = (rewritten std resolver name field value spec).registry.bySlug.get?
            (applyOverlay (writeOverlay resolver.overlay name field value) spec).slug := by
          rw [hslug]
      _ = _ := SkillRegistry.upsert_get?_self _
  rw [hself]
  exact slotUsable_applyOverlay _ _

theorem writeOverlay_of_ne (overlay : SkillOverlayState) {other : PyStr} (hne : other ≠ name) :
    (writeOverlay overlay name key value).overlays.get? other = overlay.overlays.get? other :=
  Dict.get?_set_of_ne _ _ hne

/-- Where the call writes to another entry, only a muted role can harm the default. -/
theorem rewritten_beside_iff (hget : resolver.registry.get name = some spec)
    (hname : name ≠ resolver.current) :
    (rewritten std resolver name key value spec).DefaultUsable std ↔
      resolver.KeptBeside std spec := by
  rw [defaultUsable_iff, KeptBeside, defaultUsable_iff, mutedRole_iff]
  have hcurrent : (rewritten std resolver name key value spec).current = resolver.current := rfl
  rw [hcurrent]
  by_cases hslug : spec.slug = resolver.current
  · rw [← hslug, rewritten_self, writeOverlay_of_ne _ (hslug ▸ hname.symm), get?_of_get hget,
      Bool.and_eq_true, Bool.not_eq_true', imp_iff_right rfl, Bool.not_eq_true]
  · rw [rewritten_of_ne (Ne.symm hslug), writeOverlay_of_ne _ hname.symm]
    exact (and_iff_left fun hsame => absurd hsame hslug).symm

/-- Where the call writes to the entry of the default, the new entry decides. -/
theorem rewritten_at_iff (hget : resolver.registry.get name = some spec)
    (hname : name = resolver.current) :
    (rewritten std resolver name key value spec).DefaultUsable std ↔
      spec.slug = resolver.current ∧
        slotUsable std (some spec)
            (some (Dict.set ((resolver.overlay.overlays.get? spec.slug).getD []) key value)) ∧
          mutedIn (some (Dict.set ((resolver.overlay.overlays.get? spec.slug).getD [])
            key value)) = false := by
  rw [defaultUsable_iff]
  have hcurrent : (rewritten std resolver name key value spec).current = resolver.current := rfl
  rw [hcurrent]
  by_cases hslug : spec.slug = resolver.current
  · have hentry : (writeOverlay resolver.overlay name key value).overlays.get? spec.slug =
        some (Dict.set ((resolver.overlay.overlays.get? spec.slug).getD []) key value) := by
      rw [hname, ← hslug]
      exact Dict.get?_set_self _ _ _
    rw [← hslug, rewritten_self, hentry, Bool.and_eq_true, Bool.not_eq_true', and_iff_right rfl]
  · apply iff_of_false _ (fun hright => hslug hright.1)
    rw [rewritten_of_ne (Ne.symm hslug)]
    cases hfound : resolver.registry.bySlug.get? resolver.current with
    | none => exact Bool.false_ne_true
    | some found =>
      have hkey := slug_of_registered hfound
      have hsame : spec.slug = resolver.current := by
        calc spec.slug = normalizeSkillName name := SkillRegistry.slug_of_get hget
          _ = normalizeSkillName found.slug := by rw [hname, hkey]
          _ = found.slug := found.normalize_slug
          _ = resolver.current := hkey
      exact absurd hsame hslug

end Reapply

section Calls

variable {name : PyStr}

theorem get?_set_role (entry : Fields) (role : PyStr) :
    (Dict.set entry (py "role") (.str role)).get? (py "enabled") = entry.get? (py "enabled") :=
  Dict.get?_set_of_ne _ _ role_ne_enabled.symm

theorem enabledFor_set_role (entry : Option Fields) (role : PyStr) (metadata : Fields) :
    enabledFor (some (Dict.set (entry.getD []) (py "role") (.str role))) metadata =
      enabledFor entry metadata := by
  rw [enabledFor, enabledFor, Option.bind_some, get?_set_role]
  cases entry <;> rfl

theorem ne_nil_of_mem_roles {role : PyStr} (hrole : role ∈ roles) : role ≠ [] := by
  have hall : ∀ role ∈ roles, role ≠ [] := by decide
  exact hall role hrole

theorem defaultUsable_setRole_iff (role : PyStr) :
    (resolver.setRole std name role).1.DefaultUsable std ↔
      resolver.KeepsDefault std (.setRole name role) := by
  simp only [setRole, KeepsDefault]
  cases hget : resolver.registry.get (normalizeSkillName name) with
  | none => exact Iff.rfl
  | some spec =>
    dsimp only
    by_cases hrole : role ∈ roles
    · rw [if_neg (not_not.mpr hrole), if_neg (not_not.mpr hrole)]
      by_cases hname : normalizeSkillName name = resolver.current
      · rw [if_pos hname, rewritten_at_iff hget hname, isEnabled_eq]
        apply and_congr_right
        intro _
        have hset : Dict.get? (Dict.set ((resolver.overlay.overlays.get? spec.slug).getD [])
            (py "role") (.str role)) (py "role") = some (.str role) :=
          Dict.get?_set_self _ _ _
        have hmuted : mutedIn (some (Dict.set
            ((resolver.overlay.overlays.get? spec.slug).getD []) (py "role") (.str role))) =
              false := by
          rw [mutedIn, Option.bind_some, hset]
          simp [Json.truthy, ne_nil_of_mem_roles hrole]
        rw [and_iff_left hmuted, slotUsable, Option.any_some, Bool.and_eq_true,
          enabledFor_set_role, roleFor, Option.getD_some, hset,
          truthyText_text std (ne_nil_of_mem_roles hrole), decide_eq_true_eq]
      · rw [if_neg hname, rewritten_beside_iff hget hname]
    · rw [if_pos hrole, if_pos hrole]

theorem enabledFor_set_enabled (entry : Fields) (enabled : Bool) (metadata : Fields) :
    enabledFor (some (entry.set (py "enabled") (.bool enabled))) metadata = enabled := by
  rw [enabledFor, Option.bind_some, Dict.get?_set_self]
  rfl

theorem get?_role_set_enabled (entry : Option Fields) (enabled : Bool) :
    (Dict.set (entry.getD []) (py "enabled") (.bool enabled)).get? (py "role") =
      entry.bind fun given => given.get? (py "role") := by
  rw [Dict.get?_set_of_ne _ _ role_ne_enabled]
  cases entry <;> rfl

theorem roleFor_set_enabled (entry : Option Fields) (enabled : Bool) (metadata : Fields) :
    roleFor std (some (Dict.set (entry.getD []) (py "enabled") (.bool enabled))) metadata =
      roleFor std entry metadata := by
  have hrole := get?_role_set_enabled entry enabled
  rw [roleFor, roleFor, Option.getD_some, hrole]
  cases entry <;> rfl

theorem mutedIn_set_enabled (entry : Option Fields) (enabled : Bool) :
    mutedIn (some (Dict.set (entry.getD []) (py "enabled") (.bool enabled))) = mutedIn entry := by
  rw [mutedIn, Option.bind_some, get?_role_set_enabled, mutedIn]

theorem writeEnabled_at_iff {spec : SkillSpec} (hget : resolver.registry.get name = some spec)
    (hname : name = resolver.current) (enabled : Bool) :
    (resolver.writeEnabled std name enabled spec).1.DefaultUsable std ↔
      spec.slug = resolver.current ∧ enabled = true ∧
        resolver.effectiveRole std spec = py "playbook" ∧ ¬resolver.MutedRole := by
  refine (rewritten_at_iff hget hname).trans ?_
  apply and_congr_right
  intro hslug
  rw [mutedIn_set_enabled, slotUsable, Option.any_some, enabledFor_set_enabled,
    roleFor_set_enabled, effectiveRole_eq, mutedRole_iff, ← hslug, Bool.and_eq_true,
    decide_eq_true_eq, and_assoc, Bool.not_eq_true]

@[simp]
theorem normalize_defaultPlaybookName :
    normalizeSkillName defaultPlaybookName = defaultPlaybookName :=
  normalizeSkillName_of_valid (by decide)

/-- Where the fallback is allowed, the builtin playbook is another skill. -/
theorem ne_of_canFallback (hfallback : resolver.canFallbackToBuiltin std name = true) :
    defaultPlaybookName ≠ normalizeSkillName name ∧ defaultPlaybookName ≠ name ∧
      resolver.Usable std defaultPlaybookName := by
  rw [canFallbackToBuiltin, Bool.and_eq_true, decide_eq_true_eq] at hfallback
  refine ⟨hfallback.1.symm, ?_, hfallback.2⟩
  rintro rfl
  exact hfallback.1 normalize_defaultPlaybookName

theorem writeEnabled_raises_iff (spec : SkillSpec) (enabled : Bool) :
    (resolver.writeEnabled std name enabled spec).2.isSome ↔ resolver.registry.Conflicts spec :=
  (SkillRegistry.upsert_raises_iff _ _).trans (conflicts_applyOverlay _ _)

/-- The builtin playbook is untouched by a call that addresses another skill. -/
theorem usable_fallback {spec : SkillSpec} (hget : resolver.registry.get name = some spec)
    (hfallback : resolver.canFallbackToBuiltin std name = true) (enabled : Bool) :
    ((resolver.writeEnabled std name enabled spec).1.withDefault
      defaultPlaybookName).DefaultUsable std := by
  obtain ⟨hkey, hname, husable⟩ := ne_of_canFallback hfallback
  rw [usable_key normalize_defaultPlaybookName] at husable
  apply (usable_key normalize_defaultPlaybookName).mpr
  have hslug : defaultPlaybookName ≠ spec.slug := by
    rwa [SkillRegistry.slug_of_get hget]
  calc slotUsable std _ _
      = slotUsable std (resolver.registry.bySlug.get? defaultPlaybookName)
          ((writeOverlay resolver.overlay name (py "enabled") (.bool enabled)).overlays.get?
            defaultPlaybookName) := rewritten_of_ne hslug
    _ = slotUsable std (resolver.registry.bySlug.get? defaultPlaybookName)
          (resolver.overlay.overlays.get? defaultPlaybookName) := by
        rw [writeOverlay_of_ne _ hname]
    _ = true := husable

theorem defaultUsable_setEnabled_iff (enabled : Bool) :
    (resolver.setEnabled std name enabled).1.DefaultUsable std ↔
      resolver.KeepsDefault std (.setEnabled name enabled) := by
  simp only [setEnabled, KeepsDefault]
  cases hget : resolver.registry.get (normalizeSkillName name) with
  | none => exact Iff.rfl
  | some spec =>
    dsimp only
    by_cases hname : normalizeSkillName name = resolver.current
    · rw [if_pos hname]
      cases enabled with
      | true =>
        refine (writeEnabled_at_iff hget hname true).trans ?_
        rw [if_pos rfl, and_iff_right rfl]
      | false =>
        have hcurrent : (!false && resolver.isCurrentDefault (normalizeSkillName name)) =
            true := decide_eq_true hname
        rw [if_pos hcurrent, if_neg Bool.false_ne_true]
        by_cases hfallback :
            resolver.canFallbackToBuiltin std (normalizeSkillName name) = true
        · rw [if_pos hfallback, if_pos hfallback, ← writeEnabled_raises_iff spec false]
          cases hwritten :
              resolver.writeEnabled std (normalizeSkillName name) false spec with
          | mk after raised =>
            cases raised with
            | some raised =>
              have hat : (resolver.writeEnabled std _ false spec).1.DefaultUsable std ↔
                  _ := writeEnabled_at_iff hget hname false
              rw [hwritten] at hat
              apply iff_of_false _ (by simp)
              exact fun husable => Bool.false_ne_true (hat.mp husable).2.1
            | none =>
              have husable := usable_fallback hget hfallback false
              rw [hwritten] at husable
              exact iff_of_true husable (by simp)
        · rw [if_neg hfallback, if_neg hfallback]
    · rw [if_neg hname]
      have hcurrent : ¬(!enabled && resolver.isCurrentDefault (normalizeSkillName name)) =
          true := by
        simp [isCurrentDefault, show normalizeSkillName name ≠
          normalizeSkillName resolver.overlay.defaultPlaybook from hname]
      rw [if_neg hcurrent]
      exact rewritten_beside_iff hget hname

theorem defaultUsable_setDefault_iff :
    (resolver.setDefault std name).1.DefaultUsable std ↔
      resolver.KeepsDefault std (.setDefault name) := by
  have husable : resolver.Usable std (normalizeSkillName name) ↔
      (((resolver.registry.get (normalizeSkillName name)).filter fun spec =>
        resolver.effectiveRole std spec = py "playbook").any fun spec =>
          resolver.isEnabled spec) = true := by
    rw [Usable, usablePlaybook]
    cases resolver.registry.get (normalizeSkillName name) with
    | none => exact Iff.rfl
    | some spec =>
      rw [Option.filter_some, Option.filter_some]
      by_cases hrole : resolver.effectiveRole std spec = py "playbook"
      · cases henabled : resolver.isEnabled spec <;> simp [hrole, henabled]
      · simp [hrole]
  simp only [KeepsDefault, setDefault, husable]
  cases hfound : (resolver.registry.get (normalizeSkillName name)).filter
      fun spec => resolver.effectiveRole std spec = py "playbook" with
  | none => simp
  | some spec =>
    dsimp only
    rw [Option.any_some]
    by_cases henabled : resolver.isEnabled spec = true
    · rw [if_pos henabled]
      apply iff_of_true _ (Or.inl henabled)
      change resolver.Usable std (normalizeSkillName name)
      rw [husable, hfound]
      exact henabled
    · rw [if_neg henabled, or_iff_right henabled]

theorem defaultUsable_deleteUserSkill_iff :
    (resolver.deleteUserSkill std name).1.DefaultUsable std ↔
      resolver.KeepsDefault std (.deleteUserSkill name) := by
  simp only [KeepsDefault, deleteUserSkill]
  cases hget : resolver.registry.get (normalizeSkillName name) with
  | none => exact Iff.rfl
  | some spec =>
    have hslug := SkillRegistry.slug_of_get hget
    dsimp only
    by_cases huser : (!isUserSource spec.sourceKind) = true
    · rw [if_pos huser, if_pos huser]
    · rw [if_neg huser, if_neg huser]
      by_cases hname : normalizeSkillName name = resolver.current
      · have hcurrent : resolver.isCurrentDefault (normalizeSkillName name) = true :=
          decide_eq_true hname
        rw [if_pos hname, hcurrent, if_pos rfl, Bool.true_and]
        by_cases hfallback :
            resolver.canFallbackToBuiltin std (normalizeSkillName name) = true
        · rw [if_neg (by simp [hfallback])]
          apply iff_of_true _ (Or.inl hfallback)
          obtain ⟨hkey, hother, husable⟩ := ne_of_canFallback hfallback
          rw [usable_key normalize_defaultPlaybookName] at husable
          apply (usable_key normalize_defaultPlaybookName).mpr
          rw [SkillRegistry.unregister_get?_of_ne hkey]
          exact (congrArg (slotUsable std _) (Dict.get?_erase_of_ne _ hother)).trans husable
        · rw [if_pos (by simp [hfallback]), or_iff_right hfallback]
      · have hcurrent : resolver.isCurrentDefault (normalizeSkillName name) = false :=
          decide_eq_false hname
        rw [if_neg hname, hcurrent, Bool.false_and, if_neg Bool.false_ne_true,
          if_neg Bool.false_ne_true, defaultUsable_iff, defaultUsable_iff]
        have hentry : (resolver.overlay.overlays.erase (normalizeSkillName name)).get?
            resolver.current = resolver.overlay.overlays.get? resolver.current :=
          Dict.get?_erase_of_ne _ (Ne.symm hname)
        by_cases hsame : spec.slug = resolver.current
        · apply iff_of_false _ (fun hright => hright.2 hsame)
          have hgone : (resolver.registry.unregister (normalizeSkillName name)).bySlug.get?
              resolver.current = none := by
            rw [← hsame, hslug]
            exact SkillRegistry.unregister_get?_self _
          exact fun husable => Bool.false_ne_true
            ((congrArg (fun found => slotUsable std found _) hgone).symm.trans husable)
        · rw [and_iff_left hsame]
          have hkept : (resolver.registry.unregister (normalizeSkillName name)).bySlug.get?
              resolver.current = resolver.registry.bySlug.get? resolver.current := by
            apply SkillRegistry.unregister_get?_of_ne
            rw [← hslug]
            exact Ne.symm hsame
          rw [← hkept, ← hentry]
          rfl

theorem defaultUsable_perform_iff (call : PlaybookCall) :
    (resolver.perform std call).1.DefaultUsable std ↔ resolver.KeepsDefault std call := by
  cases call with
  | setDefault name => exact defaultUsable_setDefault_iff
  | setRole name role => exact defaultUsable_setRole_iff role
  | setEnabled name enabled => exact defaultUsable_setEnabled_iff enabled
  | deleteUserSkill name => exact defaultUsable_deleteUserSkill_iff

end Calls

/-! ## Failing calls -/

theorem bindActions_valueError {key : PyStr} {actions : List PyStr} {index : Dict PyStr PyStr}
    {raised : SkillFailure}
    (hraised : (SkillRegistry.bindActions std key actions index).2 = some raised) :
    ∃ message, raised = .valueError message := by
  induction actions generalizing index with
  | nil => exact absurd hraised (by simp [SkillRegistry.bindActions])
  | cons action rest ih =>
    rw [SkillRegistry.bindActions] at hraised
    split at hraised
    · exact ⟨_, (Option.some.inj hraised).symm⟩
    · exact ih hraised

/-- Putting a skill back raises no `SkillError`. -/
theorem reapply_valueError {registry : SkillRegistry} {overlay : SkillOverlayState}
    {spec : SkillSpec} {raised : SkillFailure}
    (hraised : (reapply std registry overlay spec).2 = some raised) :
    ∃ message, raised = .valueError message := by
  have hindex : (SkillRegistry.indexBoundTools std (applyOverlay overlay spec)
      (normalizeSkillName (applyOverlay overlay spec).slug)
      (registry.indexWithout (normalizeSkillName (applyOverlay overlay spec).slug))).2 =
        some raised := hraised
  rw [SkillRegistry.indexBoundTools] at hindex
  split at hindex
  · exact absurd hindex (by simp)
  · exact bindActions_valueError hindex

/-- A call that raises `SkillError` changes nothing. -/
theorem perform_unchanged {call : PlaybookCall} {code message : PyStr}
    (hraised : (resolver.perform std call).2 = some (.skillError code message)) :
    (resolver.perform std call).1 = resolver := by
  have hreapply : ∀ {registry : SkillRegistry} {overlay : SkillOverlayState}
      {spec : SkillSpec},
      (reapply std registry overlay spec).2 = some (.skillError code message) → False := by
    intro registry overlay spec hfailed
    obtain ⟨_, hvalue⟩ := reapply_valueError hfailed
    exact SkillFailure.noConfusion hvalue
  revert hraised
  cases call with
  | setDefault name =>
    simp only [perform, setDefault]
    cases (resolver.registry.get (normalizeSkillName name)).filter
        fun spec => resolver.effectiveRole std spec = py "playbook" with
    | none => exact fun _ => rfl
    | some spec =>
      dsimp only
      by_cases henabled : resolver.isEnabled spec = true
      · rw [if_pos henabled]
        exact fun hraised => absurd hraised (by simp)
      · rw [if_neg henabled]
        exact fun _ => rfl
  | setRole name role =>
    simp only [perform, setRole]
    cases resolver.registry.get (normalizeSkillName name) with
    | none => exact fun _ => rfl
    | some spec =>
      dsimp only
      by_cases hrole : role ∉ roles
      · rw [if_pos hrole]
        exact fun _ => rfl
      · rw [if_neg hrole]
        exact fun hraised => (hreapply hraised).elim
  | setEnabled name enabled =>
    simp only [perform, setEnabled]
    cases resolver.registry.get (normalizeSkillName name) with
    | none => exact fun _ => rfl
    | some spec =>
      dsimp only
      split
      · split
        · split
          · rename_i hwritten
            intro hraised
            exact (hreapply ((congrArg Prod.snd hwritten).trans hraised)).elim
          · exact fun hraised => absurd hraised (by simp)
        · exact fun _ => rfl
      · exact fun hraised => (hreapply hraised).elim
  | deleteUserSkill name =>
    simp only [perform, deleteUserSkill]
    cases resolver.registry.get (normalizeSkillName name) with
    | none => exact fun _ => rfl
    | some spec =>
      dsimp only
      by_cases huser : (!isUserSource spec.sourceKind) = true
      · rw [if_pos huser]
        exact fun _ => rfl
      · rw [if_neg huser]
        by_cases hrequired : (resolver.isCurrentDefault (normalizeSkillName name) &&
            !resolver.canFallbackToBuiltin std (normalizeSkillName name)) = true
        · rw [if_pos hrequired]
          exact fun _ => rfl
        · rw [if_neg hrequired]
          exact fun hraised => absurd hraised (by simp)

/-! ## Resolving -/

theorem firstUsable_of_mem {seen names : List PyStr} {name : PyStr} (hname : name ∈ names)
    (husable : resolver.Usable std name) (hseen : ∀ other ∈ seen, ¬resolver.Usable std other) :
    ∃ spec, resolver.firstUsable std seen names = some spec := by
  induction names generalizing seen with
  | nil => exact absurd hname List.not_mem_nil
  | cons first rest ih =>
    rw [firstUsable]
    by_cases hfirst : first ∈ seen
    · rw [if_pos hfirst]
      apply ih _ hseen
      apply (List.mem_cons.mp hname).resolve_left
      rintro rfl
      exact hseen name hfirst husable
    · rw [if_neg hfirst]
      cases hfound : resolver.usablePlaybook std first with
      | some spec => exact ⟨spec, rfl⟩
      | none =>
        have hunusable : ¬resolver.Usable std first := by simp [Usable, hfound]
        rw [Option.none_or]
        apply ih
        · apply (List.mem_cons.mp hname).resolve_left
          rintro rfl
          exact hunusable husable
        · exact List.forall_mem_cons.mpr ⟨hunusable, hseen⟩

/-- A usable default answers every case that prefers nothing usable. -/
theorem serves_iff : resolver.Serves std ↔ resolver.DefaultUsable std := by
  constructor
  · exact Serves.default
  · intro husable
    refine ⟨fun metadata => ?_, husable⟩
    have hfound := husable
    rw [defaultUsable_iff] at hfound
    cases hget : resolver.registry.bySlug.get? resolver.current with
    | none =>
      rw [hget] at hfound
      exact absurd hfound Bool.false_ne_true
    | some spec =>
      have hslug := slug_of_registered hget
      have hnormal : normalizeSkillName resolver.current = resolver.current :=
        hslug ▸ spec.normalize_slug
      have hne : resolver.current ≠ [] := hslug ▸ spec.slug_ne_nil
      have hcurrent : resolver.Usable std resolver.current :=
        (usable_key hnormal).mpr (defaultUsable_iff.mp husable)
      have hmem : resolver.current ∈ resolver.resolveCandidates metadata := by
        have hkept : (some (normalizeSkillName resolver.overlay.defaultPlaybook)).filter
            (fun name => name ≠ []) = some resolver.current :=
          Option.filter_some_pos (decide_eq_true hne)
        rw [resolveCandidates, hkept]
        simp
      have hfirst : ∃ playbook, resolver.firstUsable std []
          (resolver.resolveCandidates metadata) = some playbook :=
        firstUsable_of_mem hmem hcurrent (by simp)
      obtain ⟨playbook, hplaybook⟩ := hfirst
      refine ⟨playbook, ?_⟩
      rw [resolve, hplaybook]

/-! ## Runs -/

/-- The states of a run of calls. -/
def playbookTrace (std : Stdlib) (start : PlaybookResolver) (calls : List PlaybookCall) :
    Trace PlaybookResolver PlaybookCall :=
  history (fun resolver call => (resolver.perform std call).1) start calls

/-- After every call of a run there is a playbook to run, and failing calls change nothing,
exactly when every call keeps the default. -/
theorem always_a_playbook_iff (std : Stdlib) (start : PlaybookResolver) (calls : List PlaybookCall) :
    Follows (ServesAfter std) start (playbookTrace std start calls) ↔
      Guarded (KeepsDefault std) start (playbookTrace std start calls) := by
  apply follows_iff_guarded_of_inv (fun _ => True) (follows_history _ start calls) trivial
  rintro resolver call next _ rfl
  refine ⟨?_, fun _ => trivial⟩
  rw [← defaultUsable_perform_iff, ← serves_iff]
  exact ⟨ServesAfter.serves, fun hserves => ⟨hserves, fun _ _ => perform_unchanged⟩⟩

/-- The builtin `default-log-triage` is an enabled playbook. -/
def BuiltinUsable (std : Stdlib) (resolver : PlaybookResolver) : Prop :=
  ((resolver.usablePlaybook std defaultPlaybookName).any
    fun spec => spec.sourceKind = .builtin) = true

instance (resolver : PlaybookResolver) : Decidable (resolver.BuiltinUsable std) :=
  inferInstanceAs (Decidable (_ = true))

/-- A registry with the builtin playbook alone. -/
def builtinOnly : PlaybookResolver where
  registry :=
    (SkillRegistry.new.upsert asciiStdlib
      { name := defaultPlaybookName
        slug := defaultPlaybookName
        description := []
        skillKind := .flow
        boundTools := []
        sourceKind := .builtin
        metadata := [(py "role", .str (py "playbook"))]
        named := rfl
        valid := by decide }).1
  overlay := { defaultPlaybook := defaultPlaybookName, overlays := [] }

/-- Nothing keeps the default playbook from being made a helper. -/
theorem default_made_helper :
    builtinOnly.BuiltinUsable asciiStdlib ∧
      ¬Follows (ServesAfter asciiStdlib) builtinOnly
        (playbookTrace asciiStdlib builtinOnly
          [.setRole defaultPlaybookName (py "helper")]) := by
  constructor
  · decide
  · intro hserves
    have hdefault := hserves.1.serves.default
    have hunusable : ¬(builtinOnly.perform asciiStdlib
        (.setRole defaultPlaybookName (py "helper"))).1.DefaultUsable asciiStdlib := by
      decide
    exact hunusable hdefault

end PlaybookResolver

end RootSeeker.SkillSystem
