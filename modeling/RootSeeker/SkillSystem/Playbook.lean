import RootSeeker.Core.Transition
import RootSeeker.SkillSystem.Registry

/-!
# Playbooks

The resolver picks the playbook for a case: the one the request prefers, the
default of the overlay, or the builtin one.  Its other operations change the
registry and the overlay, and are to leave a default that can be used.
-/

namespace RootSeeker.SkillSystem

open Python Transition

def defaultPlaybookName : PyStr := py "default-log-triage"

structure PlaybookResolver where
  registry : SkillRegistry
  overlay : SkillOverlayState

/-- The calls that change the registry or the overlay. -/
inductive PlaybookCall where
  | setDefault (name : PyStr)
  | setRole (name role : PyStr)
  | setEnabled (name : PyStr) (enabled : Bool)
  | deleteUserSkill (name : PyStr)

def isUserSource : SkillSourceKind → Bool
  | .custom => true
  | .external => true
  | _ => false

def roles : List PyStr :=
  [py "playbook", py "helper"]

namespace PlaybookResolver

variable (std : Stdlib)

def effectiveRole (resolver : PlaybookResolver) (spec : SkillSpec) : PyStr :=
  let entry := (resolver.overlay.overlays.get? (normalizeSkillName spec.name)).getD []
  truthyText std [entry.get? (py "role"), spec.metadata.get? (py "role"), some (.str (py "helper"))]

/-- `metadata.get("enabled", True) is not False`. -/
def enabledByMetadata (metadata : Fields) : Bool :=
  match metadata.get? (py "enabled") with
  | some (.bool false) => false
  | _ => true

def isEnabled (resolver : PlaybookResolver) (spec : SkillSpec) : Bool :=
  let given := (resolver.overlay.overlays.get? (normalizeSkillName spec.name)).bind
    fun entry => entry.get? (py "enabled")
  given.elim (enabledByMetadata spec.metadata) Json.truthy

def usablePlaybook (resolver : PlaybookResolver) (name : PyStr) : Option SkillSpec :=
  (resolver.registry.get name).filter fun spec =>
    resolver.isEnabled spec && resolver.effectiveRole std spec = py "playbook"

/-! ## Resolving -/

/-- `isinstance(value, str) and value.strip()`, then the normalised name. -/
def namedBy : Option Json → Option PyStr
  | some (.str text) => if strip text = [] then none else some (normalizeSkillName text)
  | _ => none

/-- `metadata.get(first) or metadata.get(second)`. -/
def preferredValue (metadata : Fields) : Option Json :=
  ((metadata.get? (py "preferred_skill")).filter Json.truthy).or
    (metadata.get? (py "skill_slug"))

def firstSelected (metadata : Fields) : Option Json :=
  match metadata.get? (py "selected_skills") with
  | some (.arr (first :: _)) => some first
  | _ => none

def preferredName (metadata : Fields) : Option PyStr :=
  (namedBy (preferredValue metadata)).or (namedBy (firstSelected metadata))

def resolveCandidates (resolver : PlaybookResolver) (metadata : Fields) : List PyStr :=
  ((preferredName metadata).filter fun name => name ≠ []).toList ++
    ((some (normalizeSkillName resolver.overlay.defaultPlaybook)).filter
      fun name => name ≠ []).toList ++ [defaultPlaybookName]

/-- The loop of `resolve`; names that were seen are skipped. -/
def firstUsable (resolver : PlaybookResolver) : List PyStr → List PyStr → Option SkillSpec
  | _, [] => none
  | seen, name :: rest =>
    if name ∈ seen then firstUsable resolver seen rest
    else (resolver.usablePlaybook std name).or (firstUsable resolver (name :: seen) rest)

/-- `resolve` for a request with the given metadata. -/
def resolve (resolver : PlaybookResolver) (metadata : Fields) : Except SkillFailure SkillSpec :=
  match resolver.firstUsable std [] (resolver.resolveCandidates metadata) with
  | some spec => .ok spec
  | none =>
    .error (.skillError (py "SKILL_DEFAULT_UNAVAILABLE") (py "no enabled playbook available"))

/-! ## Changing -/

/-- `overlays.setdefault(name, {})[key] = value`. -/
def writeOverlay (overlay : SkillOverlayState) (name key : PyStr) (value : Json) :
    SkillOverlayState :=
  { overlay with
    overlays := overlay.overlays.set name
      (Dict.set ((overlay.overlays.get? name).getD []) key value) }

def isCurrentDefault (resolver : PlaybookResolver) (name : PyStr) : Bool :=
  name = normalizeSkillName resolver.overlay.defaultPlaybook

def canFallbackToBuiltin (resolver : PlaybookResolver) (disabledName : PyStr) : Bool :=
  normalizeSkillName disabledName ≠ defaultPlaybookName &&
    (resolver.usablePlaybook std defaultPlaybookName).isSome

def defaultRequired : SkillFailure :=
  .skillError (py "SKILL_DEFAULT_REQUIRED")
    (py "cannot remove the current default playbook without an enabled builtin fallback")

/-- Put the skill back into the registry with the overlay applied. -/
def reapply (registry : SkillRegistry) (overlay : SkillOverlayState) (spec : SkillSpec) :
    PlaybookResolver × Option SkillFailure :=
  let (registry, raised) := registry.upsert std (applyOverlay overlay spec)
  ({ registry := registry, overlay := overlay }, raised)

def withDefault (resolver : PlaybookResolver) (name : PyStr) : PlaybookResolver :=
  { resolver with overlay := { resolver.overlay with defaultPlaybook := name } }

def setRole (resolver : PlaybookResolver) (name role : PyStr) :
    PlaybookResolver × Option SkillFailure :=
  let name := normalizeSkillName name
  match resolver.registry.get name with
  | none =>
    (resolver, some (.skillError (py "SKILL_DEFAULT_UNAVAILABLE")
      (py "skill not found: " ++ name)))
  | some spec =>
    if role ∉ roles then
      (resolver, some (.skillError (py "SKILL_INVALID_PACKAGE") (py "invalid role: " ++ role)))
    else
      reapply std resolver.registry
        (writeOverlay resolver.overlay name (py "role") (.str role)) spec

def setDefault (resolver : PlaybookResolver) (name : PyStr) :
    PlaybookResolver × Option SkillFailure :=
  let name := normalizeSkillName name
  match (resolver.registry.get name).filter
      fun spec => resolver.effectiveRole std spec = py "playbook" with
  | none =>
    (resolver, some (.skillError (py "SKILL_NOT_PLAYBOOK")
      (py "skill is not a playbook: " ++ name)))
  | some spec =>
    if resolver.isEnabled spec then (resolver.withDefault name, none)
    else
      (resolver, some (.skillError (py "SKILL_DEFAULT_UNAVAILABLE")
        (py "playbook is disabled: " ++ name)))

/-- `_write_enabled` for the registered skill. -/
def writeEnabled (resolver : PlaybookResolver) (name : PyStr) (enabled : Bool)
    (spec : SkillSpec) : PlaybookResolver × Option SkillFailure :=
  reapply std resolver.registry
    (writeOverlay resolver.overlay name (py "enabled") (.bool enabled)) spec

def setEnabled (resolver : PlaybookResolver) (name : PyStr) (enabled : Bool) :
    PlaybookResolver × Option SkillFailure :=
  let name := normalizeSkillName name
  match resolver.registry.get name with
  | none =>
    (resolver, some (.skillError (py "SKILL_DEFAULT_UNAVAILABLE")
      (py "skill not found: " ++ name)))
  | some spec =>
    if !enabled && resolver.isCurrentDefault name then
      if resolver.canFallbackToBuiltin std name then
        match resolver.writeEnabled std name false spec with
        | (after, some raised) => (after, some raised)
        | (after, none) => (after.withDefault defaultPlaybookName, none)
      else (resolver, some defaultRequired)
    else resolver.writeEnabled std name enabled spec

def deleteUserSkill (resolver : PlaybookResolver) (name : PyStr) :
    PlaybookResolver × Option SkillFailure :=
  let name := normalizeSkillName name
  match resolver.registry.get name with
  | none => (resolver, none)
  | some spec =>
    if !isUserSource spec.sourceKind then
      (resolver, some (.skillError (py "SKILL_BUILTIN_PROTECTED")
        (py "cannot delete builtin skill: " ++ name)))
    else if resolver.isCurrentDefault name && !resolver.canFallbackToBuiltin std name then
      (resolver, some defaultRequired)
    else
      let overlay :=
        if resolver.isCurrentDefault name then
          { resolver.overlay with defaultPlaybook := defaultPlaybookName }
        else resolver.overlay
      ({ registry := resolver.registry.unregister name
         overlay := { overlay with overlays := overlay.overlays.erase name } }, none)

def perform (resolver : PlaybookResolver) : PlaybookCall → PlaybookResolver × Option SkillFailure
  | .setDefault name => resolver.setDefault std name
  | .setRole name role => resolver.setRole std name role
  | .setEnabled name enabled => resolver.setEnabled std name enabled
  | .deleteUserSkill name => resolver.deleteUserSkill std name

end PlaybookResolver

end RootSeeker.SkillSystem
