import RootSeeker.Contracts.Common
import RootSeeker.Core.Loops
import RootSeeker.Core.Transition

/-!
# The manifest registry

The registry keeps the manifests under their plugin ids, and an index of the names
that they list.  The manifest is kept before its names are indexed one after another,
each with a check that may fail.
-/

namespace RootSeeker.PluginSystem

open Python Contracts Transition

inductive PluginKind where
  | flow
  | connector
  | channel
  | policy
  deriving DecidableEq

/-- A validated manifest. -/
structure PluginManifest where
  pluginId : RequiredStr
  kind : PluginKind
  capabilities : List PyStr
  mcpTools : List PyStr
  validated : ∀ name ∈ capabilities ++ mcpTools, trim name = name ∧ Encodable name

namespace PluginManifest

/-- The names in the order in which they are indexed, each with whether it is a tool. -/
def entries (manifest : PluginManifest) : List (PyStr × Bool) :=
  manifest.capabilities.map (·, false) ++ manifest.mcpTools.map (·, true)

def names (manifest : PluginManifest) : List PyStr :=
  manifest.capabilities ++ manifest.mcpTools

theorem map_fst_entries (manifest : PluginManifest) :
    manifest.entries.map Prod.fst = manifest.names := by
  rw [entries, List.map_append, List.map_map, List.map_map]
  simp [names, Function.comp_def]

end PluginManifest

structure RegisteredCapability where
  capabilityId : RequiredStr
  pluginId : RequiredStr
  kind : PluginKind
  isMcpTool : Bool

abbrev CapabilityIndex := Dict PyStr RegisteredCapability

structure ManifestRegistry where
  plugins : Dict PyStr PluginManifest
  capabilityIndex : CapabilityIndex

/-- `_index_capability`. -/
def indexCapability (index : CapabilityIndex) (manifest : PluginManifest) (isMcpTool : Bool)
    (capabilityId : PyStr) : Except PyError CapabilityIndex :=
  match index.get? capabilityId with
  | some owner => .error (.valueError (py "Capability or tool '" ++ capabilityId ++
      py "' already registered by " ++ owner.pluginId.val))
  | none => (RequiredStr.validate (trim capabilityId)).map fun id =>
    index.set capabilityId ⟨id, manifest.pluginId, manifest.kind, isMcpTool⟩

/-- The index after some names, up to the first that fails. -/
def indexEntries (manifest : PluginManifest) :
    CapabilityIndex → List (PyStr × Bool) → CapabilityIndex × Except PyError Unit
  | index, [] => (index, .ok ())
  | index, entry :: rest =>
    match indexCapability index manifest entry.2 entry.1 with
    | .error error => (index, .error error)
    | .ok next => indexEntries manifest next rest

namespace ManifestRegistry

def new : ManifestRegistry := ⟨[], []⟩

/-- The registry that a call leaves, and what the call returns. -/
def register (registry : ManifestRegistry) (manifest : PluginManifest) :
    ManifestRegistry × Except PyError Unit :=
  match registry.plugins.get? manifest.pluginId.val with
  | some _ => (registry, .error (.valueError (py "Duplicate plugin_id: " ++ manifest.pluginId.val)))
  | none =>
    let indexed := indexEntries manifest registry.capabilityIndex manifest.entries
    (⟨registry.plugins.set manifest.pluginId.val manifest, indexed.1⟩, indexed.2)

def resolveCapability (registry : ManifestRegistry) (capabilityId : PyStr) :
    Option RegisteredCapability :=
  registry.capabilityIndex.get? capabilityId

/-! ## Indexing -/

section Indexing

variable {manifest : PluginManifest}

variable {index : CapabilityIndex}

theorem indexCapability_of_taken {capabilityId : PyStr} (htaken : capabilityId ∈ index.keys)
    (isMcpTool : Bool) :
    ∃ error, indexCapability index manifest isMcpTool capabilityId = .error error := by
  rw [Dict.mem_keys_iff, Option.isSome_iff_exists] at htaken
  obtain ⟨owner, howner⟩ := htaken
  exact ⟨_, by rw [indexCapability, howner]⟩

theorem indexCapability_of_empty (index : CapabilityIndex) (isMcpTool : Bool) :
    ∃ error, indexCapability index manifest isMcpTool [] = .error error := by
  rw [indexCapability]
  cases index.get? [] with
  | some owner => exact ⟨_, rfl⟩
  | none => exact ⟨.validationError, rfl⟩

theorem indexCapability_of_fresh {capabilityId : PyStr}
    (hvalid : trim capabilityId = capabilityId ∧ Encodable capabilityId)
    (hne : capabilityId ≠ []) (hfresh : capabilityId ∉ index.keys) (isMcpTool : Bool) :
    ∃ entry : RegisteredCapability, entry.pluginId = manifest.pluginId ∧
      indexCapability index manifest isMcpTool capabilityId =
        .ok (index.set capabilityId entry) := by
  have hnone : index.get? capabilityId = none := by
    rw [Dict.mem_keys_iff, Option.not_isSome_iff_eq_none] at hfresh
    exact hfresh
  have hid : RequiredStr.validate (trim capabilityId) = .ok ⟨capabilityId, hne, hvalid.2⟩ :=
    RequiredStr.validate_eq_ok_iff.mpr hvalid.1.symm
  refine ⟨⟨⟨capabilityId, hne, hvalid.2⟩, manifest.pluginId, manifest.kind, isMcpTool⟩, rfl, ?_⟩
  rw [indexCapability, hnone]
  simp only [hid]
  rfl

/-- The names can be indexed. -/
def Indexable (index : CapabilityIndex) (names : List PyStr) : Prop :=
  names.Nodup ∧ ∀ name ∈ names, name ≠ [] ∧ name ∉ index.keys

theorem indexable_cons {name : PyStr} {rest : List PyStr} (entry : RegisteredCapability) :
    Indexable index (name :: rest) ↔
      (name ≠ [] ∧ name ∉ index.keys) ∧ Indexable (index.set name entry) rest := by
  simp only [Indexable, List.nodup_cons, List.forall_mem_cons, Dict.mem_keys_set, not_or]
  constructor
  · intro ⟨⟨hnot, hnodup⟩, hname, hrest⟩
    refine ⟨hname, hnodup, fun other hother => ⟨(hrest other hother).1, ?_, (hrest other hother).2⟩⟩
    rintro rfl
    exact hnot hother
  · intro ⟨hname, hnodup, hrest⟩
    exact ⟨⟨fun hmem => (hrest name hmem).2.1 rfl, hnodup⟩, hname,
      fun other hother => ⟨(hrest other hother).1, (hrest other hother).2.2⟩⟩

/-- Indexing succeeds exactly on names that are new, not empty and listed once. -/
theorem indexEntries_eq_ok_iff {entries : List (PyStr × Bool)} (index : CapabilityIndex)
    (hvalid : ∀ name ∈ entries.map Prod.fst, trim name = name ∧ Encodable name) :
    (indexEntries manifest index entries).2 = .ok () ↔ Indexable index (entries.map Prod.fst) := by
  induction entries generalizing index with
  | nil => exact iff_of_true rfl ⟨List.nodup_nil, fun _ hmem => absurd hmem List.not_mem_nil⟩
  | cons entry rest ih =>
    rw [List.map_cons, List.forall_mem_cons] at hvalid
    rw [List.map_cons, indexEntries]
    by_cases hname : entry.1 ≠ [] ∧ entry.1 ∉ index.keys
    · obtain ⟨registered, _, hok⟩ := @indexCapability_of_fresh manifest _ _
        hvalid.1 hname.1 hname.2 entry.2
      rw [hok, indexable_cons registered, and_iff_right hname]
      exact ih _ hvalid.2
    · have herror : ∃ error, indexCapability index manifest entry.2 entry.1 = .error error := by
        by_cases hempty : entry.1 = []
        · rw [hempty]
          exact indexCapability_of_empty index entry.2
        · exact indexCapability_of_taken (by_contra fun hnot => hname ⟨hempty, hnot⟩) entry.2
      obtain ⟨error, herror⟩ := herror
      rw [herror]
      refine iff_of_false (by simp) fun hindexable => hname ?_
      exact hindexable.2 entry.1 List.mem_cons_self

/-- What was indexed belongs to the plugin, and the other names keep their owner. -/
theorem get?_indexEntries {entries : List (PyStr × Bool)}
    (hvalid : ∀ name ∈ entries.map Prod.fst, trim name = name ∧ Encodable name)
    (hindexable : Indexable index (entries.map Prod.fst)) (name : PyStr) :
    (name ∉ entries.map Prod.fst →
      (indexEntries manifest index entries).1.get? name = index.get? name) ∧
    (name ∈ entries.map Prod.fst → ∃ registered : RegisteredCapability,
      registered.pluginId = manifest.pluginId ∧
        (indexEntries manifest index entries).1.get? name = some registered) := by
  induction entries generalizing index with
  | nil => exact ⟨fun _ => rfl, fun hmem => absurd hmem List.not_mem_nil⟩
  | cons entry rest ih =>
    rw [List.map_cons, List.forall_mem_cons] at hvalid
    rw [List.map_cons] at hindexable ⊢
    have hname := hindexable.2 entry.1 List.mem_cons_self
    obtain ⟨registered, howner, hok⟩ := @indexCapability_of_fresh manifest _ _
      hvalid.1 hname.1 hname.2 entry.2
    have hrest := (indexable_cons registered).mp hindexable
    obtain ⟨hother, hown⟩ := ih hvalid.2 hrest.2
    rw [indexEntries, hok]
    refine ⟨fun hnot => ?_, fun hmem => ?_⟩
    · rw [List.mem_cons, not_or] at hnot
      rw [hother hnot.2, Dict.get?_set_of_ne _ _ hnot.1]
    · by_cases hlater : name ∈ rest.map Prod.fst
      · exact hown hlater
      · obtain rfl := (List.mem_cons.mp hmem).resolve_right hlater
        exact ⟨registered, howner, by rw [hother hlater, Dict.get?_set_self]⟩

end Indexing

/-! ## Runs of registrations -/

/-- The name resolves to an entry of the plugin. -/
def Resolves (registry : ManifestRegistry) (name plugin : PyStr) : Prop :=
  ∃ entry, registry.resolveCapability name = some entry ∧ entry.pluginId.val = plugin

/-- The plugin is registered and lists the name. -/
def Lists (registry : ManifestRegistry) (name plugin : PyStr) : Prop :=
  ∃ manifest, registry.plugins.get? plugin = some manifest ∧ name ∈ manifest.names

/-- The index and the manifests say the same. -/
def Agrees (registry : ManifestRegistry) : Prop :=
  ∀ name plugin, registry.Resolves name plugin ↔ registry.Lists name plugin

/-- The call leaves an index that agrees with the manifests, and nothing if it raises. -/
structure AtomicStep (before : ManifestRegistry) (manifest : PluginManifest)
    (after : ManifestRegistry) : Prop where
  agrees : after.Agrees
  unchanged : ∀ error, (before.register manifest).2 = .error error → after = before

/-- The plugin is registered already, or its names are not empty, listed once and listed by
no registered plugin. -/
def Registrable (registry : ManifestRegistry) (manifest : PluginManifest) : Prop :=
  manifest.pluginId.val ∈ registry.plugins.keys ∨
    manifest.names.Nodup ∧ ∀ name ∈ manifest.names, name ≠ [] ∧
      ∀ plugin, ¬registry.Lists name plugin

/-- The registries after each of the calls. -/
def run (manifests : List PluginManifest) : Trace ManifestRegistry PluginManifest :=
  history (fun registry manifest => (registry.register manifest).1) new manifests

theorem agrees_new : new.Agrees := by
  intro name plugin
  exact iff_of_false (fun ⟨_, hnone, _⟩ => by cases hnone) fun ⟨_, hnone, _⟩ => by cases hnone

section Calls

variable {registry : ManifestRegistry} {manifest : PluginManifest}

theorem Agrees.mem_keys_iff (hagrees : registry.Agrees) (name : PyStr) :
    name ∈ registry.capabilityIndex.keys ↔ ∃ plugin, registry.Lists name plugin := by
  rw [Dict.mem_keys_iff, Option.isSome_iff_exists]
  constructor
  · intro ⟨entry, hentry⟩
    exact ⟨entry.pluginId.val, (hagrees _ _).mp ⟨entry, hentry, rfl⟩⟩
  · intro ⟨plugin, hlists⟩
    obtain ⟨entry, hentry, _⟩ := (hagrees _ _).mpr hlists
    exact ⟨entry, hentry⟩

theorem Agrees.indexable_iff (hagrees : registry.Agrees) :
    Indexable registry.capabilityIndex (manifest.entries.map Prod.fst) ↔
      manifest.names.Nodup ∧ ∀ name ∈ manifest.names, name ≠ [] ∧
        ∀ plugin, ¬registry.Lists name plugin := by
  rw [Indexable, manifest.map_fst_entries]
  simp only [hagrees.mem_keys_iff, not_exists]

theorem validated_entries (manifest : PluginManifest) :
    ∀ name ∈ manifest.entries.map Prod.fst, trim name = name ∧ Encodable name := by
  rw [manifest.map_fst_entries]
  exact manifest.validated

theorem register_of_registered (hmem : manifest.pluginId.val ∈ registry.plugins.keys) :
    ∃ error, registry.register manifest = (registry, .error error) := by
  rw [Dict.mem_keys_iff, Option.isSome_iff_exists] at hmem
  obtain ⟨other, hother⟩ := hmem
  exact ⟨_, by rw [register, hother]⟩

theorem register_of_new (hnew : manifest.pluginId.val ∉ registry.plugins.keys) :
    registry.register manifest =
      (⟨registry.plugins.set manifest.pluginId.val manifest,
        (indexEntries manifest registry.capabilityIndex manifest.entries).1⟩,
        (indexEntries manifest registry.capabilityIndex manifest.entries).2) := by
  rw [Dict.mem_keys_iff, Option.not_isSome_iff_eq_none] at hnew
  rw [register, hnew]

theorem get?_of_new (hnew : manifest.pluginId.val ∉ registry.plugins.keys) :
    registry.plugins.get? manifest.pluginId.val = none := by
  rwa [Dict.mem_keys_iff, Option.not_isSome_iff_eq_none] at hnew

/-- A plugin whose names can be indexed owns them afterwards. -/
theorem agrees_register (hagrees : registry.Agrees)
    (hnew : manifest.pluginId.val ∉ registry.plugins.keys)
    (hindexable : Indexable registry.capabilityIndex (manifest.entries.map Prod.fst)) :
    (registry.register manifest).1.Agrees := by
  intro name plugin
  obtain ⟨hother, hown⟩ := @get?_indexEntries manifest _ _
    (validated_entries manifest) hindexable name
  rw [manifest.map_fst_entries] at hother hown
  rw [register_of_new hnew]
  have hplugins : ∀ other ≠ manifest.pluginId.val,
      (registry.plugins.set manifest.pluginId.val manifest).get? other =
        registry.plugins.get? other :=
    fun other hne => Dict.get?_set_of_ne _ _ hne
  constructor
  · intro ⟨entry, hentry, hplugin⟩
    change (indexEntries manifest registry.capabilityIndex manifest.entries).1.get? name = _
      at hentry
    by_cases hname : name ∈ manifest.names
    · obtain ⟨registered, howner, hregistered⟩ := hown hname
      rw [hregistered] at hentry
      obtain rfl := Option.some.inj hentry
      rw [← hplugin, howner]
      exact ⟨manifest, Dict.get?_set_self _ _ _, hname⟩
    · rw [hother hname] at hentry
      obtain ⟨listed, hlisted, hmem⟩ := (hagrees name plugin).mp ⟨entry, hentry, hplugin⟩
      have hne : plugin ≠ manifest.pluginId.val := by
        rintro rfl
        rw [get?_of_new hnew] at hlisted
        cases hlisted
      exact ⟨listed, (hplugins plugin hne).trans hlisted, hmem⟩
  · intro ⟨listed, hlisted, hmem⟩
    change (registry.plugins.set manifest.pluginId.val manifest).get? plugin = _ at hlisted
    by_cases hplugin : plugin = manifest.pluginId.val
    · rw [hplugin, Dict.get?_set_self] at hlisted
      obtain rfl := Option.some.inj hlisted
      obtain ⟨registered, howner, hregistered⟩ := hown hmem
      exact ⟨registered, hregistered, by rw [howner, hplugin]⟩
    · rw [hplugins plugin hplugin] at hlisted
      obtain ⟨entry, hentry, howner⟩ := (hagrees name plugin).mpr ⟨listed, hlisted, hmem⟩
      have hfree : name ∉ manifest.names := by
        intro hname
        have hfresh := (hindexable.2 name (manifest.map_fst_entries ▸ hname)).2
        exact hfresh ((hagrees.mem_keys_iff name).mpr ⟨plugin, listed, hlisted, hmem⟩)
      exact ⟨entry, (hother hfree).trans hentry, howner⟩

/-- From a registry that agrees, the registrable manifests are those whose call is atomic. -/
theorem atomicStep_iff (hagrees : registry.Agrees) :
    AtomicStep registry manifest (registry.register manifest).1 ↔
      registry.Registrable manifest := by
  by_cases hmem : manifest.pluginId.val ∈ registry.plugins.keys
  · obtain ⟨error, hsame⟩ := register_of_registered hmem
    rw [hsame]
    exact iff_of_true ⟨hagrees, fun _ _ => rfl⟩ (Or.inl hmem)
  · rw [Registrable, or_iff_right hmem, ← hagrees.indexable_iff,
      ← indexEntries_eq_ok_iff _ (validated_entries manifest)]
    have hresult : (registry.register manifest).2 =
        (indexEntries manifest registry.capabilityIndex manifest.entries).2 := by
      rw [register_of_new hmem]
    constructor
    · intro hstep
      cases hindexed : (indexEntries manifest registry.capabilityIndex manifest.entries).2 with
      | ok result => rfl
      | error error =>
        -- The manifest is kept although the call raises.
        have hsame := hstep.unchanged error (hresult.trans hindexed)
        have hkept : (registry.register manifest).1.plugins.get? manifest.pluginId.val =
            some manifest := by
          rw [register_of_new hmem]
          exact Dict.get?_set_self _ _ _
        rw [hsame, get?_of_new hmem] at hkept
        cases hkept
    · intro hok
      have hindexable := (indexEntries_eq_ok_iff _ (validated_entries manifest)).mp hok
      refine ⟨agrees_register hagrees hmem hindexable, fun error herror => ?_⟩
      rw [hresult, hok] at herror
      cases herror

end Calls

/-- Every call of a run is atomic exactly when every call is made with a manifest that is
registrable at that moment. -/
theorem registrations_atomic_iff (manifests : List PluginManifest) :
    Follows AtomicStep new (run manifests) ↔ Guarded Registrable new (run manifests) := by
  apply follows_iff_guarded_of_inv Agrees (follows_history _ _ _) agrees_new
  intro registry manifest next hagrees hnext
  rw [hnext]
  exact ⟨atomicStep_iff hagrees, fun hstep => hstep.agrees⟩

/-- A manifest without tools. -/
def connector (pluginId : String) (hid : py pluginId ≠ []) (capabilities : List PyStr)
    (hvalid : ∀ name ∈ capabilities ++ [], trim name = name ∧ Encodable name) : PluginManifest where
  pluginId := RequiredStr.ofLiteral pluginId hid
  kind := .connector
  capabilities := capabilities
  mcpTools := []
  validated := hvalid

def logPlugin : PluginManifest :=
  connector "logs" Fixture.logs [py "log.search"] (by decide)

/-- Its second name is taken. -/
def tracePlugin : PluginManifest :=
  connector "traces" (by decide) [py "trace.get", py "log.search"] (by decide)

/-- The second call raises and leaves its plugin behind. -/
theorem refused_plugin_is_registered : ¬Follows AtomicStep new (run [logPlugin, tracePlugin]) := by
  intro hatomic
  have hsame := hatomic.2.1.unchanged _ (rfl : (register _ tracePlugin).2 = .error _)
  have hplugins := congrArg (fun registry => registry.plugins.keys) hsame
  exact absurd hplugins (by decide)

/-! ## What the names resolve to -/

section Resolution

variable {manifest : PluginManifest} {index next : CapabilityIndex} {name : PyStr}
  {entry : RegisteredCapability}

theorem indexCapability_eq_ok {isMcpTool : Bool}
    (hok : indexCapability index manifest isMcpTool name = .ok next) :
    ∃ registered : RegisteredCapability, registered.pluginId = manifest.pluginId ∧
      index.get? name = none ∧ next = index.set name registered := by
  rw [indexCapability] at hok
  split at hok
  · cases hok
  · next hnone =>
    obtain ⟨id, _, rfl⟩ := Loops.exists_of_map_eq_ok hok
    exact ⟨_, rfl, hnone, rfl⟩

/-- A name that is taken keeps its entry, wherever the indexing stops. -/
theorem get?_indexEntries_of_some {entries : List (PyStr × Bool)}
    (hentry : index.get? name = some entry) :
    (indexEntries manifest index entries).1.get? name = some entry := by
  induction entries generalizing index with
  | nil => exact hentry
  | cons head rest ih =>
    rw [indexEntries]
    split
    · exact hentry
    · next hok =>
      obtain ⟨registered, _, hnone, rfl⟩ := indexCapability_eq_ok hok
      have hne : name ≠ head.1 := by
        rintro rfl
        rw [hnone] at hentry
        cases hentry
      exact ih (by rw [Dict.get?_set_of_ne _ _ hne, hentry])

theorem origin_of_indexEntries {entries : List (PyStr × Bool)}
    (hentry : (indexEntries manifest index entries).1.get? name = some entry) :
    index.get? name = some entry ∨
      name ∈ entries.map Prod.fst ∧ entry.pluginId = manifest.pluginId := by
  induction entries generalizing index with
  | nil => exact .inl hentry
  | cons head rest ih =>
    rw [indexEntries] at hentry
    split at hentry
    · exact .inl hentry
    · next hok =>
      obtain ⟨registered, howner, _, rfl⟩ := indexCapability_eq_ok hok
      obtain hset | ⟨hmem, hown⟩ := ih hentry
      · by_cases hname : name = head.1
        · subst hname
          rw [Dict.get?_set_self] at hset
          exact .inr ⟨List.mem_cons_self, Option.some.inj hset ▸ howner⟩
        · rw [Dict.get?_set_of_ne _ _ hname] at hset
          exact .inl hset
      · exact .inr ⟨List.mem_cons_of_mem _ hmem, hown⟩

end Resolution

/-- Every name resolves to a registered plugin that lists it. -/
def Owned (registry : ManifestRegistry) : Prop :=
  ∀ name plugin, registry.Resolves name plugin → registry.Lists name plugin

/-- A name that resolved keeps its entry. -/
def Keeps (before after : ManifestRegistry) : Prop :=
  ∀ name entry, before.resolveCapability name = some entry →
    after.resolveCapability name = some entry

theorem keeps_register (registry : ManifestRegistry) (manifest : PluginManifest) :
    Keeps registry (registry.register manifest).1 := by
  intro name entry hentry
  by_cases hmem : manifest.pluginId.val ∈ registry.plugins.keys
  · obtain ⟨_, hregister⟩ := register_of_registered hmem
    rwa [hregister]
  · rw [register_of_new hmem]
    exact get?_indexEntries_of_some hentry

theorem Owned.register {registry : ManifestRegistry} (howned : registry.Owned)
    (manifest : PluginManifest) : (registry.register manifest).1.Owned := by
  by_cases hmem : manifest.pluginId.val ∈ registry.plugins.keys
  · obtain ⟨_, hregister⟩ := register_of_registered hmem
    rwa [hregister]
  · rw [register_of_new hmem]
    rintro name plugin ⟨entry, hentry, rfl⟩
    rcases origin_of_indexEntries hentry with hold | ⟨hlisted, hown⟩
    · obtain ⟨other, hother, hname⟩ := howned name _ ⟨entry, hold, rfl⟩
      refine ⟨other, ?_, hname⟩
      rw [Dict.get?_set_of_ne, hother]
      intro hsame
      rw [hsame, get?_of_new hmem] at hother
      cases hother
    · rw [manifest.map_fst_entries] at hlisted
      exact ⟨manifest, by rw [hown, Dict.get?_set_self], hlisted⟩

/-- Through accepted and refused registrations alike, a name that resolves keeps its entry, and
the plugin of the entry is registered and lists the name. -/
theorem resolution_stays (manifests : List PluginManifest) :
    Follows (fun before _ after => Keeps before after ∧ after.Owned) new (run manifests) := by
  have hall : ∀ start : ManifestRegistry, Guarded (fun _ _ => True) start (run manifests) :=
    fun start => guarded_of_forall (fun _ _ => trivial) start _
  refine follows_of_guarded Owned (follows_history _ _ _) (hall _) ?_ ?_
  · exact fun name plugin hresolves => (agrees_new name plugin).mp hresolves
  · rintro registry manifest next howned - rfl
    exact ⟨⟨keeps_register registry manifest, howned.register manifest⟩, howned.register manifest⟩

end ManifestRegistry

end RootSeeker.PluginSystem
