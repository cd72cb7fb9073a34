import RootSeeker.Core.Loops
import RootSeeker.Core.Transition
import RootSeeker.McpPlane.ExternalTools

/-!
# When the external tools are the live ones

A reload unregisters the tools of the servers that it is about to load and of
no others.  As long as no registration is refused, the external tools are those
of the loaded servers after every reload exactly when every server with tools
in the registry is offered again in each reload.
-/

namespace RootSeeker.McpPlane

open Python Contracts Transition Loops

variable (std : Stdlib)

/-- The server is enabled, discovered and of the supported transport, so that the reload
sets out to register it. -/
structure Offered (server : StoredServer) : Prop where
  identified : server.serverId std ≠ []
  enabled : server.enabled = true
  ready : server.discoveryStatus std = py "ready"
  tools : server.tools ≠ []
  stdio : server.transport std = py "stdio"

/-- Its session starts as well. -/
structure Starts (server : StoredServer) : Prop extends Offered std server where
  started : server.start = .ok ()

def namedTools (server : StoredServer) : List (PyStr × Fields) :=
  server.tools.filterMap (toolOf std)

/-- The servers that a reload reports as loaded. -/
def loadedServers (reports : List (StoredServer × ReloadOutcome)) : List StoredServer :=
  reports.filterMap fun report =>
    match report.2 with
    | .loaded _ => some report.1
    | _ => none

/-- The external tools of the registry are those of the loaded servers, and a call of one
reaches its own server under the original name. -/
structure LiveTools (reports : List (StoredServer × ReloadOutcome)) (state : ExternalTools) :
    Prop where
  exact : ∀ name, (∃ spec, state.registry.getSpec name = some spec ∧ spec.scope = .external) ↔
    ∃ server ∈ loadedServers reports, ∃ tool ∈ namedTools std server,
      name = buildExternalToolName (server.serverId std) tool.1
  routed : ∀ server ∈ loadedServers reports, ∀ tool ∈ namedTools std server, ∃ spec,
    state.registry.getSpec (buildExternalToolName (server.serverId std) tool.1) = some spec ∧
      spec.scope = .external ∧ spec.serverName.val = server.serverId std ∧
        routeOf state spec = some (server.fields, tool.1)

/-- No registration of a tool is refused in a reload of the store. -/
structure Unclashed (registry : ToolRegistry) (store : List StoredServer) : Prop where
  ids : store.Pairwise fun left right =>
    Offered std left → Offered std right → left.serverId std ≠ right.serverId std
  built : ∀ server ∈ store, Starts std server → ∀ tool ∈ namedTools std server,
    ∃ spec, buildSpec std (server.serverId std) tool = .ok spec
  distinct : ∀ server ∈ store, Starts std server →
    ((namedTools std server).map Prod.fst).Nodup
  free : ∀ server ∈ store, Starts std server → ∀ tool ∈ namedTools std server, ∀ spec,
    registry.getSpec (buildExternalToolName (server.serverId std) tool.1) = some spec →
      ToolRegistry.ownedBy (server.serverId std) spec = true
  apart : store.Pairwise fun left right => Starts std left → Starts std right →
    ∀ tool ∈ namedTools std left, ∀ other ∈ namedTools std right,
      buildExternalToolName (left.serverId std) tool.1 ≠
        buildExternalToolName (right.serverId std) other.1

/-- Every server with external tools in the registry is offered again. -/
def AllOffered (registry : ToolRegistry) (store : List StoredServer) : Prop :=
  ∀ name spec, registry.getSpec name = some spec → spec.scope = .external →
    ∃ server ∈ store, Offered std server ∧ server.serverId std = spec.serverName.val

variable {std}

/-! ## Registering the tools of one server -/

theorem buildExternalToolName_injective (serverId : PyStr) :
    Function.Injective (buildExternalToolName serverId) := by
  intro left right heq
  exact List.append_cancel_left heq

variable {tool : PyStr × Fields} {spec : ToolSpec}

theorem buildSpec_eq_ok {serverId : PyStr} (hbuild : buildSpec std serverId tool = .ok spec) :
    spec.name.val = buildExternalToolName serverId tool.1 ∧
      spec.serverName.val = serverId ∧ spec.scope = .external := by
  rw [buildSpec] at hbuild
  obtain ⟨name, hname, hbuild⟩ := exists_of_bind_eq_ok hbuild
  obtain ⟨_, _, hbuild⟩ := exists_of_bind_eq_ok hbuild
  obtain ⟨_, _, hbuild⟩ := exists_of_bind_eq_ok hbuild
  obtain ⟨serverName, hserver, hbuild⟩ := exists_of_bind_eq_ok hbuild
  obtain rfl := Except.ok.inj hbuild
  exact ⟨RequiredStr.validate_eq_ok_iff.mp hname, RequiredStr.validate_eq_ok_iff.mp hserver, rfl⟩

/-- What the registration of tools leaves behind when none is refused. -/
structure ToolsRegistered (std : Stdlib) (serverId : PyStr) (tools : List (PyStr × Fields))
    (before after : ExternalTools) : Prop where
  servers : after.servers = before.servers
  client : after.client = before.client
  registered : ∀ tool ∈ tools, ∃ spec, buildSpec std serverId tool = .ok spec ∧
    after.registry.getSpec (buildExternalToolName serverId tool.1) = some spec ∧
      after.registeredToolNames.get? (buildExternalToolName serverId tool.1) = some tool.1
  others : ∀ name, (∀ tool ∈ tools, name ≠ buildExternalToolName serverId tool.1) →
    after.registry.getSpec name = before.registry.getSpec name ∧
      after.registeredToolNames.get? name = before.registeredToolNames.get? name

theorem registerTools_registers (serverId : PyStr) (items : List Json) (state : ExternalTools)
    (hbuilt : ∀ tool ∈ items.filterMap (toolOf std),
      ∃ spec, buildSpec std serverId tool = .ok spec)
    (hdistinct : ((items.filterMap (toolOf std)).map Prod.fst).Nodup)
    (hfresh : ∀ tool ∈ items.filterMap (toolOf std),
      state.registry.getSpec (buildExternalToolName serverId tool.1) = none) :
    (registerTools std serverId items state).1 = .ok () ∧
      ToolsRegistered std serverId (items.filterMap (toolOf std)) state
        (registerTools std serverId items state).2 := by
  induction items generalizing state with
  | nil => exact ⟨rfl, rfl, rfl, by simp, fun name _ => ⟨rfl, rfl⟩⟩
  | cons item rest ih =>
    rcases htool : toolOf std item with _ | tool
    · rw [List.filterMap_cons_none htool] at hbuilt hdistinct hfresh ⊢
      rw [registerTools, htool]
      exact ih state hbuilt hdistinct hfresh
    · rw [List.filterMap_cons_some htool] at hbuilt hdistinct hfresh ⊢
      rw [List.map_cons, List.nodup_cons] at hdistinct
      obtain ⟨spec, hspec⟩ := hbuilt tool List.mem_cons_self
      obtain ⟨hname, _, _⟩ := buildSpec_eq_ok hspec
      have hfree : state.registry.getSpec spec.name.val = none := by
        rw [hname]
        exact hfresh tool List.mem_cons_self
      obtain ⟨registry, hregistry, hself, hothers⟩ := state.registry.registerExternal_of_fresh hfree
      have hne : ∀ other ∈ rest.filterMap (toolOf std),
          buildExternalToolName serverId other.1 ≠ spec.name.val := by
        intro other hother heq
        rw [hname] at heq
        apply hdistinct.1
        rw [← buildExternalToolName_injective serverId heq]
        exact List.mem_map_of_mem hother
      have hnext : registerTools std serverId (item :: rest) state =
          registerTools std serverId rest
            { state with
              registry := registry
              registeredToolNames := state.registeredToolNames.set spec.name.val tool.1 } := by
        rw [registerTools, htool]
        simp only [hspec, hregistry]
      obtain ⟨hok, hservers, hclient, hregistered, hkept⟩ := ih
        { state with
          registry := registry
          registeredToolNames := state.registeredToolNames.set spec.name.val tool.1 }
        (fun other hother => hbuilt other (List.mem_cons_of_mem _ hother)) hdistinct.2 (by
          intro other hother
          dsimp only
          rw [hothers _ (hne other hother)]
          exact hfresh other (List.mem_cons_of_mem _ hother))
      rw [hnext]
      refine ⟨hok, hservers, hclient, ?_, ?_⟩
      · intro other hother
        rcases List.mem_cons.mp hother with rfl | hrest
        · obtain ⟨hspecKept, hnameKept⟩ := hkept spec.name.val (by
            intro later hlater heq
            exact hne later hlater heq.symm)
          refine ⟨spec, hspec, ?_, ?_⟩
          · rw [← hname, hspecKept]
            exact hself
          · rw [← hname, hnameKept]
            exact Dict.get?_set_self _ _ _
        · exact hregistered other hrest
      · intro name hout
        obtain ⟨hspecKept, hnameKept⟩ := hkept name
          (fun later hlater => hout later (List.mem_cons_of_mem _ hlater))
        have hdifferent : name ≠ spec.name.val := by
          rw [hname]
          exact hout tool List.mem_cons_self
        refine ⟨hspecKept.trans (hothers name hdifferent), hnameKept.trans ?_⟩
        exact Dict.get?_set_of_ne _ _ hdifferent

/-! ## One turn -/

section Turn

variable {errorText : PyError → PyStr} {server : StoredServer} {state : ExternalTools}

/-- A server that is not offered leaves the stores alone and is not reported as loaded. -/
theorem reloadServer_of_not_offered (hnot : ¬Offered std server) :
    (reloadServer std errorText server state).2 = state ∧
      ∀ count, (reloadServer std errorText server state).1 ≠ some (.loaded count) := by
  simp only [reloadServer]
  split
  · exact ⟨rfl, fun _ => by simp⟩
  next hid =>
    split
    · exact ⟨rfl, fun _ => by simp⟩
    next henabled =>
      split
      · exact ⟨rfl, fun _ => by simp⟩
      split
      · exact ⟨rfl, fun _ => by simp⟩
      split
      · exact ⟨rfl, fun _ => by simp⟩
      next hready =>
        split
        · exact ⟨rfl, fun _ => by simp⟩
        next htools =>
          have htransport : server.transport std ≠ py "stdio" := by
            intro hstdio
            exact hnot ⟨hid, by simpa using henabled, not_not.mp hready, htools, hstdio⟩
          simp only [registerServer, if_pos htransport]
          exact ⟨trivial, fun _ => by simp⟩

/-- The checks pass a server that is offered on to its registration. -/
theorem reloadServer_of_offered (hoffered : Offered std server) :
    reloadServer std errorText server state =
      match (registerServer std server state).1 with
      | .error e => (some (.failed (errorText e)), (registerServer std server state).2)
      | .ok () =>
        (some (.loaded server.tools.length), (registerServer std server state).2) := by
  have hdiscovering : py "ready" ≠ py "discovering" := by decide
  have hfailed : py "ready" ≠ py "failed" := by decide
  cases hresult : (registerServer std server state).1 with
  | error e | ok =>
    simp only [reloadServer, if_neg hoffered.identified, hoffered.enabled, hoffered.ready,
      if_neg hdiscovering, if_neg hfailed, if_neg hoffered.tools, Bool.not_true,
      Bool.false_eq_true, if_false, ne_eq, not_true_eq_false, hresult]

/-- A server whose session does not start loses its tools. -/
theorem reloadServer_of_not_started (hoffered : Offered std server) (hstart : server.start ≠ .ok ()) :
    (reloadServer std errorText server state).2 =
        { state with
          registry := state.registry.unregisterByServer (server.serverId std) } ∧
      ∀ count, (reloadServer std errorText server state).1 ≠ some (.loaded count) := by
  rcases hresult : server.start with e | ⟨⟩
  · have hregister : registerServer std server state =
        (.error e, { state with
          registry := state.registry.unregisterByServer (server.serverId std) }) := by
      simp only [registerServer, hoffered.stdio, ne_eq, not_true_eq_false, if_false, hresult]
    rw [reloadServer_of_offered hoffered, hregister]
    exact ⟨rfl, fun _ => by simp⟩
  · exact absurd hresult hstart

/-- A server that starts and meets no refusal is loaded. -/
theorem reloadServer_of_starts (hstarts : Starts std server)
    (hbuilt : ∀ tool ∈ namedTools std server,
      ∃ spec, buildSpec std (server.serverId std) tool = .ok spec)
    (hdistinct : ((namedTools std server).map Prod.fst).Nodup)
    (hfresh : ∀ tool ∈ namedTools std server,
      (state.registry.unregisterByServer (server.serverId std)).getSpec
        (buildExternalToolName (server.serverId std) tool.1) = none) :
    ∃ registered,
      reloadServer std errorText server state =
        (some (.loaded server.tools.length),
          { registered with
            client := ⟨server.serverId std :: registered.client.servers⟩ }) ∧
      ToolsRegistered std (server.serverId std) (namedTools std server)
        { state with
          registry := state.registry.unregisterByServer (server.serverId std)
          servers := state.servers.set (server.serverId std) server.fields }
        registered := by
  obtain ⟨hok, hregistered⟩ := registerTools_registers (server.serverId std) server.tools
    { state with
      registry := state.registry.unregisterByServer (server.serverId std)
      servers := state.servers.set (server.serverId std) server.fields }
    hbuilt hdistinct hfresh
  refine ⟨_, ?_, hregistered⟩
  rw [reloadServer_of_offered hstarts.toOffered]
  simp only [registerServer, hstarts.stdio, ne_eq, not_true_eq_false, if_false, hstarts.started,
    hok]

end Turn

/-! ## The loop -/

/-- The stores after the servers in `done`, against the registry at the start. -/
structure Progress (std : Stdlib) (start : ToolRegistry) (done : List StoredServer)
    (state : ExternalTools) : Prop where
  fresh : ∀ server ∈ done, Starts std server → ∀ tool ∈ namedTools std server,
    ∃ spec, buildSpec std (server.serverId std) tool = .ok spec ∧
      state.registry.getSpec (buildExternalToolName (server.serverId std) tool.1) = some spec ∧
        state.registeredToolNames.get? (buildExternalToolName (server.serverId std) tool.1) =
          some tool.1
  tables : ∀ server ∈ done, Starts std server →
    state.servers.get? (server.serverId std) = some server.fields ∧
      server.serverId std ∈ state.client.servers
  only : ∀ name spec, state.registry.getSpec name = some spec →
    (∃ server ∈ done, Starts std server ∧ ∃ tool ∈ namedTools std server,
      name = buildExternalToolName (server.serverId std) tool.1) ∨
    (start.getSpec name = some spec ∧ ∀ server ∈ done, Offered std server →
      ToolRegistry.ownedBy (server.serverId std) spec = false)
  kept : ∀ name spec, start.getSpec name = some spec →
    (∀ server ∈ done, Offered std server →
      ToolRegistry.ownedBy (server.serverId std) spec = false) →
    state.registry.getSpec name = some spec

section Step

variable {start : ToolRegistry} {done : List StoredServer} {state : ExternalTools}
  {server : StoredServer} {errorText : PyError → PyStr}

/-- What the other servers of the store must not have in common with the one at turn. -/
structure TurnUnclashed (std : Stdlib) (start : ToolRegistry) (done : List StoredServer)
    (server : StoredServer) : Prop where
  ids : ∀ earlier ∈ done, Offered std earlier → Offered std server →
    earlier.serverId std ≠ server.serverId std
  built : Starts std server → ∀ tool ∈ namedTools std server,
    ∃ spec, buildSpec std (server.serverId std) tool = .ok spec
  distinct : Starts std server → ((namedTools std server).map Prod.fst).Nodup
  free : Starts std server → ∀ tool ∈ namedTools std server, ∀ spec,
    start.getSpec (buildExternalToolName (server.serverId std) tool.1) = some spec →
      ToolRegistry.ownedBy (server.serverId std) spec = true
  apart : ∀ earlier ∈ done, Starts std earlier → Starts std server →
    ∀ tool ∈ namedTools std earlier, ∀ other ∈ namedTools std server,
      buildExternalToolName (earlier.serverId std) tool.1 ≠
        buildExternalToolName (server.serverId std) other.1

theorem Unclashed.turn {rest : List StoredServer}
    (hunclashed : Unclashed std start (done ++ server :: rest)) :
    TurnUnclashed std start done server where
  ids earlier hearlier := (List.pairwise_append.mp hunclashed.ids).2.2 earlier hearlier server
    List.mem_cons_self
  built := hunclashed.built server (by simp)
  distinct := hunclashed.distinct server (by simp)
  free := hunclashed.free server (by simp)
  apart earlier hearlier := (List.pairwise_append.mp hunclashed.apart).2.2 earlier hearlier
    server List.mem_cons_self

/-- A server that is not offered changes nothing. -/
theorem progress_of_not_offered (hprogress : Progress std start done state)
    (hnot : ¬Offered std server) : Progress std start (done ++ [server]) state := by
  have hold : ∀ other ∈ done ++ [server], Offered std other → other ∈ done := by
    intro other hother hoffered
    rcases List.mem_append.mp hother with hdone | hlast
    · exact hdone
    · rw [List.mem_singleton.mp hlast] at hoffered
      exact absurd hoffered hnot
  constructor
  · intro other hother hstarts
    exact hprogress.fresh other (hold other hother hstarts.toOffered) hstarts
  · intro other hother hstarts
    exact hprogress.tables other (hold other hother hstarts.toOffered) hstarts
  · intro name spec hspec
    rcases hprogress.only name spec hspec with ⟨other, hother, hloaded⟩ | ⟨hstart, hfree⟩
    · exact .inl ⟨other, List.mem_append_left _ hother, hloaded⟩
    · exact .inr ⟨hstart, fun other hother hoffered =>
        hfree other (hold other hother hoffered) hoffered⟩
  · intro name spec hspec hfree
    exact hprogress.kept name spec hspec
      (fun other hother => hfree other (List.mem_append_left _ hother))

theorem getSpec_unregister_iff {serverId name : PyStr} {registry : ToolRegistry} :
    (registry.unregisterByServer serverId).getSpec name = some spec ↔
      registry.getSpec name = some spec ∧ ToolRegistry.ownedBy serverId spec = false := by
  rw [ToolRegistry.getSpec_unregisterByServer, Option.filter_eq_some_iff, Bool.not_eq_true']

/-- The tools of an earlier server survive the unregistration. -/
theorem earlier_not_owned {earlier : StoredServer} (hturn : TurnUnclashed std start done server)
    (hearlier : earlier ∈ done) (hstarts : Starts std earlier) (hoffered : Offered std server)
    (hbuild : buildSpec std (earlier.serverId std) tool = .ok spec) :
    ToolRegistry.ownedBy (server.serverId std) spec = false := by
  have hname := (buildSpec_eq_ok hbuild).2.1
  rw [ToolRegistry.ownedBy, decide_eq_false_iff_not]
  intro hboth
  exact hturn.ids earlier hearlier hstarts.toOffered hoffered (hname.symm.trans hboth.1)

section

variable (hprogress : Progress std start done state)
  (hturn : TurnUnclashed std start done server)

include hprogress hturn

theorem progress_of_not_started (hoffered : Offered std server) (hnot : ¬Starts std server) :
    Progress std start (done ++ [server])
      { state with registry := state.registry.unregisterByServer (server.serverId std) } := by
  have hold : ∀ other ∈ done ++ [server], Starts std other → other ∈ done := by
    intro other hother hstarts
    rcases List.mem_append.mp hother with hdone | hlast
    · exact hdone
    · rw [List.mem_singleton.mp hlast] at hstarts
      exact absurd hstarts hnot
  constructor
  · intro other hother hstarts tool htool
    have hdone := hold other hother hstarts
    obtain ⟨spec, hbuild, hspec, hroute⟩ := hprogress.fresh other hdone hstarts tool htool
    refine ⟨spec, hbuild, ?_, hroute⟩
    exact getSpec_unregister_iff.mpr ⟨hspec, earlier_not_owned hturn hdone hstarts hoffered hbuild⟩
  · intro other hother hstarts
    exact hprogress.tables other (hold other hother hstarts) hstarts
  · intro name spec hspec
    obtain ⟨hbefore, howned⟩ := getSpec_unregister_iff.mp hspec
    rcases hprogress.only name spec hbefore with ⟨other, hother, hloaded⟩ | ⟨hstart, hfree⟩
    · exact .inl ⟨other, List.mem_append_left _ hother, hloaded⟩
    · refine .inr ⟨hstart, ?_⟩
      intro other hother hotherOffered
      rcases List.mem_append.mp hother with hdone | hlast
      · exact hfree other hdone hotherOffered
      · rw [List.mem_singleton.mp hlast]
        exact howned
  · intro name spec hspec hfree
    apply getSpec_unregister_iff.mpr
    refine ⟨?_, hfree server (by simp) hoffered⟩
    exact hprogress.kept name spec hspec
      (fun other hother => hfree other (List.mem_append_left _ hother))

/-- No tool of the server at turn is in the registry once its own are unregistered. -/
theorem fresh_of_unclashed (hstarts : Starts std server) (htool : tool ∈ namedTools std server) :
    (state.registry.unregisterByServer (server.serverId std)).getSpec
      (buildExternalToolName (server.serverId std) tool.1) = none := by
  rw [Option.eq_none_iff_forall_ne_some]
  intro spec hspec
  obtain ⟨hbefore, howned⟩ := getSpec_unregister_iff.mp hspec
  rcases hprogress.only _ spec hbefore with ⟨other, hother, hloaded, named, hnamed, heq⟩ |
    ⟨hstart, _⟩
  · exact hturn.apart other hother hloaded hstarts named hnamed tool htool heq.symm
  · rw [hturn.free hstarts tool htool spec hstart] at howned
    exact absurd howned (by simp)

theorem progress_of_registered {registered : ExternalTools} (hstarts : Starts std server)
    (hregistered : ToolsRegistered std (server.serverId std) (namedTools std server)
      { state with
        registry := state.registry.unregisterByServer (server.serverId std)
        servers := state.servers.set (server.serverId std) server.fields } registered) :
    Progress std start (done ++ [server])
      { registered with client := ⟨server.serverId std :: registered.client.servers⟩ } := by
  constructor
  · intro other hother hotherStarts tool htool
    rcases List.mem_append.mp hother with hdone | hlast
    · obtain ⟨spec, hbuild, hspec, hroute⟩ := hprogress.fresh other hdone hotherStarts tool htool
      obtain ⟨hkept, hnamed⟩ := hregistered.others
        (buildExternalToolName (other.serverId std) tool.1)
        (fun own hown => hturn.apart other hdone hotherStarts hstarts tool htool own hown)
      refine ⟨spec, hbuild, ?_, hnamed.trans hroute⟩
      dsimp only
      rw [hkept]
      exact getSpec_unregister_iff.mpr
        ⟨hspec, earlier_not_owned hturn hdone hotherStarts hstarts.toOffered hbuild⟩
    · rw [List.mem_singleton.mp hlast] at htool ⊢
      exact hregistered.registered tool htool
  · intro other hother hotherStarts
    dsimp only
    rw [hregistered.servers, hregistered.client]
    rcases List.mem_append.mp hother with hdone | hlast
    · obtain ⟨hfields, hclient⟩ := hprogress.tables other hdone hotherStarts
      have hne := hturn.ids other hdone hotherStarts.toOffered hstarts.toOffered
      exact ⟨(Dict.get?_set_of_ne _ _ hne).trans hfields, List.mem_cons_of_mem _ hclient⟩
    · rw [List.mem_singleton.mp hlast]
      exact ⟨Dict.get?_set_self _ _ _, List.mem_cons_self⟩
  · intro name spec hspec
    by_cases hown : ∀ tool ∈ namedTools std server,
        name ≠ buildExternalToolName (server.serverId std) tool.1
    · rw [(hregistered.others name hown).1] at hspec
      obtain ⟨hbefore, howned⟩ := getSpec_unregister_iff.mp hspec
      rcases hprogress.only name spec hbefore with ⟨other, hother, hloaded⟩ | ⟨hstart, hfree⟩
      · exact .inl ⟨other, List.mem_append_left _ hother, hloaded⟩
      · refine .inr ⟨hstart, ?_⟩
        intro other hother hotherOffered
        rcases List.mem_append.mp hother with hdone | hlast
        · exact hfree other hdone hotherOffered
        · rw [List.mem_singleton.mp hlast]
          exact howned
    · push Not at hown
      obtain ⟨tool, htool, hname⟩ := hown
      exact .inl ⟨server, by simp, hstarts, tool, htool, hname⟩
  · intro name spec hspec hfree
    have hnotOwned := hfree server (by simp) hstarts.toOffered
    have hown : ∀ tool ∈ namedTools std server,
        name ≠ buildExternalToolName (server.serverId std) tool.1 := by
      intro tool htool hname
      rw [hname] at hspec
      rw [hturn.free hstarts tool htool spec hspec] at hnotOwned
      exact absurd hnotOwned (by simp)
    dsimp only
    rw [(hregistered.others name hown).1]
    apply getSpec_unregister_iff.mpr
    exact ⟨hprogress.kept name spec hspec
      (fun other hother => hfree other (List.mem_append_left _ hother)), hnotOwned⟩

end

/-- A turn without a refusal: the stores make progress, and the server is reported as loaded
exactly when it starts. -/
theorem reloadServer_progress (errorText : PyError → PyStr)
    (hprogress : Progress std start done state) (hturn : TurnUnclashed std start done server) :
    Progress std start (done ++ [server]) (reloadServer std errorText server state).2 ∧
      ((∃ count, (reloadServer std errorText server state).1 = some (.loaded count)) ↔
        Starts std server) := by
  by_cases hoffered : Offered std server
  · by_cases hstarted : server.start = .ok ()
    · have hstarts : Starts std server := ⟨hoffered, hstarted⟩
      obtain ⟨registered, hresult, hregistered⟩ := @reloadServer_of_starts _ errorText _ _ hstarts
        (hturn.built hstarts) (hturn.distinct hstarts)
        (fun tool htool => fresh_of_unclashed hprogress hturn hstarts htool)
      rw [hresult]
      exact ⟨progress_of_registered hprogress hturn hstarts hregistered,
        iff_of_true ⟨_, rfl⟩ hstarts⟩
    · obtain ⟨hstate, hreport⟩ := @reloadServer_of_not_started _ errorText _ state hoffered hstarted
      have hnot : ¬Starts std server := fun hstarts => hstarted hstarts.started
      rw [hstate]
      exact ⟨progress_of_not_started hprogress hturn hoffered hnot,
        iff_of_false (fun hloaded => hreport _ hloaded.choose_spec) hnot⟩
  · obtain ⟨hstate, hreport⟩ := @reloadServer_of_not_offered _ errorText _ state hoffered
    rw [hstate]
    exact ⟨progress_of_not_offered hprogress hoffered,
      iff_of_false (fun hloaded => hreport _ hloaded.choose_spec)
        (fun hstarts => hoffered hstarts.toOffered)⟩

end Step

/-! ## Reloads -/

theorem reloadFrom_progress {start : ToolRegistry} (errorText : PyError → PyStr)
    (rest done : List StoredServer) (state : ExternalTools)
    (hprogress : Progress std start done state) (hunclashed : Unclashed std start (done ++ rest)) :
    Progress std start (done ++ rest) (reloadFrom std errorText rest state).2 ∧
      ∀ server, server ∈ loadedServers (reloadFrom std errorText rest state).1 ↔
        server ∈ rest ∧ Starts std server := by
  induction rest generalizing done state with
  | nil =>
    rw [List.append_nil]
    exact ⟨hprogress, fun server => by simp [reloadFrom, loadedServers]⟩
  | cons head rest ih =>
    obtain ⟨hturned, hreport⟩ := reloadServer_progress errorText hprogress hunclashed.turn
    rw [List.append_cons] at hunclashed ⊢
    obtain ⟨hafter, hothers⟩ := ih (done ++ [head]) _ hturned hunclashed
    refine ⟨hafter, ?_⟩
    intro server
    have hhead : server ∈ loadedServers
        ((reloadServer std errorText head state).1.toList.map fun outcome => (head, outcome)) ↔
          server = head ∧ Starts std head := by
      rw [← hreport]
      rcases (reloadServer std errorText head state).1 with _ | outcome
      · simp [loadedServers]
      · rcases outcome with _ | _ | _ <;> simp [loadedServers]
    rw [reloadFrom, loadedServers, List.filterMap_append, List.mem_append]
    change server ∈ loadedServers _ ∨ server ∈ loadedServers _ ↔ _
    rw [hhead, hothers, List.mem_cons]
    constructor
    · rintro (⟨rfl, hstarts⟩ | ⟨hrest, hstarts⟩)
      · exact ⟨.inl rfl, hstarts⟩
      · exact ⟨.inr hrest, hstarts⟩
    · rintro ⟨rfl | hrest, hstarts⟩
      · exact .inl ⟨rfl, hstarts⟩
      · exact .inr ⟨hrest, hstarts⟩

/-- Without refused registrations one reload makes the external tools the live ones exactly
when it offers every server with tools in the registry again. -/
theorem liveTools_reload_iff (errorText : PyError → PyStr) {store : List StoredServer}
    {state : ExternalTools} (hunclashed : Unclashed std state.registry store) :
    LiveTools std (reloadFromStore std errorText store state).1
        (reloadFromStore std errorText store state).2 ↔
      AllOffered std state.registry store := by
  have hstart : Progress std state.registry []
      { state with servers := [], registeredToolNames := [] } :=
    ⟨by simp, by simp, fun name spec hspec => .inr ⟨hspec, by simp⟩,
      fun name spec hspec _ => hspec⟩
  obtain ⟨hprogress, hloaded⟩ := reloadFrom_progress errorText store [] _ hstart hunclashed
  rw [List.nil_append] at hprogress
  rw [reloadFromStore]
  constructor
  · intro hlive name spec hspec hscope
    by_contra hnone
    push Not at hnone
    have hkept := hprogress.kept name spec hspec (by
      intro server hserver hoffered
      rw [ToolRegistry.ownedBy, decide_eq_false_iff_not]
      exact fun hboth => hnone server hserver hoffered hboth.1.symm)
    obtain ⟨server, hserver, tool, htool, rfl⟩ := (hlive.exact name).mp ⟨spec, hkept, hscope⟩
    obtain ⟨hmember, hstarts⟩ := (hloaded server).mp hserver
    obtain ⟨own, hbuild, hown, _⟩ := hprogress.fresh server hmember hstarts tool htool
    have heq : own = spec := Option.some.inj (hown.symm.trans hkept)
    apply hnone server hmember hstarts.toOffered
    rw [← heq]
    exact (buildSpec_eq_ok hbuild).2.1.symm
  · intro hall
    constructor
    · intro name
      constructor
      · rintro ⟨spec, hspec, hscope⟩
        rcases hprogress.only name spec hspec with ⟨server, hserver, hstarts, htool⟩ |
          ⟨hbefore, hfree⟩
        · exact ⟨server, (hloaded server).mpr ⟨hserver, hstarts⟩, htool⟩
        · obtain ⟨server, hserver, hoffered, hname⟩ := hall name spec hbefore hscope
          have howned := hfree server hserver hoffered
          rw [ToolRegistry.ownedBy, decide_eq_false_iff_not] at howned
          exact absurd ⟨hname.symm, hscope⟩ howned
      · rintro ⟨server, hserver, tool, htool, rfl⟩
        obtain ⟨hmember, hstarts⟩ := (hloaded server).mp hserver
        obtain ⟨spec, hbuild, hspec, _⟩ := hprogress.fresh server hmember hstarts tool htool
        exact ⟨spec, hspec, (buildSpec_eq_ok hbuild).2.2⟩
    · intro server hserver tool htool
      obtain ⟨hmember, hstarts⟩ := (hloaded server).mp hserver
      obtain ⟨spec, hbuild, hspec, hroute⟩ := hprogress.fresh server hmember hstarts tool htool
      obtain ⟨hname, hserverName, hscope⟩ := buildSpec_eq_ok hbuild
      obtain ⟨hfields, hclient⟩ := hprogress.tables server hmember hstarts
      refine ⟨spec, hspec, hscope, hserverName, ?_⟩
      rw [routeOf, hserverName, if_pos hclient, hfields, hname, hroute]
      rfl

/-- Over any sequence of reloads in which no registration is refused: the external tools are
the live ones after every reload exactly when each reload offers every server that has tools
in the registry. -/
theorem external_tools_live_iff (std : Stdlib) (errorText : PyError → PyStr)
    (start : ExternalTools) (stores : List (List StoredServer)) :
    let run := history (fun state store => (reloadFromStore std errorText store state).2)
      start stores
    Guarded (fun state store => Unclashed std state.registry store) start run →
      (Follows (fun state store _ =>
          LiveTools std (reloadFromStore std errorText store state).1
            (reloadFromStore std errorText store state).2) start run ↔
        Guarded (fun state store => AllOffered std state.registry store) start run) := by
  intro run hunclashed
  have hrun := follows_and (follows_history _ start stores) hunclashed
  apply follows_iff_guarded_of_inv (fun _ => True) hrun trivial
  rintro state store next _ ⟨_, hclear⟩
  exact ⟨liveTools_reload_iff errorText hclear, fun _ => trivial⟩

/-- An enabled server with one discovered tool. -/
def alphaServer : StoredServer where
  fields :=
    [(py "server_id", .str (py "alpha")), (py "discovery_status", .str (py "ready")),
      (py "tools", .arr [.obj [(py "name", .str (py "echo"))]])]
  start := .ok ()

def noTools : ExternalTools where
  registry := { specs := [], handlers := [], named := by simp }
  servers := []
  registeredToolNames := []
  client := ⟨[]⟩

/-- The tool of a server that was deleted from the store stays registered. -/
theorem deleted_server_keeps_tool :
    let loaded := reloadFromStore asciiStdlib (fun _ => []) [alphaServer] noTools
    let deleted := reloadFromStore asciiStdlib (fun _ => []) [] loaded.2
    deleted.1.length = 0 ∧
      (deleted.2.registry.getSpec (py "ext.alpha.echo")).map (·.scope) = some .external ∧
        ¬LiveTools asciiStdlib deleted.1 deleted.2 := by
  refine ⟨rfl, by decide, ?_⟩
  intro hlive
  rcases hspec : (reloadFromStore asciiStdlib (fun _ => []) []
    (reloadFromStore asciiStdlib (fun _ => []) [alphaServer] noTools).2).2.registry.getSpec
      (py "ext.alpha.echo") with _ | spec
  · exact absurd hspec (by decide)
  · have hscope : spec.scope = .external := by
      have hmapped : (some spec).map (·.scope) = some ToolScope.external := by
        rw [← hspec]
        decide
      exact Option.some.inj hmapped
    obtain ⟨server, hserver, _⟩ := (hlive.exact _).mp ⟨spec, hspec, hscope⟩
    exact absurd hserver List.not_mem_nil

theorem first_reload_is_live :
    Follows (fun state store _ =>
      LiveTools asciiStdlib (reloadFromStore asciiStdlib (fun _ => []) store state).1
        (reloadFromStore asciiStdlib (fun _ => []) store state).2) noTools
      (history (fun state store => (reloadFromStore asciiStdlib (fun _ => []) store state).2)
        noTools [[alphaServer]]) := by
  apply (external_tools_live_iff asciiStdlib (fun _ => []) noTools [[alphaServer]] ?_).mpr
  · exact ⟨fun name spec hspec => absurd hspec (by simp [ToolRegistry.getSpec, noTools]), trivial⟩
  · refine ⟨⟨List.pairwise_singleton _ _, ?_, ?_, ?_, List.pairwise_singleton _ _⟩, trivial⟩
    · intro server hserver _ tool htool
      rw [List.mem_singleton.mp hserver] at htool ⊢
      rw [List.mem_singleton.mp htool]
      exact ⟨_, rfl⟩
    · intro server hserver _
      rw [List.mem_singleton.mp hserver]
      exact List.nodup_singleton _
    · intro server _ _ tool _ spec hspec
      exact absurd hspec (by simp [ToolRegistry.getSpec, noTools])

end RootSeeker.McpPlane
