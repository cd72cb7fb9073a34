import RootSeeker.AgentRuntime.DependencyOrder
import RootSeeker.AgentRuntime.PlanWellFormed
import RootSeeker.Core.Cycles

/-!
# The dependency on the normalize step

Reading a plan lets every call that uses the call chain wait for the first
`incident.normalize` call.  This module says for which plans that closes a
cycle, and what the wave loop then does.
-/

namespace RootSeeker.AgentRuntime

open Python Contracts KeyedList WaveScheduling Cycles Relation

/-- The step depends on `dep` itself, not through other steps. -/
def DirectlyBefore (calls : List ToolPlanCall) (dep stepId : PyStr) : Prop :=
  dep ∈ dependenciesOf calls stepId

/-- The step of a call that reads the call chain. -/
def ReadsChain (calls : List ToolPlanCall) (stepId : PyStr) : Prop :=
  ∃ call ∈ calls, call.toolName ∈ chainDependentTools ∧ call.stepId = stepId

/-- The first `incident.normalize` call waits, directly or through other steps,
for a call that reads the call chain. -/
def NormalizeAwaitsChain (calls : List ToolPlanCall) : Prop :=
  ∃ normalize, calls.find? (·.toolName = normalizeTool) = some normalize ∧
    ∃ stepId, ReadsChain calls stepId ∧
      TransGen (DirectlyBefore calls) stepId normalize.stepId

/-- No run of the wave loop over these calls skips a step as unresolvable. -/
def NeverReportsCycle (calls : List ToolPlanCall) : Prop :=
  ∀ env input planResult fuel start final, calls.length ≤ fuel →
    startRun env input planResult calls = .ok start →
    runWaves env calls fuel start = some (.ok final) →
    ∀ trace, RunEvent.unresolved trace ∉ final.history

/-! ## The added dependencies -/

section Dependencies

variable {calls : List ToolPlanCall} {normalize : ToolPlanCall}

variable {stepId : PyStr}

theorem directlyBefore_iff (hnodup : (calls.map ToolPlanCall.stepId).Nodup) {dep : PyStr} :
    DirectlyBefore calls dep stepId ↔
      ∃ call ∈ calls, call.stepId = stepId ∧ dep ∈ call.dependsOn := by
  constructor
  · intro hdep
    obtain ⟨call, hcall, hmem⟩ := mem_dependenciesOf hdep
    obtain ⟨hlisted, hkey⟩ := mem_of_lookup hcall
    exact ⟨call, hlisted, hkey, hmem⟩
  · rintro ⟨call, hcall, rfl, hmem⟩
    rwa [DirectlyBefore, dependenciesOf_of_mem hnodup hcall]

theorem mem_requireDependency (hnormalize : normalize ∈ calls)
    (htool : normalize.toolName = normalizeTool) (hnodup : (calls.map ToolPlanCall.stepId).Nodup)
    {call : ToolPlanCall} (hcall : call ∈ calls) (dep : PyStr) :
    dep ∈ (requireDependency normalize.stepId call).dependsOn ↔
      dep ∈ call.dependsOn ∨ dep = normalize.stepId ∧ call.toolName ∈ chainDependentTools := by
  by_cases hchain : call.toolName ∈ chainDependentTools
  · have hother : normalize.stepId ≠ call.stepId :=
      stepId_ne_of_toolName hnodup hnormalize htool hcall hchain
    rw [mem_dependsOn_requireDependency call hchain hother.symm, and_iff_left hchain]
  · rw [requireDependency, if_neg fun hneeded => hchain hneeded.1]
    exact (or_iff_left fun hnew => hchain hnew.2).symm

section

variable (hnodup : (calls.map ToolPlanCall.stepId).Nodup)

include hnodup

/-- The normalize step becomes a hub that every reader of the chain waits for. -/
theorem directlyBefore_required (hfirst : calls.find? (·.toolName = normalizeTool) = some normalize) :
    DirectlyBefore (requireNormalizeDependency calls) =
      WithHub (DirectlyBefore calls) normalize.stepId (ReadsChain calls) := by
  have hmem : normalize ∈ calls := List.mem_of_find?_eq_some hfirst
  have htool : normalize.toolName = normalizeTool := by
    simpa using List.find?_some hfirst
  have hrequired : requireNormalizeDependency calls =
      calls.map (requireDependency normalize.stepId) := by
    rw [requireNormalizeDependency, hfirst]
  have hnodupRequired :
      ((requireNormalizeDependency calls).map ToolPlanCall.stepId).Nodup := by
    rwa [map_stepId_requireNormalizeDependency]
  funext dep stepId
  apply propext
  rw [directlyBefore_iff hnodupRequired, hrequired, WithHub, directlyBefore_iff hnodup]
  constructor
  · rintro ⟨_, hlisted, hkey, hdep⟩
    obtain ⟨call, hcall, rfl⟩ := List.mem_map.mp hlisted
    rw [stepId_requireDependency] at hkey
    rw [mem_requireDependency hmem htool hnodup hcall] at hdep
    cases hdep with
    | inl hold => exact Or.inl ⟨call, hcall, hkey, hold⟩
    | inr hnew => exact Or.inr ⟨hnew.1, call, hcall, hnew.2, hkey⟩
  · intro hbefore
    cases hbefore with
    | inl hold =>
      obtain ⟨call, hcall, hkey, hdep⟩ := hold
      refine ⟨_, List.mem_map_of_mem hcall, ?_, ?_⟩
      · rwa [stepId_requireDependency]
      · exact (mem_requireDependency hmem htool hnodup hcall dep).mpr (Or.inl hdep)
    | inr hnew =>
      obtain ⟨hdep, call, hcall, hchain, hkey⟩ := hnew
      refine ⟨_, List.mem_map_of_mem hcall, ?_, ?_⟩
      · rwa [stepId_requireDependency]
      · exact (mem_requireDependency hmem htool hnodup hcall dep).mpr (Or.inr ⟨hdep, hchain⟩)

/-- A path from a reader of the chain to the normalize step has at least one edge. -/
theorem transGen_of_reflTransGen
    (hfirst : calls.find? (·.toolName = normalizeTool) = some normalize)
    (hreads : ReadsChain calls stepId)
    (hpath : ReflTransGen (DirectlyBefore calls) stepId normalize.stepId) :
    TransGen (DirectlyBefore calls) stepId normalize.stepId := by
  obtain ⟨call, hcall, hchain, rfl⟩ := hreads
  have htool : normalize.toolName = normalizeTool := by
    simpa using List.find?_some hfirst
  have hother : normalize.stepId ≠ call.stepId :=
    stepId_ne_of_toolName hnodup (List.mem_of_find?_eq_some hfirst) htool hcall hchain
  cases reflTransGen_iff_eq_or_transGen.mp hpath with
  | inl hsame => exact absurd hsame hother
  | inr hpath => exact hpath

theorem acyclic_required_iff (hacyclic : DependenciesAcyclic calls) :
    DependenciesAcyclic (requireNormalizeDependency calls) ↔ ¬NormalizeAwaitsChain calls := by
  cases hfirst : calls.find? (·.toolName = normalizeTool) with
  | none =>
    have hsame : requireNormalizeDependency calls = calls := by
      rw [requireNormalizeDependency, hfirst]
    have hnone : ¬NormalizeAwaitsChain calls := by
      rintro ⟨normalize, hsome, _⟩
      rw [hfirst] at hsome
      exact absurd hsome (by simp)
    rw [hsame]
    exact iff_of_true hacyclic hnone
  | some normalize =>
    have hbefore : Acyclic (DirectlyBefore calls) := hacyclic
    change Acyclic (DirectlyBefore (requireNormalizeDependency calls)) ↔ _
    rw [directlyBefore_required hnodup hfirst, acyclic_withHub_iff hbefore]
    constructor
    · rintro hnone ⟨other, hother, stepId, hreads, hpath⟩
      obtain rfl : normalize = other := Option.some.inj (hfirst.symm.trans hother)
      exact hnone stepId hreads hpath.to_reflTransGen
    · intro hnot stepId hreads hpath
      exact hnot ⟨normalize, hfirst, stepId, hreads,
        transGen_of_reflTransGen hnodup hfirst hreads hpath⟩

/-- Every dependency of a plan that was read is a step of the plan. -/
theorem mem_stepIds_of_directlyBefore {dep : PyStr}
    (hbefore : DirectlyBefore (requireNormalizeDependency (filterDependencies calls))
      dep stepId) : dep ∈ calls.map ToolPlanCall.stepId := by
  have hids := map_stepId_filterDependencies calls
  have hfiltered : ((filterDependencies calls).map ToolPlanCall.stepId).Nodup := by
    rwa [hids]
  have hknown : DirectlyBefore (filterDependencies calls) dep stepId →
      dep ∈ calls.map ToolPlanCall.stepId := by
    rw [directlyBefore_iff hfiltered]
    rintro ⟨call, hcall, _, hdep⟩
    obtain ⟨original, _, rfl⟩ := List.mem_map.mp hcall
    have hkept := (List.mem_filter.mp hdep).2
    rw [decide_eq_true_eq] at hkept
    exact hkept.1
  cases hfirst : (filterDependencies calls).find? (·.toolName = normalizeTool) with
  | none =>
    rw [requireNormalizeDependency, hfirst] at hbefore
    exact hknown hbefore
  | some normalize =>
    rw [directlyBefore_required hfiltered hfirst] at hbefore
    cases hbefore with
    | inl hold => exact hknown hold
    | inr hnew =>
      rw [hnew.1, ← hids]
      exact List.mem_map_of_mem (List.mem_of_find?_eq_some hfirst)

end

end Dependencies

/-! ## Runs -/

section Runs

variable {env : Collaborators} {input : RunInput} {planResult : ToolPlanResult}
  {calls : List ToolPlanCall} {fuel : ℕ} {start final : RunState}

/-- A run that was started and has ended stands for the abstract run. -/
theorem simulates_of_run (hnodup : (calls.map ToolPlanCall.stepId).Nodup)
    (hfuel : calls.length ≤ fuel) (hstart : startRun env input planResult calls = .ok start)
    (hfinal : runWaves env calls fuel start = some (.ok final)) :
    final.history.filterMap RunEvent.task = (planTasks env calls hnodup).run.events := by
  have hbuildable : ∀ call ∈ calls, call.Buildable := by
    by_contra hnot
    rw [startRun_error env input planResult hnot] at hstart
    exact absurd hstart (by simp)
  obtain ⟨otherStart, otherFinal, hotherStart, hotherFinal, hsim⟩ :=
    runWaves_ok env input planResult hbuildable hnodup hfuel
  obtain rfl : start = otherStart := Except.ok.inj (hstart.symm.trans hotherStart)
  obtain rfl : final = otherFinal := Except.ok.inj (Option.some.inj (hfinal.symm.trans hotherFinal))
  exact hsim.events_eq

theorem unresolved_mem_iff {history : List RunEvent} {events : List (Event PyStr)}
    (hevents : history.filterMap RunEvent.task = events) :
    (∃ trace, RunEvent.unresolved trace ∈ history) ↔
      ∃ stepId, Event.unresolved stepId ∈ events := by
  rw [← hevents]
  constructor
  · rintro ⟨trace, hmem⟩
    exact ⟨trace.stepId, List.mem_filterMap.mpr ⟨_, hmem, rfl⟩⟩
  · rintro ⟨stepId, hmem⟩
    obtain ⟨event, hevent, htask⟩ := List.mem_filterMap.mp hmem
    cases event <;> simp_all [RunEvent.task]
    exact ⟨_, hevent⟩

theorem neverReportsCycle_of_acyclic (hnodup : (calls.map ToolPlanCall.stepId).Nodup)
    (hacyclic : DependenciesAcyclic calls) (hknown : ∀ dep stepId, DirectlyBefore calls dep stepId →
      dep ∈ calls.map ToolPlanCall.stepId) : NeverReportsCycle calls := by
  intro env input planResult fuel start final hfuel hstart hfinal trace hmem
  have hevents := simulates_of_run hnodup hfuel hstart hfinal
  obtain ⟨stepId, hunresolved⟩ := (unresolved_mem_iff hevents).mp ⟨trace, hmem⟩
  exact Tasks.not_unresolved_of_acyclic (planTasks env calls hnodup) hacyclic
    (fun stepId dep hdep => hknown dep stepId hdep) stepId hunresolved

/-- A run of cyclic calls that all succeed skips a step as unresolvable. -/
theorem reportsCycle_of_cycle (hnodup : (calls.map ToolPlanCall.stepId).Nodup)
    (hcycle : ¬DependenciesAcyclic calls) (hok : ∀ call ∈ calls, env.okOf call.stepId = true)
    (hfuel : calls.length ≤ fuel) (hstart : startRun env input planResult calls = .ok start)
    (hfinal : runWaves env calls fuel start = some (.ok final)) :
    ∃ trace, RunEvent.unresolved trace ∈ final.history := by
  rw [unresolved_mem_iff (simulates_of_run hnodup hfuel hstart hfinal)]
  obtain ⟨stepId, hpath⟩ := not_forall_not.mp hcycle
  refine Tasks.exists_unresolved_of_cycle (planTasks env calls hnodup) (fun task => ?_) hpath
  rw [Tasks.failing, Bool.and_eq_false_iff]
  by_cases hrequired : (planTasks env calls hnodup).required task = true
  · have hlisted := (planTasks env calls hnodup).required_listed task hrequired
    obtain ⟨call, hcall, rfl⟩ := List.mem_map.mp hlisted
    exact Or.inl (by rw [show (planTasks env calls hnodup).ok call.stepId = true from
      hok call hcall]; rfl)
  · exact Or.inr (Bool.eq_false_iff.mpr hrequired)

end Runs

/-- A plan with distinct step ids whose filtered dependencies are acyclic stays
acyclic, and no run of it skips a step as unresolvable, exactly when its first
`incident.normalize` call does not wait for a call that reads the call chain.
Otherwise every run of the rewritten plan whose calls all succeed skips a step
as unresolvable. -/
theorem rewriting_keeps_acyclic_iff (calls : List ToolPlanCall)
    (hnodup : (calls.map ToolPlanCall.stepId).Nodup)
    (hacyclic : DependenciesAcyclic (filterDependencies calls)) :
    (DependenciesAcyclic (requireNormalizeDependency (filterDependencies calls)) ∧
        NeverReportsCycle (requireNormalizeDependency (filterDependencies calls)) ↔
      ¬NormalizeAwaitsChain (filterDependencies calls)) ∧
    (NormalizeAwaitsChain (filterDependencies calls) →
      ∀ env input planResult fuel start final, calls.length ≤ fuel →
        (∀ call ∈ calls, env.okOf call.stepId = true) →
        startRun env input planResult
          (requireNormalizeDependency (filterDependencies calls)) = .ok start →
        runWaves env (requireNormalizeDependency (filterDependencies calls)) fuel start =
          some (.ok final) →
        ∃ trace, RunEvent.unresolved trace ∈ final.history) := by
  have hids := map_stepId_filterDependencies calls
  have hfiltered : ((filterDependencies calls).map ToolPlanCall.stepId).Nodup := by
    rwa [hids]
  have hidsRequired : (requireNormalizeDependency (filterDependencies calls)).map
      ToolPlanCall.stepId = calls.map ToolPlanCall.stepId := by
    rw [map_stepId_requireNormalizeDependency, hids]
  have hrequired : ((requireNormalizeDependency (filterDependencies calls)).map
      ToolPlanCall.stepId).Nodup := by
    rwa [hidsRequired]
  have hverdict := acyclic_required_iff hfiltered hacyclic
  refine ⟨?_, ?_⟩
  · rw [← hverdict, and_iff_left_iff_imp]
    intro hafter
    refine neverReportsCycle_of_acyclic hrequired hafter fun dep stepId hbefore => ?_
    rw [hidsRequired]
    exact mem_stepIds_of_directlyBefore hnodup hbefore
  · intro hawaits env input planResult fuel start final hfuel hok hstart hfinal
    have hlength := congrArg List.length hidsRequired
    rw [List.length_map, List.length_map] at hlength
    refine reportsCycle_of_cycle hrequired (fun hafter => hverdict.mp hafter hawaits) ?_
      (hlength ▸ hfuel) hstart hfinal
    intro call hcall
    have hmem : call.stepId ∈ calls.map ToolPlanCall.stepId :=
      hidsRequired ▸ List.mem_map_of_mem hcall
    obtain ⟨original, horiginal, hsame⟩ := List.mem_map.mp hmem
    rw [← hsame]
    exact hok original horiginal

/-- A call of a tool that waits for other steps. -/
def callOf (toolName stepId : String) (dependsOn : List String) : ToolPlanCall :=
  { plannedCall stepId dependsOn true with toolName := py toolName }

/-- The normalize call reads what `read` found. -/
def normalizeAfterRead : List ToolPlanCall :=
  [callOf "code.read" "read" [], callOf "incident.normalize" "normalize" ["read"]]

def normalizeBeforeRead : List ToolPlanCall :=
  [callOf "incident.normalize" "normalize" [], callOf "code.read" "read" []]

theorem rewriting_keeps_normalizeBeforeRead_acyclic :
    DependenciesAcyclic
      (requireNormalizeDependency (filterDependencies normalizeBeforeRead)) := by
  have hacyclic : DependenciesAcyclic (filterDependencies normalizeBeforeRead) :=
    dependenciesAcyclic_of_rank (fun _ => 0) (by decide)
  refine ((rewriting_keeps_acyclic_iff normalizeBeforeRead (by decide) hacyclic).1.mpr ?_).1
  rintro ⟨normalize, hfirst, stepId, _, hpath⟩
  obtain rfl : normalize = callOf "incident.normalize" "normalize" [] :=
    (Option.some.inj hfirst).symm
  obtain ⟨dep, _, hdep⟩ := TransGen.tail'_iff.mp hpath
  have hnone : dependenciesOf (filterDependencies normalizeBeforeRead)
      (py "normalize") = [] := by decide
  rw [DirectlyBefore, show (callOf "incident.normalize" "normalize" []).stepId =
    py "normalize" from rfl, hnone] at hdep
  exact List.not_mem_nil hdep

/-- The read is made to wait for the normalize call that waits for it. -/
theorem rewriting_closes_a_cycle :
    (normalizeAfterRead.map ToolPlanCall.stepId).Nodup ∧
    DependenciesAcyclic (filterDependencies normalizeAfterRead) ∧
    ¬DependenciesAcyclic
      (requireNormalizeDependency (filterDependencies normalizeAfterRead)) := by
  refine ⟨by decide, ?_, fun hacyclic => ?_⟩
  · exact dependenciesAcyclic_of_rank
      (fun stepId => if stepId = py "normalize" then 1 else 0) (by decide)
  · let planned := requireNormalizeDependency (filterDependencies normalizeAfterRead)
    have hread : DirectlyBefore planned (py "read") (py "normalize") := by
      change py "read" ∈ dependenciesOf planned (py "normalize")
      decide
    have hnormalize : DirectlyBefore planned (py "normalize") (py "read") := by
      change py "normalize" ∈ dependenciesOf planned (py "read")
      decide
    exact hacyclic (py "read") (TransGen.head hread (TransGen.single hnormalize))

end RootSeeker.AgentRuntime
