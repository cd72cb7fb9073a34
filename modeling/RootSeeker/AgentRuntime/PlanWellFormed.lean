import RootSeeker.AgentRuntime.ToolPlanParser
import RootSeeker.Core.Framing
import RootSeeker.Core.Loops

/-!
# What an accepted plan promises

The executor indexes calls, steps and records by step id.  Whatever a language
model returns, an accepted plan is bounded, uses allowed tools and has clean
dependencies.  Its step ids are usable exactly when those that the text itself
supplies are.
-/

namespace RootSeeker.AgentRuntime

open Python Contracts Analysis SkillRuntime

/-! ## Generated step ids -/

theorem isSpace_of_isSafe {c : CodePoint} (hsafe : isSafe c = true) : isSpace c = false := by
  have hhyphen : c = hyphen → c.val = 0x2D := fun heq => heq ▸ rfl
  simp only [isSafe, Bool.or_eq_true, Bool.and_eq_true, decide_eq_true_eq] at hsafe
  replace hsafe := hsafe.imp_right hhyphen
  simp only [isSpace, Bool.or_eq_false_iff, Bool.and_eq_false_iff, decide_eq_false_iff_not]
  omega

theorem isSafe_of_isDigit {c : CodePoint} (hdigit : isDigit c = true) : isSafe c = true := by
  simp only [isDigit, Bool.and_eq_true, decide_eq_true_eq] at hdigit
  simp only [isSafe, Bool.or_eq_true, Bool.and_eq_true, decide_eq_true_eq]
  omega

theorem isSafe_of_mem_hyphenate (inRun : Bool) (text : PyStr) :
    ∀ c ∈ hyphenate inRun text, isSafe c = true := by
  induction text generalizing inRun with
  | nil => simp [hyphenate]
  | cons c rest ih =>
    rw [hyphenate]
    split
    · rename_i hsafe
      exact List.forall_mem_cons.mpr ⟨hsafe, ih false⟩
    · split
      · exact ih true
      · exact List.forall_mem_cons.mpr ⟨by decide, ih true⟩

theorem isSafe_of_mem_stepIdFromTool (toolName : PyStr) (index : ℕ) :
    ∀ c ∈ stepIdFromTool toolName index, isSafe c = true := by
  rw [stepIdFromTool, List.forall_mem_append, List.forall_mem_append, List.forall_mem_append]
  refine ⟨⟨⟨List.all_eq_true.mp (by decide), ?_⟩, List.all_eq_true.mp (by decide)⟩, ?_⟩
  · intro c hc
    exact isSafe_of_isDigit (isDigit_of_mem_decimal c hc)
  · split
    · exact List.all_eq_true.mp (by decide)
    · intro c hc
      apply isSafe_of_mem_hyphenate false toolName
      exact (stripBy_sublist _ _).subset hc

/-- Stripping a generated step id changes nothing. -/
theorem strip_stepIdFromTool (toolName : PyStr) (index : ℕ) :
    strip (stepIdFromTool toolName index) = stepIdFromTool toolName index := by
  apply stripBy_eq_self_of_forall
  intro c hc
  exact isSpace_of_isSafe (isSafe_of_mem_stepIdFromTool toolName index c hc)

theorem stepIdFromTool_ne_nil (toolName : PyStr) (index : ℕ) :
    stepIdFromTool toolName index ≠ [] := by
  rw [stepIdFromTool, List.append_assoc, List.append_assoc]
  intro hnil
  exact absurd (List.append_eq_nil_iff.mp hnil).1 (by decide)

/-- The number in a generated step id ends at the next hyphen. -/
theorem index_eq_of_stepIdFromTool_eq {leftTool rightTool : PyStr} {leftIndex rightIndex : ℕ}
    (heq : stepIdFromTool leftTool leftIndex = stepIdFromTool rightTool rightIndex) :
    leftIndex = rightIndex := by
  simp only [stepIdFromTool, List.append_assoc] at heq
  have hrest := List.append_cancel_left heq
  have hhyphen : ∀ (rest : PyStr), ∀ c ∈ (py "-" ++ rest).head?, isDigit c = false := by
    intro rest c hc
    obtain rfl := Option.some.inj hc
    decide
  have hnumbers := (Framing.append_inj_of_class isDigit_of_mem_decimal
    isDigit_of_mem_decimal (hhyphen _) (hhyphen _) hrest).1
  have hsucc := decimal_injective hnumbers
  omega

/-! ## Kept items -/

/-- The items from which the calls of the plan are built. -/
def keptOf (std : Stdlib) (content : PyStr) (allowedTools : List PyStr)
    (maxToolCalls : ℤ) : List KeptItem :=
  match callsNode std content with
  | none => []
  | some (_, items) => keptItems std allowedTools maxToolCalls items

variable {case : CaseCreateRequest} {item : KeptItem} {kept : List KeptItem}
  {content : PyStr} {call : ToolPlanCall} {analysis : TextAnalysis}

section KeptItems

variable {std : Stdlib} {allowedTools : List PyStr} {maxToolCalls : ℤ}
  {items : List Json}

theorem keptItem_eq_some {entry : Json × ℕ} (hitem : keptItem std allowedTools entry = some item) :
    item.index = entry.2 ∧ item.toolName ∈ allowedTools := by
  unfold keptItem at hitem
  split at hitem
  · simp only [Option.ite_none_right_eq_some, Option.some.injEq] at hitem
    obtain ⟨hallowed, rfl⟩ := hitem
    exact ⟨rfl, hallowed⟩
  · exact absurd hitem (by simp)

theorem toolName_of_mem_keptItems (hitem : item ∈ keptItems std allowedTools maxToolCalls items) :
    item.toolName ∈ allowedTools := by
  obtain ⟨entry, _, hentry⟩ := List.mem_filterMap.mp hitem
  exact (keptItem_eq_some hentry).2

theorem pairwise_index_keptItems :
    (keptItems std allowedTools maxToolCalls items).Pairwise
      fun a b => a.index ≠ b.index := by
  rw [keptItems, List.pairwise_filterMap]
  have hindices : (items.take (max 0 maxToolCalls).toNat).zipIdx.Pairwise
      fun a b => a.2 ≠ b.2 := by
    rw [← List.pairwise_map, List.zipIdx_map_snd]
    exact List.nodup_range'
  apply hindices.imp
  intro a b hne left hleft right hright
  rw [(keptItem_eq_some hleft).1, (keptItem_eq_some hright).1]
  exact hne

theorem length_keptItems_le :
    (keptItems std allowedTools maxToolCalls items).length ≤
      (max 0 maxToolCalls).toNat := by
  calc (keptItems std allowedTools maxToolCalls items).length
      ≤ (items.take (max 0 maxToolCalls).toNat).zipIdx.length :=
        List.length_filterMap_le _ _
    _ = (items.take (max 0 maxToolCalls).toNat).length := List.length_zipIdx
    _ ≤ (max 0 maxToolCalls).toNat := List.length_take_le _ _

end KeptItems

/-! ## Calls and their dependencies -/

theorem nodup_parseStringList (std : Stdlib) (value : Option Json) :
    (parseStringList std value).Nodup := by
  unfold parseStringList
  split
  · apply List.foldlRecOn
    · exact List.nodup_nil
    · intro texts hnodup item _
      unfold appendNew
      split
      · exact hnodup
      · rename_i hnew
        rw [not_or] at hnew
        rw [List.nodup_append]
        refine ⟨hnodup, List.nodup_singleton _, ?_⟩
        intro text htext other hother hsame
        rw [hsame, List.mem_singleton.mp hother] at htext
        exact hnew.2 htext
  · exact List.nodup_nil

/-- What the fields of a call that matter here are built from. -/
theorem buildCall_eq_ok {std : Stdlib} (hcall : buildCall std analysis case item = .ok call) :
    call.stepId = stepIdOf std item ∧ call.toolName = item.toolName ∧
      call.dependsOn = parseStringList std (item.fields.get? (py "depends_on")) := by
  unfold buildCall at hcall
  cases htimeout : parseTimeoutSeconds std (item.fields.get? (py "timeout_seconds")) with
  | error raised =>
    rw [htimeout] at hcall
    exact absurd hcall (by simp [bind, Except.bind])
  | ok seconds =>
    rw [htimeout] at hcall
    obtain rfl := Except.ok.inj hcall
    exact ⟨rfl, rfl, rfl⟩

/-- The dependencies of a call are other steps, each named once. -/
structure CleanDependencies (stepIds : List PyStr) (call : ToolPlanCall) : Prop where
  known : ∀ stepId ∈ call.dependsOn, stepId ∈ stepIds ∧ stepId ≠ call.stepId
  nodup : call.dependsOn.Nodup

@[simp]
theorem stepId_requireDependency (normalizeId : PyStr) (call : ToolPlanCall) :
    (requireDependency normalizeId call).stepId = call.stepId := by
  unfold requireDependency
  split <;> rfl

@[simp]
theorem toolName_requireDependency (normalizeId : PyStr) (call : ToolPlanCall) :
    (requireDependency normalizeId call).toolName = call.toolName := by
  unfold requireDependency
  split <;> rfl

theorem map_stepId_filterDependencies (calls : List ToolPlanCall) :
    (filterDependencies calls).map ToolPlanCall.stepId = calls.map ToolPlanCall.stepId := by
  rw [filterDependencies, List.map_map]
  rfl

theorem map_toolName_filterDependencies (calls : List ToolPlanCall) :
    (filterDependencies calls).map ToolPlanCall.toolName = calls.map ToolPlanCall.toolName := by
  rw [filterDependencies, List.map_map]
  rfl

theorem map_stepId_requireNormalizeDependency (calls : List ToolPlanCall) :
    (requireNormalizeDependency calls).map ToolPlanCall.stepId = calls.map ToolPlanCall.stepId := by
  unfold requireNormalizeDependency
  split
  · rfl
  · rw [List.map_map]
    apply List.map_congr_left
    intro call _
    exact stepId_requireDependency _ call

theorem map_toolName_requireNormalizeDependency (calls : List ToolPlanCall) :
    (requireNormalizeDependency calls).map ToolPlanCall.toolName =
      calls.map ToolPlanCall.toolName := by
  unfold requireNormalizeDependency
  split
  · rfl
  · rw [List.map_map]
    apply List.map_congr_left
    intro call _
    exact toolName_requireDependency _ call

theorem cleanDependencies_filter {calls : List ToolPlanCall}
    (hnodup : ∀ call ∈ calls, call.dependsOn.Nodup) :
    ∀ call ∈ filterDependencies calls,
      CleanDependencies (calls.map ToolPlanCall.stepId) call := by
  intro call hcall
  obtain ⟨original, horiginal, rfl⟩ := List.mem_map.mp hcall
  constructor
  · intro stepId hstepId
    have hkept := (List.mem_filter.mp hstepId).2
    rw [decide_eq_true_eq] at hkept
    exact hkept
  · exact (hnodup original horiginal).filter _

theorem CleanDependencies.require {stepIds : List PyStr} (hclean : CleanDependencies stepIds call)
    {normalizeId : PyStr} (hnormalize : normalizeId ∈ stepIds) :
    CleanDependencies stepIds (requireDependency normalizeId call) := by
  unfold requireDependency
  split
  · rename_i hneeded
    obtain ⟨_, hother, hmissing⟩ := hneeded
    constructor
    · intro stepId hstepId
      rcases List.mem_append.mp hstepId with hold | hnew
      · exact hclean.known stepId hold
      · rw [List.mem_singleton.mp hnew]
        exact ⟨hnormalize, hother.symm⟩
    · apply List.nodup_append.mpr
      refine ⟨hclean.nodup, List.nodup_singleton _, ?_⟩
      intro stepId hstepId other hnew hsame
      rw [hsame, List.mem_singleton.mp hnew] at hstepId
      exact hmissing hstepId
  · exact hclean

theorem cleanDependencies_require {calls : List ToolPlanCall}
    (hclean : ∀ call ∈ calls, CleanDependencies (calls.map ToolPlanCall.stepId) call) :
    ∀ call ∈ requireNormalizeDependency calls,
      CleanDependencies (calls.map ToolPlanCall.stepId) call := by
  unfold requireNormalizeDependency
  split
  · exact hclean
  · rename_i normalize hnormalize
    intro call hcall
    obtain ⟨original, horiginal, rfl⟩ := List.mem_map.mp hcall
    apply (hclean original horiginal).require
    exact List.mem_map_of_mem (List.mem_of_find?_eq_some hnormalize)

theorem mem_dependsOn_requireDependency {normalizeId : PyStr} (call : ToolPlanCall)
    (hchain : call.toolName ∈ chainDependentTools) (hother : call.stepId ≠ normalizeId)
    (stepId : PyStr) :
    stepId ∈ (requireDependency normalizeId call).dependsOn ↔
      stepId ∈ call.dependsOn ∨ stepId = normalizeId := by
  unfold requireDependency
  split
  · exact List.mem_append.trans (or_congr_right List.mem_singleton)
  · rename_i hpresent
    have hmem : normalizeId ∈ call.dependsOn := by
      by_contra hmissing
      exact hpresent ⟨hchain, hother, hmissing⟩
    constructor
    · exact Or.inl
    · intro hcase
      exact hcase.elim id fun hsame => hsame ▸ hmem

theorem mem_dependsOn_keepKnown {knownStepIds : List PyStr} {stepId : PyStr}
    (hknown : stepId ∈ knownStepIds) (hother : stepId ≠ call.stepId) :
    stepId ∈ (keepKnownDependencies knownStepIds call).dependsOn ↔ stepId ∈ call.dependsOn := by
  simp [keepKnownDependencies, ToolPlanCall.withDependsOn, hknown, hother]

/-- Calls that name different tools have different step ids. -/
theorem stepId_ne_of_toolName {calls : List ToolPlanCall}
    (hnodup : (calls.map ToolPlanCall.stepId).Nodup) {normalize : ToolPlanCall}
    (hnormalize : normalize ∈ calls) (htool : normalize.toolName = normalizeTool)
    (hcall : call ∈ calls) (hchain : call.toolName ∈ chainDependentTools) :
    normalize.stepId ≠ call.stepId := by
  intro hsame
  rw [← List.inj_on_of_nodup_map hnodup hnormalize hcall hsame, htool] at hchain
  exact absurd hchain (by decide)

section Normalizing

variable {calls : List ToolPlanCall} {first : ToolPlanCall}

/-- In a plan with distinct step ids a call that reads the call chain waits for
the first normalisation, and for those it named itself. -/
theorem mem_dependsOn_planned (hnodup : (calls.map ToolPlanCall.stepId).Nodup)
    (hfirst : calls.find? (·.toolName = normalizeTool) = some first) {normalize : ToolPlanCall}
    (hnormalize : normalize ∈ calls) (htool : normalize.toolName = normalizeTool)
    (hcall : call ∈ calls) (hchain : call.toolName ∈ chainDependentTools) :
    normalize.stepId ∈ (requireDependency first.stepId
        (keepKnownDependencies (calls.map ToolPlanCall.stepId) call)).dependsOn ↔
      normalize = first ∨ normalize.stepId ∈ call.dependsOn := by
  have hfirstMem := List.mem_of_find?_eq_some hfirst
  have hfirstTool : first.toolName = normalizeTool := by
    simpa using List.find?_some hfirst
  have hfirstOther := stepId_ne_of_toolName hnodup hfirstMem hfirstTool hcall hchain
  have hother := stepId_ne_of_toolName hnodup hnormalize htool hcall hchain
  calc normalize.stepId ∈ (requireDependency first.stepId
          (keepKnownDependencies (calls.map ToolPlanCall.stepId) call)).dependsOn
      ↔ normalize.stepId ∈
            (keepKnownDependencies (calls.map ToolPlanCall.stepId) call).dependsOn ∨
          normalize.stepId = first.stepId :=
        mem_dependsOn_requireDependency
          (keepKnownDependencies (calls.map ToolPlanCall.stepId) call) hchain
          hfirstOther.symm _
    _ ↔ normalize.stepId ∈ call.dependsOn ∨ normalize = first :=
        or_congr (mem_dependsOn_keepKnown (List.mem_map_of_mem hnormalize) hother)
          ⟨List.inj_on_of_nodup_map hnodup hnormalize hfirstMem,
            congrArg ToolPlanCall.stepId⟩
    _ ↔ normalize = first ∨ normalize.stepId ∈ call.dependsOn := or_comm

theorem planned_eq_map (hfirst : calls.find? (·.toolName = normalizeTool) = some first) :
    requireNormalizeDependency (filterDependencies calls) =
      calls.map fun call => requireDependency first.stepId
        (keepKnownDependencies (calls.map ToolPlanCall.stepId) call) := by
  have hfiltered : (filterDependencies calls).find? (·.toolName = normalizeTool) =
      some (keepKnownDependencies (calls.map ToolPlanCall.stepId) first) := by
    rw [filterDependencies, List.find?_map]
    exact congrArg _ hfirst
  rw [requireNormalizeDependency, hfiltered, filterDependencies]
  exact List.map_map

theorem find?_planned_eq_none (hnone : calls.find? (·.toolName = normalizeTool) = none) :
    ∀ call ∈ requireNormalizeDependency (filterDependencies calls),
      call.toolName ≠ normalizeTool := by
  have hnames : ∀ toolName ∈ (requireNormalizeDependency (filterDependencies calls)).map
      ToolPlanCall.toolName, toolName ≠ normalizeTool := by
    rw [map_toolName_requireNormalizeDependency, map_toolName_filterDependencies,
      List.forall_mem_map]
    simpa using hnone
  intro call hcall
  exact hnames call.toolName (List.mem_map_of_mem hcall)

/-- Every call that reads the call chain depends on the first normalisation. -/
def AwaitsFirstNormalize (calls : List ToolPlanCall) : Prop :=
  ∀ normalize, calls.find? (·.toolName = normalizeTool) = some normalize →
    ∀ call ∈ calls, call.toolName ∈ chainDependentTools →
      normalize.stepId ∈ call.dependsOn

/-- Every call that reads the call chain depends on every normalisation. -/
def AwaitsEveryNormalize (calls : List ToolPlanCall) : Prop :=
  ∀ normalize ∈ calls, normalize.toolName = normalizeTool →
    ∀ call ∈ calls, call.toolName ∈ chainDependentTools →
      normalize.stepId ∈ call.dependsOn

theorem awaitsFirstNormalize_planned (hnodup : (calls.map ToolPlanCall.stepId).Nodup) :
    AwaitsFirstNormalize (requireNormalizeDependency (filterDependencies calls)) := by
  intro normalize hnormalize
  cases hfirst : calls.find? (·.toolName = normalizeTool) with
  | none =>
    have htool := find?_planned_eq_none hfirst normalize (List.mem_of_find?_eq_some hnormalize)
    exact absurd (by simpa using List.find?_some hnormalize) htool
  | some first =>
    rw [planned_eq_map hfirst] at hnormalize ⊢
    have hsame : normalize.stepId = first.stepId := by
      rw [List.find?_map] at hnormalize
      obtain ⟨original, horiginal, rfl⟩ := Option.map_eq_some_iff.mp hnormalize
      rw [stepId_requireDependency]
      have hfound : calls.find? (·.toolName = normalizeTool) = some original := by
        rw [← horiginal]
        congr 1
        funext call
        rw [Function.comp_apply, toolName_requireDependency]
        rfl
      rw [hfirst] at hfound
      rw [Option.some.inj hfound]
      rfl
    intro call hcall hchain
    obtain ⟨original, horiginal, rfl⟩ := List.mem_map.mp hcall
    rw [toolName_requireDependency] at hchain
    rw [hsame, mem_dependsOn_planned hnodup hfirst (List.mem_of_find?_eq_some hfirst)
      (by simpa using List.find?_some hfirst) horiginal hchain]
    exact Or.inl rfl

theorem awaitsEveryNormalize_planned_iff (hnodup : (calls.map ToolPlanCall.stepId).Nodup) :
    AwaitsEveryNormalize (requireNormalizeDependency (filterDependencies calls)) ↔
      ∀ normalize ∈ (calls.filter (·.toolName = normalizeTool)).tail, ∀ call ∈ calls,
        call.toolName ∈ chainDependentTools → normalize.stepId ∈ call.dependsOn := by
  cases hfirst : calls.find? (·.toolName = normalizeTool) with
  | none =>
    have hnever := find?_planned_eq_none hfirst
    have hempty : calls.filter (·.toolName = normalizeTool) = [] := by
      rw [← List.head?_eq_none_iff, List.head?_filter]
      exact hfirst
    rw [hempty]
    constructor
    · intro _ normalize hnormalize
      exact absurd hnormalize List.not_mem_nil
    · intro _ normalize hnormalize htool
      exact absurd htool (hnever normalize hnormalize)
  | some first =>
    obtain ⟨later, hlater⟩ :
        ∃ later, calls.filter (·.toolName = normalizeTool) = first :: later := by
      apply List.head?_eq_some_iff.mp
      rw [List.head?_filter]
      exact hfirst
    have hcases : ∀ normalize, normalize ∈ calls ∧ normalize.toolName = normalizeTool ↔
        normalize = first ∨ normalize ∈ later := by
      intro normalize
      rw [← List.mem_cons, ← hlater, List.mem_filter, decide_eq_true_eq]
    have hfresh : ∀ normalize ∈ later, normalize ≠ first := by
      have hdistinct := (hnodup.of_map ToolPlanCall.stepId).filter (·.toolName = normalizeTool)
      rw [hlater, List.nodup_cons] at hdistinct
      intro normalize hnormalize hsame
      exact hdistinct.1 (hsame ▸ hnormalize)
    rw [planned_eq_map hfirst, AwaitsEveryNormalize, hlater, List.tail_cons]
    simp only [List.forall_mem_map, stepId_requireDependency, toolName_requireDependency]
    constructor
    · intro hawaits normalize hnormalize call hcall hchain
      obtain ⟨hmem, htool⟩ := (hcases normalize).mpr (Or.inr hnormalize)
      have hdepends := hawaits normalize hmem htool call hcall hchain
      exact ((mem_dependsOn_planned hnodup hfirst hmem htool hcall hchain).mp
        hdepends).resolve_left (hfresh normalize hnormalize)
    · intro hlists normalize hmem htool call hcall hchain
      apply (mem_dependsOn_planned hnodup hfirst hmem htool hcall hchain).mpr
      apply ((hcases normalize).mp ⟨hmem, htool⟩).imp_right
      intro hnormalize
      exact hlists normalize hnormalize call hcall hchain

end Normalizing

/-! ## The plan -/

/-- What the executor relies on. -/
structure WellFormed (allowedTools : List PyStr) (maxToolCalls : ℤ)
    (calls : List ToolPlanCall) : Prop where
  nonempty : 1 ≤ calls.length
  bounded : (calls.length : ℤ) ≤ maxToolCalls
  allowed : ∀ call ∈ calls, call.toolName ∈ allowedTools
  ids_nonempty : ∀ call ∈ calls, call.stepId ≠ []
  ids_distinct : (calls.map ToolPlanCall.stepId).Nodup
  clean : ∀ call ∈ calls, CleanDependencies (calls.map ToolPlanCall.stepId) call
  normalized : AwaitsFirstNormalize calls

/-- The step ids that the kept items supply themselves are usable: none is
blank, none is supplied twice, and none is the one generated for another item. -/
structure UsableIds (std : Stdlib) (kept : List KeptItem) : Prop where
  nonblank : ∀ item ∈ kept, suppliedStepId std item ≠ some []
  distinct : (kept.filterMap (suppliedStepId std)).Nodup
  apart : ∀ item ∈ kept, ∀ other ∈ kept, suppliedStepId std item = none →
    suppliedStepId std other ≠ some (stepIdFromTool item.toolName item.index)

theorem stepIdOf_eq (std : Stdlib) (item : KeptItem) :
    stepIdOf std item =
      (suppliedStepId std item).getD (stepIdFromTool item.toolName item.index) := by
  rw [stepIdOf, strip_stepIdFromTool]

theorem stepIdOf_ne_nil_iff (std : Stdlib) (item : KeptItem) :
    stepIdOf std item ≠ [] ↔ suppliedStepId std item ≠ some [] := by
  rw [stepIdOf_eq]
  cases suppliedStepId std item with
  | none => simpa using stepIdFromTool_ne_nil item.toolName item.index
  | some id => simp

theorem usableIds_iff (std : Stdlib) (hindex : kept.Pairwise fun a b => a.index ≠ b.index) :
    UsableIds std kept ↔
      (∀ item ∈ kept, stepIdOf std item ≠ []) ∧ (kept.map (stepIdOf std)).Nodup := by
  have hgenerated : kept.Pairwise fun a b =>
      stepIdFromTool a.toolName a.index ≠ stepIdFromTool b.toolName b.index := by
    apply hindex.imp
    intro a b hne hsame
    exact hne (index_eq_of_stepIdFromTool_eq hsame)
  have hids : stepIdOf std = fun item =>
      (suppliedStepId std item).getD (stepIdFromTool item.toolName item.index) := by
    funext item
    exact stepIdOf_eq std item
  simp only [stepIdOf_ne_nil_iff]
  rw [hids, Framing.nodup_getD_iff hgenerated]
  constructor
  · intro husable
    exact ⟨husable.nonblank, husable.distinct, husable.apart⟩
  · rintro ⟨hnonblank, hdistinct, hapart⟩
    exact ⟨hnonblank, hdistinct, hapart⟩

/-- The calls of an accepted plan come from the kept items. -/
theorem plan_of_parse {std : Stdlib} {allowedTools : List PyStr} {maxToolCalls : ℤ}
    {plan : ToolPlan}
    (hplan : parseToolPlanContent std analysis content allowedTools maxToolCalls case =
      .ok (some plan)) :
    ∃ calls, calls ≠ [] ∧
      plan.toolCalls = requireNormalizeDependency (filterDependencies calls) ∧
      List.Forall₂ (fun item call => buildCall std analysis case item = .ok call)
        (keptOf std content allowedTools maxToolCalls) calls := by
  unfold parseToolPlanContent at hplan
  unfold keptOf
  cases hnode : callsNode std content with
  | none =>
    rw [hnode] at hplan
    exact absurd (Except.ok.inj hplan) (Option.some_ne_none plan).symm
  | some node =>
    obtain ⟨parsed, items⟩ := node
    simp only [hnode] at hplan ⊢
    cases hcalls : (keptItems std allowedTools maxToolCalls items).mapM
        (buildCall std analysis case) with
    | error raised =>
      rw [hcalls] at hplan
      exact absurd hplan (by simp [bind, Except.bind])
    | ok calls =>
      rw [hcalls] at hplan
      have hfrom : planFrom std parsed calls = some plan := Except.ok.inj hplan
      unfold planFrom at hfrom
      split at hfrom
      · exact absurd hfrom (Option.some_ne_none plan).symm
      · rename_i hne
        refine ⟨calls, ?_, ?_, Loops.forall₂_of_mapM_ok hcalls⟩
        · rintro rfl
          exact hne rfl
        · rw [← Option.some.inj hfrom]

/-- A kept item that reads the call chain names every normalisation but the first
among its dependencies. -/
def ListsLaterNormalizes (std : Stdlib) (kept : List KeptItem) : Prop :=
  ∀ normalize ∈ (kept.filter (·.toolName = normalizeTool)).tail, ∀ item ∈ kept,
    item.toolName ∈ chainDependentTools →
      stepIdOf std normalize ∈ parseStringList std (item.fields.get? (py "depends_on"))

theorem listsLaterNormalizes_iff {std : Stdlib} {calls : List ToolPlanCall}
    (hbuilt : List.Forall₂ (fun item call => buildCall std analysis case item = .ok call)
      kept calls) :
    ListsLaterNormalizes std kept ↔
      ∀ normalize ∈ (calls.filter (·.toolName = normalizeTool)).tail, ∀ call ∈ calls,
        call.toolName ∈ chainDependentTools → normalize.stepId ∈ call.dependsOn := by
  have hsame : ∀ item call, buildCall std analysis case item = .ok call →
      (decide (item.toolName = normalizeTool) = true ↔
        decide (call.toolName = normalizeTool) = true) := by
    intro item call hcall
    rw [(buildCall_eq_ok hcall).2.1]
  have hlater := Loops.forall₂_tail (List.rel_filter hsame hbuilt)
  apply Loops.forall_mem_iff_of_forall₂ hlater
  intro normalizeItem normalize hnormalize
  apply Loops.forall_mem_iff_of_forall₂ hbuilt
  intro item call hcall
  rw [(buildCall_eq_ok hnormalize).1, (buildCall_eq_ok hcall).2.1, (buildCall_eq_ok hcall).2.2]

theorem length_keptOf_le (std : Stdlib) (content : PyStr) (allowedTools : List PyStr)
    (maxToolCalls : ℤ) :
    (keptOf std content allowedTools maxToolCalls).length ≤ (max 0 maxToolCalls).toNat := by
  unfold keptOf
  split
  · exact Nat.zero_le _
  · exact length_keptItems_le

theorem pairwise_index_keptOf (std : Stdlib) (content : PyStr)
    (allowedTools : List PyStr) (maxToolCalls : ℤ) :
    (keptOf std content allowedTools maxToolCalls).Pairwise
      fun a b => a.index ≠ b.index := by
  unfold keptOf
  split
  · exact List.Pairwise.nil
  · exact pairwise_index_keptItems

theorem toolName_of_mem_keptOf {std : Stdlib} {allowedTools : List PyStr} {maxToolCalls : ℤ}
    (hitem : item ∈ keptOf std content allowedTools maxToolCalls) :
    item.toolName ∈ allowedTools := by
  unfold keptOf at hitem
  split at hitem
  · exact absurd hitem List.not_mem_nil
  · exact toolName_of_mem_keptItems hitem

/-- The step ids of an accepted plan are those of its kept items. -/
theorem map_stepId_planned {std : Stdlib} {calls : List ToolPlanCall}
    (hbuilt : List.Forall₂ (fun item call => buildCall std analysis case item = .ok call)
      kept calls) :
    (requireNormalizeDependency (filterDependencies calls)).map ToolPlanCall.stepId =
      kept.map (stepIdOf std) := by
  rw [map_stepId_requireNormalizeDependency, map_stepId_filterDependencies,
    ← List.forall₂_eq_eq_eq, List.forall₂_map_left_iff, List.forall₂_map_right_iff]
  apply hbuilt.flip.imp
  intro call item hcall
  exact (buildCall_eq_ok hcall).1

theorem wellFormed_iff_usableIds {std : Stdlib} {allowedTools : List PyStr} {maxToolCalls : ℤ}
    {plan : ToolPlan}
    (hplan : parseToolPlanContent std analysis content allowedTools maxToolCalls case =
      .ok (some plan)) :
    WellFormed allowedTools maxToolCalls plan.toolCalls ↔
      UsableIds std (keptOf std content allowedTools maxToolCalls) := by
  obtain ⟨calls, hne, hcalls, hbuilt⟩ := plan_of_parse hplan
  have hids : plan.toolCalls.map ToolPlanCall.stepId =
      (keptOf std content allowedTools maxToolCalls).map (stepIdOf std) :=
    hcalls ▸ map_stepId_planned hbuilt
  have hnodup : ∀ call ∈ calls, call.dependsOn.Nodup := by
    intro call hcall
    obtain ⟨item, _, hitem⟩ := Loops.exists_item_of_mem hbuilt hcall
    rw [(buildCall_eq_ok hitem).2.2]
    exact nodup_parseStringList std _
  have hclean : ∀ call ∈ plan.toolCalls,
      CleanDependencies (plan.toolCalls.map ToolPlanCall.stepId) call := by
    rw [hcalls, map_stepId_requireNormalizeDependency]
    apply cleanDependencies_require
    rw [map_stepId_filterDependencies]
    exact cleanDependencies_filter hnodup
  have hallowed : ∀ call ∈ plan.toolCalls, call.toolName ∈ allowedTools := by
    have hnames : ∀ toolName ∈ plan.toolCalls.map ToolPlanCall.toolName,
        toolName ∈ allowedTools := by
      rw [hcalls, map_toolName_requireNormalizeDependency, map_toolName_filterDependencies,
        List.forall_mem_map]
      intro call hcall
      obtain ⟨item, hitem, hbuild⟩ := Loops.exists_item_of_mem hbuilt hcall
      rw [(buildCall_eq_ok hbuild).2.1]
      exact toolName_of_mem_keptOf hitem
    exact List.forall_mem_map.mp hnames
  have hlength : plan.toolCalls.length = (keptOf std content allowedTools maxToolCalls).length := by
    have hlengths := congrArg List.length hids
    simpa only [List.length_map] using hlengths
  have hnonempty : 1 ≤ plan.toolCalls.length := by
    rw [hlength, hbuilt.length_eq]
    exact List.length_pos_iff.mpr hne
  have hbounded : (plan.toolCalls.length : ℤ) ≤ maxToolCalls := by
    have hkept := length_keptOf_le std content allowedTools maxToolCalls
    omega
  rw [usableIds_iff std (pairwise_index_keptOf std content allowedTools maxToolCalls), ← hids]
  have hmapped : (∀ item ∈ keptOf std content allowedTools maxToolCalls,
      stepIdOf std item ≠ []) ↔ ∀ call ∈ plan.toolCalls, call.stepId ≠ [] :=
    calc (∀ item ∈ keptOf std content allowedTools maxToolCalls, stepIdOf std item ≠ [])
        ↔ ∀ stepId ∈ (keptOf std content allowedTools maxToolCalls).map (stepIdOf std),
            stepId ≠ [] := (List.forall_mem_map (P := fun stepId => stepId ≠ [])).symm
      _ ↔ ∀ stepId ∈ plan.toolCalls.map ToolPlanCall.stepId, stepId ≠ [] := by rw [hids]
      _ ↔ ∀ call ∈ plan.toolCalls, call.stepId ≠ [] := List.forall_mem_map
  rw [hmapped]
  constructor
  · intro hwellFormed
    exact ⟨hwellFormed.ids_nonempty, hwellFormed.ids_distinct⟩
  · rintro ⟨hidsNonempty, hidsDistinct⟩
    refine ⟨hnonempty, hbounded, hallowed, hidsNonempty, hidsDistinct, hclean, ?_⟩
    rw [hcalls, map_stepId_requireNormalizeDependency,
      map_stepId_filterDependencies] at hidsDistinct
    rw [hcalls]
    exact awaitsFirstNormalize_planned hidsDistinct

/-- An accepted plan is well formed exactly when the step ids that the text
supplies are usable.  Its calls wait for every normalisation, not for the first
alone, exactly when they name the later ones themselves. -/
theorem accepted_plan_wellFormed_iff {std : Stdlib} {analysis : TextAnalysis} {content : PyStr}
    {allowedTools : List PyStr} {maxToolCalls : ℤ} {case : CaseCreateRequest} {plan : ToolPlan}
    (hplan : parseToolPlanContent std analysis content allowedTools maxToolCalls case =
      .ok (some plan)) :
    (WellFormed allowedTools maxToolCalls plan.toolCalls ↔
      UsableIds std (keptOf std content allowedTools maxToolCalls)) ∧
    (WellFormed allowedTools maxToolCalls plan.toolCalls ∧
        AwaitsEveryNormalize plan.toolCalls ↔
      UsableIds std (keptOf std content allowedTools maxToolCalls) ∧
        ListsLaterNormalizes std (keptOf std content allowedTools maxToolCalls)) := by
  have husable := wellFormed_iff_usableIds hplan
  refine ⟨husable, ?_⟩
  rw [← husable]
  apply and_congr_right
  intro hwellFormed
  obtain ⟨calls, _, hcalls, hbuilt⟩ := plan_of_parse hplan
  have hdistinct := hwellFormed.ids_distinct
  rw [hcalls, map_stepId_requireNormalizeDependency, map_stepId_filterDependencies] at hdistinct
  calc AwaitsEveryNormalize plan.toolCalls
      ↔ ∀ normalize ∈ (calls.filter (·.toolName = normalizeTool)).tail, ∀ call ∈ calls,
          call.toolName ∈ chainDependentTools → normalize.stepId ∈ call.dependsOn := by
        rw [hcalls]
        exact awaitsEveryNormalize_planned_iff hdistinct
    _ ↔ ListsLaterNormalizes std (keptOf std content allowedTools maxToolCalls) :=
        (listsLaterNormalizes_iff hbuilt).symm

/-! ## Two contents -/

def checkoutCase : CaseCreateRequest where
  title := RequiredStr.ofLiteral "checkout fails" Fixture.checkoutFails
  symptom := RequiredStr.ofLiteral "timeout" (by decide)
  serviceName := RequiredStr.ofLiteral "checkout" Fixture.checkout
  source := RequiredStr.ofLiteral "webhook" Fixture.webhook
  metadata := Mapping.empty

def traceTool : PyStr := py "trace.get_chain"

def plannedItem (stepId : String) : Json :=
  .obj [(py "tool_name", .str traceTool), (py "step_id", .str (py stepId))]

def plannedObject (items : List Json) : Json :=
  .obj [(py "tool_calls", .arr items)]

/-- One call without a step id and one with its own. -/
theorem two_calls_wellFormed :
    ∃ plan, parseToolPlanContent
        (decodingStdlib (py "\x7b\x7d")
          (plannedObject [plannedItem "", plannedItem "second"]))
        noFindings (py "\x7b\x7d") [traceTool] 5 checkoutCase = .ok (some plan) ∧
      WellFormed [traceTool] 5 plan.toolCalls := by
  refine ⟨_, rfl, (@accepted_plan_wellFormed_iff (decodingStdlib (py "\x7b\x7d")
    (plannedObject [plannedItem "", plannedItem "second"])) noFindings (py "\x7b\x7d")
    [traceTool] 5 checkoutCase _ rfl).1.mpr ?_⟩
  constructor
  · decide
  · decide
  · decide

/-- A blank step id is truthy, and stripping it leaves nothing. -/
theorem blank_step_id_accepted :
    ∃ plan, parseToolPlanContent
        (decodingStdlib (py "\x7b\x7d") (plannedObject [plannedItem " "]))
        noFindings (py "\x7b\x7d") [traceTool] 5 checkoutCase = .ok (some plan) ∧
      ¬WellFormed [traceTool] 5 plan.toolCalls := by
  refine ⟨_, rfl, ?_⟩
  intro hwellFormed
  exact hwellFormed.ids_nonempty _ List.mem_cons_self rfl

end RootSeeker.AgentRuntime
