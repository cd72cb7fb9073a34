import RootSeeker.Core.DictUpdate
import RootSeeker.Core.Replacement
import RootSeeker.SkillSystem.Registry

/-!
# Environment of a playbook

A declared key is looked up among the admin items and in the process environment. The value
goes to the MCP servers, and into the text of the playbook unless the item is marked secret.
-/

namespace RootSeeker.SkillSystem

open Python Replacement

/-- An item as the admin store keeps it. -/
structure AdminItem where
  key : PyStr
  value : PyStr
  secret : Bool
  /-- `None` if the item has no scope. -/
  scope : Option PyStr

namespace AdminItem

def scopeName (item : AdminItem) : PyStr :=
  item.scope.getD (py "runtime")

/-- An item of the skill layer. -/
def isSkill (item : AdminItem) : Bool :=
  item.key ≠ [] && item.scopeName = py "skill"

/-- An item of the layer below; items for MCP servers only are in neither. -/
def isRuntime (item : AdminItem) : Bool :=
  item.key ≠ [] && item.scopeName ≠ py "mcp" && item.scopeName ≠ py "skill"

end AdminItem

structure SkillEnvResolution where
  mcpExtra : Dict PyStr PyStr
  substitutions : Dict PyStr PyStr
  missing : List PyStr

def envPlaceholder (key : PyStr) : PyStr :=
  py "$\x7b" ++ key ++ py "\x7d"

def substituteNonSecret (text : PyStr) (substitutions : Dict PyStr PyStr) : PyStr :=
  substitutions.foldl (fun text entry => replaceAll (envPlaceholder entry.1) entry.2 text) text

/-! ## The layers -/

abbrev ItemTable := Dict PyStr AdminItem

structure ItemLayers where
  runtime : ItemTable
  skill : ItemTable

def addItem (layers : ItemLayers) (item : AdminItem) : ItemLayers :=
  if item.key = [] then layers
  else if item.scopeName = py "mcp" then layers
  else if item.scopeName = py "skill" then
    { layers with skill := layers.skill.set item.key item }
  else { layers with runtime := layers.runtime.set item.key item }

def itemLayers (items : List AdminItem) : ItemLayers :=
  items.foldl addItem ⟨[], []⟩

/-- `_resolve_key`: the value and whether it is secret. -/
def resolveKey (key : PyStr) (processEnv : Dict PyStr PyStr) (layers : ItemLayers) :
    Option PyStr × Bool :=
  let base := (processEnv.get? key, false)
  let overridden := match layers.runtime.get? key with
    | none => base
    | some item => (some item.value, item.secret)
  match layers.skill.get? key with
  | none => overridden
  | some item => (some item.value, item.secret)

/-! ## Resolving the keys -/

structure EnvTables where
  mcpExtra : Dict PyStr PyStr
  substitutions : Dict PyStr PyStr

section Resolve

variable (resolve : PyStr → Option PyStr × Bool)

def addResolved (tables : EnvTables) (key : PyStr) : EnvTables :=
  match resolve key with
  | (none, _) => tables
  | (some value, secret) =>
    { mcpExtra := tables.mcpExtra.set key value
      substitutions :=
        if secret then tables.substitutions else tables.substitutions.set key value }

def addOptional (tables : EnvTables) (key : PyStr) : EnvTables :=
  if key ∈ tables.mcpExtra.keys then tables else addResolved resolve tables key

def resolvedTables (declaredKeys optionalKeys : List PyStr) : EnvTables :=
  optionalKeys.foldl (addOptional resolve) (declaredKeys.foldl (addResolved resolve) ⟨[], []⟩)

end Resolve

def resolveSkillEnv (declaredKeys optionalKeys : List PyStr) (processEnv : Dict PyStr PyStr)
    (adminItems : List AdminItem) (require : Bool) : Except SkillFailure SkillEnvResolution :=
  let tables := resolvedTables (fun key => resolveKey key processEnv (itemLayers adminItems))
    declaredKeys optionalKeys
  let missing := declaredKeys.filter fun key => key ∉ tables.mcpExtra.keys ∧ key ∉ optionalKeys
  if missing ≠ [] ∧ require = true then
    .error (.skillError (py "SKILL_ENV_MISSING")
      (py "Missing required env keys: " ++ join (py ", ") missing))
  else .ok ⟨tables.mcpExtra, tables.substitutions, missing⟩

/-- The text of a playbook that `run_once` gives to the planner. -/
def playbookText (body : PyStr) (declaredKeys optionalKeys : List PyStr)
    (processEnv : Dict PyStr PyStr) (adminItems : List AdminItem) : Except SkillFailure PyStr :=
  (resolveSkillEnv declaredKeys optionalKeys processEnv adminItems true).map fun resolution =>
    substituteNonSecret body resolution.substitutions

/-! ## The last item of a key -/

def lastItem (keep : AdminItem → Bool) (items : List AdminItem) (key : PyStr) :
    Option AdminItem :=
  (items.filter fun item => keep item && item.key = key).getLast?

/-- The value by the order of the layers. -/
def layeredValue (processEnv : Dict PyStr PyStr) (items : List AdminItem) (key : PyStr) :
    Option PyStr :=
  (((lastItem AdminItem.isSkill items key).or (lastItem AdminItem.isRuntime items key)).map
    AdminItem.value).or (processEnv.get? key)

theorem lastItem_append (keep : AdminItem → Bool) (items : List AdminItem) (item : AdminItem)
    (key : PyStr) :
    lastItem keep (items ++ [item]) key =
      if keep item && item.key = key then some item else lastItem keep items key := by
  rw [lastItem, List.filter_append, List.filter_cons, List.filter_nil]
  cases hkeep : keep item && decide (item.key = key) with
  | true => rw [if_pos rfl, if_pos rfl, List.getLast?_concat]
  | false =>
    rw [if_neg Bool.false_ne_true, if_neg Bool.false_ne_true, List.append_nil]
    rfl

theorem itemLayers_append (items : List AdminItem) (item : AdminItem) :
    itemLayers (items ++ [item]) = addItem (itemLayers items) item := by
  rw [itemLayers, List.foldl_append]
  rfl

theorem get?_skill_itemLayers (items : List AdminItem) (key : PyStr) :
    (itemLayers items).skill.get? key = lastItem AdminItem.isSkill items key := by
  induction items using List.reverseRecOn with
  | nil => rfl
  | append_singleton items item ih =>
    rw [itemLayers_append, lastItem_append, addItem, AdminItem.isSkill, ← ih]
    by_cases hkey : item.key = []
    · simp [hkey]
    · by_cases hskill : item.scopeName = py "skill"
      · have hmcp : item.scopeName ≠ py "mcp" := by rw [hskill]; decide
        rw [if_neg hkey, if_neg hmcp, if_pos hskill]
        by_cases hsame : item.key = key
        · subst hsame
          simp [hkey, hskill]
        · simp [hsame, Dict.get?_set_of_ne _ _ (Ne.symm hsame)]
      · rw [if_neg hkey, if_neg hskill]
        simp only [hskill, decide_false, Bool.and_false, Bool.false_and]
        by_cases hmcp : item.scopeName = py "mcp"
        · rw [if_pos hmcp]
          rfl
        · rw [if_neg hmcp]
          rfl

theorem get?_runtime_itemLayers (items : List AdminItem) (key : PyStr) :
    (itemLayers items).runtime.get? key = lastItem AdminItem.isRuntime items key := by
  induction items using List.reverseRecOn with
  | nil => rfl
  | append_singleton items item ih =>
    rw [itemLayers_append, lastItem_append, addItem, AdminItem.isRuntime, ← ih]
    by_cases hkey : item.key = []
    · simp [hkey]
    · by_cases hmcp : item.scopeName = py "mcp"
      · simp [hkey, hmcp]
      · by_cases hskill : item.scopeName = py "skill"
        · rw [if_neg hkey, if_neg hmcp, if_pos hskill]
          simp [hskill]
        · rw [if_neg hkey, if_neg hmcp, if_neg hskill]
          by_cases hsame : item.key = key
          · subst hsame
            simp [hkey, hmcp, hskill]
          · simp [hsame, Dict.get?_set_of_ne _ _ (Ne.symm hsame)]

/-- What a key resolves to follows the order of the layers. -/
theorem resolveKey_value (processEnv : Dict PyStr PyStr) (items : List AdminItem) (key : PyStr) :
    (resolveKey key processEnv (itemLayers items)).1 = layeredValue processEnv items key := by
  rw [resolveKey, get?_skill_itemLayers, get?_runtime_itemLayers, layeredValue]
  cases lastItem AdminItem.isSkill items key with
  | some item => rfl
  | none =>
    cases lastItem AdminItem.isRuntime items key with
    | some item => rfl
    | none => rfl

/-! ## What the tables hold -/

section Tables

variable {resolve : PyStr → Option PyStr × Bool}

/-- The tables after some keys. -/
def Filled (resolve : PyStr → Option PyStr × Bool) (done : List PyStr) (tables : EnvTables) :
    Prop :=
  ∀ key, tables.mcpExtra.get? key = if key ∈ done then (resolve key).1 else none

variable {done : List PyStr} {tables : EnvTables}

theorem Filled.addResolved (hfilled : Filled resolve done tables) (key : PyStr) :
    Filled resolve (done ++ [key]) (addResolved resolve tables key) := by
  intro other
  rw [SkillSystem.addResolved]
  by_cases hsame : other = key
  · subst hsame
    rw [if_pos (by simp)]
    cases hresolve : resolve other with
    | mk value secret =>
      cases value with
      | none =>
        simp only []
        rw [hfilled other, hresolve]
        exact ite_self none
      | some value => exact Dict.get?_set_self _ _ _
  · have hmem : other ∈ done ++ [key] ↔ other ∈ done := by simp [hsame]
    simp only [hmem]
    rw [← hfilled other]
    cases hresolve : resolve key with
    | mk value secret =>
      cases value with
      | none => rfl
      | some value => exact Dict.get?_set_of_ne _ _ hsame

theorem Filled.addOptional (hfilled : Filled resolve done tables) (key : PyStr) :
    Filled resolve (done ++ [key]) (addOptional resolve tables key) := by
  rw [SkillSystem.addOptional]
  by_cases hknown : key ∈ tables.mcpExtra.keys
  · rw [if_pos hknown]
    have hdone : key ∈ done := by
      by_contra hnew
      have hnone := hfilled key
      rw [if_neg hnew] at hnone
      rw [Dict.mem_keys_iff, hnone] at hknown
      exact Bool.false_ne_true hknown
    intro other
    have hmem : other ∈ done ++ [key] ↔ other ∈ done := by
      rw [List.mem_append, List.mem_singleton, or_iff_left_of_imp]
      rintro rfl
      exact hdone
    simp only [hmem]
    exact hfilled other
  · rw [if_neg hknown]
    exact hfilled.addResolved key

theorem Filled.foldl {step : EnvTables → PyStr → EnvTables}
    (hstep : ∀ {done tables}, Filled resolve done tables → ∀ key,
      Filled resolve (done ++ [key]) (step tables key)) (hfilled : Filled resolve done tables)
    (keys : List PyStr) : Filled resolve (done ++ keys) (keys.foldl step tables) := by
  induction keys generalizing done tables with
  | nil => rwa [List.append_nil]
  | cons key keys ih =>
    rw [List.append_cons]
    exact ih (hstep hfilled key)

/-- Each key of the lists has what it resolves to. -/
theorem get?_resolvedTables (declaredKeys optionalKeys : List PyStr) {key : PyStr}
    (hkey : key ∈ declaredKeys ++ optionalKeys) :
    (resolvedTables resolve declaredKeys optionalKeys).mcpExtra.get? key = (resolve key).1 := by
  have hempty : Filled resolve [] ⟨[], []⟩ := fun key => rfl
  have hdeclared := hempty.foldl Filled.addResolved declaredKeys
  have hall := hdeclared.foldl Filled.addOptional optionalKeys
  rw [resolvedTables, hall key, List.nil_append, if_pos hkey]

end Tables

/-! ## Two lists of items -/

/-- The lists differ only in the values of items that are marked secret. -/
def SameButSecrets (left right : List AdminItem) : Prop :=
  List.Forall₂ (fun first second : AdminItem => first.key = second.key ∧
    first.secret = second.secret ∧ first.scope = second.scope ∧
    (first.secret = false → first.value = second.value)) left right

/-- What two items of a key may differ in. -/
def SameVisible (first second : Option AdminItem) : Prop :=
  first.isSome = second.isSome ∧ ∀ left right, first = some left → second = some right →
    left.secret = right.secret ∧ (left.secret = false → left.value = right.value)

variable {right left : List AdminItem}

theorem SameButSecrets.find? (hsame : SameButSecrets left right) {wanted : AdminItem → Bool}
    (hwanted : ∀ first second : AdminItem, first.key = second.key →
      first.scope = second.scope → wanted first = wanted second) :
    SameVisible (left.find? wanted) (right.find? wanted) := by
  induction hsame with
  | nil => exact ⟨rfl, fun _ _ hnone => absurd hnone (by simp)⟩
  | @cons first second _ _ hitems _ ih =>
    have hfound := hwanted first second hitems.1 hitems.2.2.1
    cases hfirst : wanted first with
    | true =>
      rw [List.find?_cons_of_pos hfirst, List.find?_cons_of_pos (hfound ▸ hfirst)]
      refine ⟨rfl, fun one other hone hother => ?_⟩
      rw [← Option.some.inj hone, ← Option.some.inj hother]
      exact ⟨hitems.2.1, hitems.2.2.2⟩
    | false =>
      rw [List.find?_cons_of_neg (by rw [hfirst]; exact Bool.false_ne_true),
        List.find?_cons_of_neg (by rw [← hfound, hfirst]; exact Bool.false_ne_true)]
      exact ih

theorem SameButSecrets.lastItem (hsame : SameButSecrets left right) {keep : AdminItem → Bool}
    (hkeep : ∀ first second : AdminItem, first.key = second.key →
      first.scope = second.scope → keep first = keep second) (key : PyStr) :
    SameVisible (lastItem keep left key) (lastItem keep right key) := by
  have hfind : ∀ items, SkillSystem.lastItem keep items key =
      items.reverse.find? fun item => keep item && item.key = key := by
    intro items
    rw [SkillSystem.lastItem, ← List.head?_reverse, ← List.filter_reverse, List.head?_filter]
  rw [hfind, hfind]
  apply SameButSecrets.find? (List.rel_reverse hsame)
  intro first second hkey hscope
  rw [hkeep first second hkey hscope, hkey]

theorem isSkill_congr (first second : AdminItem) (hkey : first.key = second.key)
    (hscope : first.scope = second.scope) : first.isSkill = second.isSkill := by
  rw [AdminItem.isSkill, AdminItem.isSkill, AdminItem.scopeName, AdminItem.scopeName, hkey, hscope]

theorem isRuntime_congr (first second : AdminItem) (hkey : first.key = second.key)
    (hscope : first.scope = second.scope) : first.isRuntime = second.isRuntime := by
  rw [AdminItem.isRuntime, AdminItem.isRuntime, AdminItem.scopeName, AdminItem.scopeName, hkey,
    hscope]

/-- The same secrecy, and the same value unless it is secret. -/
def SameShown (first second : Option PyStr × Bool) : Prop :=
  first.1.isSome = second.1.isSome ∧ first.2 = second.2 ∧ (first.2 = false → first.1 = second.1)

theorem SameButSecrets.resolveKey (hsame : SameButSecrets left right)
    (processEnv : Dict PyStr PyStr) (key : PyStr) :
    SameShown (resolveKey key processEnv (itemLayers left))
      (resolveKey key processEnv (itemLayers right)) := by
  have hskill := hsame.lastItem isSkill_congr key
  have hruntime := hsame.lastItem isRuntime_congr key
  rw [SkillSystem.resolveKey, SkillSystem.resolveKey, get?_skill_itemLayers, get?_skill_itemLayers,
    get?_runtime_itemLayers, get?_runtime_itemLayers]
  cases hfirst : SkillSystem.lastItem AdminItem.isSkill left key with
  | some first =>
    cases hsecond : SkillSystem.lastItem AdminItem.isSkill right key with
    | none => rw [hfirst, hsecond] at hskill; exact absurd hskill.1 (by simp)
    | some second =>
      obtain ⟨hsecret, hvalue⟩ := hskill.2 first second hfirst hsecond
      exact ⟨rfl, hsecret, fun hopen => congrArg some (hvalue hopen)⟩
  | none =>
    cases hsecond : SkillSystem.lastItem AdminItem.isSkill right key with
    | some second => rw [hfirst, hsecond] at hskill; exact absurd hskill.1 (by simp)
    | none =>
      cases hlower : SkillSystem.lastItem AdminItem.isRuntime left key with
      | some first =>
        cases hother : SkillSystem.lastItem AdminItem.isRuntime right key with
        | none => rw [hlower, hother] at hruntime; exact absurd hruntime.1 (by simp)
        | some second =>
          obtain ⟨hsecret, hvalue⟩ := hruntime.2 first second hlower hother
          exact ⟨rfl, hsecret, fun hopen => congrArg some (hvalue hopen)⟩
      | none =>
        cases hother : SkillSystem.lastItem AdminItem.isRuntime right key with
        | some second => rw [hlower, hother] at hruntime; exact absurd hruntime.1 (by simp)
        | none => exact ⟨rfl, rfl, fun _ => rfl⟩

/-- The keys of the values and all substitutions. -/
def SamePromptTables (first second : EnvTables) : Prop :=
  first.mcpExtra.keys = second.mcpExtra.keys ∧ first.substitutions = second.substitutions

section TwoRuns

variable {first second : PyStr → Option PyStr × Bool}
  (hshown : ∀ key, SameShown (first key) (second key))

include hshown

theorem SamePromptTables.addResolved {left right : EnvTables} (hsame : SamePromptTables left right)
    (key : PyStr) :
    SamePromptTables (addResolved first left key) (addResolved second right key) := by
  obtain ⟨hsome, hsecret, hvalue⟩ := hshown key
  rw [SkillSystem.addResolved, SkillSystem.addResolved]
  cases hfirst : first key with
  | mk value secret =>
    cases hsecond : second key with
    | mk other hidden =>
      rw [hfirst, hsecond] at hsome hsecret hvalue
      simp only at hsome hsecret hvalue
      subst hsecret
      cases value with
      | none =>
        cases other with
        | none => exact hsame
        | some other => cases hsome
      | some value =>
        cases other with
        | none => cases hsome
        | some other =>
          refine ⟨?_, ?_⟩
          · simp only [Dict.keys_set, hsame.1]
          · cases secret with
            | true => exact hsame.2
            | false =>
              obtain rfl := Option.some.inj (hvalue rfl)
              exact congrArg (Dict.set · key value) hsame.2

theorem SamePromptTables.addOptional {left right : EnvTables} (hsame : SamePromptTables left right)
    (key : PyStr) :
    SamePromptTables (addOptional first left key) (addOptional second right key) := by
  rw [SkillSystem.addOptional, SkillSystem.addOptional, ← hsame.1]
  by_cases hknown : key ∈ left.mcpExtra.keys
  · rw [if_pos hknown, if_pos hknown]
    exact hsame
  · rw [if_neg hknown, if_neg hknown]
    exact SamePromptTables.addResolved hshown hsame key

omit hshown in
theorem SamePromptTables.foldl {step other : EnvTables → PyStr → EnvTables}
    (hstep : ∀ {left right}, SamePromptTables left right → ∀ key,
      SamePromptTables (step left key) (other right key)) {left right : EnvTables}
    (hsame : SamePromptTables left right) (keys : List PyStr) :
    SamePromptTables (keys.foldl step left) (keys.foldl other right) := by
  induction keys generalizing left right with
  | nil => exact hsame
  | cons key keys ih => exact ih (hstep hsame key)

theorem samePromptTables_resolved (declaredKeys optionalKeys : List PyStr) :
    SamePromptTables (resolvedTables first declaredKeys optionalKeys)
      (resolvedTables second declaredKeys optionalKeys) := by
  have hempty : SamePromptTables ⟨[], []⟩ ⟨[], []⟩ := ⟨rfl, rfl⟩
  have hdeclared := SamePromptTables.foldl (SamePromptTables.addResolved hshown) hempty declaredKeys
  exact SamePromptTables.foldl (SamePromptTables.addOptional hshown) hdeclared optionalKeys

end TwoRuns

/-- Both runs raise the same error, or neither raises and the substitutions are the same. -/
theorem resolveSkillEnv_of_sameButSecrets (hsame : SameButSecrets left right)
    (declaredKeys optionalKeys : List PyStr) (processEnv : Dict PyStr PyStr) (require : Bool) :
    (resolveSkillEnv declaredKeys optionalKeys processEnv left require).map
        SkillEnvResolution.substitutions =
      (resolveSkillEnv declaredKeys optionalKeys processEnv right require).map
        SkillEnvResolution.substitutions := by
  have htables := samePromptTables_resolved (fun key => hsame.resolveKey processEnv key)
    declaredKeys optionalKeys
  rw [resolveSkillEnv, resolveSkillEnv]
  simp only [htables.1]
  by_cases hraise : (declaredKeys.filter fun key => decide (key ∉ (resolvedTables
      (fun key => resolveKey key processEnv (itemLayers right)) declaredKeys
        optionalKeys).mcpExtra.keys ∧ key ∉ optionalKeys)) ≠ [] ∧ require = true
  · rw [if_pos hraise, if_pos hraise]
  · rw [if_neg hraise, if_neg hraise]
    exact congrArg Except.ok htables.2

/-- Secret values change neither whether the environment resolves nor the text for the planner,
and every key of the lists has the value of its highest layer. -/
theorem secrets_never_reach_prompt {left right : List AdminItem} (hsame : SameButSecrets left right)
    (body : PyStr) (declaredKeys optionalKeys : List PyStr) (processEnv : Dict PyStr PyStr)
    (require : Bool) :
    (resolveSkillEnv declaredKeys optionalKeys processEnv left require).map
        (fun resolution => substituteNonSecret body resolution.substitutions) =
      (resolveSkillEnv declaredKeys optionalKeys processEnv right require).map
        (fun resolution => substituteNonSecret body resolution.substitutions) ∧
    playbookText body declaredKeys optionalKeys processEnv left =
      playbookText body declaredKeys optionalKeys processEnv right ∧
    ∀ resolution, resolveSkillEnv declaredKeys optionalKeys processEnv left require =
        .ok resolution →
      ∀ key ∈ declaredKeys ++ optionalKeys,
        resolution.mcpExtra.get? key = layeredValue processEnv left key := by
  have htext : ∀ require,
      (resolveSkillEnv declaredKeys optionalKeys processEnv left require).map
          (fun resolution => substituteNonSecret body resolution.substitutions) =
        (resolveSkillEnv declaredKeys optionalKeys processEnv right require).map
          (fun resolution => substituteNonSecret body resolution.substitutions) := by
    intro require
    have hboth := congrArg (Except.map (substituteNonSecret body))
      (resolveSkillEnv_of_sameButSecrets hsame declaredKeys optionalKeys processEnv require)
    have hcompose : ∀ result : Except SkillFailure SkillEnvResolution,
        (result.map SkillEnvResolution.substitutions).map (substituteNonSecret body) =
          result.map fun resolution => substituteNonSecret body resolution.substitutions := by
      intro result
      cases result with
      | error failure => rfl
      | ok resolution => rfl
    rwa [hcompose, hcompose] at hboth
  refine ⟨htext require, htext true, fun resolution hresolved key hkey => ?_⟩
  have hextra : resolution.mcpExtra = (resolvedTables
      (fun key => resolveKey key processEnv (itemLayers left)) declaredKeys
        optionalKeys).mcpExtra := by
    rw [resolveSkillEnv] at hresolved
    split at hresolved
    · cases hresolved
    · cases hresolved
      rfl
  rw [hextra, get?_resolvedTables declaredKeys optionalKeys hkey, resolveKey_value]

/-- A token of which only the value differs. -/
def tokenItem (value : String) : AdminItem :=
  ⟨py "TOKEN", py value, true, some (py "skill")⟩

theorem token_value_not_in_prompt :
    playbookText (py "use $\x7bTOKEN\x7d") [py "TOKEN"] [] [] [tokenItem "s3cret"] =
      playbookText (py "use $\x7bTOKEN\x7d") [py "TOKEN"] [] [] [tokenItem "other"] :=
  (secrets_never_reach_prompt
    (.cons ⟨rfl, rfl, rfl, fun hopen => absurd hopen (by decide)⟩ .nil) _ _ _ _ true).2.1

end RootSeeker.SkillSystem
