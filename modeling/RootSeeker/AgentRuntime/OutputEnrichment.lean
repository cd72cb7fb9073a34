import RootSeeker.AgentRuntime.ToolPlanParser
import RootSeeker.Core.DictUpdate
import RootSeeker.Core.Loops
import RootSeeker.SkillRuntime.StepOutputs

/-!
# Planned arguments after other steps

A planned call carries the defaults from before any step ran, overlaid with what
the model gave.  Before the call runs, the arguments are completed from the outputs
of the steps that are done.
-/

namespace RootSeeker.AgentRuntime

open Python Contracts Analysis SkillRuntime

/-- The arguments that `parse_tool_plan_content` stores for a call. -/
def plannedArguments (std : Stdlib) (scanners : TextScanners) (toolName : PyStr)
    (case : CaseCreateRequest) (given : Fields) : Fields :=
  normalizePlannedArguments std toolName
    ((buildStepArgs std (scanners.findings std) toolName case).update given)

def skipReason : PyStr := py "_skip_reason"

def callChainKey : PyStr := py "call_chain"

def symbolKey : PyStr := py "symbol"

/-- A list with some text that is not blank. -/
def usableChain (std : Stdlib) (value : Option Json) : Bool :=
  match value with
  | some (.arr items) => items.any fun item => strip (str std item) ≠ []
  | _ => false

def finishFindCallers (std : Stdlib) (defaults merged : Fields) : Fields :=
  if usableChain std (merged.get? callChainKey) then merged.erase skipReason
  else
    match defaults.get? callChainKey with
    | some (.arr (first :: rest)) =>
      (merged.set callChainKey (.arr (first :: rest))).erase skipReason
    | _ => merged

def symbolText (std : Stdlib) (arguments : Fields) : PyStr :=
  strip (truthyText std [arguments.get? symbolKey])

def finishGraphSymbol (std : Stdlib) (defaults merged : Fields) : Fields :=
  let located :=
    if symbolText std merged = [] ∧ symbolText std defaults ≠ [] then
      merged.set symbolKey (.str (symbolText std defaults))
    else merged
  if symbolText std located = [] then located else located.erase skipReason

/-- The methods of the call chain in the file, else those that the arguments name. -/
def withChainMethods (std : Stdlib) (specs : List (PyStr × Option ℕ)) (merged : Fields) :
    Fields :=
  match specs with
  | [] =>
    let methods := coerceCodeReadMethods std merged
    if methods = [] then merged
    else merged.set (py "methods") (.arr (methods.map Json.str))
  | first :: _ =>
    let named := merged.set (py "methods") (.arr (specs.map fun spec => Json.str spec.1))
    match first.2 with
    | none => named
    | some line => named.set (py "line") (.int line)

def finishCodeRead (std : Stdlib) (scanners : TextScanners) (case : CaseCreateRequest)
    (outputs : StepOutputs) (merged : Fields) : Fields :=
  let path := truthyText std [merged.get? (py "path"), merged.get? (py "file_path")]
  let located := if strip path = [] then merged else merged.erase skipReason
  let chain := callChainForCodeRead std scanners outputs case.symptom.val
  let named := withChainMethods std (chainMethodsForPath std scanners.parseFrame path chain) located
  if (named.get? (py "line")).any Json.truthy ∨ (named.get? (py "focus_line")).any Json.truthy
  then named
  else
    match faultLineForPath std scanners.parseFrame path chain with
    | none => named
    | some line => named.set (py "line") (.int line)

/-- `enrich_tool_arguments_with_step_outputs`. -/
def enrichToolArguments (std : Stdlib) (scanners : TextScanners) (toolName : PyStr)
    (arguments : Fields) (case : CaseCreateRequest) (outputs : StepOutputs) : Fields :=
  let defaults := resolveStepArgs std scanners toolName case outputs
  let merged := defaults.update arguments
  let finished :=
    if toolName = py "code.find_callers" then finishFindCallers std defaults merged
    else if toolName = py "graph.impact" ∨ toolName = py "graph.context" then
      finishGraphSymbol std defaults merged
    else if toolName = py "code.read" then
      finishCodeRead std scanners case outputs merged
    else merged
  normalizePlannedArguments std toolName finished

/-! ## Which arguments the outputs reach -/

def IsGraphSymbolTool (toolName : PyStr) : Prop :=
  toolName = py "graph.impact" ∨ toolName = py "graph.context"

instance (toolName : PyStr) : Decidable (IsGraphSymbolTool toolName) :=
  inferInstanceAs (Decidable (_ ∨ _))

section Reach

variable (std : Stdlib) (toolName : PyStr) (given : Fields)

/-- The model gave the call chain or the symbol that the tool works on. -/
def GivesSubject : Prop :=
  (toolName = py "code.find_callers" ∧ usableChain std (given.get? callChainKey) = true) ∨
    (IsGraphSymbolTool toolName ∧ symbolText std given ≠ [])

/-- An unusable call chain or a blank symbol that the model gave. -/
def Unusable (key : PyStr) : Prop :=
  (toolName = py "code.find_callers" ∧ key = callChainKey ∧
      usableChain std (given.get? callChainKey) = false) ∨
    (IsGraphSymbolTool toolName ∧ key = symbolKey ∧ symbolText std given = [])

/-- The arguments are the answer of the resolver overlaid with what the model gave. -/
structure CarriesOutputs (answer arguments : Fields) : Prop where
  kept : ∀ key value, given.get? key = some value → ¬Unusable std toolName given key →
    arguments.get? key = some value
  replaced : ∀ key value, given.get? key = some value → Unusable std toolName given key →
    arguments.get? key = (answer.get? key).or (some value)
  learnt : ∀ key, given.get? key = none → key ≠ skipReason →
    arguments.get? key = answer.get? key
  skipped : (arguments.get? skipReason).isSome → (answer.get? skipReason).isSome

/-- Every default that the model left alone is still what the resolver answers, and no
reason to skip outlives its cause. -/
structure DefaultsStand (defaults answer : Fields) : Prop where
  stands : ∀ key value, defaults.get? key = some value → given.get? key = none →
    key ≠ skipReason → answer.get? key = some value
  skipped : (defaults.get? skipReason).isSome → given.get? skipReason = none →
    (answer.get? skipReason).isSome ∨ toolName = py "code.find_callers" ∨
      IsGraphSymbolTool toolName
  givenSkip : (given.get? skipReason).isSome →
    (answer.get? skipReason).isSome ∧ ¬GivesSubject std toolName given

/-- How the answer, the defaults and what the model gave are put together; a settled
call loses the reason to skip it. -/
structure PutTogether (defaults answer arguments : Fields) (settled : Prop) : Prop where
  unusable : ∀ key value, given.get? key = some value → Unusable std toolName given key →
    arguments.get? key = (answer.get? key).or (some value)
  other : ∀ key, key ≠ skipReason →
    (∀ value, given.get? key = some value → ¬Unusable std toolName given key) →
    arguments.get? key = ((given.get? key).or (defaults.get? key)).or (answer.get? key)
  skipGone : settled → arguments.get? skipReason = none
  skipKept : ¬settled → arguments.get? skipReason =
    ((given.get? skipReason).or (defaults.get? skipReason)).or (answer.get? skipReason)
  settledOfGiven : GivesSubject std toolName given → settled
  settledOfAnswer : toolName = py "code.find_callers" ∨ IsGraphSymbolTool toolName →
    answer.get? skipReason = none → settled
  settles : settled → (toolName = py "code.find_callers" ∨ IsGraphSymbolTool toolName) ∧
    (GivesSubject std toolName given ∨ answer.get? skipReason = none ∨
      ∃ key value, key ≠ skipReason ∧ defaults.get? key = some value ∧
        given.get? key = none ∧ answer.get? key = none)

variable {std toolName given}

theorem Unusable.ne_skipReason {key : PyStr} (hunusable : Unusable std toolName given key) :
    key ≠ skipReason := by
  cases hunusable with
  | inl hchain =>
    rw [hchain.2.1]
    decide
  | inr hsymbol =>
    rw [hsymbol.2.1]
    decide

/-- Put together in this way, the arguments carry the outputs exactly where the defaults
stand. -/
theorem PutTogether.carriesOutputs_iff {defaults answer arguments : Fields} {settled : Prop}
    (htogether : PutTogether std toolName given defaults answer arguments settled) :
    CarriesOutputs std toolName given answer arguments ↔
      DefaultsStand std toolName given defaults answer := by
  constructor
  · intro hcarries
    have hkeptSkip : ∀ value, given.get? skipReason = some value →
        arguments.get? skipReason = some value := fun value hvalue =>
      hcarries.kept skipReason value hvalue fun hunusable => hunusable.ne_skipReason rfl
    constructor
    · intro key value hdefault hnone hne
      have hother := htogether.other key hne fun other hother =>
        absurd hother (by simp [hnone])
      rw [hnone, hdefault, Option.none_or, Option.some_or] at hother
      rw [← hcarries.learnt key hnone hne, hother]
    · intro hdefault hnone
      by_cases hcompleted : toolName = py "code.find_callers" ∨ IsGraphSymbolTool toolName
      · exact .inr hcompleted
      · have hkept := htogether.skipKept fun hsettled => hcompleted (htogether.settles hsettled).1
        refine .inl (hcarries.skipped ?_)
        rw [hkept, hnone, Option.none_or, Option.isSome_or, hdefault, Bool.true_or]
    · intro hgiven
      obtain ⟨value, hvalue⟩ := Option.isSome_iff_exists.mp hgiven
      have hskip := hkeptSkip value hvalue
      refine ⟨hcarries.skipped (by rw [hskip]; rfl), fun hgives => ?_⟩
      rw [htogether.skipGone (htogether.settledOfGiven hgives)] at hskip
      exact absurd hskip (by simp)
  · intro hstand
    constructor
    · intro key value hvalue husable
      by_cases hskip : key = skipReason
      · subst hskip
        obtain ⟨hanswer, hgives⟩ := hstand.givenSkip (by rw [hvalue]; rfl)
        have hunsettled : ¬settled := by
          intro hsettled
          obtain ⟨_, hcause⟩ := htogether.settles hsettled
          obtain hgiven | hnone | ⟨key, value, hne, hdefault, hleft, hnone⟩ := hcause
          · exact hgives hgiven
          · rw [hnone] at hanswer
            exact absurd hanswer (by simp)
          · rw [hstand.stands key value hdefault hleft hne] at hnone
            exact absurd hnone (by simp)
        rw [htogether.skipKept hunsettled, hvalue, Option.some_or, Option.some_or]
      · rw [htogether.other key hskip fun _ _ => husable, hvalue, Option.some_or, Option.some_or]
    · exact htogether.unusable
    · intro key hnone hne
      have hother := htogether.other key hne fun other hother =>
        absurd hother (by simp [hnone])
      rw [hnone, Option.none_or] at hother
      rw [hother]
      cases hdefault : Dict.get? defaults key with
      | none => rfl
      | some value => exact (hstand.stands key value hdefault hnone hne).symm
    · intro hsome
      by_contra hanswer
      rw [Option.not_isSome_iff_eq_none] at hanswer
      have hunsettled : ¬settled := by
        intro hsettled
        rw [htogether.skipGone hsettled] at hsome
        exact absurd hsome (by simp)
      have hother : ¬(toolName = py "code.find_callers" ∨ IsGraphSymbolTool toolName) :=
        fun hcompleted => hunsettled (htogether.settledOfAnswer hcompleted hanswer)
      rw [htogether.skipKept hunsettled, hanswer, Option.or_none] at hsome
      cases hgiven : Dict.get? given skipReason with
      | some value =>
        have hstays := (hstand.givenSkip (by rw [hgiven]; rfl)).1
        rw [hanswer] at hstays
        exact absurd hstays (by simp)
      | none =>
        rw [hgiven, Option.none_or] at hsome
        cases hstand.skipped hsome hgiven with
        | inl hstays =>
          rw [hanswer] at hstays
          exact absurd hstays (by simp)
        | inr hcompleted => exact hother hcompleted

end Reach

/-! ## Keys of the defaults -/

theorem keys_unless_sublist {condition : Prop} [Decidable condition] (key : PyStr) (value : Json) :
    List.Sublist (Dict.keys (if condition then [] else [(key, value)])) [key] := by
  split
  · exact List.nil_sublist _
  · exact List.Sublist.refl _

theorem keys_when_sublist {condition : Prop} [Decidable condition] (key : PyStr) (value : Json) :
    List.Sublist (Dict.keys (if condition then [(key, value)] else [])) [key] := by
  split
  · exact List.Sublist.refl _
  · exact List.nil_sublist _

theorem keys_append_sublist {left right : Fields} {leftKeys rightKeys : List PyStr}
    (hleft : List.Sublist left.keys leftKeys) (hright : List.Sublist right.keys rightKeys) :
    List.Sublist (Dict.keys (left ++ right)) (leftKeys ++ rightKeys) := by
  rw [Dict.keys, List.map_append]
  exact hleft.append hright

/-- The defaults name each key once. -/
theorem nodup_keys_buildStepArgs (std : Stdlib) (analysis : TextAnalysis) (action : PyStr)
    (case : CaseCreateRequest) : (buildStepArgs std analysis action case).keys.Nodup := by
  have hone : ∀ (key : PyStr) (value : Json), (Dict.keys [(key, value)]).Nodup :=
    fun key value => List.nodup_singleton key
  have hfirst : ∀ {first second : PyStr} (value : Json) (text : PyStr), first ≠ second →
      (Dict.keys ([(first, value)] ++ optionalText second text)).Nodup := by
    intro first second value text hne
    refine List.Nodup.sublist (keys_append_sublist (List.Sublist.refl [first])
      (keys_unless_sublist second _)) ?_
    exact List.nodup_cons.mpr ⟨by simpa using hne, List.nodup_singleton second⟩
  have hbranch : ∀ {condition : Prop} [Decidable condition] {left right : Fields},
      left.keys.Nodup → right.keys.Nodup → (if condition then left else right).keys.Nodup := by
    intro condition _ left right hleft hright
    split
    · exact hleft
    · exact hright
  have hcatalog : [py "tenant", py "environment", py "service_name"].Nodup := by decide
  have hsemantic : [py "query", py "limit"].Nodup := by decide
  have hread : ∀ serviceName, (codeReadArguments std analysis case serviceName).keys.Nodup := by
    intro serviceName
    refine hbranch (hone _ _) (List.Nodup.sublist (keys_append_sublist (keys_append_sublist
      (keys_append_sublist (List.Sublist.refl [py "path"]) (keys_unless_sublist (py "repo") _))
      (keys_unless_sublist (py "methods") _)) (keys_unless_sublist (py "line") _)) ?_)
    decide
  have hgraph : ∀ serviceName,
      (graphSymbolArguments analysis action case serviceName).keys.Nodup := by
    intro serviceName
    rw [graphSymbolArguments]
    split
    · exact hone _ _
    · refine List.Nodup.sublist (keys_append_sublist (keys_append_sublist
        (List.Sublist.refl [py "symbol"]) (keys_when_sublist (py "direction") _))
        (keys_unless_sublist (py "repo") _)) ?_
      decide
  have hquery : ∀ serviceName, (graphQueryArguments case serviceName).keys.Nodup :=
    fun serviceName => hbranch (hone _ _) (hfirst _ _ (by decide))
  rw [buildStepArgs]
  exact hbranch (hone _ _) (hbranch hcatalog (hbranch (hfirst _ _ (by decide))
    (hbranch (hfirst _ _ (by decide)) (hbranch (hone _ _) (hbranch (hone _ _)
      (hbranch hsemantic (hbranch (hread _) (hbranch (hone _ _) (hbranch (hgraph _)
        (hbranch (hquery _) List.nodup_nil))))))))))

theorem get?_update_of_nodup (entries : Fields) {updates : Fields}
    (hnodup : updates.keys.Nodup) (key : PyStr) :
    (entries.update updates).get? key = (updates.get? key).or (entries.get? key) := by
  rw [Dict.get?_update, Dict.get?_reverse hnodup]

/-- What the model gave wins over the defaults, and these win over the answer. -/
theorem get?_overlay {answer defaults given : Fields} (hdefaults : defaults.keys.Nodup)
    (hgiven : given.keys.Nodup) (key : PyStr) :
    (answer.update (defaults.update given)).get? key =
      ((given.get? key).or (defaults.get? key)).or (answer.get? key) := by
  rw [get?_update_of_nodup _ (Dict.nodup_keys_update hdefaults given),
    get?_update_of_nodup _ hgiven]

/-! ## The call chain and the symbol -/

section Subject

variable {std : Stdlib} {toolName : PyStr} {given defaults answer arguments : Fields}

/-- The common part of finishing a call for callers and one for a graph symbol: the
subject that the arguments name, else the one of the answer, settles the call. -/
structure Finishes (usable : Option Json → Prop) (subject : PyStr)
    (answer merged arguments : Fields) : Prop where
  named : usable (merged.get? subject) → arguments = merged.erase skipReason
  replaced : ∀ value, ¬usable (merged.get? subject) → answer.get? subject = some value →
    arguments = (merged.set subject value).erase skipReason
  left : ¬usable (merged.get? subject) → answer.get? subject = none → arguments = merged

/-- The resolver names a usable subject or gives a reason to skip. -/
structure NamesOrSkips (usable : Option Json → Prop) (subject : PyStr) (fields : Fields) :
    Prop where
  usableSubject : ∀ value, fields.get? subject = some value → usable (some value)
  notSkipped : ∀ value, fields.get? subject = some value → fields.get? skipReason = none
  skips : fields.get? subject = none → fields.get? skipReason ≠ none

theorem Finishes.putTogether {usable : Option Json → Prop} {subject : PyStr}
    (hfinishes : Finishes usable subject answer (answer.update (defaults.update given)) arguments)
    (hanswer : NamesOrSkips usable subject answer)
    (hdefaults : NamesOrSkips usable subject defaults) (hnothing : ¬usable none)
    (hsubject : subject ≠ skipReason) (hnodup : defaults.keys.Nodup) (hgiven : given.keys.Nodup)
    (hcompleted : toolName = py "code.find_callers" ∨ IsGraphSymbolTool toolName)
    (hgives : GivesSubject std toolName given ↔ usable (given.get? subject))
    (hunusable : ∀ key, Unusable std toolName given key ↔
      key = subject ∧ ¬usable (given.get? subject)) :
    PutTogether std toolName given defaults answer arguments
      (usable ((answer.update (defaults.update given)).get? subject) ∨
        answer.get? subject ≠ none) := by
  have hoverlay := fun key => @get?_overlay answer defaults given hnodup hgiven key
  have hnamed : ∀ value, given.get? subject = some value →
      (answer.update (defaults.update given)).get? subject = some value := by
    intro value hvalue
    rw [hoverlay, hvalue, Option.some_or, Option.some_or]
  have hleft : ¬usable ((answer.update (defaults.update given)).get? subject) →
      given.get? subject = none → answer.get? subject = none := by
    intro hunnamed hnone
    rw [hoverlay, hnone, Option.none_or] at hunnamed
    cases hdefault : Dict.get? defaults subject with
    | some value =>
      rw [hdefault, Option.some_or] at hunnamed
      exact absurd (hdefaults.usableSubject value hdefault) hunnamed
    | none =>
      rw [hdefault, Option.none_or] at hunnamed
      cases hvalue : Dict.get? answer subject with
      | none => rfl
      | some value =>
        rw [hvalue] at hunnamed
        exact absurd (hanswer.usableSubject value hvalue) hunnamed
  constructor
  · intro key value hvalue hkey
    obtain ⟨rfl, hnot⟩ := (hunusable key).mp hkey
    have hunnamed : ¬usable ((answer.update (defaults.update given)).get? key) := by
      rw [hnamed value hvalue, ← hvalue]
      exact hnot
    cases hfound : Dict.get? answer key with
    | some found =>
      rw [hfinishes.replaced found hunnamed hfound, Dict.get?_erase_of_ne _ hsubject,
        Dict.get?_set_self, Option.some_or]
    | none => rw [hfinishes.left hunnamed hfound, hnamed value hvalue, Option.none_or]
  · intro key hne husable
    rw [← hoverlay]
    by_cases hmerged : usable ((answer.update (defaults.update given)).get? subject)
    · rw [hfinishes.named hmerged, Dict.get?_erase_of_ne _ hne]
    · cases hfound : Dict.get? answer subject with
      | none => rw [hfinishes.left hmerged hfound]
      | some found =>
        rw [hfinishes.replaced found hmerged hfound, Dict.get?_erase_of_ne _ hne]
        by_cases hkey : key = subject
        · subst hkey
          cases hvalue : Dict.get? given key with
          | none =>
            rw [hleft hmerged hvalue] at hfound
            exact absurd hfound (by simp)
          | some value =>
            rw [hnamed value hvalue, ← hvalue] at hmerged
            exact absurd ((hunusable key).mpr ⟨rfl, hmerged⟩) (husable value hvalue)
        · rw [Dict.get?_set_of_ne _ _ hkey]
  · intro hsettled
    by_cases hmerged : usable ((answer.update (defaults.update given)).get? subject)
    · rw [hfinishes.named hmerged, Dict.get?_erase_self]
    · obtain ⟨found, hfound⟩ := Option.ne_none_iff_exists'.mp (hsettled.resolve_left hmerged)
      rw [hfinishes.replaced found hmerged hfound, Dict.get?_erase_self]
  · intro hunsettled
    rw [not_or, not_not] at hunsettled
    rw [hfinishes.left hunsettled.1 hunsettled.2, hoverlay]
  · intro hsubjectGiven
    have husable := hgives.mp hsubjectGiven
    cases hvalue : Dict.get? given subject with
    | none =>
      rw [hvalue] at husable
      exact absurd husable hnothing
    | some value =>
      rw [hvalue] at husable
      rw [hnamed value hvalue]
      exact .inl husable
  · intro _ hnone
    exact .inr fun hmissing => hanswer.skips hmissing hnone
  · intro hsettled
    refine ⟨hcompleted, ?_⟩
    cases hfound : Dict.get? answer subject with
    | some found => exact .inr (.inl (hanswer.notSkipped found hfound))
    | none =>
      have hmerged := hsettled.resolve_right (not_not.mpr hfound)
      cases hvalue : Dict.get? given subject with
      | some value =>
        rw [hnamed value hvalue, ← hvalue] at hmerged
        exact .inl (hgives.mpr hmerged)
      | none =>
        rw [hoverlay, hvalue, hfound, Option.none_or, Option.or_none] at hmerged
        cases hdefault : Dict.get? defaults subject with
        | none =>
          rw [hdefault] at hmerged
          exact absurd hmerged hnothing
        | some value => exact .inr (.inr ⟨subject, value, hsubject, hdefault, hvalue, hfound⟩)

end Subject

section Tools

variable (std : Stdlib) (scanners : TextScanners) (case : CaseCreateRequest)
  (outputs : StepOutputs)

theorem namesOrSkips_skip {usable : Option Json → Prop} {subject : PyStr}
    (hsubject : subject ≠ skipReason) (reason : PyStr) :
    NamesOrSkips usable subject (skip reason) := by
  have hnone : Dict.get? (skip reason) subject = none := by
    rw [skip, Dict.get?]
    exact if_neg (Ne.symm hsubject)
  constructor
  · intro value hvalue
    rw [hnone] at hvalue
    exact absurd hvalue (by simp)
  · intro value hvalue
    rw [hnone] at hvalue
    exact absurd hvalue (by simp)
  · intro _ hskip
    exact absurd hskip (by simp [skip, Dict.get?, skipReason])

theorem ne_blank_of_mem_trimmedTexts {items : List Json} {text : PyStr}
    (htext : text ∈ trimmedTexts std items) : strip text ≠ [] := by
  rw [trimmedTexts, List.mem_filter] at htext
  obtain ⟨item, _, rfl⟩ := List.mem_map.mp htext.1
  rw [strip, strip, stripBy_idem]
  exact of_decide_eq_true htext.2

theorem ne_blank_of_mem_callChain {text : PyStr}
    (htext : text ∈ callChainFromOutputs std outputs) : strip text ≠ [] := by
  rw [callChainFromOutputs] at htext
  split at htext
  · exact ne_blank_of_mem_trimmedTexts std htext
  · exact absurd htext List.not_mem_nil

theorem get?_append_optionalText {fields : Fields} {key other : PyStr} (hne : key ≠ other)
    (text : PyStr) : Dict.get? (fields ++ optionalText other text) key = fields.get? key := by
  rw [Dict.get?_append, optionalText]
  split
  · exact Option.or_none
  · rw [Dict.get?, if_neg (Ne.symm hne)]
    exact Option.or_none

/-- The resolver gives a call chain that is not empty or a reason to skip. -/
theorem findCallers_cases (serviceName : PyStr) :
    (callChainFromOutputs std outputs = [] ∧
        findCallersStepArguments std outputs serviceName =
          skip (py "No call_chain from normalize-incident.")) ∨
      ∃ first rest, callChainFromOutputs std outputs = first :: rest ∧
        (findCallersStepArguments std outputs serviceName).get? callChainKey =
          some (.arr ((first :: rest).map Json.str)) ∧
        (findCallersStepArguments std outputs serviceName).get? skipReason = none := by
  rw [findCallersStepArguments]
  cases hchain : callChainFromOutputs std outputs with
  | nil => exact .inl ⟨rfl, rfl⟩
  | cons first rest =>
    have hget : ∀ key, key ≠ py "service_name" → key ≠ py "repo" →
        Dict.get? (([(py "call_chain", .arr ((first :: rest).map Json.str)),
          (py "max_depth", .int 5), (py "limit", .int 30),
          (py "prefer_graph", .bool true)] : Fields) ++
            optionalText (py "service_name") serviceName ++
            optionalText (py "repo") (stepRepo std outputs serviceName)) key =
          Dict.get? [(py "call_chain", .arr ((first :: rest).map Json.str)),
            (py "max_depth", .int 5), (py "limit", .int 30),
            (py "prefer_graph", .bool true)] key := fun key hservice hrepo => by
      rw [get?_append_optionalText hrepo, get?_append_optionalText hservice]
    exact .inr ⟨first, rest, rfl, hget _ (by decide) (by decide), hget _ (by decide) (by decide)⟩

theorem namesOrSkips_findCallers (serviceName : PyStr) :
    NamesOrSkips (fun value => usableChain std value = true) callChainKey
      (findCallersStepArguments std outputs serviceName) := by
  cases findCallers_cases std outputs serviceName with
  | inl hskip =>
    rw [hskip.2]
    exact namesOrSkips_skip (by decide) _
  | inr hchain =>
    obtain ⟨first, rest, hfound, hget, hnone⟩ := hchain
    have hfirst : strip first ≠ [] :=
      ne_blank_of_mem_callChain std outputs (hfound ▸ List.mem_cons_self)
    constructor
    · intro value hvalue
      obtain rfl := Option.some.inj (hvalue.symm.trans hget)
      simp [usableChain, str, hfirst]
    · exact fun _ _ => hnone
    · intro hmissing
      rw [hmissing] at hget
      exact absurd hget (by simp)

theorem strip_of_symbolFromCallChain {symbol : PyStr}
    (hsymbol : symbolFromCallChain std outputs = some symbol) :
    strip symbol = symbol ∧ symbol ≠ [] := by
  rw [symbolFromCallChain, Option.filter_eq_some_iff] at hsymbol
  obtain ⟨first, _, rfl⟩ := Option.map_eq_some_iff.mp hsymbol.1
  exact ⟨stripBy_idem _ _, of_decide_eq_true hsymbol.2⟩

/-- The resolver names a stripped symbol or gives a reason to skip. -/
theorem graphSymbol_cases (action symptom serviceName : PyStr) :
    graphSymbolStepArguments std scanners action outputs symptom serviceName =
        skip (py "No fault symbol from call_chain or symptom.") ∨
      ∃ symbol, (strip symbol = symbol ∧ symbol ≠ []) ∧
        (graphSymbolStepArguments std scanners action outputs symptom serviceName).get?
          symbolKey = some (.str symbol) ∧
        (graphSymbolStepArguments std scanners action outputs symptom serviceName).get?
          skipReason = none := by
  rw [graphSymbolStepArguments]
  cases hfound : (symbolFromCallChain std outputs).or
      (symbolFromSymptom scanners.wordChar symptom) with
  | none => exact .inl rfl
  | some symbol =>
    have hsymbol : strip symbol = symbol ∧ symbol ≠ [] := by
      cases Option.or_eq_some_iff.mp hfound with
      | inl hchain => exact strip_of_symbolFromCallChain std outputs hchain
      | inr hsymptom => exact strip_of_symbolFromSymptom scanners.notSpace hsymptom.2
    have hdirection : ∀ key, key ≠ py "direction" →
        Dict.get? (if action = py "graph.impact" then
          [(py "direction", Json.str (py "upstream"))] else []) key = none := by
      intro key hne
      split
      · rw [Dict.get?]
        exact if_neg (Ne.symm hne)
      · rfl
    have hget : ∀ key, key ≠ py "direction" → key ≠ py "repo" →
        Dict.get? ([(py "symbol", Json.str symbol)] ++
            (if action = py "graph.impact" then [(py "direction", .str (py "upstream"))]
              else []) ++
            optionalText (py "repo") (stepRepo std outputs serviceName)) key =
          Dict.get? [(py "symbol", Json.str symbol)] key := fun key hne hrepo => by
      rw [get?_append_optionalText hrepo, Dict.get?_append, hdirection key hne, Option.or_none]
    exact .inr ⟨symbol, hsymbol, hget _ (by decide) (by decide), hget _ (by decide) (by decide)⟩

theorem namesOrSkips_graphSymbol (action symptom serviceName : PyStr) :
    NamesOrSkips (fun value => strip (truthyText std [value]) ≠ []) symbolKey
      (graphSymbolStepArguments std scanners action outputs symptom serviceName) := by
  cases graphSymbol_cases std scanners outputs action symptom serviceName with
  | inl hskip =>
    rw [hskip]
    exact namesOrSkips_skip (by decide) _
  | inr hnamed =>
    obtain ⟨symbol, hsymbol, hget, hnone⟩ := hnamed
    constructor
    · intro value hvalue
      obtain rfl := Option.some.inj (hvalue.symm.trans hget)
      rw [truthyText_text std hsymbol.2, hsymbol.1]
      exact hsymbol.2
    · exact fun _ _ => hnone
    · intro hmissing
      rw [hmissing] at hget
      exact absurd hget (by simp)

theorem finishes_findCallers {answer : Fields}
    (hanswer : NamesOrSkips (fun value => usableChain std value = true) callChainKey answer)
    (merged : Fields) :
    Finishes (fun value => usableChain std value = true) callChainKey answer merged
      (finishFindCallers std answer merged) := by
  constructor
  · exact fun husable => if_pos husable
  · intro value hunusable hvalue
    have husable := hanswer.usableSubject value hvalue
    rw [finishFindCallers, if_neg hunusable, hvalue]
    cases value with
    | arr items =>
      cases items with
      | nil => exact absurd husable (by simp [usableChain])
      | cons first rest => rfl
    | _ => exact absurd husable (by simp [usableChain])
  · intro hunusable hnone
    rw [finishFindCallers, if_neg hunusable, hnone]

theorem finishes_graphSymbol (action symptom serviceName : PyStr) (merged : Fields) :
    Finishes (fun value => strip (truthyText std [value]) ≠ []) symbolKey
      (graphSymbolStepArguments std scanners action outputs symptom serviceName) merged
      (finishGraphSymbol std
        (graphSymbolStepArguments std scanners action outputs symptom serviceName)
        merged) := by
  constructor
  · intro hnamed
    have hstays : ¬(symbolText std merged = [] ∧ symbolText std
        (graphSymbolStepArguments std scanners action outputs symptom serviceName) ≠ []) :=
      fun hboth => hnamed hboth.1
    rw [finishGraphSymbol, if_neg hstays]
    exact if_neg hnamed
  · intro value hblank hvalue
    obtain hskip | ⟨symbol, hsymbol, hget, _⟩ :=
      graphSymbol_cases std scanners outputs action symptom serviceName
    · rw [hskip] at hvalue
      have hmissing : (none : Option Json) = some value := hvalue
      exact absurd hmissing (by simp)
    · obtain rfl := Option.some.inj (hvalue.symm.trans hget)
      have htext : symbolText std
          (graphSymbolStepArguments std scanners action outputs symptom serviceName) = symbol := by
        rw [symbolText, hget, truthyText_text std hsymbol.2, hsymbol.1]
      have hset : symbolText std (merged.set symbolKey (.str symbol)) = symbol := by
        rw [symbolText, Dict.get?_set_self, truthyText_text std hsymbol.2, hsymbol.1]
      have hlocated : (if symbolText std merged = [] ∧ symbol ≠ [] then
          merged.set symbolKey (.str symbol) else merged) =
            merged.set symbolKey (.str symbol) := if_pos ⟨not_not.mp hblank, hsymbol.2⟩
      rw [finishGraphSymbol, htext, hlocated, hset]
      exact if_neg hsymbol.2
  · intro hblank hnone
    have htext : symbolText std
        (graphSymbolStepArguments std scanners action outputs symptom serviceName) = [] := by
      rw [symbolText, hnone]
      rfl
    have hlocated : (if symbolText std merged = [] ∧ ([] : PyStr) ≠ [] then
        merged.set symbolKey (.str []) else merged) = merged :=
      if_neg fun hboth => hboth.2 rfl
    rw [finishGraphSymbol, htext, hlocated]
    exact if_pos (not_not.mp hblank)

end Tools

theorem resolveStepArgs_findCallers (std : Stdlib) (scanners : TextScanners)
    (case : CaseCreateRequest) (outputs : StepOutputs) :
    resolveStepArgs std scanners (py "code.find_callers") case outputs =
      findCallersStepArguments std outputs (mergedService std scanners case outputs) :=
  rfl

theorem resolveStepArgs_graphSymbol (std : Stdlib) (scanners : TextScanners) {toolName : PyStr}
    (htool : IsGraphSymbolTool toolName) (case : CaseCreateRequest) (outputs : StepOutputs) :
    resolveStepArgs std scanners toolName case outputs =
      graphSymbolStepArguments std scanners toolName outputs (mergedSymptom std case outputs)
        (mergedService std scanners case outputs) := by
  cases htool with
  | inl himpact =>
    subst himpact
    rfl
  | inr hcontext =>
    subst hcontext
    rfl

theorem normalizePlannedArguments_of_ne (std : Stdlib) {toolName : PyStr}
    (hread : toolName ≠ py "code.read") (arguments : Fields) :
    normalizePlannedArguments std toolName arguments = arguments :=
  if_pos hread

theorem putTogether_findCallers (std : Stdlib) (scanners : TextScanners) (case : CaseCreateRequest)
    (outputs : StepOutputs) {given : Fields} (hgiven : given.keys.Nodup) :
    ∃ settled, PutTogether std (py "code.find_callers") given
      (buildStepArgs std (scanners.findings std) (py "code.find_callers") case)
      (resolveStepArgs std scanners (py "code.find_callers") case outputs)
      (enrichToolArguments std scanners (py "code.find_callers")
        (plannedArguments std scanners (py "code.find_callers") case given) case outputs)
      settled := by
  have hanswer := namesOrSkips_findCallers std outputs (mergedService std scanners case outputs)
  have hdefaults := namesOrSkips_findCallers std [] (mergedService std scanners case [])
  have hgraph : ¬IsGraphSymbolTool (py "code.find_callers") := by decide
  have hnodup := nodup_keys_buildStepArgs std (scanners.findings std) (py "code.find_callers") case
  rw [← resolveStepArgs_findCallers] at hanswer hdefaults
  rw [resolveStepArgs_nil] at hdefaults
  refine ⟨_, (finishes_findCallers std hanswer _).putTogether hanswer hdefaults ?_ (by decide)
    hnodup hgiven (.inl rfl) ?_ ?_⟩
  · simp [usableChain]
  · simp [GivesSubject, hgraph]
  · simp [Unusable, hgraph]

theorem putTogether_graphSymbol (std : Stdlib) (scanners : TextScanners) {toolName : PyStr}
    (htool : IsGraphSymbolTool toolName) (case : CaseCreateRequest) (outputs : StepOutputs)
    {given : Fields} (hgiven : given.keys.Nodup) :
    ∃ settled, PutTogether std toolName given
      (buildStepArgs std (scanners.findings std) toolName case)
      (resolveStepArgs std scanners toolName case outputs)
      (enrichToolArguments std scanners toolName
        (plannedArguments std scanners toolName case given) case outputs) settled := by
  have hread : toolName ≠ py "code.read" := by
    rintro rfl
    exact absurd htool (by decide)
  have hcallers : toolName ≠ py "code.find_callers" := by
    rintro rfl
    exact absurd htool (by decide)
  have hanswer := namesOrSkips_graphSymbol std scanners outputs toolName
    (mergedSymptom std case outputs) (mergedService std scanners case outputs)
  have hdefaults := namesOrSkips_graphSymbol std scanners [] toolName
    (mergedSymptom std case []) (mergedService std scanners case [])
  have hfinishes := finishes_graphSymbol std scanners outputs toolName
    (mergedSymptom std case outputs) (mergedService std scanners case outputs)
  have hnodup := nodup_keys_buildStepArgs std (scanners.findings std) toolName case
  rw [← resolveStepArgs_graphSymbol std scanners htool] at hanswer hdefaults hfinishes
  rw [resolveStepArgs_nil] at hdefaults
  have hsymbolTool : toolName = py "graph.impact" ∨ toolName = py "graph.context" := htool
  rw [plannedArguments, normalizePlannedArguments_of_ne std hread, enrichToolArguments,
    normalizePlannedArguments_of_ne std hread, if_neg hcallers, if_pos hsymbolTool]
  refine ⟨_, (hfinishes _).putTogether hanswer hdefaults ?_ (by decide) hnodup hgiven
    (.inr htool) ?_ ?_⟩
  · exact not_not.mpr rfl
  · simp [GivesSubject, hcallers, htool, symbolText]
  · simp [Unusable, hcallers, htool, symbolText]

/-- For the other tools the arguments are simply laid over each other. -/
theorem putTogether_other (std : Stdlib) (scanners : TextScanners) {toolName : PyStr}
    (hread : toolName ≠ py "code.read") (hcallers : toolName ≠ py "code.find_callers")
    (hgraph : ¬IsGraphSymbolTool toolName) (case : CaseCreateRequest) (outputs : StepOutputs)
    {given : Fields} (hgiven : given.keys.Nodup) :
    PutTogether std toolName given (buildStepArgs std (scanners.findings std) toolName case)
      (resolveStepArgs std scanners toolName case outputs)
      (enrichToolArguments std scanners toolName
        (plannedArguments std scanners toolName case given) case outputs) False := by
  have hnodup := nodup_keys_buildStepArgs std (scanners.findings std) toolName case
  have hunusable : ∀ key, ¬Unusable std toolName given key := by
    rintro key (hchain | hsymbol)
    · exact hcallers hchain.1
    · exact hgraph hsymbol.1
  have hgives : ¬GivesSubject std toolName given := by
    rintro (hchain | hsymbol)
    · exact hcallers hchain.1
    · exact hgraph hsymbol.1
  have hcompleted : ¬(toolName = py "code.find_callers" ∨ IsGraphSymbolTool toolName) :=
    not_or.mpr ⟨hcallers, hgraph⟩
  have hsymbolTool : ¬(toolName = py "graph.impact" ∨ toolName = py "graph.context") := hgraph
  rw [plannedArguments, normalizePlannedArguments_of_ne std hread, enrichToolArguments,
    normalizePlannedArguments_of_ne std hread, if_neg hcallers, if_neg hsymbolTool,
    if_neg hread]
  constructor
  · exact fun key _ _ hkey => absurd hkey (hunusable key)
  · exact fun key _ _ => get?_overlay hnodup hgiven key
  · exact False.elim
  · exact fun _ => get?_overlay hnodup hgiven skipReason
  · exact hgives
  · exact fun htool => absurd htool hcompleted
  · exact False.elim

/-- For callers nothing but a reason to skip comes from before any step. -/
theorem defaultsStand_findCallers (std : Stdlib) (analysis : TextAnalysis)
    (case : CaseCreateRequest) {given : Fields} (hskip : given.get? skipReason = none)
    (answer : Fields) :
    DefaultsStand std (py "code.find_callers") given
      (buildStepArgs std analysis (py "code.find_callers") case) answer := by
  have hdefaults : buildStepArgs std analysis (py "code.find_callers") case =
      skip (py "No call_chain from normalize-incident.") := rfl
  rw [hdefaults]
  constructor
  · intro key value hdefault _ hne
    rw [skip, Dict.get?] at hdefault
    exact absurd ((if_neg (Ne.symm hne)).symm.trans hdefault) (by simp)
  · exact fun _ _ => .inr (.inl rfl)
  · intro hgiven
    rw [hskip] at hgiven
    exact absurd hgiven (by simp)

/-- The outputs reach a call exactly where the defaults from before any step stand. -/
theorem enrich_carries_outputs_iff (std : Stdlib) (scanners : TextScanners) {toolName : PyStr}
    (hread : toolName ≠ py "code.read") (case : CaseCreateRequest) (outputs : StepOutputs)
    {given : Fields} (hgiven : given.keys.Nodup) :
    CarriesOutputs std toolName given (resolveStepArgs std scanners toolName case outputs)
        (enrichToolArguments std scanners toolName
          (plannedArguments std scanners toolName case given) case outputs) ↔
      DefaultsStand std toolName given
        (buildStepArgs std (scanners.findings std) toolName case)
        (resolveStepArgs std scanners toolName case outputs) := by
  by_cases hcallers : toolName = py "code.find_callers"
  · subst hcallers
    obtain ⟨_, htogether⟩ := putTogether_findCallers std scanners case outputs hgiven
    exact htogether.carriesOutputs_iff
  · by_cases hgraph : IsGraphSymbolTool toolName
    · obtain ⟨_, htogether⟩ := putTogether_graphSymbol std scanners hgraph case outputs hgiven
      exact htogether.carriesOutputs_iff
    · exact (putTogether_other std scanners hread hcallers hgraph case outputs
        hgiven).carriesOutputs_iff

def noScanners : TextScanners where
  extractServiceName _ := none
  zoektSearchQuery _ := []
  codeIdentifiers _ := []
  codePath _ := none
  callChainSummary _ := []
  parseFrame _ := none
  wordChar _ := false
  notSpace _ hword := absurd hword (by decide)

def decryptCase : CaseCreateRequest where
  title := .ofLiteral "t" Fixture.title
  symptom := .ofLiteral "AES decrypt failed" Fixture.decryptFailed
  serviceName := .ofLiteral "training-manage-api" Fixture.trainingApi
  source := .ofLiteral "unit-agent" Fixture.unitAgent
  metadata := ⟨[], by decide⟩

/-- A normalised incident with a call chain and the trace id of its message. -/
def normalizedOutputs : StepOutputs :=
  [(py "llm-1-incident-normalize", [(py "case_request", .obj
        [(py "title", .str (py "t")), (py "symptom", .str (py "AES decrypt failed")),
          (py "service_name", .str (py "training-manage-api")),
          (py "source", .str (py "unit-agent")),
          (py "metadata", .obj [(py "trace_id", .str (py "abc"))])]),
      (py "extracted", .obj
        [(py "call_chain", .arr
          [.str (py "AesTypeHandler.decryptField (AesTypeHandler.java:53)")])])])]

/-- The call chain of the normalised incident reaches the search for callers. -/
theorem call_chain_reaches_callers :
    CarriesOutputs asciiStdlib (py "code.find_callers") []
      (resolveStepArgs asciiStdlib noScanners (py "code.find_callers") decryptCase
        normalizedOutputs)
      (enrichToolArguments asciiStdlib noScanners (py "code.find_callers")
        (plannedArguments asciiStdlib noScanners (py "code.find_callers") decryptCase [])
        decryptCase normalizedOutputs) := by
  have hnodup : (Dict.keys ([] : Fields)).Nodup := List.nodup_nil
  apply (enrich_carries_outputs_iff asciiStdlib noScanners (by decide) decryptCase
    normalizedOutputs hnodup).mpr
  exact defaultsStand_findCallers asciiStdlib _ decryptCase rfl _

/-- The trace id of the normalised incident does not reach a call planned before. -/
theorem trace_chain_reads_placeholder :
    ¬CarriesOutputs asciiStdlib (py "trace.get_chain") []
      (resolveStepArgs asciiStdlib noScanners (py "trace.get_chain") decryptCase
        normalizedOutputs)
      (enrichToolArguments asciiStdlib noScanners (py "trace.get_chain")
        (plannedArguments asciiStdlib noScanners (py "trace.get_chain") decryptCase [])
        decryptCase normalizedOutputs) := by
  intro hcarries
  have hlearnt := hcarries.learnt (py "trace_id") rfl (by decide)
  have hread : some (Json.str (py "trace-unknown")) = some (Json.str (py "abc")) := hlearnt
  exact absurd (Json.str.inj (Option.some.inj hread)) (by decide)

end RootSeeker.AgentRuntime
