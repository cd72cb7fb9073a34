import RootSeeker.AgentRuntime.OutputEnrichment

/-!
# Renaming completed steps

A planned call finds the outputs of earlier steps by the shape of the payload and
by the text of the step id.  Renaming the steps keeps the arguments of every call
exactly where it keeps what the ids are looked up for.
-/

namespace RootSeeker.AgentRuntime

open Python Contracts Analysis SkillRuntime

/-- The outputs of these steps under other ids. -/
def renameSteps (rename : PyStr → PyStr) (outputs : StepOutputs) : StepOutputs :=
  outputs.map fun entry => (rename entry.1, entry.2)

def searchId : PyStr := py "code-search"

/-- The renaming keeps which step is the code search and which ids name the
normalisation; only the last id may change in this if all others name it. -/
structure KeepsLookups (std : Stdlib) (ids : List PyStr) (rename : PyStr → PyStr) : Prop where
  search : ∀ id ∈ ids, rename id = searchId ↔ id = searchId
  normalize : ∀ id ∈ ids, namesNormalize std (rename id) = namesNormalize std id ∨
    ids.getLast? = some id ∧ ∀ other ∈ ids, other ≠ id → namesNormalize std other = true

/-! ## A renaming that keeps the lookups keeps the arguments -/

section Kept

variable {std : Stdlib} {outputs renamed : StepOutputs}

/-- The arguments depend on the outputs through two lookups only. -/
theorem enrichToolArguments_congr (scanners : TextScanners)
    (hnormalize : normalizeOutput std renamed = normalizeOutput std outputs)
    (hsearch : renamed.get? searchId = outputs.get? searchId) (toolName : PyStr)
    (arguments : Fields) (case : CaseCreateRequest) :
    enrichToolArguments std scanners toolName arguments case renamed =
      enrichToolArguments std scanners toolName arguments case outputs := by
  have hchain : callChainFromOutputs std renamed = callChainFromOutputs std outputs := by
    rw [callChainFromOutputs, callChainFromOutputs, hnormalize]
  have hhit : hitText std renamed = hitText std outputs := by
    funext key
    rw [hitText, hitText, ← searchId, hsearch]
  have hcase : normalizedCaseRequest std renamed = normalizedCaseRequest std outputs := by
    rw [normalizedCaseRequest, normalizedCaseRequest, hnormalize]
  have hpath : pathFromNormalizedInput std renamed = pathFromNormalizedInput std outputs := by
    rw [pathFromNormalizedInput, pathFromNormalizedInput, hnormalize]
  have hmetadata : mergedMetadata std case renamed = mergedMetadata std case outputs := by
    rw [mergedMetadata, mergedMetadata, hcase]
  have hsymptom : mergedSymptom std case renamed = mergedSymptom std case outputs := by
    rw [mergedSymptom, mergedSymptom, hcase]
  have hservice : mergedService std scanners case renamed =
      mergedService std scanners case outputs := by
    rw [mergedService, mergedService, hcase, hsymptom]
  have hrepo : stepRepo std renamed = stepRepo std outputs := by
    funext serviceName
    rw [stepRepo, stepRepo, repoFromCodeSearch, repoFromCodeSearch, hhit]
  have hread : callChainForCodeRead std scanners renamed =
      callChainForCodeRead std scanners outputs := by
    funext symptom
    rw [callChainForCodeRead, callChainForCodeRead, hchain]
  have hnormal : normalizeArguments std case renamed = normalizeArguments std case outputs := by
    rw [normalizeArguments, normalizeArguments, hmetadata]
  have hreadStep : codeReadStepArguments std scanners renamed =
      codeReadStepArguments std scanners outputs := by
    funext metadata symptom serviceName
    rw [codeReadStepArguments, codeReadStepArguments, pathFromCodeSearch, pathFromCodeSearch,
      hhit, hpath, hread, hchain, hrepo]
  have hcallers : findCallersStepArguments std renamed = findCallersStepArguments std outputs := by
    funext serviceName
    rw [findCallersStepArguments, findCallersStepArguments, hchain, hrepo]
  have hgraph : graphSymbolStepArguments std scanners toolName renamed =
      graphSymbolStepArguments std scanners toolName outputs := by
    funext symptom serviceName
    rw [graphSymbolStepArguments, graphSymbolStepArguments, symbolFromCallChain,
      symbolFromCallChain, hchain, hrepo]
  have hresolve : resolveStepArgs std scanners toolName case renamed =
      resolveStepArgs std scanners toolName case outputs := by
    rw [resolveStepArgs, resolveStepArgs, hmetadata, hsymptom, hservice, hnormal, hreadStep,
      hcallers, hgraph]
  have hfinish : finishCodeRead std scanners case renamed =
      finishCodeRead std scanners case outputs := by
    funext merged
    rw [finishCodeRead, finishCodeRead, hread]
  rw [enrichToolArguments, enrichToolArguments, hresolve, hfinish]

theorem get?_renameSteps {rename : PyStr → PyStr} {key : PyStr}
    (hkey : ∀ id ∈ outputs.keys, rename id = key ↔ id = key) :
    (renameSteps rename outputs).get? key = outputs.get? key := by
  induction outputs with
  | nil => rfl
  | cons entry rest ih =>
    obtain ⟨id, payload⟩ := entry
    have hrest : (renameSteps rename rest).get? key = Dict.get? rest key :=
      ih fun other hother => hkey other (List.mem_cons_of_mem _ hother)
    have hhead : rename id = key ↔ id = key := hkey id List.mem_cons_self
    rw [renameSteps, List.map_cons, Dict.get?, Dict.get?, ← renameSteps, hrest]
    exact if_congr hhead rfl rfl

/-- An output that counts as a normalised incident. -/
def isCandidate (entry : PyStr × Fields) : Bool :=
  hasExtracted entry.2 || hasCase entry.2

def isPreferred (std : Stdlib) (entry : PyStr × Fields) : Bool :=
  namesNormalize std entry.1 || hasCase entry.2

theorem normalizeOutput_eq (std : Stdlib) (outputs : StepOutputs) :
    normalizeOutput std outputs =
      ((((outputs.filter isCandidate).find? (isPreferred std)).or
        (outputs.filter isCandidate).head?).map Prod.snd).getD [] :=
  rfl

theorem filter_renameSteps (rename : PyStr → PyStr) :
    (renameSteps rename outputs).filter isCandidate =
      renameSteps rename (outputs.filter isCandidate) := by
  rw [renameSteps, List.filter_map]
  rfl

/-- If all outputs but the last one are preferred, the first candidate is taken. -/
theorem find?_or_head? {entries : StepOutputs} {preferred : PyStr × Fields → Bool}
    (hall : ∀ entry ∈ entries.dropLast, preferred entry = true) :
    (entries.find? preferred).or entries.head? = entries.head? := by
  cases entries with
  | nil => rfl
  | cons first rest =>
    by_cases hfirst : preferred first = true
    · rw [List.find?_cons_of_pos hfirst]
      rfl
    · cases rest with
      | nil =>
        rw [List.find?_cons_of_neg hfirst]
        rfl
      | cons second later => exact absurd (hall first List.mem_cons_self) hfirst

theorem mem_dropLast_of_mem_filter {entries : StepOutputs} {keep : PyStr × Fields → Bool}
    {entry : PyStr × Fields} (hentry : entry ∈ (entries.filter keep).dropLast) :
    entry ∈ entries.dropLast := by
  cases List.eq_nil_or_concat entries with
  | inl hnil =>
    subst hnil
    exact hentry
  | inr hconcat =>
    obtain ⟨front, last, rfl⟩ := hconcat
    rw [List.concat_eq_append, List.dropLast_concat]
    rw [List.concat_eq_append, List.filter_append] at hentry
    have hmem : entry ∈ front.filter keep := by
      by_cases hlast : keep last = true
      · rw [List.filter_cons_of_pos hlast, List.filter_nil, List.dropLast_concat] at hentry
        exact hentry
      · rw [List.filter_cons_of_neg hlast, List.filter_nil, List.append_nil] at hentry
        exact List.mem_of_mem_dropLast hentry
    exact List.mem_of_mem_filter hmem

theorem normalizeOutput_of_marked
    (hmarked : ∀ entry ∈ outputs.dropLast, namesNormalize std entry.1 = true) :
    normalizeOutput std outputs = ((outputs.filter isCandidate).head?.map Prod.snd).getD [] := by
  have hhead := @find?_or_head? (outputs.filter isCandidate) (isPreferred std)
    fun entry hentry => by
      rw [isPreferred, hmarked entry (mem_dropLast_of_mem_filter hentry), Bool.true_or]
  exact congrArg (fun entry => (Option.map Prod.snd entry).getD []) hhead

theorem normalizeOutput_of_agree {rename : PyStr → PyStr}
    (hagree : ∀ id ∈ outputs.keys, namesNormalize std (rename id) = namesNormalize std id) :
    normalizeOutput std (renameSteps rename outputs) = normalizeOutput std outputs := by
  have hpreferred : ∀ entry ∈ outputs.filter isCandidate,
      isPreferred std (rename entry.1, entry.2) = isPreferred std entry := by
    intro entry hentry
    have hmem : entry.1 ∈ outputs.keys := List.mem_map_of_mem (List.mem_of_mem_filter hentry)
    rw [isPreferred, isPreferred, hagree entry.1 hmem]
  have hfind : (renameSteps rename (outputs.filter isCandidate)).find? (isPreferred std) =
      ((outputs.filter isCandidate).find? (isPreferred std)).map
        fun entry => (rename entry.1, entry.2) := by
    rw [renameSteps, List.find?_map]
    exact congrArg _ (List.find?_congr hpreferred)
  have hhead : (renameSteps rename (outputs.filter isCandidate)).head? =
      (outputs.filter isCandidate).head?.map fun entry => (rename entry.1, entry.2) :=
    List.head?_map
  rw [normalizeOutput_eq, normalizeOutput_eq, filter_renameSteps, hfind, hhead, ← Option.map_or, Option.map_map]
  rfl

theorem normalizeOutput_renameSteps {rename : PyStr → PyStr} (hnodup : outputs.keys.Nodup)
    (hkeeps : KeepsLookups std outputs.keys rename) :
    normalizeOutput std (renameSteps rename outputs) = normalizeOutput std outputs := by
  by_cases hagree : ∀ id ∈ outputs.keys, namesNormalize std (rename id) = namesNormalize std id
  · exact normalizeOutput_of_agree hagree
  · push Not at hagree
    obtain ⟨last, hlast, hdiffers⟩ := hagree
    obtain ⟨hend, hmarked⟩ := (hkeeps.normalize last hlast).resolve_left hdiffers
    have hothers : ∀ entry ∈ outputs.dropLast, entry.1 ∈ outputs.keys ∧ entry.1 ≠ last := by
      intro entry hentry
      refine ⟨List.mem_map_of_mem (List.mem_of_mem_dropLast hentry), ?_⟩
      rintro rfl
      obtain ⟨front, hfront⟩ := List.getLast?_eq_some_iff.mp hend
      rw [hfront, List.nodup_append] at hnodup
      have hmem : entry.1 ∈ outputs.keys.dropLast := by
        rw [Dict.keys, ← List.map_dropLast]
        exact List.mem_map_of_mem hentry
      rw [hfront, List.dropLast_concat] at hmem
      exact hnodup.2.2 entry.1 hmem entry.1 List.mem_cons_self rfl
    have hrenamed : ∀ entry ∈ (renameSteps rename outputs).dropLast,
        namesNormalize std entry.1 = true := by
      intro entry hentry
      rw [renameSteps, ← List.map_dropLast] at hentry
      obtain ⟨other, hother, rfl⟩ := List.mem_map.mp hentry
      obtain ⟨hmem, hne⟩ := hothers other hother
      cases hkeeps.normalize other.1 hmem with
      | inl hsame => exact hsame.trans (hmarked other.1 hmem hne)
      | inr hother => exact absurd (Option.some.inj (hother.1.symm.trans hend)) hne
    rw [normalizeOutput_of_marked hrenamed, normalizeOutput_of_marked fun entry hentry =>
      hmarked entry.1 (hothers entry hentry).1 (hothers entry hentry).2, filter_renameSteps,
      renameSteps, List.head?_map, Option.map_map]
    rfl

end Kept

/-! ## What shows a lookup -/

section Shown

variable (std : Stdlib) (scanners : TextScanners) {outputs : StepOutputs}

/-- Finishing a call that reads code sets the methods and the line only. -/
theorem get?_finishCodeRead (case : CaseCreateRequest) (merged : Fields) {key : PyStr}
    (hmethods : key ≠ py "methods") (hline : key ≠ py "line") (hskip : key ≠ skipReason) :
    (finishCodeRead std scanners case outputs merged).get? key = merged.get? key := by
  have hnamed : ∀ specs fields, (withChainMethods std specs fields).get? key =
      Dict.get? fields key := by
    intro specs fields
    cases specs with
    | nil =>
      rw [withChainMethods]
      split
      · rfl
      · exact Dict.get?_set_of_ne _ _ hmethods
    | cons spec later =>
      obtain ⟨name, line⟩ := spec
      cases line with
      | none => exact Dict.get?_set_of_ne _ _ hmethods
      | some line => exact (Dict.get?_set_of_ne _ _ hline).trans (Dict.get?_set_of_ne _ _ hmethods)
  have hlocated : ∀ {condition : Prop} [Decidable condition],
      Dict.get? (if condition then merged else merged.erase skipReason) key = merged.get? key := by
    intro condition _
    split
    · rfl
    · exact Dict.get?_erase_of_ne _ hskip
  rw [finishCodeRead]
  generalize faultLineForPath std _ _ _ = fault
  generalize hfields : withChainMethods std _ _ = named
  have hsame : named.get? key = merged.get? key := by
    rw [← hfields]
    exact (hnamed _ _).trans hlocated
  split
  · exact hsame
  · cases fault with
    | none => exact hsame
    | some line => exact (Dict.get?_set_of_ne _ _ hline).trans hsame

/-- Without a file of its own a planned call keeps its path. -/
theorem path_normalizePlannedArguments {arguments : Fields}
    (hfilePath : arguments.get? (py "file_path") = none) (hfile : arguments.get? (py "file") = none) :
    (normalizePlannedArguments std (py "code.read") arguments).get? (py "path") =
      arguments.get? (py "path") := by
  have hread : ¬(py "code.read" ≠ py "code.read") := not_not.mpr rfl
  have hlocated : ∀ path : PyStr,
      ¬(strip (truthyText std [none, none]) ≠ [] ∧
        (path = [] ∨ path ≠ strip (truthyText std [none, none]))) :=
    fun path hboth => hboth.1 rfl
  rw [normalizePlannedArguments, if_neg hread, hfilePath, hfile]
  dsimp only
  rw [if_neg (hlocated _)]
  split
  · rfl
  · exact Dict.get?_set_of_ne _ _ (by decide)

/-- A call that reads code shows the path that was looked up. -/
theorem path_enrich_codeRead (case : CaseCreateRequest) {path : PyStr}
    (hpath : truthyText std [(pathFromCodeSearch std outputs).map Json.str,
      (mergedMetadata std case outputs).get? (py "code_path"),
      (pathFromNormalizedInput std outputs).map Json.str,
      (scanners.codePath (mergedSymptom std case outputs)).map Json.str] = path) (hne : path ≠ []) :
    (enrichToolArguments std scanners (py "code.read") [] case outputs).get? (py "path") =
      some (.str path) := by
  have hanswer : ∀ key, key ≠ py "repo" → key ≠ py "methods" → key ≠ py "line" →
      Dict.get? (resolveStepArgs std scanners (py "code.read") case outputs) key =
        Dict.get? [(py "path", Json.str path)] key := by
    intro key hrepo hmethods hline
    have hunless : ∀ {other : PyStr} {condition : Prop} [Decidable condition] (value : Json),
        key ≠ other → Dict.get? (if condition then [] else [(other, value)]) key = none := by
      intro other condition _ value hother
      split
      · rfl
      · rw [Dict.get?]
        exact if_neg (Ne.symm hother)
    have hresolve : resolveStepArgs std scanners (py "code.read") case outputs =
        codeReadStepArguments std scanners outputs (mergedMetadata std case outputs)
          (mergedSymptom std case outputs) (mergedService std scanners case outputs) := rfl
    rw [hresolve, codeReadStepArguments, hpath, if_neg hne, Dict.get?_append,
      hunless _ hline, Option.or_none, Dict.get?_append, hunless _ hmethods, Option.or_none,
      get?_append_optionalText hrepo]
  have hfinished : enrichToolArguments std scanners (py "code.read") [] case outputs =
      normalizePlannedArguments std (py "code.read") (finishCodeRead std scanners case outputs
        (resolveStepArgs std scanners (py "code.read") case outputs)) := rfl
  have hframe : ∀ key, key ≠ py "repo" → key ≠ py "methods" → key ≠ py "line" →
      key ≠ skipReason → (finishCodeRead std scanners case outputs
        (resolveStepArgs std scanners (py "code.read") case outputs)).get? key =
          Dict.get? [(py "path", Json.str path)] key := by
    intro key hrepo hmethods hline hskip
    rw [get?_finishCodeRead std scanners case _ hmethods hline hskip,
      hanswer key hrepo hmethods hline]
  rw [hfinished, path_normalizePlannedArguments std
    (hframe _ (by decide) (by decide) (by decide) (by decide))
    (hframe _ (by decide) (by decide) (by decide) (by decide)),
    hframe _ (by decide) (by decide) (by decide) (by decide)]
  rfl

/-- A search for callers shows the call chain that was looked up. -/
theorem callChain_enrich_findCallers (case : CaseCreateRequest) {first : PyStr}
    {rest : List PyStr} (hchain : callChainFromOutputs std outputs = first :: rest) :
    (enrichToolArguments std scanners (py "code.find_callers") [] case outputs).get?
      callChainKey = some (.arr ((first :: rest).map Json.str)) := by
  have hanswer := namesOrSkips_findCallers std outputs (mergedService std scanners case outputs)
  have hcallers : enrichToolArguments std scanners (py "code.find_callers") [] case outputs =
      finishFindCallers std
        (findCallersStepArguments std outputs (mergedService std scanners case outputs))
        (findCallersStepArguments std outputs (mergedService std scanners case outputs)) := rfl
  obtain hskip | ⟨found, more, hfound, hget, _⟩ :=
    findCallers_cases std outputs (mergedService std scanners case outputs)
  · rw [hskip.1] at hchain
    exact absurd hchain (List.cons_ne_nil first rest).symm
  · rw [hcallers, (finishes_findCallers std hanswer _).named (hget ▸ hanswer.usableSubject _ hget),
      Dict.get?_erase_of_ne _ (by decide), hget, ← hfound, hchain]

end Shown

/-! ## Steps that tell the lookups apart -/

section Probes

variable {ids : List PyStr} {name : PyStr → PyStr}

/-- Steps with these ids, under the names they are given. -/
def stepsNamed (ids : List PyStr) (name : PyStr → PyStr) (payloadOf : PyStr → Fields) :
    StepOutputs :=
  ids.map fun id => (name id, payloadOf id)

theorem keys_stepsNamed (payloadOf : PyStr → Fields) :
    (stepsNamed ids id payloadOf).keys = ids := by
  rw [Dict.keys, stepsNamed, List.map_map]
  exact List.map_id ids

theorem renameSteps_stepsNamed (payloadOf : PyStr → Fields) :
    renameSteps name (stepsNamed ids id payloadOf) = stepsNamed ids name payloadOf := by
  rw [renameSteps, stepsNamed, List.map_map]
  rfl

def hitsPayload : Fields :=
  [(py "hits", .arr [.obj [(py "path", .str (py "a"))]])]

/-- One step with search hits among steps without outputs. -/
def searchPayload (target id : PyStr) : Fields :=
  if id = target then hitsPayload else []

theorem path_searchPayload (std : Stdlib) (hnodup : ids.Nodup)
    (hname : ∀ first ∈ ids, ∀ second ∈ ids, name first = name second → first = second)
    {target : PyStr} (htarget : target ∈ ids) :
    pathFromCodeSearch std (stepsNamed ids name (searchPayload target)) =
      if name target = searchId then some (py "a") else none := by
  have hkeys : (stepsNamed ids name (searchPayload target)).keys.Nodup := by
    rw [Dict.keys, stepsNamed, List.map_map]
    exact List.Nodup.map_on hname hnodup
  have hget : ∀ id ∈ ids, (stepsNamed ids name (searchPayload target)).get? (name id) =
      some (searchPayload target id) := fun id hid =>
    Dict.get?_of_mem hkeys (List.mem_map.mpr ⟨id, hid, rfl⟩)
  by_cases hsearch : name target = searchId
  · have hfound := hget target htarget
    rw [hsearch, searchPayload, if_pos rfl] at hfound
    rw [if_pos hsearch, pathFromCodeSearch, hitText, ← searchId, hfound]
    rfl
  · rw [if_neg hsearch, pathFromCodeSearch, hitText, ← searchId]
    cases hfound : (stepsNamed ids name (searchPayload target)).get? searchId with
    | none => rfl
    | some payload =>
      obtain ⟨id, _, heq⟩ := List.mem_map.mp (Dict.mem_of_get? hfound)
      obtain ⟨hid, hpayload⟩ := Prod.mk.inj heq
      have hother : id ≠ target := fun hsame => hsearch (hsame ▸ hid)
      rw [searchPayload, if_neg hother] at hpayload
      rw [← hpayload]
      rfl

theorem normalizeOutput_searchPayload (std : Stdlib) (target : PyStr) :
    normalizeOutput std (stepsNamed ids name (searchPayload target)) = [] := by
  have hnone : (stepsNamed ids name (searchPayload target)).filter isCandidate = [] := by
    rw [List.filter_eq_nil_iff]
    intro entry hentry
    obtain ⟨id, _, rfl⟩ := List.mem_map.mp hentry
    rw [searchPayload]
    split
    · exact Bool.false_ne_true
    · exact Bool.false_ne_true
  rw [normalizeOutput_eq, hnone]
  rfl

def chainPayload (text : String) : Fields :=
  [(py "extracted", .obj [(py "call_chain", .arr [.str (py text)])])]

/-- A call chain next to a case. -/
def casePayload (text : String) : Fields :=
  chainPayload text ++ [(py "case_request", .obj [])]

theorem callChain_of_normalizeOutput {std : Stdlib} {outputs : StepOutputs} {text : String}
    (hblank : strip (py text) = py text ∧ py text ≠ [])
    (hpayload : normalizeOutput std outputs = chainPayload text ∨
      normalizeOutput std outputs = casePayload text) :
    callChainFromOutputs std outputs = [py text] := by
  have hchain : (objectAt (normalizeOutput std outputs) (py "extracted")).bind
      (Dict.get? · (py "call_chain")) = some (.arr [.str (py text)]) := by
    cases hpayload with
    | inl hplain =>
      rw [hplain]
      rfl
    | inr hcase =>
      rw [hcase]
      rfl
  rw [callChainFromOutputs, hchain]
  simp [trimmedTexts, str, hblank.1, hblank.2]

/-- Two candidates among steps without outputs. -/
def pairPayload (first second : PyStr) (firstPayload secondPayload : Fields) (id : PyStr) :
    Fields :=
  if id = first then firstPayload else if id = second then secondPayload else []

theorem normalizeOutput_pairPayload (std : Stdlib) {front middle back : List PyStr}
    {first second : PyStr} (hids : ids = front ++ first :: (middle ++ second :: back))
    (hnodup : ids.Nodup) {firstPayload secondPayload : Fields}
    (hfirst : hasExtracted firstPayload = true) (hsecond : hasExtracted secondPayload = true) :
    normalizeOutput std
        (stepsNamed ids name (pairPayload first second firstPayload secondPayload)) =
      if namesNormalize std (name first) || hasCase firstPayload then firstPayload
      else if namesNormalize std (name second) || hasCase secondPayload then secondPayload
      else firstPayload := by
  have hcandidates :
      (stepsNamed ids name (pairPayload first second firstPayload secondPayload)).filter
          isCandidate =
        [(name first, firstPayload), (name second, secondPayload)] := by
    subst hids
    rw [List.nodup_append, List.nodup_cons, List.nodup_append, List.nodup_cons] at hnodup
    obtain ⟨_, ⟨hafter, _, ⟨hback, _⟩, hmiddle⟩, hfront⟩ := hnodup
    rw [List.mem_append, List.mem_cons, not_or, not_or] at hafter
    have hnil : ∀ part : List PyStr, (∀ id ∈ part, id ≠ first ∧ id ≠ second) →
        (part.map fun id => (name id,
          pairPayload first second firstPayload secondPayload id)).filter isCandidate = [] := by
      intro part hpart
      rw [List.filter_eq_nil_iff]
      intro entry hentry
      obtain ⟨id, hid, rfl⟩ := List.mem_map.mp hentry
      rw [pairPayload, if_neg (hpart id hid).1, if_neg (hpart id hid).2]
      exact Bool.false_ne_true
    have hone : pairPayload first second firstPayload secondPayload first = firstPayload :=
      if_pos rfl
    have htwo : pairPayload first second firstPayload secondPayload second = secondPayload := by
      rw [pairPayload, if_neg (Ne.symm hafter.2.1), if_pos rfl]
    have honeKept : isCandidate (name first, firstPayload) = true := by
      rw [isCandidate, hfirst, Bool.true_or]
    have htwoKept : isCandidate (name second, secondPayload) = true := by
      rw [isCandidate, hsecond, Bool.true_or]
    have hparts : ∀ id, id ∈ front ∨ id ∈ middle ∨ id ∈ back → id ≠ first ∧ id ≠ second := by
      rintro id (hid | hid | hid)
      · exact ⟨hfront id hid first List.mem_cons_self, hfront id hid second
          (List.mem_cons_of_mem _ (List.mem_append_right _ List.mem_cons_self))⟩
      · exact ⟨fun heq => hafter.1 (heq ▸ hid), hmiddle id hid second List.mem_cons_self⟩
      · exact ⟨fun heq => hafter.2.2 (heq ▸ hid), fun heq => hback (heq ▸ hid)⟩
    rw [stepsNamed, List.map_append, List.map_cons, List.map_append, List.map_cons,
      List.filter_append, hone, List.filter_cons_of_pos honeKept, List.filter_append, htwo,
      List.filter_cons_of_pos htwoKept, hnil front fun id hid => hparts id (.inl hid),
      hnil middle fun id hid => hparts id (.inr (.inl hid)),
      hnil back fun id hid => hparts id (.inr (.inr hid))]
    rfl
  rw [normalizeOutput_eq, hcandidates, List.find?_cons, List.find?_cons, List.find?_nil]
  simp only [isPreferred]
  cases namesNormalize std (name first) || hasCase firstPayload with
  | true => rfl
  | false =>
    cases namesNormalize std (name second) || hasCase secondPayload with
    | true => rfl
    | false => rfl

end Probes

/-! ## Exactly the renamings that keep the lookups -/

/-- A case that names a source file itself. -/
def locatedCase : CaseCreateRequest where
  title := .ofLiteral "t" Fixture.title
  symptom := .ofLiteral "AES decrypt failed" Fixture.decryptFailed
  serviceName := .ofLiteral "training-manage-api" Fixture.trainingApi
  source := .ofLiteral "unit-agent" Fixture.unitAgent
  metadata := ⟨[(py "code_path", .str (py "b"))], by decide⟩

section Exact

variable {std : Stdlib} {scanners : TextScanners} {ids : List PyStr} {rename : PyStr → PyStr}

/-- Every call gets the same arguments after the renaming. -/
def KeepsArguments (std : Stdlib) (scanners : TextScanners) (ids : List PyStr)
    (rename : PyStr → PyStr) : Prop :=
  ∀ toolName arguments case outputs, Dict.keys outputs = ids →
    enrichToolArguments std scanners toolName arguments case (renameSteps rename outputs) =
      enrichToolArguments std scanners toolName arguments case outputs

theorem KeepsArguments.stepsNamed (hkept : KeepsArguments std scanners ids rename)
    (toolName : PyStr) (arguments : Fields) (case : CaseCreateRequest) (payloadOf : PyStr → Fields) :
    enrichToolArguments std scanners toolName arguments case
        (stepsNamed ids rename payloadOf) =
      enrichToolArguments std scanners toolName arguments case
        (stepsNamed ids id payloadOf) := by
  rw [← renameSteps_stepsNamed]
  exact hkept toolName arguments case _ (keys_stepsNamed payloadOf)

theorem path_read_searchPayload (name : PyStr → PyStr) (target : PyStr) (hnodup : ids.Nodup)
    (hname : ∀ first ∈ ids, ∀ second ∈ ids, name first = name second → first = second)
    (htarget : target ∈ ids) :
    (enrichToolArguments std scanners (py "code.read") [] locatedCase
      (stepsNamed ids name (searchPayload target))).get? (py "path") =
        some (.str (if name target = searchId then py "a" else py "b")) := by
  have hmetadata : mergedMetadata std locatedCase
      (stepsNamed ids name (searchPayload target)) = locatedCase.metadata.val := by
    rw [mergedMetadata, normalizedCaseRequest, normalizeOutput_searchPayload]
    rfl
  have hpath : Dict.get? locatedCase.metadata.val (py "code_path") = some (.str (py "b")) := rfl
  apply path_enrich_codeRead
  · rw [path_searchPayload std hnodup hname htarget, hmetadata, hpath]
    have hone : py "a" ≠ [] := by decide
    have htwo : py "b" ≠ [] := by decide
    split
    · exact truthyText_text std hone _
    · exact (truthyText_none std _).trans (truthyText_text std htwo _)
  · split
    · decide
    · decide

theorem search_of_kept (hnodup : ids.Nodup)
    (hrename : ∀ first ∈ ids, ∀ second ∈ ids, rename first = rename second → first = second)
    (hkept : KeepsArguments std scanners ids rename) :
    ∀ id ∈ ids, rename id = searchId ↔ id = searchId := by
  intro target htarget
  have hsame := congrArg (Dict.get? · (py "path"))
    (hkept.stepsNamed (py "code.read") [] locatedCase (searchPayload target))
  have hbefore := @path_read_searchPayload std scanners ids id target hnodup
    (fun _ _ _ _ heq => heq) htarget
  have hafter := @path_read_searchPayload std scanners ids rename target hnodup hrename htarget
  have hpaths := Json.str.inj (Option.some.inj ((hafter.symm.trans hsame).trans hbefore))
  by_cases hnew : rename target = searchId
  · by_cases hold : target = searchId
    · exact iff_of_true hnew hold
    · rw [if_pos hnew, id, if_neg hold] at hpaths
      exact absurd hpaths (by decide)
  · by_cases hold : target = searchId
    · rw [if_neg hnew, id, if_pos hold] at hpaths
      exact absurd hpaths (by decide)
    · exact iff_of_false hnew hold

/-- The call chain that a search for callers finds among two candidates. -/
theorem callChain_pairPayload (name : PyStr → PyStr) {front middle back : List PyStr}
    {first second : PyStr} (hids : ids = front ++ first :: (middle ++ second :: back))
    (hnodup : ids.Nodup) {secondPayload : Fields}
    (hsecond : secondPayload = chainPayload "b" ∨ secondPayload = casePayload "b") :
    (enrichToolArguments std scanners (py "code.find_callers") [] locatedCase
      (stepsNamed ids name (pairPayload first second (chainPayload "a") secondPayload))).get?
        callChainKey =
      some (.arr [.str (if namesNormalize std (name first) then py "a"
        else if namesNormalize std (name second) || hasCase secondPayload then py "b"
        else py "a")]) := by
  have hextracted : hasExtracted secondPayload = true := by
    cases hsecond with
    | inl hchain => exact hchain ▸ rfl
    | inr hcase => exact hcase ▸ rfl
  have hplain : hasCase (chainPayload "a") = false := rfl
  have hplainExtracted : hasExtracted (chainPayload "a") = true := rfl
  have hpick := @normalizeOutput_pairPayload ids name std front middle back first second hids
    hnodup _ _ hplainExtracted hextracted
  rw [hplain, Bool.or_false] at hpick
  have hone : ∀ outputs, normalizeOutput std outputs = chainPayload "a" →
      (enrichToolArguments std scanners (py "code.find_callers") [] locatedCase outputs).get?
        callChainKey = some (.arr [.str (py "a")]) := fun outputs houtput =>
    callChain_enrich_findCallers std scanners locatedCase
      (callChain_of_normalizeOutput (by decide) (.inl houtput))
  have htwo : ∀ outputs, normalizeOutput std outputs = secondPayload →
      (enrichToolArguments std scanners (py "code.find_callers") [] locatedCase outputs).get?
        callChainKey = some (.arr [.str (py "b")]) := fun outputs houtput =>
    callChain_enrich_findCallers std scanners locatedCase
      (callChain_of_normalizeOutput (by decide) (hsecond.imp houtput.trans houtput.trans))
  split at hpick
  · rename_i hfirst
    rw [hone _ hpick, if_pos hfirst]
  · rename_i hfirst
    rw [if_neg hfirst]
    split at hpick
    · rename_i hmarked
      rw [htwo _ hpick, if_pos hmarked]
    · rename_i hmarked
      rw [hone _ hpick, if_neg hmarked]

theorem singleText_inj {left right : PyStr}
    (heq : some (Json.arr [.str left]) = some (Json.arr [.str right])) : left = right := by
  injection heq with harr
  injection harr with hlist
  exact Json.str.inj (List.cons.inj hlist).1

theorem eq_of_ite_eq {yes no : PyStr} (hne : yes ≠ no) {left right : Bool}
    (heq : (if left then yes else no) = if right then yes else no) : left = right := by
  cases left with
  | true =>
    cases right with
    | true => rfl
    | false => exact absurd heq hne
  | false =>
    cases right with
    | true => exact absurd heq.symm hne
    | false => rfl

/-- An id before another one is marked in the same way after the renaming. -/
theorem marked_of_before (hnodup : ids.Nodup) (hkept : KeepsArguments std scanners ids rename)
    {front middle back : List PyStr} {first second : PyStr}
    (hids : ids = front ++ first :: (middle ++ second :: back)) :
    namesNormalize std (rename first) = namesNormalize std first := by
  have hsame := congrArg (Dict.get? · callChainKey) (hkept.stepsNamed
    (py "code.find_callers") [] locatedCase
    (pairPayload first second (chainPayload "a") (casePayload "b")))
  rw [callChain_pairPayload rename hids hnodup (.inr rfl),
    callChain_pairPayload id hids hnodup (.inr rfl)] at hsame
  have hcase : hasCase (casePayload "b") = true := rfl
  rw [hcase, Bool.or_true, Bool.or_true, id, if_pos rfl] at hsame
  exact eq_of_ite_eq (by decide) (singleText_inj hsame)

/-- The last id is marked in the same way if some id before it is not marked. -/
theorem marked_of_last (hnodup : ids.Nodup) (hkept : KeepsArguments std scanners ids rename)
    {front middle : List PyStr} {first last : PyStr}
    (hids : ids = front ++ first :: (middle ++ last :: []))
    (hunmarked : namesNormalize std first = false) :
    namesNormalize std (rename last) = namesNormalize std last := by
  have hfirst := (marked_of_before hnodup hkept hids).trans hunmarked
  have hsame := congrArg (Dict.get? · callChainKey) (hkept.stepsNamed
    (py "code.find_callers") [] locatedCase
    (pairPayload first last (chainPayload "a") (chainPayload "b")))
  rw [callChain_pairPayload rename hids hnodup (.inl rfl),
    callChain_pairPayload id hids hnodup (.inl rfl)] at hsame
  have hplain : hasCase (chainPayload "b") = false := rfl
  rw [hplain, Bool.or_false, Bool.or_false, id, id, hfirst, hunmarked,
    if_neg Bool.false_ne_true, if_neg Bool.false_ne_true] at hsame
  exact eq_of_ite_eq (by decide) (singleText_inj hsame)

theorem normalize_of_kept (hnodup : ids.Nodup) (hkept : KeepsArguments std scanners ids rename) :
    ∀ id ∈ ids, namesNormalize std (rename id) = namesNormalize std id ∨
      ids.getLast? = some id ∧ ∀ other ∈ ids, other ≠ id → namesNormalize std other = true := by
  intro target htarget
  obtain ⟨front, after, hids⟩ := List.mem_iff_append.mp htarget
  cases after with
  | cons second back =>
    have hadjacent : ids = front ++ target :: ([] ++ second :: back) := hids
    exact .inl (marked_of_before hnodup hkept hadjacent)
  | nil =>
    by_cases hall : ∀ other ∈ ids, other ≠ target → namesNormalize std other = true
    · exact .inr ⟨by rw [hids, List.getLast?_concat], hall⟩
    · push Not at hall
      obtain ⟨other, hother, hne, hunmarked⟩ := hall
      have hfront : other ∈ front := by
        rw [hids, List.mem_append, List.mem_singleton] at hother
        exact hother.resolve_right hne
      obtain ⟨before, middle, hsplit⟩ := List.mem_iff_append.mp hfront
      rw [hsplit, List.append_assoc] at hids
      exact .inl (marked_of_last hnodup hkept hids (Bool.eq_false_iff.mpr hunmarked))

end Exact

/-- A renaming of the steps keeps the arguments of every call exactly where it keeps what
the ids are looked up for. -/
theorem renaming_keeps_arguments_iff (std : Stdlib) (scanners : TextScanners)
    {ids : List PyStr} {rename : PyStr → PyStr} (hnodup : ids.Nodup)
    (hrename : ∀ first ∈ ids, ∀ second ∈ ids, rename first = rename second → first = second) :
    KeepsArguments std scanners ids rename ↔ KeepsLookups std ids rename := by
  constructor
  · exact fun hkept =>
      ⟨search_of_kept hnodup hrename hkept, normalize_of_kept hnodup hkept⟩
  · intro hkeeps toolName arguments case outputs hids
    subst hids
    exact enrichToolArguments_congr scanners (normalizeOutput_renameSteps hnodup hkeeps)
      (get?_renameSteps hkeeps.search) toolName arguments case

/-- Another prefix for the ids of a normalisation and a step behind it. -/
theorem prefixed_steps_keep_arguments :
    KeepsArguments asciiStdlib noScanners [py "incident-normalize", py "callers"]
      (py "llm-" ++ ·) := by
  apply (renaming_keeps_arguments_iff asciiStdlib noScanners (by decide)
    fun first _ second _ heq => List.append_cancel_left heq).mpr
  constructor
  · decide
  · decide

/-- The hits of a code search are not found under the id that is made up for the step. -/
theorem generated_id_hides_hits :
    Function.Injective (py "llm-1-" ++ ·) ∧
      enrichToolArguments asciiStdlib noScanners (py "code.read") [] locatedCase
          (renameSteps (py "llm-1-" ++ ·) [(py "code-search", hitsPayload)]) ≠
        enrichToolArguments asciiStdlib noScanners (py "code.read") [] locatedCase
          [(py "code-search", hitsPayload)] := by
  refine ⟨fun first second heq => List.append_cancel_left heq, fun hsame => ?_⟩
  have hpath := congrArg (Dict.get? · (py "path")) hsame
  have hread : some (Json.str (py "b")) = some (Json.str (py "a")) := hpath
  exact absurd (Json.str.inj (Option.some.inj hread)) (by decide)

end RootSeeker.AgentRuntime
