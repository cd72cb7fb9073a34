import RootSeeker.CodeIndex.GitNexusAdapter
import RootSeeker.Core.Loops

/-!
# Callers of the requested class

The class check of a search only prefers an answer: the last answer is used when
none passes, and the check is made for the name that is tried, which may be a
bare method name.  The callers belong to the requested class exactly if no
answer that can be used would break that.
-/

namespace RootSeeker.CodeIndex

open Python Contracts Effects GitNexus

/-! ## Answers that can be used -/

section Answers

variable (std : GraphStdlib)

/-- The scores of all candidates are numbers. -/
def RowsReadable (fields : Fields) : Prop :=
  ∀ row ∈ objectRows (fieldOf fields "candidates"), ∃ score,
    floatOf std.toStdlib (pyOr (fieldOf row "score") (.float (.finite false 0))) = .ok score

/-- If the answer is ambiguous, picking a candidate does not raise. -/
def Resolvable (answer : GitNexusCommandResult) : Prop :=
  ∀ fields, answer.data = .obj fields → statusIs std fields "ambiguous" = true →
    RowsReadable std fields

/-- The answer is ambiguous, and a candidate is picked. -/
def Picks (answer : GitNexusCommandResult) : Prop :=
  ∃ fields, answer.data = .obj fields ∧ statusIs std fields "ambiguous" = true ∧
    RowsReadable std fields ∧ objectRows (fieldOf fields "candidates") ≠ []

/-- A search can end with the answer: its counts can be read, and it is resolved itself or
resolves another one. -/
def Live (answers : Set GitNexusCommandResult) (answer : GitNexusCommandResult) : Prop :=
  answer ∈ answers ∧ (∃ usable, graphHitUsable std answer.data = .ok usable) ∧
    (Resolvable std answer ∨ answer.ok = true ∧ ∃ opener ∈ answers, Picks std opener)

/-- The callers that are read, if any, belong to the class, and none is too deep. -/
def Harmless (symbol : PyStr) (maxDepth : ℤ) (data : Json)
    (extracted : Except PyError (List Caller)) : Prop :=
  ∀ callers, extracted = .ok callers → callers ≠ [] →
    resultMatchesSymbol std data symbol = true ∧ ∀ caller ∈ callers, caller.depth ≤ maxDepth

/-- The impact answers are harmless, and so are the context answers, if they are asked for. -/
def OnlyHarmless (answers : SearchKind → Set GitNexusCommandResult) (symbol : PyStr)
    (maxDepth : ℤ) : Prop :=
  (∀ answer, Live std (answers .impact) answer → answer.ok = true →
    Harmless std symbol maxDepth answer.data
      (extractCallersFromImpact std answer.data maxDepth)) ∧
  ((∃ answer, Live std (answers .impact) answer ∧ answer.ok = true ∧
      extractCallersFromImpact std answer.data maxDepth = .ok []) →
    ∀ answer, Live std (answers .context) answer →
      Harmless std symbol maxDepth answer.data
        (extractCallersFromContext std answer.data maxDepth))

/-- The payload that the callers of a successful report were taken from identifies no other
class, and no caller is too deep. -/
def Belongs (symbol : PyStr) (maxDepth : ℤ) (report : CallersReport) : Prop :=
  report.ok = true → ∃ raw, report.raw = some raw ∧
    resultMatchesSymbol std raw.source.result symbol = true ∧
      ∀ caller ∈ report.staticCallers, caller.depth ≤ maxDepth

end Answers

/-- The payload shows the answer. -/
def Shows (answer : GitNexusCommandResult) (payload : GraphPayload) : Prop :=
  payload.ok = answer.ok ∧ payload.result = answer.data

section Picking

variable {std : GraphStdlib} {fields : Fields} {symbol : PyStr} {file : Option PyStr}

theorem exists_scoredRow_iff (row : Fields) :
    (∃ scored, scoredRow std symbol file row = .ok scored) ↔
      ∃ score, floatOf std.toStdlib
        (pyOr (fieldOf row "score") (.float (.finite false 0))) = .ok score := by
  rw [scoredRow]
  cases floatOf std.toStdlib (pyOr (fieldOf row "score") (.float (.finite false 0))) with
  | error raised => simp [bind, Except.bind]
  | ok score => simp [bind, Except.bind, pure, Except.pure]

theorem rowsReadable_of_pick {pick : Option Fields}
    (hpick : pickAmbiguousCandidate std (fieldOf fields "candidates") symbol file = .ok pick) :
    RowsReadable std fields := by
  obtain ⟨scored, hscored, _⟩ := Loops.exists_of_bind_eq_ok hpick
  intro row hrow
  exact (exists_scoredRow_iff row).mp ((Loops.exists_mapM_ok_iff _ _).mp ⟨scored, hscored⟩ row hrow)

/-- A pick that does not raise gives nothing only if there is nothing to pick. -/
theorem exists_pick (symbol : PyStr) (file : Option PyStr) (hreadable : RowsReadable std fields) :
    ∃ pick, pickAmbiguousCandidate std (fieldOf fields "candidates") symbol file = .ok pick ∧
      (pick = none ↔ objectRows (fieldOf fields "candidates") = []) := by
  obtain ⟨scored, hscored⟩ := (Loops.exists_mapM_ok_iff (scoredRow std symbol file) _).mpr
    fun row hrow => (exists_scoredRow_iff row).mpr (hreadable row hrow)
  have hlength := (Loops.forall₂_of_mapM_ok hscored).length_eq
  rw [pickAmbiguousCandidate, hscored]
  cases scored with
  | nil =>
    refine ⟨none, rfl, iff_of_true rfl ?_⟩
    exact List.length_eq_zero_iff.mp hlength
  | cons first rest =>
    refine ⟨_, rfl, iff_of_false (by simp) ?_⟩
    intro hnil
    rw [hnil] at hlength
    exact absurd hlength (by simp)

theorem ne_nil_of_pick {pick : Fields}
    (hpick : pickAmbiguousCandidate std (fieldOf fields "candidates") symbol file =
      .ok (some pick)) : objectRows (fieldOf fields "candidates") ≠ [] := by
  obtain ⟨found, hfound, hnone⟩ := exists_pick symbol file (rowsReadable_of_pick hpick)
  rw [hpick] at hfound
  obtain rfl := Except.ok.inj hfound
  exact fun hnil => absurd (hnone.mpr hnil) (by simp)

end Picking

/-! ## What a search ends with -/

section Sources

variable {gitnexus : GitNexus} {answers : SearchKind → Set GitNexusCommandResult}
  {kind : SearchKind} {file : Option PyStr} {payload : GraphPayload}

/-- The tool answers a search with one of the given answers. -/
def Answers (gitnexus : GitNexus) (answers : SearchKind → Set GitNexusCommandResult) : Prop :=
  ∀ asked kind symbol repo file uid,
    gitnexus.answer asked (.search kind symbol repo file uid) ∈ answers kind

theorem gives_query (hanswers : Answers gitnexus answers) (symbol : PyStr)
    (repo uid label : Option PyStr) :
    Gives (gitnexus.query kind file symbol repo uid label) fun payload =>
      ∃ answer ∈ answers kind, Shows answer payload := by
  constructor
  intro start payload after hreturned
  obtain ⟨rfl, _⟩ := Prod.mk.inj (Except.ok.inj hreturned)
  exact ⟨_, hanswers _ kind symbol repo file uid, rfl, rfl⟩

theorem gives_retryMissing (hanswers : Answers gitnexus answers)
    (hshown : ∃ answer ∈ answers kind, Shows answer payload) (candidate : PyStr)
    (resolved hint : Option PyStr) :
    Gives (gitnexus.retryMissing kind file candidate resolved hint payload) fun retried =>
      ∃ answer ∈ answers kind, Shows answer retried.2 := by
  rw [retryMissing]
  split
  · apply gives_bind _ (gives_true _)
    intro alt _
    cases alt with
    | none => exact gives_pure hshown
    | some alt =>
      dsimp only
      split
      · exact gives_pure hshown
      · apply gives_bind _ (gives_query hanswers candidate (some alt) none (some alt))
        exact fun again hagain => gives_pure hagain
  · exact gives_pure hshown

/-- What resolution ends with: the answer itself, or one that resolves it. -/
theorem gives_resolveAmbiguous (hanswers : Answers gitnexus answers)
    (hshown : ∃ answer ∈ answers kind, Shows answer payload) (symbol : PyStr) (repo : Option PyStr) :
    Gives (gitnexus.resolveAmbiguous kind file symbol repo payload) fun payload =>
      ∃ answer ∈ answers kind, Shows answer payload ∧
        (Resolvable gitnexus.std answer ∨
          answer.ok = true ∧ ∃ opener ∈ answers kind, Picks gitnexus.std opener) := by
  obtain ⟨answer, hanswer, hshows⟩ := hshown
  have hresolvable : ∀ fields, payload.result = .obj fields →
      (statusIs gitnexus.std fields "ambiguous" = true → RowsReadable gitnexus.std fields) →
        Resolvable gitnexus.std answer := by
    intro fields hresult hreadable other hother
    rw [hshows.2, hother] at hresult
    obtain rfl := Json.obj.inj hresult
    exact hreadable
  rw [resolveAmbiguous]
  split
  next fields hresult =>
    split
    next hambiguous =>
      apply gives_bind fun pick => RowsReadable gitnexus.std fields ∧
        ∀ found, pick = some found → objectRows (fieldOf fields "candidates") ≠ []
      · apply gives_stateless
        intro pick hpick
        refine ⟨rowsReadable_of_pick hpick, ?_⟩
        rintro found rfl
        exact ne_nil_of_pick hpick
      · intro pick hpick
        have hself := hresolvable fields hresult fun _ => hpick.1
        cases pick with
        | none => exact gives_pure ⟨answer, hanswer, hshows, Or.inl hself⟩
        | some found =>
          apply gives_bind _ (gives_query hanswers _ _ _ _)
          intro resolved hresolved
          apply gives_pure
          obtain ⟨other, hother, hotherShows⟩ := hresolved
          split
          next hok =>
            refine ⟨other, hother, hotherShows, Or.inr ⟨hotherShows.1 ▸ hok, answer, hanswer, ?_⟩⟩
            exact ⟨fields, hshows.2 ▸ hresult, hambiguous, hpick.1, hpick.2 found rfl⟩
          next => exact ⟨answer, hanswer, hshows, Or.inl hself⟩
    next hsingle =>
      apply gives_pure
      exact ⟨answer, hanswer, hshows, Or.inl (hresolvable fields hresult fun h => absurd h hsingle)⟩
  next hother =>
    apply gives_pure
    refine ⟨answer, hanswer, hshows, Or.inl fun fields hdata => ?_⟩
    exact absurd (hshows.2.trans hdata) (hother fields)

theorem gives_attempt (hanswers : Answers gitnexus answers) (candidate : PyStr)
    (repo original resolved : Option PyStr) :
    Gives (gitnexus.attempt kind file candidate repo original resolved) fun tried =>
      ∃ answer ∈ answers kind, Shows answer tried.2 ∧
        (Resolvable gitnexus.std answer ∨
          answer.ok = true ∧ ∃ opener ∈ answers kind, Picks gitnexus.std opener) := by
  apply gives_bind _ (gives_query hanswers _ _ _ _)
  intro first hfirst
  apply gives_bind _ (gives_retryMissing hanswers hfirst _ _ _)
  intro retried hretried
  apply gives_bind _ (gives_resolveAmbiguous hanswers hretried _ _)
  exact fun payload hpayload => gives_pure hpayload

/-- A search ends with an answer that can be used, or without any. -/
def Ends (gitnexus : GitNexus) (answers : Set GitNexusCommandResult) (payload : GraphPayload) :
    Prop :=
  (∃ answer, Live gitnexus.std answers answer ∧ Shows answer payload) ∨
    payload.ok = false ∧ payload.result = .null

theorem exists_usable_of_accepts {symbol : PyStr} {accepted : Bool}
    (haccepts : gitnexus.accepts symbol payload = .ok accepted) :
    ∃ usable, graphHitUsable gitnexus.std payload.result = .ok usable := by
  obtain ⟨usable, husable, _⟩ := Loops.exists_of_map_eq_ok haccepts
  exact ⟨usable, husable⟩

theorem gives_searchLoop (hanswers : Answers gitnexus answers) (symbol : PyStr)
    (repo original : Option PyStr) (candidates : List PyStr) (resolved : Option PyStr)
    (last : Option GraphPayload)
    (hlast : ∀ payload, last = some payload → Ends gitnexus (answers kind) payload) :
    Gives (gitnexus.searchLoop kind file symbol repo original candidates resolved last)
      (Ends gitnexus (answers kind)) := by
  induction candidates generalizing resolved last with
  | nil =>
    apply gives_pure
    cases last with
    | none => exact Or.inr ⟨rfl, rfl⟩
    | some payload => exact hlast payload rfl
  | cons candidate rest ih =>
    apply gives_bind _ (gives_attempt hanswers _ _ _ _)
    intro tried htried
    obtain ⟨answer, hanswer, hshows, hresolution⟩ := htried
    apply gives_bind _ (gives_stateless fun accepted haccepts =>
      exists_usable_of_accepts haccepts)
    intro accepted husable
    rw [hshows.2] at husable
    have hends : Ends gitnexus (answers kind) tried.2 :=
      Or.inl ⟨answer, ⟨hanswer, husable, hresolution⟩, hshows⟩
    split
    · exact gives_pure hends
    · apply ih
      intro payload hpayload
      exact Option.some.inj hpayload ▸ hends

theorem gives_searchOnce (hanswers : Answers gitnexus answers) (symbol : PyStr)
    (repo original : Option PyStr) :
    Gives (gitnexus.searchOnce kind file symbol repo original) (Ends gitnexus (answers kind)) :=
  gives_searchLoop hanswers symbol repo original _ repo none fun _ hnone => absurd hnone (by simp)

theorem gives_fallBack (hanswers : Answers gitnexus answers) (symbol : PyStr)
    {found : GraphPayload} (hfound : Ends gitnexus (answers kind) found) :
    Gives (gitnexus.fallBack kind file symbol found) (Ends gitnexus (answers kind)) := by
  apply gives_bind _ (gives_true _)
  intro accepted _
  split
  · exact gives_pure hfound
  · apply gives_bind _ (gives_searchOnce hanswers symbol none none)
    intro elsewhere helsewhere
    apply gives_bind _ (gives_true _)
    intro fits _
    split
    · exact gives_pure helsewhere
    · exact gives_pure hfound

theorem gives_search (hanswers : Answers gitnexus answers) (symbol : PyStr) (repo : Option PyStr) :
    Gives (gitnexus.search kind file symbol repo) (Ends gitnexus (answers kind)) := by
  rw [search]
  split
  · exact gives_pure (Or.inr ⟨rfl, rfl⟩)
  · split
    · exact gives_pure (Or.inr ⟨rfl, rfl⟩)
    · apply gives_bind _ (gives_true _)
      intro resolved _
      apply gives_bind _ (gives_searchOnce hanswers _ _ _)
      intro found hfound
      cases resolved with
      | none => exact gives_pure hfound
      | some name => exact gives_fallBack hanswers _ hfound

end Sources

/-! ## Harmless answers are enough -/

section Enough

variable {gitnexus : GitNexus} {answers : SearchKind → Set GitNexusCommandResult}
  {symbol : PyStr} {maxDepth : ℤ} {repo file : Option PyStr}

theorem belongs_found {candidate : PyStr} {callers : List Caller} {raw : CallersRaw}
    (hclass : resultMatchesSymbol gitnexus.std raw.source.result symbol = true)
    (hdepth : ∀ caller ∈ callers, caller.depth ≤ maxDepth) :
    Belongs gitnexus.std symbol maxDepth (found repo candidate callers raw) :=
  fun _ => ⟨raw, rfl, hclass, hdepth⟩

theorem gives_callersOfCandidate (hanswers : Answers gitnexus answers)
    (hharmless : OnlyHarmless gitnexus.std answers symbol maxDepth) (candidate : PyStr)
    {impact : GraphPayload} (himpact : Ends gitnexus (answers .impact) impact)
    (hok : impact.ok = true) :
    Gives (gitnexus.callersOfCandidate repo file maxDepth candidate impact) fun found =>
      ∀ report, found = some report → Belongs gitnexus.std symbol maxDepth report := by
  obtain ⟨answer, hlive, hshows⟩ : ∃ answer, Live gitnexus.std (answers .impact) answer ∧
      Shows answer impact := by
    rcases himpact with hshown | ⟨hfailed, _⟩
    · exact hshown
    · exact absurd (hok.symm.trans hfailed) (by simp)
  have hanswerOk : answer.ok = true := hshows.1 ▸ hok
  apply gives_bind _ (gives_stateless fun callers hcallers => hcallers)
  intro callers hcallers
  rw [hshows.2] at hcallers
  cases callers with
  | cons caller callers =>
    obtain ⟨hclass, hdepth⟩ := hharmless.1 answer hlive hanswerOk _ hcallers (List.cons_ne_nil _ _)
    apply gives_pure
    intro report hreport
    obtain rfl := Option.some.inj hreport
    exact belongs_found (hshows.2 ▸ hclass) hdepth
  | nil =>
    have hcontext := hharmless.2 ⟨answer, hlive, hanswerOk, hcallers⟩
    apply gives_bind _ (gives_search hanswers candidate repo)
    intro context hends
    apply gives_bind _ (gives_stateless fun callers hcallers => hcallers)
    intro callers hextracted
    cases callers with
    | nil => exact gives_pure fun report hnone => absurd hnone (by simp)
    | cons caller callers =>
      apply gives_pure
      intro report hreport
      obtain rfl := Option.some.inj hreport
      rcases hends with ⟨other, hotherLive, hotherShows⟩ | ⟨_, hnull⟩
      · rw [hotherShows.2] at hextracted
        obtain ⟨hclass, hdepth⟩ := hcontext other hotherLive _ hextracted (List.cons_ne_nil _ _)
        exact belongs_found (hotherShows.2 ▸ hclass) hdepth
      · rw [hnull] at hextracted
        exact absurd hextracted (by simp [extractCallersFromContext])

theorem gives_callersLoop (hanswers : Answers gitnexus answers)
    (hharmless : OnlyHarmless gitnexus.std answers symbol maxDepth) (candidates : List PyStr)
    (lastError : PyStr) :
    Gives (gitnexus.callersLoop repo file maxDepth symbol candidates lastError)
      (Belongs gitnexus.std symbol maxDepth) := by
  induction candidates generalizing lastError with
  | nil => exact gives_pure fun hok => absurd hok (by simp [notFound])
  | cons candidate rest ih =>
    apply gives_bind _ (gives_search hanswers candidate repo)
    intro impact himpact
    split
    · exact ih _
    next hok =>
      rw [Bool.not_eq_true', Bool.not_eq_false] at hok
      apply gives_bind _ (gives_callersOfCandidate hanswers hharmless candidate himpact hok)
      intro found hfound
      cases found with
      | some report => exact gives_pure (hfound report rfl)
      | none => exact ih _

end Enough

/-! ## A tool that shows one answer -/

/-- The answer that a search ends with, and the ambiguous one that comes first, if there is one. -/
structure Script where
  shown : GitNexusCommandResult
  opener : Option GitNexusCommandResult

namespace Script

/-- The opener and the answer take turns. -/
def answer (script : Script) (asked : ℕ) : GitNexusCommandResult :=
  match script.opener with
  | none => script.shown
  | some opener => if asked % 2 = 0 then opener else script.shown

/-- The answer can be read, and the opener, if there is one, leads to it. -/
structure Plays (std : GraphStdlib) (script : Script) : Prop where
  usable : ∃ usable, graphHitUsable std script.shown.data = .ok usable
  alone : script.opener = none → Resolvable std script.shown
  opened : ∀ opener, script.opener = some opener →
    Picks std opener ∧ script.shown.ok = true

end Script

def isSearch (kind : SearchKind) : GitNexusCall → Bool
  | .list => false
  | .search other _ _ _ _ => other = kind

/-- The tool that follows a script for each kind of search. -/
def scripted (std : GraphStdlib) (scripts : SearchKind → Script) : GitNexus where
  std := std
  enabled := true
  answer asked call :=
    match call with
    | .list => (scripts .impact).shown
    | .search kind _ _ _ _ => (scripts kind).answer (asked.countP (isSearch kind))

/-- Each opener is next, except that of the given kind if `opened`. -/
def AtTurn (scripts : SearchKind → Script) (kind : SearchKind) (opened : Bool)
    (state : AdapterState) : Prop :=
  ∀ other opener, (scripts other).opener = some opener →
    state.asked.countP (isSearch other) % 2 = if other = kind ∧ opened = true then 1 else 0

section Scripted

variable {std : GraphStdlib} {scripts : SearchKind → Script} {kind : SearchKind}
  {file : Option PyStr}

/-- The first answer of a script, or the one after its opener. -/
def Script.next (script : Script) (opened : Bool) : GitNexusCommandResult :=
  if opened then script.shown else script.opener.getD script.shown

theorem answer_of_atTurn {opened : Bool} {state : AdapterState}
    (hturn : AtTurn scripts kind opened state) :
    (scripts kind).answer (state.asked.countP (isSearch kind)) = (scripts kind).next opened := by
  rw [Script.answer, Script.next]
  cases hopener : (scripts kind).opener with
  | none => simp
  | some opener =>
    have hparity := hturn kind opener hopener
    cases opened with
    | false => simp_all
    | true => simp_all

theorem atTurn_ask {opened : Bool} {state : AdapterState} (hturn : AtTurn scripts kind opened state)
    (symbol : PyStr) (repo file uid : Option PyStr) :
    AtTurn scripts kind (!opened)
      { state with asked := state.asked ++ [.search kind symbol repo file uid] } := by
  intro other opener hopener
  have hparity := hturn other opener hopener
  rw [List.countP_append, List.countP_singleton]
  by_cases hkind : other = kind
  · rw [hkind] at hparity ⊢
    cases opened with
    | false => simp [isSearch] at hparity ⊢; omega
    | true => simp [isSearch] at hparity ⊢; omega
  · have hother : isSearch other (.search kind symbol repo file uid) = false := by
      simp [isSearch, Ne.symm hkind]
    rw [hother]
    simpa [hkind] using hparity

theorem runs_query (opened : Bool) (symbol : PyStr) (repo uid label : Option PyStr) :
    Runs (AtTurn scripts kind opened) ((scripted std scripts).query kind file symbol repo uid label)
      fun payload state => Shows ((scripts kind).next opened) payload ∧
        AtTurn scripts kind (!opened) state := by
  constructor
  intro start hstart
  refine ⟨_, _, rfl, ?_, atTurn_ask hstart symbol repo file uid⟩
  rw [← answer_of_atTurn hstart]
  exact ⟨rfl, rfl⟩

/-- A script without an opener does not take turns. -/
theorem atTurn_of_alone (hopener : (scripts kind).opener = none) {opened : Bool}
    (turn : Bool) {state : AdapterState} (hturn : AtTurn scripts kind opened state) :
    AtTurn scripts kind turn state := by
  intro other opener hother
  have hne : other ≠ kind := by
    rintro rfl
    exact absurd (hopener.symm.trans hother) (by simp)
  simpa [hne] using hturn other opener hother

theorem retryMissing_none (candidate : PyStr) (payload : GraphPayload) :
    (scripted std scripts).retryMissing kind file candidate none none payload =
      pure (none, payload) := by
  rw [retryMissing]
  split
  · rfl
  · rfl

/-- A payload that is kept, and one that resolves it, show the same answer. -/
theorem shows_resolved {answer : GitNexusCommandResult} {payload resolved : GraphPayload}
    (hpayload : Shows answer payload) (hresolved : Shows answer resolved) :
    Shows answer (if resolved.ok = true then resolved else payload) := by
  split
  · exact hresolved
  · exact hpayload

theorem runs_resolve_alone (hplays : (scripts kind).Plays std)
    (hopener : (scripts kind).opener = none) {payload : GraphPayload}
    (hshows : Shows (scripts kind).shown payload) (symbol : PyStr) (repo : Option PyStr)
    (opened : Bool) :
    Runs (AtTurn scripts kind opened)
      ((scripted std scripts).resolveAmbiguous kind file symbol repo payload)
      fun payload state => Shows (scripts kind).shown payload ∧ AtTurn scripts kind false state := by
  have hstay : Runs (AtTurn scripts kind opened) (pure payload : Session GraphPayload)
      fun payload state => Shows (scripts kind).shown payload ∧ AtTurn scripts kind false state :=
    runs_pure fun state hstate => ⟨hshows, atTurn_of_alone hopener false hstate⟩
  rw [resolveAmbiguous]
  split
  next fields hresult =>
    split
    next hambiguous =>
      have hreadable := hplays.alone hopener fields (hshows.2 ▸ hresult) hambiguous
      obtain ⟨pick, hpick, _⟩ := exists_pick symbol file hreadable
      apply runs_bind (fun found state => found = pick ∧ AtTurn scripts kind opened state)
        (runs_stateless hpick fun state hstate => ⟨rfl, hstate⟩)
      intro found
      cases found with
      | none => exact hstay.of_imp fun state hstate => hstate.2
      | some row =>
        apply runs_bind _ ((runs_query opened _ _ _ _).of_imp fun state hstate => hstate.2)
        intro resolved
        apply runs_pure
        intro state hstate
        have hnext : (scripts kind).next opened = (scripts kind).shown := by
          rw [Script.next, hopener]
          cases opened <;> rfl
        rw [hnext] at hstate
        exact ⟨shows_resolved hshows hstate.1, atTurn_of_alone hopener false hstate.2⟩
    next => exact hstay
  next => exact hstay

/-- An opener is resolved to the answer of the script. -/
theorem runs_resolve_opened (hplays : (scripts kind).Plays std) {opener : GitNexusCommandResult}
    (hopener : (scripts kind).opener = some opener) {payload : GraphPayload}
    (hshows : Shows opener payload) (symbol : PyStr) (repo : Option PyStr) :
    Runs (AtTurn scripts kind true)
      ((scripted std scripts).resolveAmbiguous kind file symbol repo payload)
      fun payload state => Shows (scripts kind).shown payload ∧ AtTurn scripts kind false state := by
  obtain ⟨⟨fields, hdata, hambiguous, hreadable, hrows⟩, hok⟩ := hplays.opened opener hopener
  obtain ⟨pick, hpick, hnone⟩ := exists_pick symbol file hreadable
  rw [resolveAmbiguous, hshows.2, hdata]
  dsimp only
  rw [if_pos (by exact hambiguous)]
  apply runs_bind (fun found state => found = pick ∧ AtTurn scripts kind true state)
    (runs_stateless hpick fun state hstate => ⟨rfl, hstate⟩)
  intro found
  cases found with
  | none =>
    constructor
    intro start hstart
    exact absurd (hnone.mp hstart.1.symm) hrows
  | some row =>
    apply runs_bind _ ((runs_query true _ _ _ _).of_imp fun state hstate => hstate.2)
    intro resolved
    apply runs_pure
    intro state hstate
    have hresolved : resolved.ok = true := hstate.1.1.trans hok
    rw [if_pos hresolved]
    exact hstate

theorem runs_attempt (hplays : (scripts kind).Plays std) (candidate : PyStr) :
    Runs (AtTurn scripts kind false)
      ((scripted std scripts).attempt kind file candidate none none none)
      fun tried state => tried.1 = none ∧ Shows (scripts kind).shown tried.2 ∧
        AtTurn scripts kind false state := by
  simp only [attempt, orText, ite_self]
  apply runs_bind _ (runs_query false _ _ _ _)
  intro first
  rw [retryMissing_none, pure_bind]
  apply runs_bind fun payload state => Shows (scripts kind).shown payload ∧
    AtTurn scripts kind false state
  · constructor
    intro start hstart
    cases hopener : (scripts kind).opener with
    | none =>
      rw [Script.next, hopener] at hstart
      exact (runs_resolve_alone hplays hopener hstart.1 _ _ _).returns start hstart.2
    | some opener =>
      rw [Script.next, hopener] at hstart
      exact (runs_resolve_opened hplays hopener hstart.1 _ _).returns start hstart.2
  · intro payload
    exact runs_pure fun state hstate => ⟨rfl, hstate⟩

/-- The search ends with the answer of the script, whichever candidate it comes for. -/
theorem runs_searchLoop (hplays : (scripts kind).Plays std) (symbol : PyStr)
    (candidates : List PyStr) (last : Option GraphPayload)
    (hlast : ∀ payload, last = some payload → Shows (scripts kind).shown payload)
    (hsome : candidates ≠ [] ∨ last ≠ none) :
    Runs (AtTurn scripts kind false)
      ((scripted std scripts).searchLoop kind file symbol none none candidates none last)
      fun payload state => Shows (scripts kind).shown payload ∧
        AtTurn scripts kind false state := by
  induction candidates generalizing last with
  | nil =>
    apply runs_pure
    intro state hstate
    cases last with
    | none => exact absurd hsome (by simp)
    | some payload => exact ⟨hlast payload rfl, hstate⟩
  | cons candidate rest ih =>
    apply runs_bind _ (runs_attempt hplays candidate)
    intro tried
    apply runs_of_fact
    intro hresolved
    apply runs_of_fact
    intro hshows
    obtain ⟨usable, husable⟩ := hplays.usable
    have haccepts : (scripted std scripts).accepts symbol tried.2 =
        .ok (usable && resultMatchesSymbol std tried.2.result symbol) := by
      rw [accepts, hshows.2]
      exact congrArg (Except.map _) husable
    apply runs_bind (fun _ => AtTurn scripts kind false)
      (runs_stateless haccepts fun state hstate => hstate)
    intro accepted
    split
    · exact runs_pure fun state hstate => ⟨hshows, hstate⟩
    · rw [hresolved]
      apply ih
      · intro payload hpayload
        exact Option.some.inj hpayload ▸ hshows
      · exact Or.inr (by simp)

theorem addName_cons (name : PyStr) (names : List PyStr) (other : PyStr) :
    ∃ rest, addName (name :: names) other = name :: rest := by
  rw [addName]
  split
  · exact ⟨names, rfl⟩
  · exact ⟨_, rfl⟩

/-- The symbol itself is tried first. -/
theorem symbolCandidates_cons (std : GraphStdlib) {symbol : PyStr} (hsymbol : strip symbol ≠ []) :
    ∃ rest, symbolCandidates std symbol = strip symbol :: rest := by
  have hfirst : addName [] (strip symbol) = [strip symbol] := by
    have hagain : strip (strip symbol) = strip symbol := stripBy_idem isSpace symbol
    rw [addName, hagain, if_neg (by simp [hsymbol])]
    rfl
  have hsecond : ∃ rest, (if CodePoint.ofChar '(' ∈ strip symbol then
      addName [strip symbol] ((strip symbol).takeWhile (· ≠ CodePoint.ofChar '('))
        else [strip symbol]) = strip symbol :: rest := by
    split
    · exact addName_cons _ _ _
    · exact ⟨[], rfl⟩
  rw [symbolCandidates, if_neg hsymbol, hfirst]
  dsimp only
  obtain ⟨rest, hrest⟩ := hsecond
  rw [hrest]
  split
  next last previous others hparts =>
    obtain ⟨afterLast, hlast⟩ := addName_cons (strip symbol) rest last
    rw [hlast]
    split
    · obtain ⟨afterJoined, hjoined⟩ := addName_cons (strip symbol) afterLast
        (previous ++ py "." ++ last)
      rw [hjoined]
      exact addName_cons _ _ _
    · exact ⟨afterLast, rfl⟩
  next => exact ⟨rest, rfl⟩

theorem runs_search (hplays : (scripts kind).Plays std) {symbol : PyStr}
    (hsymbol : strip symbol ≠ []) :
    Runs (AtTurn scripts kind false) ((scripted std scripts).search kind file symbol none)
      fun payload state => Shows (scripts kind).shown payload ∧
        AtTurn scripts kind false state := by
  have hsearch : (scripted std scripts).search kind file symbol none =
      (scripted std scripts).searchOnce kind file (strip symbol) none none := by
    have hrepo : (scripted std scripts).canonicalRepo none false = pure none := rfl
    rw [search, if_neg (by simp [scripted]), if_neg hsymbol, hrepo, pure_bind]
    exact bind_pure ((scripted std scripts).searchOnce kind file (strip symbol) none none)
  have hagain : strip (strip symbol) ≠ [] := by
    rw [strip, strip, stripBy_idem]
    exact hsymbol
  obtain ⟨rest, hcandidates⟩ := symbolCandidates_cons std hagain
  rw [hsearch]
  apply runs_searchLoop hplays _ _ none fun _ hnone => absurd hnone (by simp)
  left
  exact ne_of_eq_of_ne hcandidates (List.cons_ne_nil _ _)

end Scripted

/-! ## Exactly the harmless answers -/

section Exact

variable {std : GraphStdlib} {scripts : SearchKind → Script} {symbol : PyStr} {maxDepth : ℤ}
  {file : Option PyStr}

/-- The state of an adapter that has asked nothing. -/
def freshState : AdapterState where
  asked := []
  repoNames := []

theorem atTurn_fresh (kind : SearchKind) : AtTurn scripts kind false freshState := by
  intro other opener _
  simp [freshState]

theorem atTurn_other {kind : SearchKind} {state : AdapterState}
    (hturn : AtTurn scripts kind false state) (other : SearchKind) :
    AtTurn scripts other false state := by
  intro third opener hopener
  simpa using hturn third opener hopener

/-- The first candidate is the symbol itself, and its impact answer is the scripted one. -/
theorem runs_callersForSymbol {result : CallersReport → AdapterState → Prop}
    (hplays : (scripts .impact).Plays std) (hsymbol : strip symbol ≠ [])
    (hok : (scripts .impact).shown.ok = true)
    (hcandidate : ∀ impact, Shows (scripts .impact).shown impact →
      Runs (AtTurn scripts .impact false)
        ((scripted std scripts).callersOfCandidate none file maxDepth (strip symbol) impact)
        fun found state => ∃ report, found = some report ∧ result report state) :
    Runs (AtTurn scripts .impact false)
      ((scripted std scripts).callersForSymbol none file maxDepth symbol) result := by
  obtain ⟨rest, hcandidates⟩ := symbolCandidates_cons std hsymbol
  have hagain : strip (strip symbol) ≠ [] := by
    rw [strip, strip, stripBy_idem]
    exact hsymbol
  rw [callersForSymbol, show (scripted std scripts).std = std from rfl, hcandidates]
  apply runs_bind _ (runs_search hplays hagain)
  intro impact
  apply runs_of_fact
  intro hshows
  rw [if_neg (by simp [hshows.1, hok])]
  apply runs_bind _ (hcandidate impact hshows)
  intro found
  cases found with
  | none =>
    constructor
    intro start hstart
    obtain ⟨report, hreport, _⟩ := hstart
    exact absurd hreport (by simp)
  | some report =>
    apply runs_pure
    intro state hstate
    obtain ⟨other, hother, hresult⟩ := hstate
    obtain rfl := Option.some.inj hother
    exact hresult

/-- The report gives the callers and names a payload that shows the answer as their source. -/
def Reports (candidate : PyStr) (callers : List Caller) (answer : GitNexusCommandResult)
    (report : CallersReport) : Prop :=
  ∃ raw : CallersRaw, Shows answer raw.source ∧
    report = GitNexus.found none candidate callers raw

theorem runs_impact_callers {impact : GraphPayload} {answer : GitNexusCommandResult}
    (hshows : Shows answer impact) {callers : List Caller}
    (hcallers : extractCallersFromImpact std answer.data maxDepth = .ok callers)
    (hne : callers ≠ []) (candidate : PyStr) {ready : AdapterState → Prop} :
    Runs ready ((scripted std scripts).callersOfCandidate none file maxDepth candidate impact)
      fun found _ => ∃ report, found = some report ∧ Reports candidate callers answer report := by
  obtain ⟨caller, tail, rfl⟩ := List.exists_cons_of_ne_nil hne
  rw [callersOfCandidate, hshows.2, show (scripted std scripts).std = std from rfl, hcallers,
    stateless_ok, pure_bind]
  exact runs_pure fun _ _ => ⟨_, rfl, .impact impact, hshows, rfl⟩

theorem runs_context_callers (hplays : (scripts .context).Plays std) {impact : GraphPayload}
    {answer : GitNexusCommandResult} (hshows : Shows answer impact)
    (hempty : extractCallersFromImpact std answer.data maxDepth = .ok []) {callers : List Caller}
    (hcallers : extractCallersFromContext std (scripts .context).shown.data maxDepth =
      .ok callers) (hne : callers ≠ []) {candidate : PyStr} (hcandidate : strip candidate ≠ []) :
    Runs (AtTurn scripts .impact false)
      ((scripted std scripts).callersOfCandidate none file maxDepth candidate impact)
      fun found _ => ∃ report, found = some report ∧
        Reports candidate callers (scripts .context).shown report := by
  obtain ⟨caller, tail, rfl⟩ := List.exists_cons_of_ne_nil hne
  rw [callersOfCandidate, hshows.2, show (scripted std scripts).std = std from rfl, hempty,
    stateless_ok, pure_bind]
  apply runs_bind _ ((runs_search hplays hcandidate).of_imp fun state hstate =>
    atTurn_other hstate .context)
  intro context
  apply runs_of_fact
  intro hcontext
  rw [hcontext.2, hcallers, stateless_ok, pure_bind]
  exact runs_pure fun _ _ => ⟨_, rfl, .context impact context, hcontext, rfl⟩

/-- An answer that can be used is what some script shows, with answers of the same set. -/
theorem exists_script {answers : Set GitNexusCommandResult} {answer : GitNexusCommandResult}
    (hlive : Live std answers answer) :
    ∃ script : Script, script.shown = answer ∧ script.Plays std ∧
      ∀ asked, script.answer asked ∈ answers := by
  obtain ⟨hmem, husable, hself | ⟨hok, opener, hopener, hpicks⟩⟩ := hlive
  · exact ⟨{ shown := answer, opener := none }, rfl,
      ⟨husable, fun _ => hself, fun _ hsome => absurd hsome (by simp)⟩, fun _ => hmem⟩
  · refine ⟨{ shown := answer, opener := some opener }, rfl,
      ⟨husable, fun hnone => absurd hnone (by simp), ?_⟩, ?_⟩
    · intro other hother
      obtain rfl := Option.some.inj hother
      exact ⟨hpicks, hok⟩
    · intro asked
      rw [Script.answer]
      dsimp only
      split
      · exact hopener
      · exact hmem

/-- Every run of the adapter, whatever repository and file are asked for and however the tool
picks its answers from the given ones. -/
def AlwaysBelongs (std : GraphStdlib) (answers : SearchKind → Set GitNexusCommandResult)
    (symbol : PyStr) (maxDepth : ℤ) : Prop :=
  ∀ gitnexus : GitNexus, gitnexus.std = std → Answers gitnexus answers → ∀ repo file,
    Gives (gitnexus.callersForSymbol repo file maxDepth symbol) (Belongs std symbol maxDepth)

/-- A run that reports the callers of an answer shows whether the answer is harmless. -/
theorem harmless_of_runs {answers : SearchKind → Set GitNexusCommandResult}
    (hbelongs : AlwaysBelongs std answers symbol maxDepth)
    (hscripts : ∀ kind asked, (scripts kind).answer asked ∈ answers kind) {callers : List Caller}
    {answer : GitNexusCommandResult} (hruns : Runs (AtTurn scripts .impact false)
      ((scripted std scripts).callersForSymbol none none maxDepth symbol)
      fun report _ => Reports (strip symbol) callers answer report) :
    resultMatchesSymbol std answer.data symbol = true ∧
      ∀ caller ∈ callers, caller.depth ≤ maxDepth := by
  obtain ⟨report, after, hreturned, raw, hshows, hreport⟩ :=
    hruns.returns freshState (atTurn_fresh _)
  have hanswers : Answers (scripted std scripts) answers :=
    fun _ kind _ _ _ _ => hscripts kind _
  have hreportBelongs :=
    (hbelongs _ rfl hanswers none none).returned freshState report after hreturned
  rw [hreport] at hreportBelongs
  obtain ⟨source, hsource, hclass, hdepth⟩ := hreportBelongs rfl
  obtain rfl := Option.some.inj hsource
  exact ⟨hshows.2 ▸ hclass, hdepth⟩

/-- The scripts of the two kinds of search. -/
def pairOfScripts (impact context : Script) : SearchKind → Script
  | .impact => impact
  | .context => context

theorem answer_pairOfScripts {answers : SearchKind → Set GitNexusCommandResult}
    {impact context : Script} (himpact : ∀ asked, impact.answer asked ∈ answers .impact)
    (hcontext : ∀ asked, context.answer asked ∈ answers .context) (kind : SearchKind)
    (asked : ℕ) : (pairOfScripts impact context kind).answer asked ∈ answers kind := by
  cases kind with
  | impact => exact himpact asked
  | context => exact hcontext asked

end Exact

/-! ## A search for a class that ends with another one -/

def graphStdlib : GraphStdlib :=
  { numberStdlib with upperNonAscii := fun _ => false, alphaNonAscii := fun _ => false }

/-- An answer about the handler of another class, with one caller. -/
def strayAnswer : GitNexusCommandResult where
  ok := true
  stdout := []
  stderr := []
  data := .obj
    [(py "symbol", .obj [(py "uid", .str (py "Method:MessageService.handler"))]),
      (py "incoming", .arr [.obj [(py "name", .str (py "transMessage"))]])]

def strayTool : GitNexus where
  std := graphStdlib
  enabled := true
  answer _ _ := strayAnswer

end RootSeeker.CodeIndex
