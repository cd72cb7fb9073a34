import RootSeeker.Analysis.RootCauseEngine

/-!
# What unconfigured backends change

The hypotheses leave unconfigured evidence out, but the title of the conclusion
is the first exception that any item of the pack names.
-/

namespace RootSeeker.Analysis

open Python Contracts

variable {lib : AnalysisLib} {settings : EngineSettings}

/-! ## Rounds keep the items of the pack -/

variable {pack : TimedPack}

theorem runRounds_spec {maxIterations remaining iteration : ℕ}
    {weighted : List WeightedEvidence} {round : Round}
    (hrounds : runRounds lib settings maxIterations remaining iteration pack weighted =
      .ok round) : pack.items <+: round.pack.items ∧ round.hypotheses ≠ [] := by
  induction remaining generalizing iteration pack weighted with
  | zero =>
    have hround := runRound_eq_ok hrounds
    exact ⟨hround.pack_eq ▸ List.prefix_rfl, generate_ne_nil hround.hypotheses⟩
  | succ remaining ih =>
    rw [runRounds] at hrounds
    obtain ⟨first, hfirst, hrest⟩ := Loops.exists_of_bind_eq_ok hrounds
    split at hrest
    · obtain rfl := Except.ok.inj hrest
      have hround := runRound_eq_ok hfirst
      exact ⟨hround.pack_eq ▸ List.prefix_rfl, generate_ne_nil hround.hypotheses⟩
    · obtain ⟨hkept, hne⟩ := ih hrest
      exact ⟨(items_synthesizeIterationEvidence _ _ _ _).trans hkept, hne⟩

/-! ## The title -/

theorem title_of_validate {title narrative : PyStr} {confidence : PyFloat}
    {factors : List PyStr} {conclusion : RootCauseConclusion}
    (hvalidate : RootCauseConclusion.validate title narrative confidence factors =
      .ok conclusion) : conclusion.title.val = title := by
  rw [RootCauseConclusion.validate] at hvalidate
  split at hvalidate
  · obtain rfl := Except.ok.inj hvalidate
    rfl
  · exact absurd hvalidate (by simp)

theorem exists_topHypothesis {hypotheses : List Hypothesis} (hne : hypotheses ≠ [])
    (validations : List ValidationResult) :
    ∃ top, topHypothesisOf hypotheses validations = some top := by
  obtain ⟨first, rest, rfl⟩ := List.exists_cons_of_ne_nil hne
  cases validations with
  | nil => exact ⟨first, rfl⟩
  | cons validation validations =>
    unfold topHypothesisOf
    dsimp only
    cases (first :: rest).find? _ with
    | none => exact ⟨first, rfl⟩
    | some top => exact ⟨top, rfl⟩

/-- An item of a backend that is not configured, with an exception in it. -/
def unconfiguredItem (exception : PyStr) : TimedItem where
  itemId := RequiredStr.ofLiteral "ev-unconfigured" (by decide)
  type := .other
  source := RequiredStr.ofLiteral "code.search" (by decide)
  content :=
    ⟨[(py "configured", .bool false),
        (py "extracted", .obj [(py "exception_summary", .str exception)])],
      by
        simp only [KeysEncodable, Dict.keys, List.map_cons, List.map_nil, List.forall_mem_cons]
        exact ⟨encodable_py _, encodable_py _, fun _ hkey => absurd hkey List.not_mem_nil⟩⟩
  collectedAt := 0

theorem extractedField_unconfiguredItem {exception : PyStr} (hne : strip exception ≠ [])
    (items : List TimedItem) :
    extractedField (unconfiguredItem exception :: items) (py "exception_summary") =
      strip exception := by
  have hextracted : objectField (unconfiguredItem exception).content.val (py "extracted") =
      some [(py "exception_summary", .str exception)] := rfl
  rw [extractedField, List.findSome?_cons, hextracted, Option.bind_some]
  have hfield : Dict.get? [(py "exception_summary", Json.str exception)]
      (py "exception_summary") = some (.str exception) := rfl
  rw [hfield]
  dsimp only
  rw [if_neg hne, Option.getD_some]

/-- With the item in front its exception is the title. -/
theorem title_analyze_unconfiguredItem {exception : PyStr} (hne : strip exception ≠ [])
    {maxIterations : ℤ} {result : RootCauseAnalysisResult} (hresult : analyze lib settings
      { pack with items := unconfiguredItem exception :: pack.items } maxIterations =
        .ok result) : result.conclusion.title.val = (strip exception).take 100 := by
  rw [analyze, if_neg (by simp)] at hresult
  obtain ⟨round, hround, hrest⟩ := Loops.exists_of_bind_eq_ok hresult
  obtain ⟨conclusion, hconclusion, hrest⟩ := Loops.exists_of_bind_eq_ok hrest
  obtain rfl := Except.ok.inj hrest
  obtain ⟨⟨added, hadded⟩, hhypotheses⟩ := runRounds_spec hround
  obtain ⟨top, htop⟩ := exists_topHypothesis hhypotheses round.validations
  rw [buildConclusion, htop] at hconclusion
  have hfield := extractedField_unconfiguredItem hne (pack.items ++ added)
  rw [title_of_validate hconclusion, conclusionTitle, ← hadded, List.cons_append, hfield]
  exact if_pos hne

/-! ## Adding unconfigured items -/

/-- The items of a pack with unconfigured ones anywhere between them. -/
inductive WithUnconfigured : List TimedItem → List TimedItem → Prop where
  | nil : WithUnconfigured [] []
  | keep (item : TimedItem) {items extended : List TimedItem} :
      WithUnconfigured items extended → WithUnconfigured (item :: items) (item :: extended)
  | add {item : TimedItem} {items extended : List TimedItem} :
      isUnconfiguredEvidence item.toEvidenceItem = true →
        WithUnconfigured items extended → WithUnconfigured items (item :: extended)

theorem WithUnconfigured.refl (items : List TimedItem) : WithUnconfigured items items := by
  induction items with
  | nil => exact nil
  | cons item items ih => exact keep item ih

structure SameResult (left right : RootCauseAnalysisResult) : Prop where
  hypotheses : statements left.hypotheses = statements right.hypotheses
  confidence : left.conclusion.confidence = right.conclusion.confidence
  title : left.conclusion.title = right.conclusion.title
  contributingFactors :
    left.conclusion.contributingFactors = right.conclusion.contributingFactors
  isConverged : left.isConverged = right.isConverged

/-- The analysis gives the same result with unconfigured items added anywhere. -/
def Unaffected (lib : AnalysisLib) (settings : EngineSettings) (pack : TimedPack)
    (maxIterations : ℤ) : Prop :=
  ∀ items, WithUnconfigured pack.items items →
    ∃ result extended, analyze lib settings pack maxIterations = .ok result ∧
      analyze lib settings { pack with items := items } maxIterations = .ok extended ∧
        SameResult result extended

theorem title_of_unaffected {maxIterations : ℤ}
    (hunaffected : Unaffected lib settings pack maxIterations) {result : RootCauseAnalysisResult}
    (hresult : analyze lib settings pack maxIterations = .ok result) (exception : PyStr)
    (hne : strip exception ≠ []) : result.conclusion.title.val = (strip exception).take 100 := by
  obtain ⟨same, extended, hsame, hextended, hequal⟩ := hunaffected
    (unconfiguredItem exception :: pack.items) (.add rfl (.refl _))
  obtain rfl := Except.ok.inj (hresult.symm.trans hsame)
  rw [hequal.title]
  exact title_analyze_unconfiguredItem hne hextended

/-- Every pack has unconfigured items that change its result. -/
theorem not_unaffected (lib : AnalysisLib) (settings : EngineSettings) (pack : TimedPack)
    (maxIterations : ℤ) : ¬Unaffected lib settings pack maxIterations := by
  intro hunaffected
  obtain ⟨result, -, hresult, -⟩ := hunaffected pack.items (.refl _)
  have hfirst := title_of_unaffected hunaffected hresult (py "a") (by decide)
  have hsecond := title_of_unaffected hunaffected hresult (py "b") (by decide)
  exact absurd (hfirst.symm.trans hsecond) (by decide)

def failedLogin : TimedItem where
  itemId := RequiredStr.ofLiteral "ev-1" Fixture.evOne
  type := .log
  source := RequiredStr.ofLiteral "log.query_by_trace_id" Fixture.queryByTrace
  content := ⟨[(py "message", .str (py "login error"))], by decide⟩
  collectedAt := 0

def failedLoginPack : TimedPack where
  caseId := RequiredStr.ofLiteral "case-1" Fixture.caseOne
  items := [failedLogin]
  summary := []

def titleOf (result : Except PyError RootCauseAnalysisResult) : Option PyStr :=
  result.toOption.map fun result => result.conclusion.title.val

theorem unconfigured_title :
    titleOf (analyze analysisLib {} failedLoginPack 1) = some (py "login error") ∧
      titleOf (analyze analysisLib {}
        { failedLoginPack with items := [unconfiguredItem (py "no index"), failedLogin] } 1) =
          some (py "no index") := by
  constructor
  · decide +kernel
  · decide +kernel

end RootSeeker.Analysis
