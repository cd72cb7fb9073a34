import RootSeeker.Analysis.RootCauseEngine
import RootSeeker.Core.KeyedList

/-!
# What iterating adds to the support of a hypothesis

Evidence that rounds add is counted like any other.  It leaves the counts of a
hypothesis alone exactly when it has none of the keywords, and later rounds do
not raise the confidence as long as each of them is steady.
-/

namespace RootSeeker.Analysis

open Python Contracts

/-! ## Counts with added items -/

section Counts

variable {std : Stdlib} {hypothesis : Hypothesis}

/-- The items that support a hypothesis, by their ids. -/
def supportingIds (std : Stdlib) (hypothesis : Hypothesis) (items : List TimedItem) :
    List RequiredStr :=
  items.foldl (addSupporting std hypothesis) hypothesis.evidenceItemIds.dedup

theorem length_le_addSupporting (supporting : List RequiredStr) (item : TimedItem) :
    supporting.length ≤ (addSupporting std hypothesis supporting item).length := by
  rw [addSupporting]
  split
  · exact le_rfl
  · split
    · rw [List.length_append]
      exact Nat.le_add_right _ _
    · exact le_rfl

theorem length_le_foldl_addSupporting (std : Stdlib) (hypothesis : Hypothesis)
    (supporting : List RequiredStr) (added : List TimedItem) :
    supporting.length ≤ (added.foldl (addSupporting std hypothesis) supporting).length := by
  induction added generalizing supporting with
  | nil => exact le_rfl
  | cons item added ih => exact (length_le_addSupporting supporting item).trans (ih _)

/-- Nothing new supports exactly when every item is counted already or has no keyword. -/
theorem length_foldl_addSupporting_eq_iff (supporting : List RequiredStr) (added : List TimedItem) :
    (added.foldl (addSupporting std hypothesis) supporting).length = supporting.length ↔
      ∀ item ∈ added, item.itemId ∈ supporting ∨ matchesKeywords std hypothesis item = false := by
  induction added generalizing supporting with
  | nil => exact iff_of_true rfl fun _ hitem => absurd hitem List.not_mem_nil
  | cons item added ih =>
    rw [List.foldl_cons, List.forall_mem_cons]
    by_cases hitem : item.itemId ∈ supporting ∨ matchesKeywords std hypothesis item = false
    · have hsame : addSupporting std hypothesis supporting item = supporting := by
        rw [addSupporting]
        split
        · rfl
        · next hnew => rw [hitem.resolve_left hnew, if_neg Bool.false_ne_true]
      rw [hsame, ih, and_iff_right hitem]
    · refine iff_of_false (fun hlength => ?_) fun hall => hitem hall.1
      rw [not_or, Bool.not_eq_false] at hitem
      have hadded : addSupporting std hypothesis supporting item = supporting ++ [item.itemId] := by
        rw [addSupporting, if_neg hitem.1, if_pos hitem.2]
      have hgrows := length_le_foldl_addSupporting std hypothesis
        (supporting ++ [item.itemId]) added
      rw [hadded] at hlength
      rw [hlength, List.length_append, List.length_singleton] at hgrows
      omega

theorem countSupporting_append_iff (items added : List TimedItem) :
    countSupporting std hypothesis (items ++ added) = countSupporting std hypothesis items ↔
      ∀ item ∈ added, item.itemId ∈ supportingIds std hypothesis items ∨
        matchesKeywords std hypothesis item = false := by
  rw [countSupporting, countSupporting, List.foldl_append]
  exact length_foldl_addSupporting_eq_iff _ _

theorem countContradicting_append_iff (items added : List TimedItem) :
    countContradicting std hypothesis (items ++ added) =
        countContradicting std hypothesis items ↔
      ∀ item ∈ added, contradicts std hypothesis item = false := by
  rw [countContradicting, countContradicting, List.countP_append, Nat.add_eq_left,
    List.countP_eq_zero]
  simp only [Bool.not_eq_true]

theorem checkEvidence_append_iff (settings : EngineSettings) (items added : List TimedItem) :
    checkEvidence settings (items ++ added) = checkEvidence settings items ↔
      added = [] ∨ settings.minEvidenceCount ≤ items.length ∨
        items.length + added.length < settings.minEvidenceCount := by
  rw [checkEvidence, checkEvidence, decide_eq_decide, List.length_append, ← List.length_eq_zero_iff]
  push_cast
  omega

end Counts

/-- Added evidence changes nothing about a hypothesis. -/
structure Neutral (std : Stdlib) (settings : EngineSettings) (hypothesis : Hypothesis)
    (items added : List TimedItem) : Prop where
  support : ∀ item ∈ added, item.itemId ∈ supportingIds std hypothesis items ∨
    matchesKeywords std hypothesis item = false
  contradiction : ∀ item ∈ added, contradicts std hypothesis item = false
  sufficiency : added = [] ∨ settings.minEvidenceCount ≤ items.length ∨
    items.length + added.length < settings.minEvidenceCount

/-- The same counts and the same sufficiency with and without the added items. -/
structure SameCounts (std : Stdlib) (settings : EngineSettings) (hypothesis : Hypothesis)
    (items added : List TimedItem) : Prop where
  supporting : (validate std hypothesis (items ++ added)).supportingCount =
    (validate std hypothesis items).supportingCount
  contradicting : (validate std hypothesis (items ++ added)).contradictingCount =
    (validate std hypothesis items).contradictingCount
  sufficient : checkEvidence settings (items ++ added) = checkEvidence settings items

theorem sameCounts_iff (std : Stdlib) (settings : EngineSettings) (hypothesis : Hypothesis)
    (items added : List TimedItem) :
    SameCounts std settings hypothesis items added ↔
      Neutral std settings hypothesis items added := by
  constructor
  · intro hsame
    exact
      { support := (countSupporting_append_iff items added).mp hsame.supporting
        contradiction := (countContradicting_append_iff items added).mp hsame.contradicting
        sufficiency := (checkEvidence_append_iff settings items added).mp hsame.sufficient }
  · intro hneutral
    exact
      { supporting := (countSupporting_append_iff items added).mpr hneutral.support
        contradicting := (countContradicting_append_iff items added).mpr hneutral.contradiction
        sufficient := (checkEvidence_append_iff settings items added).mpr hneutral.sufficiency }

/-! ## The order of validations -/

section Sorting

variable {α β : Type*} {related : α → β → Prop} {r : α → α → Prop} {s : β → β → Prop}
  [DecidableRel r] [DecidableRel s]

theorem forall₂_orderedInsert (hcompare : ∀ a b c d, related a b → related c d → (r a c ↔ s b d))
    {a : α} {b : β} (hhead : related a b) {left : List α} {right : List β}
    (hlists : List.Forall₂ related left right) :
    List.Forall₂ related (left.orderedInsert r a) (right.orderedInsert s b) := by
  induction hlists with
  | nil => exact .cons hhead .nil
  | @cons c d left right hfirst hrest ih =>
    rw [List.orderedInsert, List.orderedInsert]
    by_cases hbefore : r a c
    · rw [if_pos hbefore, if_pos ((hcompare a b c d hhead hfirst).mp hbefore)]
      exact .cons hhead (.cons hfirst hrest)
    · rw [if_neg hbefore, if_neg (mt (hcompare a b c d hhead hfirst).mpr hbefore)]
      exact .cons hfirst ih

/-- Related lists that are compared alike stay related when they are sorted. -/
theorem forall₂_insertionSort (hcompare : ∀ a b c d, related a b → related c d → (r a c ↔ s b d))
    {left : List α} {right : List β} (hlists : List.Forall₂ related left right) :
    List.Forall₂ related (left.insertionSort r) (right.insertionSort s) := by
  induction hlists with
  | nil => exact .nil
  | cons hfirst _ ih => exact forall₂_orderedInsert hcompare hfirst ih

end Sorting

/-- Hypotheses that differ in their ids at most. -/
def SameClaim (left right : Hypothesis) : Prop :=
  left.statement = right.statement ∧ left.evidenceItemIds = right.evidenceItemIds

theorem forall₂_sameClaim {left right : List Hypothesis}
    (hsame : statements left = statements right) : List.Forall₂ SameClaim left right := by
  have hrelated := List.forall₂_eq_eq_eq ▸ hsame
  rw [statements, statements, List.forall₂_map_left_iff, List.forall₂_map_right_iff] at hrelated
  exact hrelated.imp fun _ _ hpair => Prod.mk.inj hpair

theorem validate_sameClaim {std : Stdlib} {left right : Hypothesis}
    (hsame : SameClaim left right) (items : List TimedItem) :
    (validate std right items).confidence = (validate std left items).confidence := by
  obtain ⟨_, statement, ids⟩ := left
  obtain ⟨_, _, _⟩ := right
  obtain ⟨rfl, rfl⟩ := hsame
  rfl

/-- Validations of the same confidence for hypotheses that say the same. -/
def SameValidation (hypotheses others : List Hypothesis) (left right : ValidationResult) :
    Prop :=
  left.confidence = right.confidence ∧
    ∃ hypothesis other, hypothesis ∈ hypotheses ∧ other ∈ others ∧
      SameClaim hypothesis other ∧ left.hypothesisId = hypothesis.hypothesisId ∧
        right.hypothesisId = other.hypothesisId

variable {hypotheses others : List Hypothesis} {items : List TimedItem}

theorem forall₂_byConfidence {left right : List ValidationResult}
    (hsame : List.Forall₂ (SameValidation hypotheses others) left right) :
    List.Forall₂ (SameValidation hypotheses others) (byConfidence left) (byConfidence right) :=
  forall₂_insertionSort
    (fun _ _ _ _ hfirst hsecond => by rw [hfirst.1, hsecond.1]) hsame

/-- With neutral items added, hypotheses that say the same are validated alike. -/
theorem forall₂_validateAll {std : Stdlib} {settings : EngineSettings} {added : List TimedItem}
    (hsame : statements hypotheses = statements others)
    (hneutral : ∀ hypothesis ∈ hypotheses, Neutral std settings hypothesis items added) :
    List.Forall₂ (SameValidation hypotheses others) (validateAll std hypotheses items)
      (validateAll std others (items ++ added)) := by
  refine forall₂_byConfidence ?_
  rw [List.forall₂_map_left_iff, List.forall₂_map_right_iff]
  have hclaims := forall₂_sameClaim hsame
  rw [List.forall₂_iff_zip] at hclaims ⊢
  refine ⟨hclaims.1, fun {hypothesis other} hpair => ?_⟩
  obtain ⟨hmem, hother⟩ := List.of_mem_zip hpair
  have hclaim := hclaims.2 hpair
  have hcounts := (sameCounts_iff std settings hypothesis items added).mpr
    (hneutral hypothesis hmem)
  refine ⟨?_, hypothesis, other, hmem, hother, hclaim, rfl, rfl⟩
  rw [validate_sameClaim hclaim]
  exact congrArg₂ calculateConfidence hcounts.supporting.symm hcounts.contradicting.symm

/-! ## Ids -/

section Ids

variable {lib : AnalysisLib} {round : ℕ} {pack : TimedPack}

/-- Each hypothesis has the id of its place. -/
def Numbered (lib : AnalysisLib) (round : ℕ) (hypotheses : List Hypothesis) : Prop :=
  hypotheses.map (·.hypothesisId) = (List.range hypotheses.length).map (lib.hypothesisId round)

theorem Numbered.append (hnumbered : Numbered lib round hypotheses) {hypothesis : Hypothesis}
    (hid : hypothesis.hypothesisId = lib.hypothesisId round hypotheses.length) :
    Numbered lib round (hypotheses ++ [hypothesis]) := by
  rw [Numbered, List.map_append, hnumbered, List.length_append, List.length_singleton,
    List.range_succ, List.map_append, List.map_singleton, List.map_singleton, hid]

theorem Numbered.nodup (hnumbered : Numbered lib round hypotheses) :
    (hypotheses.map (·.hypothesisId)).Nodup :=
  hnumbered ▸ List.nodup_range.map (lib.hypothesisId_injective round)

theorem hypothesisId_of_buildHypothesis {id : RequiredStr} {template : HypothesisTemplate}
    {used : List RequiredStr} {hypothesis : Hypothesis}
    (hbuilt : buildHypothesis lib id template items used = .ok (some hypothesis)) :
    hypothesis.hypothesisId = id := by
  rw [buildHypothesis] at hbuilt
  split at hbuilt
  · exact absurd (Except.ok.inj hbuilt) (by simp)
  · obtain ⟨statement, -, hrest⟩ := Loops.exists_of_bind_eq_ok hbuilt
    obtain rfl := Option.some.inj (Except.ok.inj hrest)
    rfl

theorem numbered_addTemplateHypothesis {next : List Hypothesis} {template : HypothesisTemplate}
    (hnumbered : Numbered lib round hypotheses)
    (hadd : addTemplateHypothesis lib round pack hypotheses template = .ok next) :
    Numbered lib round next := by
  obtain ⟨built, hbuilt, hrest⟩ := Loops.exists_of_bind_eq_ok hadd
  obtain rfl := Except.ok.inj hrest
  cases built with
  | none => rwa [Option.toList_none, List.append_nil]
  | some hypothesis => exact hnumbered.append (hypothesisId_of_buildHypothesis hbuilt)

theorem numbered_addTypeHypothesis {next : List Hypothesis} {remaining : List TimedItem}
    {type : EvidenceType} (hnumbered : Numbered lib round hypotheses)
    (hadd : addTypeHypothesis lib round remaining hypotheses type = .ok next) :
    Numbered lib round next := by
  rw [addTypeHypothesis] at hadd
  split at hadd
  · exact Except.ok.inj hadd ▸ hnumbered
  · obtain ⟨statement, -, hrest⟩ := Loops.exists_of_bind_eq_ok hadd
    obtain rfl := Except.ok.inj hrest
    exact hnumbered.append rfl

theorem nodup_generate (hgenerate : generate lib round pack = .ok hypotheses) :
    (hypotheses.map (·.hypothesisId)).Nodup := by
  rw [generate] at hgenerate
  split at hgenerate
  · obtain ⟨statement, -, hrest⟩ := Loops.exists_of_bind_eq_ok hgenerate
    obtain rfl := Except.ok.inj hrest
    exact List.nodup_singleton _
  · obtain ⟨matched, hmatched, hrest⟩ := Loops.exists_of_bind_eq_ok hgenerate
    obtain ⟨typed, htyped, hrest⟩ := Loops.exists_of_bind_eq_ok hrest
    obtain ⟨all, hall, hrest⟩ := Loops.exists_of_bind_eq_ok hrest
    have hstart : Numbered lib round [] := rfl
    have hnumbered : Numbered lib round matched :=
      Loops.foldlM_preserves (Numbered lib round)
        (fun _ _ _ hold hadd => numbered_addTemplateHypothesis hold hadd) hstart hmatched
    have hnumbered : Numbered lib round typed :=
      Loops.foldlM_preserves (Numbered lib round)
        (fun _ _ _ hold hadd => numbered_addTypeHypothesis hold hadd) hnumbered htyped
    have hnodup : (all.map (·.hypothesisId)).Nodup := by
      rw [withCatchAll] at hall
      split at hall
      · obtain ⟨hypothesis, -, rfl⟩ := Loops.exists_of_map_eq_ok hall
        exact List.nodup_singleton _
      · exact Except.ok.inj hall ▸ hnumbered.nodup
    obtain rfl := Except.ok.inj hrest
    have hsorted := ((List.perm_insertionSort (fun left right : Hypothesis =>
      right.evidenceItemIds.length ≤ left.evidenceItemIds.length) all).map
        (·.hypothesisId)).nodup_iff.mpr hnodup
    exact hsorted.sublist ((List.take_sublist _ _).map _)

end Ids

/-! ## Steady rounds -/

section Steps

variable {lib : AnalysisLib} {settings : EngineSettings}

/-- The confidence that a conclusion after the round reports. -/
def Round.reported (floatSum : List ℚ → ℚ) (round : Round) : ℚ :=
  match topHypothesisOf round.hypotheses round.validations with
  | none => 0
  | some top => reportedConfidence floatSum round.validations top round.weighted

def Round.criteria (settings : EngineSettings) (round : Round) : Bool :=
  criteriaMet settings round.validations round.pack.items

/-- The share of the weights that the items of a hypothesis have does not grow. -/
def ShareKept (floatSum : List ℚ → ℚ) (ids : List RequiredStr)
    (before after : List WeightedEvidence) : Prop :=
  aggregateWeight floatSum ids after ≤ aggregateWeight floatSum ids before ∧
    (0 < aggregateWeight floatSum ids before → 0 < aggregateWeight floatSum ids after)

/-- The next pack gives the same hypotheses, what it adds is neutral for them, and the items of
the top one do not weigh more in it. -/
structure SteadyStep (lib : AnalysisLib) (settings : EngineSettings) (round : Round)
    (next : TimedPack) : Prop where
  statements : ∀ hypotheses,
    generate lib (round.iteration + 1)
        (analysisPack settings next round.weighted (round.iteration + 1)) = .ok hypotheses →
      statements round.hypotheses = statements hypotheses
  neutral : ∀ hypothesis ∈ round.hypotheses, Neutral lib.toStdlib settings hypothesis
    round.pack.items (next.items.drop round.pack.items.length)
  share : ∀ top, topHypothesisOf round.hypotheses round.validations = some top →
    ∀ weights, weight lib.floatSum next.items = .ok weights →
      ShareKept lib.floatSum top.evidenceItemIds round.weighted weights

theorem calculateConfidence_nonneg (supporting contradicting : ℕ) :
    0 ≤ calculateConfidence supporting contradicting := by
  rw [calculateConfidence]
  split
  · exact le_rfl
  · exact le_max_left _ _

/-- A smaller share gives no higher confidence. -/
theorem reportedConfidence_mono {floatSum : List ℚ → ℚ} {left right : ValidationResult}
    {leftRest rightRest : List ValidationResult} {top other : Hypothesis}
    {before after : List WeightedEvidence} (hconfidence : left.confidence = right.confidence)
    (hnonneg : 0 ≤ left.confidence) (hids : top.evidenceItemIds = other.evidenceItemIds)
    (hshare : ShareKept floatSum top.evidenceItemIds before after) (hbefore : before ≠ [])
    (hafter : after ≠ []) :
    reportedConfidence floatSum (right :: rightRest) other after ≤
      reportedConfidence floatSum (left :: leftRest) top before := by
  obtain ⟨hle, hpos⟩ := hshare
  simp only [reportedConfidence, ← hconfidence, ← hids]
  by_cases hweight : 0 < aggregateWeight floatSum top.evidenceItemIds before
  · rw [if_pos ⟨hafter, hpos hweight⟩, if_pos ⟨hbefore, hweight⟩]
    refine min_le_min_left _ (toDouble_mono ?_ ?_)
    · refine mul_nonneg hnonneg (toDouble_nonneg (add_nonneg ?_ (toDouble_nonneg ?_)))
      · exact toDouble_nonneg (by norm_num)
      · exact mul_nonneg (by norm_num) (hpos hweight).le
    · refine mul_le_mul_of_nonneg_left (toDouble_mono ?_ ?_) hnonneg
      · refine add_nonneg (toDouble_nonneg (by norm_num)) (toDouble_nonneg ?_)
        exact mul_nonneg (by norm_num) (hpos hweight).le
      · refine add_le_add le_rfl (toDouble_mono ?_ ?_)
        · exact mul_nonneg (by norm_num) (hpos hweight).le
        · exact mul_le_mul_of_nonneg_left hle (by norm_num)
  · rw [if_neg fun hscaled => hweight (hscaled.2.trans_le hle),
      if_neg fun hscaled => hweight hscaled.2]

theorem criteriaMet_congr {left right : List ValidationResult}
    (hsame : List.Forall₂ (SameValidation hypotheses others) left right) {next : List TimedItem}
    (hsufficient : checkEvidence settings next = checkEvidence settings items) :
    criteriaMet settings right next = criteriaMet settings left items := by
  have hconfidence : checkConfidence settings right = checkConfidence settings left := by
    cases hsame with
    | nil => rfl
    | cons hfirst _ => simp only [checkConfidence, List.head?_cons, Option.any_some, hfirst.1]
  have hgap : hypothesisGap right = hypothesisGap left := by
    rw [hypothesisGap, hypothesisGap]
    have hsorted := forall₂_byConfidence hsame
    generalize byConfidence left = sortedLeft, byConfidence right = sortedRight at hsorted
    cases hsorted with
    | nil => rfl
    | cons hfirst hrest =>
      cases hrest with
      | nil => rfl
      | cons hsecond _ => simp only [hfirst.1, hsecond.1]
  rw [criteriaMet, criteriaMet, hconfidence, hgap, hsufficient]

theorem topHypothesisOf_eq (hnodup : (hypotheses.map (·.hypothesisId)).Nodup)
    {hypothesis : Hypothesis} (hmem : hypothesis ∈ hypotheses) {validation : ValidationResult}
    (hid : validation.hypothesisId = hypothesis.hypothesisId) (rest : List ValidationResult) :
    topHypothesisOf hypotheses (validation :: rest) = some hypothesis := by
  have hfound := (KeyedList.find?_eq_some_iff hnodup validation.hypothesisId hypothesis).mpr
    ⟨hmem, hid.symm⟩
  unfold topHypothesisOf
  dsimp only
  rw [hfound, Option.some_or]

theorem weight_ne_nil {floatSum : List ℚ → ℚ} (hne : items ≠ []) {weights : List WeightedEvidence}
    (hweights : weight floatSum items = .ok weights) : weights ≠ [] := by
  rw [weight] at hweights
  split at hweights
  · obtain rfl := Except.ok.inj hweights
    exact mt List.map_eq_nil_iff.mp hne
  · exact absurd hweights (by simp)

theorem confidence_nonneg_of_mem {std : Stdlib} {validation : ValidationResult}
    (hmem : validation ∈ validateAll std hypotheses items) : 0 ≤ validation.confidence := by
  rw [validateAll, byConfidence, List.mem_insertionSort] at hmem
  obtain ⟨hypothesis, -, rfl⟩ := List.mem_map.mp hmem
  exact calculateConfidence_nonneg _ _

theorem validateAll_ne_nil (std : Stdlib) (hne : hypotheses ≠ []) (items : List TimedItem) :
    validateAll std hypotheses items ≠ [] := by
  have hlength := List.length_pos_iff.mpr hne
  refine List.ne_nil_of_length_pos ?_
  rwa [validateAll, byConfidence, List.length_insertionSort, List.length_map]

variable {final : Round} {weighted : List WeightedEvidence}
  {remaining maxIterations iteration : ℕ}

/-- After a steady step the criteria are what they were, and no more confidence is reported. -/
theorem steady_step {pack next : TimedPack} {round second : Round} (hne : pack.items ≠ [])
    (hround : IsRound lib settings maxIterations iteration pack weighted round)
    (hstart : pack.items <+: next.items)
    (hsecond : IsRound lib settings maxIterations (iteration + 1) next round.weighted second)
    (hsteady : SteadyStep lib settings round next) :
    second.criteria settings = round.criteria settings ∧
      second.reported lib.floatSum ≤ round.reported lib.floatSum := by
  obtain ⟨added, hadded⟩ := hstart
  have hsame := hsteady.statements second.hypotheses
    (by rw [hround.iteration_eq]; exact hsecond.hypotheses)
  have hneutral : ∀ hypothesis ∈ round.hypotheses,
      Neutral lib.toStdlib settings hypothesis pack.items added := by
    intro hypothesis hmem
    have hdrop := hsteady.neutral hypothesis hmem
    rwa [hround.pack_eq, ← hadded, List.drop_left] at hdrop
  have hvalidations := forall₂_validateAll hsame hneutral
  rw [hadded, ← hround.validations, ← hsecond.validations] at hvalidations
  obtain ⟨first, rest, hfirst⟩ := List.exists_cons_of_ne_nil (generate_ne_nil hround.hypotheses)
  have hsufficient := (checkEvidence_append_iff settings pack.items added).mpr
    (hneutral first (hfirst ▸ List.mem_cons_self)).sufficiency
  rw [hadded] at hsufficient
  constructor
  · rw [Round.criteria, Round.criteria, hround.pack_eq, hsecond.pack_eq]
    exact criteriaMet_congr hvalidations hsufficient
  · have hvalidated := validateAll_ne_nil lib.toStdlib
      (generate_ne_nil hround.hypotheses) pack.items
    rw [← hround.validations] at hvalidated
    obtain ⟨validation, left, hleft⟩ := List.exists_cons_of_ne_nil hvalidated
    rw [hleft] at hvalidations
    obtain ⟨later, right, hheads, -, hright⟩ := List.forall₂_cons_left_iff.mp hvalidations
    obtain ⟨hconfidence, top, other, htop, hother, hclaim, hid, hlaterId⟩ := hheads
    have htopOf := topHypothesisOf_eq (nodup_generate hround.hypotheses) htop hid left
    have hotherOf := topHypothesisOf_eq (nodup_generate hsecond.hypotheses) hother hlaterId right
    have hnonneg : 0 ≤ validation.confidence :=
      confidence_nonneg_of_mem (hround.validations ▸ hleft ▸ List.mem_cons_self)
    have hnext : next.items ≠ [] := by
      rw [← hadded]
      exact List.append_ne_nil_of_left_ne_nil hne _
    rw [Round.reported, Round.reported, hleft, hright, htopOf, hotherOf]
    exact reportedConfidence_mono hconfidence hnonneg hclaim.2
      (hsteady.share top (hleft ▸ htopOf) _ hsecond.weighted)
      (weight_ne_nil hne hround.weighted) (weight_ne_nil hnext hsecond.weighted)

/-! ## Runs -/

/-- The pack after a round that has not converged. -/
def Round.nextPack (lib : AnalysisLib) (round : Round) : TimedPack :=
  synthesizeIterationEvidence lib round.pack round.weighted round.validations round.iteration

/-- Each of so many further rounds, as long as the criteria are not met, is a steady step. -/
def SteadyFrom (lib : AnalysisLib) (settings : EngineSettings) (maxIterations : ℕ) :
    ℕ → ℕ → TimedPack → List WeightedEvidence → Prop
  | 0, _, _, _ => True
  | remaining + 1, iteration, pack, weighted =>
    ∀ round, IsRound lib settings maxIterations iteration pack weighted round →
      round.criteria settings = false →
        SteadyStep lib settings round (round.nextPack lib) ∧
          SteadyFrom lib settings maxIterations remaining (iteration + 1)
            (round.nextPack lib) round.weighted

theorem items_nextPack (lib : AnalysisLib) (round : Round) :
    round.pack.items <+: (round.nextPack lib).items :=
  items_synthesizeIterationEvidence _ _ _ _

theorem isConverged_iff {pack : TimedPack} {round : Round}
    (hround : IsRound lib settings maxIterations iteration pack weighted round) :
    round.convergence.isConverged =
      (round.criteria settings || decide (maxIterations ≤ iteration)) := by
  rw [hround.convergence, Round.criteria, hround.pack_eq]
  rfl

/-- The last round is the first one, or the rounds go on after it. -/
theorem runRounds_cases {pack : TimedPack}
    (hrun : runRounds lib settings maxIterations remaining iteration pack weighted = .ok final) :
    ∃ round, IsRound lib settings maxIterations iteration pack weighted round ∧
      ((final = round ∧ (remaining = 0 ∨ round.convergence.isConverged = true)) ∨
        ∃ fewer, remaining = fewer + 1 ∧ round.convergence.isConverged = false ∧
          runRounds lib settings maxIterations fewer (iteration + 1) (round.nextPack lib)
            round.weighted = .ok final) := by
  cases remaining with
  | zero => exact ⟨final, runRound_eq_ok hrun, .inl ⟨rfl, .inl rfl⟩⟩
  | succ fewer =>
    rw [runRounds] at hrun
    obtain ⟨round, hround, hrest⟩ := Loops.exists_of_bind_eq_ok hrun
    have hround := runRound_eq_ok hround
    refine ⟨round, hround, ?_⟩
    split at hrest
    · next hconverged => exact .inl ⟨(Except.ok.inj hrest).symm, .inr hconverged⟩
    · next hgoing =>
      refine .inr ⟨fewer, rfl, Bool.eq_false_of_not_eq_true hgoing, ?_⟩
      rw [Round.nextPack, hround.pack_eq, hround.iteration_eq]
      exact hrest

theorem IsRound.unique {pack : TimedPack} {left right : Round}
    (hleft : IsRound lib settings maxIterations iteration pack weighted left)
    (hright : IsRound lib settings maxIterations iteration pack weighted right) : left = right := by
  have hhypotheses := Except.ok.inj (hleft.hypotheses.symm.trans hright.hypotheses)
  have hvalidations : left.validations = right.validations := by
    rw [hleft.validations, hright.validations, hhypotheses]
  have hconvergence : left.convergence = right.convergence := by
    rw [hleft.convergence, hright.convergence, hvalidations]
  have hweighted := Except.ok.inj (hleft.weighted.symm.trans hright.weighted)
  have hiteration := hleft.iteration_eq.trans hright.iteration_eq.symm
  have hpack := hleft.pack_eq.trans hright.pack_eq.symm
  cases left
  cases right
  exact Round.mk.injEq .. ▸ ⟨hiteration, hpack, hhypotheses, hvalidations, hweighted, hconvergence⟩

/-- A round with another bound on the rounds. -/
def Round.withBound (settings : EngineSettings) (maxIterations : ℕ) (round : Round) : Round :=
  { round with
    convergence :=
      check settings maxIterations round.iteration round.validations round.pack.items }

theorem IsRound.withBound {pack : TimedPack} {round : Round}
    (hround : IsRound lib settings maxIterations iteration pack weighted round) (other : ℕ) :
    IsRound lib settings other iteration pack weighted (round.withBound settings other) where
  iteration_eq := hround.iteration_eq
  pack_eq := hround.pack_eq
  hypotheses := hround.hypotheses
  validations := hround.validations
  weighted := hround.weighted
  convergence := by
    rw [Round.withBound]
    dsimp only
    rw [hround.iteration_eq, hround.pack_eq]

/-- Going on from a round keeps its criteria and reports no more confidence. -/
theorem steady_from {pack : TimedPack} {round : Round} (hne : pack.items ≠ [])
    (hsteady : SteadyFrom lib settings maxIterations remaining iteration pack weighted)
    (hround : IsRound lib settings maxIterations iteration pack weighted round)
    (hrun : runRounds lib settings maxIterations remaining iteration pack weighted = .ok final) :
    final.criteria settings = round.criteria settings ∧
      final.reported lib.floatSum ≤ round.reported lib.floatSum := by
  induction remaining generalizing iteration pack weighted round with
  | zero =>
    obtain ⟨first, hfirst, ⟨rfl, -⟩ | ⟨fewer, hfewer, -⟩⟩ := runRounds_cases hrun
    · exact hfirst.unique hround ▸ ⟨rfl, le_rfl⟩
    · exact absurd hfewer.symm (Nat.succ_ne_zero _)
  | succ remaining ih =>
    obtain ⟨first, hfirst, ⟨rfl, -⟩ | ⟨fewer, hfewer, hgoing, hrest⟩⟩ := runRounds_cases hrun
    · exact hfirst.unique hround ▸ ⟨rfl, le_rfl⟩
    · obtain rfl := Nat.succ.inj hfewer
      obtain rfl := hfirst.unique hround
      rw [isConverged_iff hfirst, Bool.or_eq_false_iff] at hgoing
      obtain ⟨hstep, hlater⟩ := hsteady first hfirst hgoing.1
      obtain ⟨second, hsecond, -⟩ := runRounds_cases hrest
      have hkept := items_nextPack lib first
      rw [hfirst.pack_eq] at hkept
      obtain ⟨hcriteria, hreported⟩ := steady_step hne hfirst hkept hsecond hstep
      obtain ⟨hfinal, hleast⟩ := ih (hkept.ne_nil hne) hlater hsecond hrest
      exact ⟨hfinal.trans hcriteria, hleast.trans hreported⟩

/-- More steady rounds meet the criteria no sooner and report no more confidence. -/
theorem steady_runs {larger more : ℕ} {pack : TimedPack} {later : Round} (hne : pack.items ≠ [])
    (hbound : iteration + remaining = maxIterations) (hlarger : iteration + more = larger)
    (hle : maxIterations ≤ larger)
    (hsteady : SteadyFrom lib settings larger more iteration pack weighted)
    (hfinal : runRounds lib settings maxIterations remaining iteration pack weighted =
      .ok final) (hlater : runRounds lib settings larger more iteration pack weighted = .ok later) :
    later.criteria settings = final.criteria settings ∧
      later.reported lib.floatSum ≤ final.reported lib.floatSum := by
  induction remaining generalizing iteration pack weighted more with
  | zero =>
    obtain ⟨first, hfirst, ⟨rfl, -⟩ | ⟨fewer, hfewer, -⟩⟩ := runRounds_cases hfinal
    · have hkept := steady_from hne hsteady (hfirst.withBound larger) hlater
      exact hkept
    · exact absurd hfewer.symm (Nat.succ_ne_zero _)
  | succ remaining ih =>
    obtain ⟨first, hfirst, hcases⟩ := runRounds_cases hfinal
    obtain ⟨other, hother, hothers⟩ := runRounds_cases hlater
    obtain rfl := hother.unique (hfirst.withBound larger)
    rw [isConverged_iff hfirst, decide_eq_false (by omega), Bool.or_false] at hcases
    rw [isConverged_iff hother, decide_eq_false (by omega), Bool.or_false] at hothers
    rcases hcases with ⟨rfl, hstop⟩ | ⟨fewer, hfewer, hgoing, hrest⟩
    · have hmet := hstop.resolve_left (Nat.succ_ne_zero _)
      rcases hothers with ⟨rfl, -⟩ | ⟨_, _, hnotMet, _⟩
      · exact ⟨rfl, le_rfl⟩
      · exact absurd (hnotMet.symm.trans hmet) Bool.false_ne_true
    · obtain rfl := Nat.succ.inj hfewer
      rcases hothers with ⟨rfl, hzero | hmet⟩ | ⟨others, rfl, hnotMet, hothersRest⟩
      · omega
      · exact absurd (hgoing.symm.trans hmet) Bool.false_ne_true
      · obtain ⟨-, hsteadyRest⟩ := hsteady _ hother hnotMet
        have hkept := items_nextPack lib first
        rw [hfirst.pack_eq] at hkept
        exact ih (hkept.ne_nil hne) (by omega) (by omega) hsteadyRest hrest hothersRest

theorem lt_finiteFloat (left right : ℚ) :
    PyFloat.lt (finiteFloat left) (finiteFloat right) = decide (left < right) := by
  have hsigned : ∀ value : ℚ,
      PyFloat.signed (decide (value < 0)) ⟨|value|, abs_nonneg value⟩ = value := by
    intro value
    simp only [PyFloat.signed, NNRat.coe_mk]
    split
    · next hneg => rw [abs_of_neg (of_decide_eq_true hneg), neg_neg]
    · next hpos => exact abs_of_nonneg (not_lt.mp fun hneg => hpos (decide_eq_true hneg))
  simp only [finiteFloat, PyFloat.lt, hsigned]

theorem confidence_of_validate {title narrative : PyStr} {confidence : PyFloat}
    {factors : List PyStr} {conclusion : RootCauseConclusion}
    (hvalidate : RootCauseConclusion.validate title narrative confidence factors =
      .ok conclusion) : conclusion.confidence = confidence := by
  rw [RootCauseConclusion.validate] at hvalidate
  split at hvalidate
  · obtain rfl := Except.ok.inj hvalidate
    rfl
  · exact absurd hvalidate (by simp)

theorem confidence_buildConclusion {round : Round} {conclusion : RootCauseConclusion}
    (hconclusion : buildConclusion lib.floatSum round = .ok conclusion) :
    conclusion.confidence = finiteFloat (round.reported lib.floatSum) := by
  rw [buildConclusion] at hconclusion
  rw [Round.reported]
  cases htop : topHypothesisOf round.hypotheses round.validations with
  | none =>
    rw [htop] at hconclusion
    exact confidence_of_validate hconclusion
  | some top =>
    rw [htop] at hconclusion
    exact confidence_of_validate hconclusion

/-- The analysis ends with a round that meets the criteria. -/
def CriteriaBased (lib : AnalysisLib) (settings : EngineSettings) (pack : TimedPack)
    (maxIterations : ℤ) : Prop :=
  pack.items ≠ [] ∧ ∃ final, finalRound lib settings pack maxIterations = .ok final ∧
    final.criteria settings = true

/-- Every round that the bound allows is steady while the criteria are not met. -/
def SteadyRun (lib : AnalysisLib) (settings : EngineSettings) (pack : TimedPack)
    (maxIterations : ℤ) : Prop :=
  SteadyFrom lib settings (max 1 maxIterations).toNat ((max 1 maxIterations).toNat - 1) 1 pack []

theorem steady_analysis {pack : TimedPack} {maxIterations larger : ℤ} (hle : maxIterations ≤ larger)
    (hsteady : SteadyRun lib settings pack larger) {result more : RootCauseAnalysisResult}
    (hresult : analyze lib settings pack maxIterations = .ok result)
    (hmore : analyze lib settings pack larger = .ok more) :
    PyFloat.lt result.conclusion.confidence more.conclusion.confidence = false ∧
      (CriteriaBased lib settings pack larger → CriteriaBased lib settings pack maxIterations) := by
  cases hempty : pack.items.isEmpty with
  | true =>
    rw [analyze, if_pos hempty] at hresult hmore
    obtain rfl := Except.ok.inj (hresult.symm.trans hmore)
    refine ⟨?_, fun hcriteria => absurd (List.isEmpty_iff.mp hempty) hcriteria.1⟩
    obtain ⟨statement, -, hrest⟩ := Loops.exists_of_bind_eq_ok hresult
    obtain ⟨conclusion, hconclusion, hrest⟩ := Loops.exists_of_bind_eq_ok hrest
    obtain rfl := Except.ok.inj hrest
    dsimp only
    rw [confidence_of_validate hconclusion, lt_finiteFloat, decide_eq_false (lt_irrefl _)]
  | false =>
    rw [analyze, hempty, if_neg Bool.false_ne_true] at hresult hmore
    have hne : pack.items ≠ [] := fun hnil => by simp [hnil] at hempty
    obtain ⟨final, hfinal, hrest⟩ := Loops.exists_of_bind_eq_ok hresult
    obtain ⟨conclusion, hconclusion, hrest⟩ := Loops.exists_of_bind_eq_ok hrest
    obtain rfl := Except.ok.inj hrest
    obtain ⟨later, hlater, hrest⟩ := Loops.exists_of_bind_eq_ok hmore
    obtain ⟨others, hothers, hrest⟩ := Loops.exists_of_bind_eq_ok hrest
    obtain rfl := Except.ok.inj hrest
    obtain ⟨hcriteria, hreported⟩ := steady_runs hne (by omega) (by omega) (by omega) hsteady
      hfinal hlater
    constructor
    · rw [confidence_buildConclusion hconclusion, confidence_buildConclusion hothers,
        lt_finiteFloat, decide_eq_false (not_lt.mpr hreported)]
    · rintro ⟨-, found, hfound, hmet⟩
      obtain rfl := Except.ok.inj (hlater.symm.trans hfound)
      exact ⟨hne, final, hfinal, hcriteria ▸ hmet⟩

end Steps

instance (std : Stdlib) (settings : EngineSettings) (hypothesis : Hypothesis)
    (items added : List TimedItem) : Decidable (Neutral std settings hypothesis items added) :=
  decidable_of_iff
    ((∀ item ∈ added, item.itemId ∈ supportingIds std hypothesis items ∨
        matchesKeywords std hypothesis item = false) ∧
      (∀ item ∈ added, contradicts std hypothesis item = false) ∧
        (added = [] ∨ settings.minEvidenceCount ≤ items.length ∨
          items.length + added.length < settings.minEvidenceCount))
    ⟨fun hall => ⟨hall.1, hall.2.1, hall.2.2⟩, fun hneutral =>
      ⟨hneutral.support, hneutral.contradiction, hneutral.sufficiency⟩⟩

instance (floatSum : List ℚ → ℚ) (ids : List RequiredStr) (before after : List WeightedEvidence) :
    Decidable (ShareKept floatSum ids before after) :=
  inferInstanceAs (Decidable (_ ∧ (_ → _)))

/-- A computed check that a step is steady. -/
def checkSteady (lib : AnalysisLib) (settings : EngineSettings) (round : Round)
    (next : TimedPack) : Bool :=
  (generate lib (round.iteration + 1)
      (analysisPack settings next round.weighted (round.iteration + 1))).toOption.all
    (fun hypotheses => decide (statements round.hypotheses = statements hypotheses)) &&
  round.hypotheses.all (fun hypothesis => decide (Neutral lib.toStdlib settings hypothesis
    round.pack.items (next.items.drop round.pack.items.length))) &&
  (topHypothesisOf round.hypotheses round.validations).all fun top =>
    (weight lib.floatSum next.items).toOption.all fun weights =>
      decide (ShareKept lib.floatSum top.evidenceItemIds round.weighted weights)

theorem steadyStep_of_checkSteady {lib : AnalysisLib} {settings : EngineSettings}
    {round : Round} {next : TimedPack} (hcheck : checkSteady lib settings round next = true) :
    SteadyStep lib settings round next := by
  rw [checkSteady, Bool.and_eq_true, Bool.and_eq_true] at hcheck
  obtain ⟨⟨hstatements, hneutral⟩, hshare⟩ := hcheck
  constructor
  · intro hypotheses hgenerate
    rw [hgenerate] at hstatements
    exact of_decide_eq_true hstatements
  · intro hypothesis hmem
    exact of_decide_eq_true (List.all_eq_true.mp hneutral hypothesis hmem)
  · intro top htop weights hweights
    rw [htop, hweights] at hshare
    exact of_decide_eq_true hshare

def logItem (id message : String) (hid : py id ≠ []) : TimedItem where
  itemId := RequiredStr.ofLiteral id hid
  type := .log
  source := RequiredStr.ofLiteral "sls" (by decide)
  content := ⟨[(py "message", .str (py message))], by
    simp only [KeysEncodable, Dict.keys, List.map_cons, List.map_nil, List.forall_mem_cons]
    exact ⟨encodable_py _, fun _ hkey => absurd hkey List.not_mem_nil⟩⟩
  collectedAt := 0

/-- Three errors with nothing in common. -/
def threeErrors : TimedPack where
  caseId := RequiredStr.ofLiteral "case-1" Fixture.caseOne
  items := [logItem "ev-1" "login error" Fixture.evOne, logItem "ev-2" "cpu high" Fixture.evTwo,
    logItem "ev-3" "null pointer" (by decide)]
  summary := []

theorem steadyRun_threeErrors : SteadyRun analysisLib {} threeErrors 2 := by
  have hcheck : (runRound analysisLib {} 2 1 threeErrors []).toOption.all
      (fun round => checkSteady analysisLib {} round (round.nextPack analysisLib)) = true := by
    decide +kernel
  have hok : (runRound analysisLib {} 2 1 threeErrors []).toOption.isSome = true := by
    decide +kernel
  intro round hround _
  refine ⟨steadyStep_of_checkSteady ?_, trivial⟩
  cases hrun : runRound analysisLib {} 2 1 threeErrors [] with
  | error raised => exact absurd (hrun ▸ hok) (by simp [Except.toOption])
  | ok first =>
    rw [hrun] at hcheck
    exact hround.unique (runRound_eq_ok hrun) ▸ hcheck

/-- Two log items with a word that a derived item has as well. -/
def echoPack : TimedPack where
  caseId := RequiredStr.ofLiteral "case-1" Fixture.caseOne
  items := [logItem "ev-1" "error (log)" Fixture.evOne, logItem "ev-2" "error (log)" Fixture.evTwo]
  summary := []

/-- The criteria of the last round and how many items support each hypothesis. -/
def supportOf (run : Except PyError Round) : Option (Bool × List ℕ) :=
  run.toOption.map fun round =>
    (round.criteria {}, round.validations.map (·.supportingCount))

end RootSeeker.Analysis
