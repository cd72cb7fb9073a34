import RootSeeker.Core.WhileLoops
import RootSeeker.Python.Lines

/-!
# The context of a skill step within its budget

The references of a tool skill are cut to the first half of their lines again
and again until they fit beside the skill body.
-/

namespace RootSeeker.SkillSystem

open Python WhileLoops

structure SkillStepContext where
  flowSkillSlug : PyStr
  stepId : PyStr
  action : PyStr
  toolSkillSlug : PyStr
  flowStepDescription : PyStr
  toolSkillName : PyStr
  toolSkillDescription : PyStr
  skillBody : PyStr
  referenceText : PyStr
  referencePaths : List PyStr
  truncated : Bool

namespace SkillStepContext

variable (context : SkillStepContext)

def headings : List PyStr :=
  [py "# Flow step: " ++ context.stepId ++ py " (" ++ context.action ++ py ")",
    context.flowStepDescription,
    py "# Tool skill: " ++ context.toolSkillSlug,
    py "Name: " ++ context.toolSkillName,
    py "Description: " ++ context.toolSkillDescription,
    py "## SKILL.md"]

def sections : List PyStr :=
  context.headings ++ [context.skillBody] ++
    if context.referenceText = [] then [] else [py "## References", context.referenceText]

/-- The parts that are not empty, with a blank line between them. -/
def joinParts (parts : List PyStr) : PyStr :=
  join (py "\n\n") (parts.filter (· ≠ []))

def toPromptText : PyStr :=
  strip (joinParts context.sections)

/-- The characters of the headings and descriptions, with the blank lines that set off the
two texts from them. -/
def headingLength : ℕ :=
  (joinParts (context.headings ++ [py "## References"])).length + 4

/-- Give the context a shorter body. -/
def withBody (skillBody : PyStr) : SkillStepContext :=
  { context with skillBody := skillBody, truncated := true }

end SkillStepContext

/-- The first half of the lines. -/
def firstHalf (text : PyStr) : List PyStr :=
  (splitLines text).take (max 1 ((splitLines text).length / 2))

def trimReferences (references : PyStr) : PyStr :=
  strip (join (py "\n") (firstHalf references))

/-- The references are still too long beside the body. -/
def tooLong (budget : ℕ) (skillBody references : PyStr) : Bool :=
  references ≠ [] && budget < skillBody.length + references.length + 500

def contextBudget (maxChars : ℤ) : ℕ :=
  (max 1000 maxChars).toNat

/-- After the loop: where the text is still too long, the body is cut. -/
def cutBody (budget : ℕ) (context : SkillStepContext) : SkillStepContext :=
  if context.toPromptText.length ≤ budget then context
  else context.withBody (context.skillBody.take (budget - 500))

/-- `_apply_budget`, when its loop takes no more turns than allowed. -/
def applyBudget (maxChars : ℤ) (context : SkillStepContext) (turns : ℕ) :
    Option SkillStepContext :=
  let budget := contextBudget maxChars
  if context.toPromptText.length ≤ budget then some context
  else
    (whileFor (tooLong budget context.skillBody) trimReferences turns
      context.referenceText).map fun references =>
        cutBody budget { context with referenceText := references, truncated := true }

/-- The call returns, and within the budget if 500 characters are enough for the headings. -/
def ReturnsWithinBudget (maxChars : ℤ) (context : SkillStepContext) : Prop :=
  ∃ turns returned, applyBudget maxChars context turns = some returned ∧
    (context.headingLength ≤ 500 → returned.toPromptText.length ≤ contextBudget maxChars)

/-- The text fits as it is, there is no reference in the first half of the lines, or its first
line fits beside the body. -/
def HeadlineFits (maxChars : ℤ) (context : SkillStepContext) : Prop :=
  context.toPromptText.length ≤ contextBudget maxChars ∨
    (∀ line ∈ firstHalf context.referenceText, strip line = []) ∨
    context.skillBody.length + (headline context.referenceText).length + 500 ≤
      contextBudget maxChars

/-! ## One turn of the loop -/

theorem onOneLine_of_mem_firstHalf {text line : PyStr} (hline : line ∈ firstHalf text) :
    OnOneLine line :=
  onOneLine_of_mem_splitLines (List.mem_of_mem_take hline)

theorem headline_trimReferences (references : PyStr) :
    headline (trimReferences references) = firstOfLines (firstHalf references) := by
  rw [trimReferences, headline_strip]
  exact headline_join fun line hline => onOneLine_of_mem_firstHalf hline

theorem strip_trimReferences (references : PyStr) :
    strip (trimReferences references) = trimReferences references :=
  stripBy_idem isSpace _

variable {skillBody references : PyStr} {budget : ℕ}

theorem trimReferences_of_blank (hblank : ∀ line ∈ firstHalf references, strip line = []) :
    trimReferences references = [] := by
  by_contra hne
  rw [← strip_trimReferences] at hne
  apply headline_ne_nil_iff.mpr hne
  rw [headline_trimReferences, firstOfLines, List.find?_eq_none.mpr (by simpa using hblank)]
  rfl

theorem headline_of_not_blank {line : PyStr} (hline : line ∈ firstHalf references)
    (hkept : strip line ≠ []) :
    headline (trimReferences references) = headline references ∧ headline references ≠ [] := by
  have hfound : ((firstHalf references).find? fun line => strip line ≠ []).isSome = true :=
    List.find?_isSome.mpr ⟨line, hline, by simpa using hkept⟩
  obtain ⟨first, hfirst⟩ := Option.isSome_iff_exists.mp hfound
  have hwhole : firstOfLines (splitLines references) = firstOfLines (firstHalf references) := by
    rw [firstOfLines, ← List.take_append_drop (max 1 ((splitLines references).length / 2))
      (splitLines references), List.find?_append, ← firstHalf, hfirst, Option.some_or,
      firstOfLines, hfirst]
  rw [headline_trimReferences, headline_eq_firstOfLines, hwhole]
  refine ⟨rfl, ?_⟩
  rw [firstOfLines, hfirst]
  simpa using List.find?_some hfirst

theorem lineBreaks_trimReferences_lt (hbreaks : 0 < lineBreaks references) :
    lineBreaks (trimReferences references) < lineBreaks references := by
  have hstrip : lineBreaks (trimReferences references) ≤
      lineBreaks (join (py "\n") (firstHalf references)) :=
    (stripBy_sublist isSpace _).countP_le
  have hlength : (firstHalf references).length ≤ max 1 ((splitLines references).length / 2) :=
    List.length_take_le _ _
  have hlines := length_splitLines_le references
  have hone : ∀ line ∈ firstHalf references, OnOneLine line :=
    fun line hline => onOneLine_of_mem_firstHalf hline
  cases hhalf : firstHalf references with
  | nil =>
    rw [hhalf] at hstrip
    exact lt_of_le_of_lt hstrip hbreaks
  | cons first lines =>
    rw [hhalf] at hstrip hlength hone
    have hjoin : lineBreaks (join (py "\n") (first :: lines)) = lines.length :=
      lineBreaks_join hone
    rw [List.length_cons] at hlength
    omega

theorem onOneLine_of_lineBreaks {text : PyStr} (hnone : lineBreaks text = 0) : OnOneLine text :=
  fun c hc => by simpa using List.countP_eq_zero.mp hnone c hc

/-! ## Whether the loop ends -/

theorem tooLong_eq_true_iff :
    tooLong budget skillBody references = true ↔
      references ≠ [] ∧ budget < skillBody.length + references.length + 500 := by
  simp [tooLong]

/-- Where the first line fits beside the body the loop ends. -/
theorem ends_of_headline_fits
    (hfits : skillBody.length + (headline references).length + 500 ≤ budget) :
    ∃ final, Ends (tooLong budget skillBody) trimReferences references final := by
  have hafter : ∃ final, Ends (tooLong budget skillBody) trimReferences
      (trimReferences references) final := by
    -- A stripped text that is still too long has a line break, and half of its lines has fewer.
    apply exists_ends_of_measure (fun text => strip text = text ∧
      (text = [] ∨ headline text = headline references)) lineBreaks
    · refine ⟨strip_trimReferences references, ?_⟩
      by_cases hblank : ∀ line ∈ firstHalf references, strip line = []
      · exact .inl (trimReferences_of_blank hblank)
      · push Not at hblank
        obtain ⟨line, hline, hkept⟩ := hblank
        exact .inr (headline_of_not_blank hline hkept).1
    · rintro text ⟨hstripped, hheadline⟩ hlong
      obtain ⟨hne, hlong⟩ := tooLong_eq_true_iff.mp hlong
      have hheadline := hheadline.resolve_left hne
      have hbreaks : 0 < lineBreaks text := by
        by_contra hnone
        have hwhole := headline_of_onOneLine hstripped
          (onOneLine_of_lineBreaks (Nat.eq_zero_of_not_pos hnone))
        rw [← hheadline, hwhole] at hfits
        omega
      refine ⟨⟨strip_trimReferences text, ?_⟩, lineBreaks_trimReferences_lt hbreaks⟩
      by_cases hblank : ∀ line ∈ firstHalf text, strip line = []
      · exact .inl (trimReferences_of_blank hblank)
      · push Not at hblank
        obtain ⟨line, hline, hkept⟩ := hblank
        exact .inr ((headline_of_not_blank hline hkept).1.trans hheadline)
  cases hlong : tooLong budget skillBody references with
  | false => exact ⟨references, ends_of_stop hlong⟩
  | true =>
    obtain ⟨final, hfinal⟩ := hafter
    exact ⟨final, (ends_step_iff hlong).mpr hfinal⟩

theorem ends_of_blank (budget : ℕ) (skillBody : PyStr)
    (hblank : ∀ line ∈ firstHalf references, strip line = []) :
    ∃ final, Ends (tooLong budget skillBody) trimReferences references final := by
  cases hlong : tooLong budget skillBody references with
  | false => exact ⟨references, ends_of_stop hlong⟩
  | true =>
    refine ⟨[], (ends_step_iff hlong).mpr ?_⟩
    rw [trimReferences_of_blank hblank]
    exact ends_of_stop rfl

/-- The first line stays, so where it does not fit the loop goes on for ever. -/
theorem not_ends_of_headline
    (hfits : budget < skillBody.length + (headline references).length + 500)
    (hblank : ¬∀ line ∈ firstHalf references, strip line = []) (final : PyStr) :
    ¬Ends (tooLong budget skillBody) trimReferences references final := by
  push Not at hblank
  obtain ⟨line, hline, hkept⟩ := hblank
  obtain ⟨hheadline, hne⟩ := headline_of_not_blank hline hkept
  have htooLong : ∀ text, headline text = headline references →
      tooLong budget skillBody text = true := by
    intro text htext
    refine tooLong_eq_true_iff.mpr ⟨?_, ?_⟩
    · rintro rfl
      exact hne htext.symm
    · have hlength := length_headline_le text
      rw [htext] at hlength
      omega
  rw [ends_step_iff (htooLong references rfl)]
  apply not_ends_of_invariant fun text => strip text = text ∧ headline text = headline references
  · exact ⟨strip_trimReferences references, hheadline⟩
  · rintro text ⟨hstripped, htext⟩
    have htextNe : text ≠ [] := by
      rintro rfl
      exact hne htext.symm
    obtain ⟨first, lines, hlines, hfirst⟩ := exists_splitLines_cons hstripped htextNe
    have hmem : first ∈ firstHalf text := by
      have hone : max 1 ((splitLines text).length / 2) =
          (max 1 ((splitLines text).length / 2) - 1) + 1 := by omega
      rw [firstHalf, hone, hlines, List.take_succ_cons]
      exact List.mem_cons_self
    exact ⟨htooLong text htext, strip_trimReferences text,
      (headline_of_not_blank hmem hfirst).1.trans htext⟩

theorem exists_ends_iff (budget : ℕ) (skillBody references : PyStr) :
    (∃ final, Ends (tooLong budget skillBody) trimReferences references final) ↔
      (∀ line ∈ firstHalf references, strip line = []) ∨
        skillBody.length + (headline references).length + 500 ≤ budget := by
  constructor
  · rintro ⟨final, hends⟩
    by_contra hnot
    obtain ⟨hblank, hfits⟩ := not_or.mp hnot
    exact not_ends_of_headline (not_le.mp hfits) hblank final hends
  · rintro (hblank | hfits)
    · exact ends_of_blank budget skillBody hblank
    · exact ends_of_headline_fits hfits

/-! ## The length of the result -/

namespace SkillStepContext

/-- The characters of a part with the blank line after it. -/
def partLength (part : PyStr) : ℕ :=
  if part = [] then 0 else part.length + 2

theorem length_intercalate (first : PyStr) (parts : List PyStr) :
    (join (py "\n\n") (first :: parts)).length =
      first.length + (parts.map fun part => part.length + 2).sum := by
  rw [join, Framing.intercalate_cons, List.length_append, List.length_flatMap]
  rfl

theorem sum_partLength (parts : List PyStr) :
    (parts.map partLength).sum = ((parts.filter (· ≠ [])).map fun part => part.length + 2).sum := by
  induction parts with
  | nil => rfl
  | cons part parts ih =>
    rw [List.map_cons, List.sum_cons, ih, partLength]
    by_cases hempty : part = []
    · rw [if_pos hempty, List.filter_cons_of_neg (by simpa using hempty), Nat.zero_add]
    · rw [if_neg hempty, List.filter_cons_of_pos (by simpa using hempty), List.map_cons,
        List.sum_cons]

theorem length_joinParts (parts : List PyStr) :
    (joinParts parts).length = (parts.map partLength).sum - 2 := by
  rw [sum_partLength, joinParts]
  cases parts.filter (· ≠ []) with
  | nil => rfl
  | cons first parts =>
    rw [length_intercalate, List.map_cons, List.sum_cons, Nat.add_right_comm, Nat.add_sub_cancel]

variable (context : SkillStepContext)

theorem headingLength_eq :
    context.headingLength =
      (context.headings.map partLength).sum + partLength (py "## References") + 2 := by
  have hreferences : partLength (py "## References") = 15 := by decide
  rw [headingLength, length_joinParts, List.map_append, List.sum_append, List.map_singleton,
    List.sum_singleton, hreferences]
  omega

theorem headingLength_withBody (skillBody : PyStr) :
    (context.withBody skillBody).headingLength = context.headingLength := by
  have hheadings : (context.withBody skillBody).headings = context.headings := rfl
  rw [headingLength_eq, headingLength_eq, hheadings]

/-- The text is at most as long as its headings and the two texts together. -/
theorem length_toPromptText_le :
    context.toPromptText.length ≤
      context.headingLength + context.skillBody.length + context.referenceText.length := by
  have hstrip : context.toPromptText.length ≤ (joinParts context.sections).length :=
    (stripBy_sublist isSpace _).length_le
  have hpart : ∀ part, partLength part ≤ part.length + 2 := by
    intro part
    rw [partLength]
    split
    · exact Nat.zero_le _
    · exact Nat.le_refl _
  have hbody := hpart context.skillBody
  have hsections : (context.sections.map partLength).sum ≤
      (context.headings.map partLength).sum + partLength context.skillBody +
        (partLength (py "## References") + partLength context.referenceText) := by
    rw [sections, List.map_append, List.map_append, List.sum_append, List.sum_append]
    apply Nat.add_le_add (Nat.le_refl _)
    split
    · exact Nat.zero_le _
    · exact Nat.le_refl _
  have hreferences := hpart context.referenceText
  rw [length_joinParts] at hstrip
  have hheadings := context.headingLength_eq
  omega

end SkillStepContext

theorem contextBudget_ge (maxChars : ℤ) : 1000 ≤ contextBudget maxChars := by
  rw [contextBudget]
  omega

/-- What the loop leaves fits, after the body is cut if need be. -/
theorem length_cutBody_le (hbudget : 1000 ≤ budget) {context : SkillStepContext}
    (hheadings : context.headingLength ≤ 500)
    (hreferences : tooLong budget context.skillBody context.referenceText = false) :
    (cutBody budget context).toPromptText.length ≤ budget := by
  rw [cutBody]
  split
  · next hfits => exact hfits
  · next hlong =>
    have hwhole := context.length_toPromptText_le
    have hempty : context.referenceText = [] := by
      by_contra hne
      have hshort : ¬(context.referenceText ≠ [] ∧
          budget < context.skillBody.length + context.referenceText.length + 500) := by
        rw [← tooLong_eq_true_iff, hreferences]
        simp
      have hfits := not_lt.mp fun hlt => hshort ⟨hne, hlt⟩
      omega
    have hcut := (context.withBody (context.skillBody.take (budget - 500))).length_toPromptText_le
    have hbody : (context.skillBody.take (budget - 500)).length ≤ budget - 500 :=
      List.length_take_le _ _
    have hnone : context.referenceText.length = 0 := congrArg List.length hempty
    rw [SkillStepContext.headingLength_withBody] at hcut
    exact hcut.trans (by simp only [SkillStepContext.withBody]; omega)

/-- A reference on one long line. -/
def longLineContext : SkillStepContext where
  flowSkillSlug := py "flow"
  stepId := py "s1"
  action := py "call"
  toolSkillSlug := py "tool"
  flowStepDescription := []
  toolSkillName := py "tool"
  toolSkillDescription := []
  skillBody := py "body"
  referenceText := List.replicate 1200 (CodePoint.ofChar 'x')
  referencePaths := []
  truncated := false

end RootSeeker.SkillSystem
