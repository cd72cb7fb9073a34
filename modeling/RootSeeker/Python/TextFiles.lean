import RootSeeker.Python.Lines

/-!
# Lines written to a file

The lines are joined by line feeds, and one is added if the text does not end with one.
-/

namespace RootSeeker.Python

def lineFeed : CodePoint := CodePoint.ofChar '\n'

/-- The text of a file with these lines. -/
def textOfLines (lines : List PyStr) : PyStr :=
  let payload := join lineFeedText lines
  if payload ≠ [] ∧ payload.getLast? ≠ some lineFeed then payload ++ lineFeedText else payload

/-- Every line with its line feed. -/
def terminated (lines : List PyStr) : PyStr :=
  lines.flatMap (· ++ lineFeedText)

theorem join_concat (init : List PyStr) (last : PyStr) :
    join lineFeedText (init ++ [last]) = terminated init ++ last := by
  induction init with
  | nil => simp [join, terminated, List.intercalate]
  | cons first rest ih =>
    have hcons : join lineFeedText (first :: (rest ++ [last])) =
        first ++ lineFeedText ++ join lineFeedText (rest ++ [last]) := by
      cases rest with
      | nil => simp [join, List.intercalate]
      | cons second rest => simp [join, List.intercalate]
    rw [List.cons_append, hcons, ih, terminated, terminated, List.flatMap_cons]
    simp only [List.append_assoc]

variable {c : CodePoint} {text line : PyStr} {lines : List PyStr}

theorem getLast?_onOneLine (hline : OnOneLine line) : line.getLast? ≠ some lineFeed := by
  intro hlast
  have hbreak := hline lineFeed (List.mem_of_getLast? hlast)
  exact absurd hbreak (by decide)

theorem getLast?_terminated (init : List PyStr) :
    terminated init = [] ∨ (terminated init).getLast? = some lineFeed := by
  cases init using List.reverseRecOn with
  | nil => exact Or.inl rfl
  | append_singleton init last =>
    right
    rw [terminated, List.flatMap_append]
    simp [lineFeedText, lineFeed]

theorem textOfLines_concat (init : List PyStr) {last : PyStr} (hlast : OnOneLine last) :
    textOfLines (init ++ [last]) =
      if last = [] then terminated init else terminated (init ++ [last]) := by
  rw [textOfLines, join_concat]
  by_cases hempty : last = []
  · rw [if_pos hempty, hempty, List.append_nil]
    rcases getLast?_terminated init with hnil | hfeed
    · simp [hnil]
    · rw [if_neg fun hboth => hboth.2 hfeed]
  · have hends : (terminated init ++ last).getLast? ≠ some lineFeed := by
      rw [List.getLast?_append_of_ne_nil _ hempty]
      exact getLast?_onOneLine hlast
    rw [if_neg hempty, if_pos ⟨by simp [hempty], hends⟩, terminated, terminated,
      List.flatMap_append, List.append_assoc]
    simp

/-! ## Reading them -/

theorem joinBreaks_of_no_return (htext : CodePoint.ofChar '\r' ∉ text) :
    joinBreaks text = text := by
  induction text with
  | nil => rfl
  | cons c rest ih =>
    rw [List.mem_cons, not_or] at htext
    rw [joinBreaks, if_neg fun hpair => htext.1 hpair.1.symm, ih htext.2]

theorem splitBreaks_append (hline : OnOneLine line) (before rest : PyStr) :
    splitBreaks before (line ++ lineFeed :: rest) = (before ++ line) :: splitBreaks [] rest := by
  induction line generalizing before with
  | nil => rw [List.nil_append, splitBreaks, if_pos (by decide), List.append_nil]
  | cons c line ih =>
    obtain ⟨hc, hline⟩ := List.forall_mem_cons.mp hline
    rw [List.cons_append, splitBreaks, if_neg (by rw [hc]; simp), ih hline, List.append_assoc]
    rfl

theorem splitLines_terminated (hlines : ∀ line ∈ lines, OnOneLine line) :
    splitLines (terminated lines) = lines := by
  have hreturn : CodePoint.ofChar '\r' ∉ terminated lines := by
    intro hmem
    obtain ⟨line, hline, hc⟩ := List.mem_flatMap.mp hmem
    cases List.mem_append.mp hc with
    | inl hinside => exact absurd (hlines line hline _ hinside) (by decide)
    | inr hfeed => exact absurd hfeed (by decide)
  rw [splitLines, joinBreaks_of_no_return hreturn]
  clear hreturn
  induction lines with
  | nil => rfl
  | cons line lines ih =>
    obtain ⟨hline, hlines⟩ := List.forall_mem_cons.mp hlines
    have hcons : terminated (line :: lines) = line ++ lineFeed :: terminated lines := by
      rw [terminated, List.flatMap_cons, List.append_assoc]
      rfl
    rw [hcons, splitBreaks_append hline, List.nil_append, ih hlines]

/-- The lines come back, except that an empty line at the end is lost. -/
theorem splitLines_textOfLines (hlines : ∀ line ∈ lines, OnOneLine line) :
    splitLines (textOfLines lines) =
      if lines.getLast? = some [] then lines.dropLast else lines := by
  cases lines using List.reverseRecOn with
  | nil => rfl
  | append_singleton init last =>
    have hlast := hlines last (by simp)
    have hinit : ∀ line ∈ init, OnOneLine line := fun line hline =>
      hlines line (List.mem_append_left _ hline)
    rw [textOfLines_concat init hlast, List.getLast?_concat, List.dropLast_concat]
    by_cases hempty : last = []
    · rw [if_pos hempty, if_pos (by rw [hempty]), splitLines_terminated hinit]
    · rw [if_neg hempty, if_neg (by simpa using hempty), splitLines_terminated hlines]

/-- The characters of a file are those of its lines and the line feeds. -/
theorem mem_textOfLines (hc : c ∈ textOfLines lines) : c = lineFeed ∨ ∃ line ∈ lines, c ∈ line := by
  have hjoined : ∀ {c}, c ∈ join lineFeedText lines → c = lineFeed ∨ ∃ line ∈ lines, c ∈ line := by
    cases lines using List.reverseRecOn with
    | nil => exact fun h => absurd h List.not_mem_nil
    | append_singleton init last =>
      intro c hc
      rw [join_concat] at hc
      cases List.mem_append.mp hc with
      | inr hlast => exact Or.inr ⟨last, by simp, hlast⟩
      | inl hbefore =>
        obtain ⟨line, hline, hmem⟩ := List.mem_flatMap.mp hbefore
        cases List.mem_append.mp hmem with
        | inl hinside => exact Or.inr ⟨line, List.mem_append_left _ hline, hinside⟩
        | inr hfeed => exact Or.inl (List.mem_singleton.mp hfeed)
  rw [textOfLines] at hc
  split at hc
  · cases List.mem_append.mp hc with
    | inl hinside => exact hjoined hinside
    | inr hfeed => exact Or.inl (List.mem_singleton.mp hfeed)
  · exact hjoined hc

theorem mem_textOfLines_of_mem (hline : line ∈ lines) (hc : c ∈ line) : c ∈ textOfLines lines := by
  have hjoined : c ∈ join lineFeedText lines := mem_join_of_mem hline hc
  rw [textOfLines]
  split
  · exact List.mem_append_left _ hjoined
  · exact hjoined

theorem encodable_textOfLines_iff :
    Encodable (textOfLines lines) ↔ ∀ line ∈ lines, Encodable line := by
  apply Iff.intro
  · intro hfile line hline c hc
    exact hfile c (mem_textOfLines_of_mem hline hc)
  · intro hlines c hc
    rcases mem_textOfLines hc with rfl | ⟨line, hline, hmem⟩
    · decide
    · exact hlines line hline c hmem

theorem mem_of_mem_splitBreaks {part : PyStr} (hpart : part ∈ splitBreaks line text)
    (hc : c ∈ part) : c ∈ line ++ text := by
  induction text generalizing line with
  | nil =>
    rw [splitBreaks] at hpart
    split at hpart
    · exact absurd hpart List.not_mem_nil
    · rwa [List.append_nil, ← List.mem_singleton.mp hpart]
  | cons d rest ih =>
    rw [splitBreaks] at hpart
    split at hpart
    · cases List.mem_cons.mp hpart with
      | inl hfirst => exact List.mem_append_left _ (hfirst ▸ hc)
      | inr hlater => exact List.mem_append_right _ (List.mem_cons_of_mem d (ih hlater))
    · have hmem := ih hpart
      rwa [List.append_assoc] at hmem

theorem encodable_of_mem_splitLines (htext : Encodable text) (hline : line ∈ splitLines text) :
    Encodable line := by
  intro c hc
  exact htext c ((joinBreaks_sublist text).subset (mem_of_mem_splitBreaks hline hc))

end RootSeeker.Python
