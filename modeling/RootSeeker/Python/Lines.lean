import RootSeeker.Core.Framing
import RootSeeker.Python.Text

/-!
# Lines of a text

What `str.splitlines` gives: a carriage return and the line feed after it are one
break, and a break at the end opens no further line.
-/

namespace RootSeeker.Python

/-- Drop the carriage returns in front of a line feed. -/
def joinBreaks : PyStr → PyStr
  | [] => []
  | c :: rest =>
    if c = CodePoint.ofChar '\r' ∧ rest.head? = some (CodePoint.ofChar '\n') then
      joinBreaks rest
    else c :: joinBreaks rest

def splitBreaks (line : PyStr) : PyStr → List PyStr
  | [] => if line = [] then [] else [line]
  | c :: rest =>
    if isLineBreak c then line :: splitBreaks [] rest else splitBreaks (line ++ [c]) rest

/-- `text.splitlines()`. -/
def splitLines (text : PyStr) : List PyStr :=
  splitBreaks [] (joinBreaks text)

example : splitLines (py "a\r\n\nb\n") = [py "a", [], py "b"] := by decide

theorem joinBreaks_ne_nil {text : PyStr} (htext : text ≠ []) : joinBreaks text ≠ [] := by
  induction text with
  | nil => exact absurd rfl htext
  | cons c rest ih =>
    rw [joinBreaks]
    split
    · next hbreak => exact ih (fun hrest => by simp [hrest] at hbreak)
    · exact List.cons_ne_nil _ _

theorem splitBreaks_ne_nil {line text : PyStr} (hne : line ≠ [] ∨ text ≠ []) :
    splitBreaks line text ≠ [] := by
  induction text generalizing line with
  | nil =>
    rw [splitBreaks, if_neg (hne.resolve_right (not_not.mpr rfl))]
    exact List.cons_ne_nil _ _
  | cons c rest ih =>
    rw [splitBreaks]
    split
    · exact List.cons_ne_nil _ _
    · exact ih (.inl (List.append_ne_nil_of_right_ne_nil _ (List.cons_ne_nil _ _)))

/-- A text that is not empty has a line. -/
theorem splitLines_ne_nil {text : PyStr} (htext : text ≠ []) : splitLines text ≠ [] :=
  splitBreaks_ne_nil (.inr (joinBreaks_ne_nil htext))

theorem isSpace_of_isLineBreak {c : CodePoint} (hbreak : isLineBreak c = true) :
    isSpace c = true := by
  simp only [isLineBreak, Bool.or_eq_true, Bool.and_eq_true, decide_eq_true_eq] at hbreak
  simp only [isSpace, Bool.or_eq_true, Bool.and_eq_true, decide_eq_true_eq]
  omega

/-- A text on one line. -/
def OnOneLine (line : PyStr) : Prop :=
  ∀ c ∈ line, isLineBreak c = false

theorem onOneLine_of_mem_splitBreaks {line text part : PyStr} (hline : OnOneLine line)
    (hpart : part ∈ splitBreaks line text) : OnOneLine part := by
  induction text generalizing line with
  | nil =>
    rw [splitBreaks] at hpart
    split at hpart
    · exact absurd hpart List.not_mem_nil
    · exact List.mem_singleton.mp hpart ▸ hline
  | cons c rest ih =>
    rw [splitBreaks] at hpart
    split at hpart
    · cases List.mem_cons.mp hpart with
      | inl hhead => exact hhead ▸ hline
      | inr htail => exact ih (fun _ hd => absurd hd List.not_mem_nil) htail
    · next hbreak =>
      apply ih _ hpart
      intro d hd
      cases List.mem_append.mp hd with
      | inl hold => exact hline d hold
      | inr hnew => exact List.mem_singleton.mp hnew ▸ Bool.eq_false_of_not_eq_true hbreak

theorem onOneLine_of_mem_splitLines {text line : PyStr} (hline : line ∈ splitLines text) :
    OnOneLine line :=
  onOneLine_of_mem_splitBreaks (fun _ hc => absurd hc List.not_mem_nil) hline

/-! ## Counting lines -/

/-- How many line breaks a text has. -/
def lineBreaks (text : PyStr) : ℕ :=
  text.countP isLineBreak

theorem joinBreaks_sublist (text : PyStr) : (joinBreaks text).Sublist text := by
  induction text with
  | nil => exact List.Sublist.refl _
  | cons c rest ih =>
    rw [joinBreaks]
    split
    · exact ih.cons c
    · exact ih.cons_cons c

theorem length_splitBreaks_le (line text : PyStr) :
    (splitBreaks line text).length ≤ lineBreaks text + 1 := by
  induction text generalizing line with
  | nil =>
    rw [splitBreaks]
    split
    · exact Nat.zero_le _
    · exact Nat.le_refl _
  | cons c rest ih =>
    rw [splitBreaks, lineBreaks, List.countP_cons]
    split
    · rw [List.length_cons]
      exact Nat.succ_le_succ (ih [])
    · exact ih _

theorem length_splitLines_le (text : PyStr) : (splitLines text).length ≤ lineBreaks text + 1 :=
  (length_splitBreaks_le [] _).trans
    (Nat.succ_le_succ ((joinBreaks_sublist text).countP_le))

theorem lineBreaks_of_onOneLine {line : PyStr} (hline : OnOneLine line) : lineBreaks line = 0 :=
  List.countP_eq_zero.mpr fun c hc => by simp [hline c hc]

def lineFeedText : PyStr := [CodePoint.ofChar '\n']

theorem lineBreaks_join {first : PyStr} {lines : List PyStr}
    (hlines : ∀ line ∈ first :: lines, OnOneLine line) :
    lineBreaks (join lineFeedText (first :: lines)) = lines.length := by
  rw [join, Framing.intercalate_cons, lineBreaks, List.countP_append]
  have hfirst := lineBreaks_of_onOneLine (hlines first List.mem_cons_self)
  rw [lineBreaks] at hfirst
  rw [hfirst, Nat.zero_add]
  have hrest : ∀ line ∈ lines, OnOneLine line :=
    fun line hline => hlines line (List.mem_cons_of_mem first hline)
  clear hlines hfirst
  induction lines with
  | nil => rfl
  | cons line lines ih =>
    have hline := lineBreaks_of_onOneLine (hrest line List.mem_cons_self)
    rw [lineBreaks] at hline
    have hfeed : List.countP isLineBreak lineFeedText = 1 := by decide
    rw [List.flatMap_cons, List.countP_append, List.countP_append, hline, hfeed,
      ih fun other hother => hrest other (List.mem_cons_of_mem line hother), List.length_cons]
    omega

/-! ## The first line that is not blank -/

/-- The first line that is not blank, stripped. -/
def headline (text : PyStr) : PyStr :=
  strip (firstLine (text.dropWhile isSpace))

theorem length_headline_le (text : PyStr) : (headline text).length ≤ text.length :=
  ((stripBy_sublist isSpace _).trans ((List.takeWhile_sublist _).trans
    (List.dropWhile_sublist _))).length_le

theorem headline_of_blank {front : PyStr} (hblank : ∀ c ∈ front, isSpace c = true)
    (text : PyStr) : headline (front ++ text) = headline text := by
  rw [headline, List.dropWhile_append_of_pos hblank, headline]

/-- A line that is not blank hides what follows it. -/
theorem headline_of_line {line : PyStr} (hline : OnOneLine line) (hblank : strip line ≠ [])
    {rest : PyStr} (hrest : ∀ c ∈ rest.head?, isLineBreak c = true) :
    headline (line ++ rest) = strip line := by
  obtain ⟨c, hc, hkept⟩ := stripBy_ne_nil_iff.mp hblank
  have hdropped : line.dropWhile isSpace ≠ [] :=
    List.ne_nil_of_mem (mem_dropWhile_of_mem hc hkept)
  have hsplit : (line ++ rest).dropWhile isSpace = line.dropWhile isSpace ++ rest := by
    rw [List.dropWhile_append, if_neg (by simpa using hdropped)]
  have hfirst : firstLine (line.dropWhile isSpace ++ rest) = line.dropWhile isSpace := by
    rw [firstLine, List.takeWhile_append_of_pos]
    · have hstop : rest.takeWhile (!isLineBreak ·) = [] := by
        cases rest with
        | nil => rfl
        | cons d rest => exact List.takeWhile_cons_of_neg (by simp [hrest d rfl])
      rw [hstop, List.append_nil]
    · intro d hd
      simp [hline d ((List.dropWhile_sublist isSpace).subset hd)]
  rw [headline, hsplit, hfirst, strip, stripBy, List.dropWhile_idempotent, strip, stripBy]

/-- The first of the lines that is not blank, stripped. -/
def firstOfLines (lines : List PyStr) : PyStr :=
  (lines.find? fun line => strip line ≠ []).elim [] strip

theorem blank_of_strip {line : PyStr} (hblank : strip line = []) :
    ∀ c ∈ line, isSpace c = true := by
  intro c hc
  by_contra hkept
  exact stripBy_ne_nil_iff.mpr ⟨c, hc, Bool.eq_false_of_not_eq_true hkept⟩ hblank

theorem firstOfLines_cons (line : PyStr) (lines : List PyStr) :
    firstOfLines (line :: lines) = if strip line = [] then firstOfLines lines else strip line := by
  by_cases hblank : strip line = []
  · rw [if_pos hblank, firstOfLines, List.find?_cons_of_neg (by simpa using hblank), firstOfLines]
  · rw [if_neg hblank, firstOfLines, List.find?_cons_of_pos (by simpa using hblank)]
    rfl

theorem headline_feeds {line : PyStr} {lines : List PyStr}
    (hlines : ∀ other ∈ line :: lines, OnOneLine other) :
    headline (line ++ lines.flatMap (lineFeedText ++ ·)) = firstOfLines (line :: lines) := by
  have hline := hlines line List.mem_cons_self
  rw [firstOfLines_cons]
  by_cases hblank : strip line = []
  · rw [if_pos hblank, headline_of_blank (blank_of_strip hblank)]
    cases lines with
    | nil => rfl
    | cons next lines =>
      have hnext : headline (next ++ lines.flatMap (lineFeedText ++ ·)) =
          firstOfLines (next :: lines) :=
        headline_feeds fun other hother => hlines other (List.mem_cons_of_mem line hother)
      have hfeed : ∀ c ∈ lineFeedText, isSpace c = true := by
        intro c hc
        rw [List.mem_singleton.mp hc]
        decide
      rw [List.flatMap_cons, List.append_assoc, headline_of_blank hfeed, hnext]
  · rw [if_neg hblank]
    apply headline_of_line hline hblank
    cases lines with
    | nil => simp
    | cons next lines =>
      rintro c ⟨⟩
      decide

theorem headline_join {lines : List PyStr} (hlines : ∀ line ∈ lines, OnOneLine line) :
    headline (join lineFeedText lines) = firstOfLines lines := by
  cases lines with
  | nil => rfl
  | cons line lines =>
    rw [join, Framing.intercalate_cons]
    exact headline_feeds hlines

theorem headline_splitBreaks {line : PyStr} (hline : OnOneLine line) (text : PyStr) :
    headline (line ++ text) = firstOfLines (splitBreaks line text) := by
  induction text generalizing line with
  | nil =>
    rw [splitBreaks]
    split
    · next hempty =>
      rw [hempty]
      rfl
    · have hlines : ∀ other ∈ [line], OnOneLine other := by simpa using hline
      exact headline_feeds hlines
  | cons c rest ih =>
    have hnil : OnOneLine [] := fun _ hd => absurd hd List.not_mem_nil
    rw [splitBreaks]
    split
    · next hbreak =>
      rw [firstOfLines_cons, ← ih hnil, List.nil_append]
      split
      · next hblank =>
        rw [headline_of_blank (blank_of_strip hblank)]
        have hspace : ∀ d ∈ [c], isSpace d = true := by
          intro d hd
          exact List.mem_singleton.mp hd ▸ isSpace_of_isLineBreak hbreak
        exact headline_of_blank hspace rest
      · next hblank =>
        apply headline_of_line hline hblank
        rintro d ⟨⟩
        exact hbreak
    · next hbreak =>
      have hlonger : OnOneLine (line ++ [c]) := by
        intro d hd
        cases List.mem_append.mp hd with
        | inl hold => exact hline d hold
        | inr hnew => exact List.mem_singleton.mp hnew ▸ Bool.eq_false_of_not_eq_true hbreak
      rw [← ih hlonger, List.append_assoc]
      rfl

theorem dropWhile_joinBreaks (text : PyStr) :
    (joinBreaks text).dropWhile isSpace = joinBreaks (text.dropWhile isSpace) := by
  induction text with
  | nil => rfl
  | cons c rest ih =>
    cases hspace : isSpace c with
    | true =>
      rw [List.dropWhile_cons_of_pos hspace, ← ih, joinBreaks]
      split
      · rfl
      · exact List.dropWhile_cons_of_pos hspace
    | false =>
      have hother : c ≠ CodePoint.ofChar '\r' := by
        rintro rfl
        exact absurd hspace (by decide)
      rw [List.dropWhile_cons_of_neg (by simp [hspace]), joinBreaks,
        if_neg fun hboth => hother hboth.1]
      exact List.dropWhile_cons_of_neg (by simp [hspace])

theorem firstLine_joinBreaks (text : PyStr) : firstLine (joinBreaks text) = firstLine text := by
  induction text with
  | nil => rfl
  | cons c rest ih =>
    rw [joinBreaks]
    split
    · next hbreak =>
      obtain ⟨rfl, hnext⟩ := hbreak
      rw [ih]
      cases rest with
      | nil => exact absurd hnext (by simp)
      | cons d rest =>
        obtain rfl := Option.some.inj hnext
        rfl
    · cases hbreak : isLineBreak c with
      | true =>
        rw [firstLine, List.takeWhile_cons_of_neg (by simp [hbreak]), firstLine,
          List.takeWhile_cons_of_neg (by simp [hbreak])]
      | false =>
        rw [firstLine, List.takeWhile_cons_of_pos (by simp [hbreak]), ← firstLine, ih, firstLine,
          firstLine, List.takeWhile_cons_of_pos (by simp [hbreak])]

theorem headline_eq_firstOfLines (text : PyStr) :
    headline text = firstOfLines (splitLines text) := by
  have hnil : OnOneLine [] := fun _ hd => absurd hd List.not_mem_nil
  rw [splitLines, ← headline_splitBreaks hnil, List.nil_append, headline, headline,
    dropWhile_joinBreaks, firstLine_joinBreaks]

theorem headline_ne_nil_iff {text : PyStr} : headline text ≠ [] ↔ strip text ≠ [] := by
  constructor
  · intro hne hblank
    have hnone := headline_of_blank (blank_of_strip hblank) []
    rw [List.append_nil] at hnone
    exact hne (hnone.trans rfl)
  · intro hne
    obtain ⟨c, hc, hkept⟩ := stripBy_ne_nil_iff.mp hne
    have hdropped := List.ne_nil_of_mem (mem_dropWhile_of_mem hc hkept)
    cases hrest : text.dropWhile isSpace with
    | nil => exact absurd hrest hdropped
    | cons d rest =>
      have hhead : isSpace d = false := by
        have hnot := List.head_dropWhile_not isSpace hdropped
        simpa only [hrest, List.head_cons] using hnot
      have hinline : isLineBreak d = false := by
        by_contra hbreak
        rw [isSpace_of_isLineBreak (Bool.eq_true_of_not_eq_false hbreak)] at hhead
        exact absurd hhead (by simp)
      rw [headline, hrest, firstLine, List.takeWhile_cons_of_pos (by simp [hinline])]
      exact stripBy_ne_nil_iff.mpr ⟨d, List.mem_cons_self, hhead⟩

theorem rdropWhile_append_blank (text : PyStr) {rest : PyStr}
    (hblank : ∀ c ∈ rest, isSpace c = true) :
    (text ++ rest).rdropWhile isSpace = text.rdropWhile isSpace := by
  have hrest : rest.rdropWhile isSpace = [] := List.rdropWhile_eq_nil_iff.mpr hblank
  rw [rdropWhile_append, if_pos hrest]

/-- The blanks at the end of a text do not matter to its headline. -/
theorem headline_append_blank (text : PyStr) {rest : PyStr}
    (hblank : ∀ c ∈ rest, isSpace c = true) : headline (text ++ rest) = headline text := by
  by_cases hall : ∀ c ∈ text, isSpace c = true
  · have hboth := headline_of_blank hall rest
    have hnone := headline_of_blank hblank []
    have htext := headline_of_blank hall []
    rw [List.append_nil] at hnone htext
    rw [hboth, hnone, htext]
  · push Not at hall
    obtain ⟨c, hc, hkept⟩ := hall
    have hdropped : text.dropWhile isSpace ≠ [] :=
      List.ne_nil_of_mem (mem_dropWhile_of_mem hc (Bool.eq_false_of_not_eq_true hkept))
    rw [headline, List.dropWhile_append, if_neg (by simpa using hdropped), headline, firstLine,
      firstLine, List.takeWhile_append]
    split
    · next hwhole =>
      have hline : (text.dropWhile isSpace).takeWhile (!isLineBreak ·) = text.dropWhile isSpace :=
        (List.takeWhile_prefix _).eq_of_length hwhole
      have hfront : ∀ c ∈ rest.takeWhile (!isLineBreak ·), isSpace c = true :=
        fun c hc => hblank c ((List.takeWhile_sublist _).subset hc)
      rw [hline, strip, stripBy, List.dropWhile_append,
        if_neg (by simpa [List.dropWhile_idempotent] using hdropped),
        List.dropWhile_idempotent, rdropWhile_append_blank _ hfront, strip, stripBy,
        List.dropWhile_idempotent]
    · rfl

/-- The headline is that of the stripped text. -/
theorem headline_strip (text : PyStr) : headline (strip text) = headline text := by
  have hsplit : strip text ++ (text.dropWhile isSpace).rtakeWhile isSpace =
      text.dropWhile isSpace := by
    have hdrop : (text.dropWhile isSpace).rdropWhile isSpace ++
        (text.dropWhile isSpace).rtakeWhile isSpace = text.dropWhile isSpace := by
      rw [List.rdropWhile, List.rtakeWhile, ← List.reverse_append,
        List.takeWhile_append_dropWhile, List.reverse_reverse]
    exact hdrop
  have hblank : ∀ c ∈ (text.dropWhile isSpace).rtakeWhile isSpace, isSpace c = true :=
    fun c hc => List.mem_rtakeWhile_imp hc
  rw [← headline_append_blank (strip text) hblank, hsplit, headline, List.dropWhile_idempotent,
    headline]

/-- A stripped text on one line is its own headline. -/
theorem headline_of_onOneLine {text : PyStr} (hstripped : strip text = text)
    (hline : OnOneLine text) : headline text = text := by
  have hfirst : firstLine text = text :=
    List.takeWhile_eq_self_iff.mpr fun c hc => by simp [hline c hc]
  rw [headline, dropWhile_of_stripBy_eq_self hstripped, hfirst, hstripped]

/-- The lines of a text begin with what stands in front of its first break. -/
theorem exists_splitBreaks_cons {line : PyStr} (hline : line ≠ []) (text : PyStr) :
    ∃ more lines, splitBreaks line text = (line ++ more) :: lines := by
  induction text generalizing line with
  | nil => exact ⟨[], [], by rw [splitBreaks, if_neg hline, List.append_nil]⟩
  | cons c rest ih =>
    rw [splitBreaks]
    split
    · exact ⟨[], _, by rw [List.append_nil]⟩
    · have hlonger : line ++ [c] ≠ [] := by simp
      obtain ⟨more, lines, hmore⟩ := ih hlonger
      exact ⟨c :: more, lines, by rw [hmore, List.append_assoc]; rfl⟩

/-- The first line of a stripped text is not blank. -/
theorem exists_splitLines_cons {text : PyStr} (hstripped : strip text = text)
    (hne : text ≠ []) : ∃ line lines, splitLines text = line :: lines ∧ strip line ≠ [] := by
  cases text with
  | nil => exact absurd rfl hne
  | cons c rest =>
    have hkept : isSpace c = false := head_of_stripBy_eq_self hstripped c rfl
    have hinline : isLineBreak c = false := by
      by_contra hbreak
      rw [isSpace_of_isLineBreak (Bool.eq_true_of_not_eq_false hbreak)] at hkept
      exact absurd hkept (by simp)
    have hother : c ≠ CodePoint.ofChar '\r' := by
      rintro rfl
      exact absurd hkept (by decide)
    obtain ⟨more, lines, hmore⟩ := exists_splitBreaks_cons (List.cons_ne_nil c []) (joinBreaks rest)
    refine ⟨c :: more, lines, ?_, stripBy_ne_nil_iff.mpr ⟨c, List.mem_cons_self, hkept⟩⟩
    rw [splitLines, joinBreaks, if_neg fun hboth => hother hboth.1, splitBreaks,
      if_neg (by simp [hinline])]
    exact hmore

end RootSeeker.Python
