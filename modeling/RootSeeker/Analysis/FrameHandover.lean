import RootSeeker.Analysis.CallChain

/-!
# Frames from the call chain to its readers

A frame is printed by one pattern and read back by another one.  What the first
admits as class, method and location decides whether the second accepts the frame
and what it reads there.
-/

namespace RootSeeker.Analysis

open Python Patterns Contracts

/-! ## Characters of names -/

section Characters

variable (tables : WordTables)

theorem ne_of_isWord {c d : CodePoint} (hc : tables.isWord c = true) (hascii : isAscii d = true)
    (hd : isWordChar (fun _ => false) d = false) : c ≠ d := by
  rintro rfl
  rw [WordTables.isWord, isWordChar, if_pos hascii] at hc
  rw [isWordChar, if_pos hascii, hc] at hd
  exact absurd hd (by simp)

theorem not_isSpace_of_isWord {c : CodePoint} (hc : tables.isWord c = true) :
    isSpace c = false := by
  by_cases hascii : isAscii c = true
  · rw [Bool.eq_false_iff]
    intro hspace
    rw [WordTables.isWord, isWordChar, if_pos hascii] at hc
    simp only [isAscii, isDigit, isSpace, Bool.or_eq_true, Bool.and_eq_true,
      decide_eq_true_eq] at hc hascii hspace
    omega
  · rw [WordTables.isWord, isWordChar, if_neg hascii] at hc
    exact tables.not_space c (Bool.eq_false_iff.mpr hascii) hc

/-- The characters of a class name with its method. -/
def isNameChar (c : CodePoint) : Bool :=
  isQualifiedChar tables c || isMethodChar tables c

theorem not_isNameChar_of_isSpace {c : CodePoint} (hc : isSpace c = true) :
    isNameChar tables c = false := by
  rw [Bool.eq_false_iff]
  intro hname
  simp only [isNameChar, isQualifiedChar, isMethodChar, Bool.or_eq_true, decide_eq_true_eq] at hname
  have hword : tables.isWord c = true → False := by
    intro hword
    rw [not_isSpace_of_isWord tables hword] at hc
    exact absurd hc (by simp)
  have hsymbol : ∀ d : CodePoint, c = d → isSpace d = false → False := by
    rintro d rfl hd
    exact absurd hc (by simp [hd])
  obtain ((h | h) | h) | h | h := hname
  · exact hword h
  · exact hsymbol _ h (by decide)
  · exact hsymbol _ h (by decide)
  · exact hword h
  · exact absurd (List.all_eq_true.mp (by decide : (py "$<>").all (!isSpace ·) = true) c h)
      (by simp [hc])

theorem ne_dot_of_isMethodChar {c : CodePoint} (hc : isMethodChar tables c = true) : c ≠ dot := by
  simp only [isMethodChar, Bool.or_eq_true, decide_eq_true_eq] at hc
  cases hc with
  | inl hword => exact ne_of_isWord tables hword (by decide) (by decide)
  | inr hsymbol =>
    rintro rfl
    exact absurd hsymbol (by decide)

theorem ne_of_isDecimal {c d : CodePoint} (hc : tables.isDecimal c = true)
    (hascii : isAscii d = true) (hd : isDigit d = false) : c ≠ d := by
  rintro rfl
  rw [WordTables.isDecimal, if_pos hascii, hd] at hc
  exact absurd hc (by simp)

end Characters

/-! ## Lines that print a frame -/

section Reading

variable {tables : WordTables}

/-- What the pattern of a frame says of its parts. -/
structure PrintedFrame.WellFormed (tables : WordTables) (frame : PrintedFrame) : Prop where
  qualified : frame.qualified ≠ [] ∧ ∀ c ∈ frame.qualified, isQualifiedChar tables c = true
  method : frame.method ≠ [] ∧ ∀ c ∈ frame.method, isMethodChar tables c = true
  location : frame.location ≠ [] ∧ ∀ c ∈ frame.location, c ≠ closeParen

theorem means_javaFrame : Means (javaFrame tables) (Language.sequence
    [Language.many isSpace, Language.exactly (py "at"), Language.atLeastOne isSpace,
      Language.group (Language.atLeastOne (isQualifiedChar tables)), Language.exactly (py "."),
      Language.group (Language.atLeastOne (isMethodChar tables)), Language.exactly (py "("),
      Language.group (Language.atLeastOne (· ≠ closeParen)), Language.exactly (py ")"),
      Language.many isSpace, Language.before atEnd]) :=
  Means.sequence (.cons (.many_one _) (.cons (.literally _) (.cons (.atLeastOne_one _)
    (.cons (.group (.atLeastOne_one _)) (.cons (.literally _) (.cons (.group (.atLeastOne_one _))
    (.cons (.literally _) (.cons (.group (.atLeastOne_one _)) (.cons (.literally _)
    (.cons (.many_one _) (.cons (.lookahead _) .nil)))))))))))

theorem wellFormed_of_readFrameLine {line : PyStr} {frame : PrintedFrame}
    (hread : readFrameLine tables line = some frame) : frame.WellFormed tables := by
  unfold readFrameLine at hread
  split at hread
  · next qualified method location hmatch =>
    rw [← Option.some.inj hread]
    obtain ⟨taken, rest, _, hlanguage⟩ := exists_of_matchStart means_javaFrame hmatch
    obtain ⟨_, _, _, _, _, hfound, ⟨rfl, _⟩, _, _, _, _, _, rfl, ⟨rfl, _⟩, _, _, _, _, _, rfl,
      ⟨rfl, _⟩, q, _, _, _, _, rfl, ⟨_, rfl, rfl, hq⟩, _, _, _, _, _, rfl, ⟨rfl, _⟩,
      m, _, _, _, _, rfl, ⟨_, rfl, rfl, hm⟩, _, _, _, _, _, rfl, ⟨rfl, _⟩,
      l, _, _, _, _, rfl, ⟨_, rfl, rfl, hl⟩, _, _, _, _, _, rfl, ⟨rfl, _⟩, _, _, _, _, _, rfl,
      ⟨rfl, _⟩, _, _, _, _, _, rfl, ⟨_, rfl, _⟩, rfl, _⟩ := hlanguage
    simp only [List.nil_append, List.cons_append, List.append_nil, List.cons.injEq,
      and_true] at hfound
    obtain ⟨rfl, rfl, rfl⟩ := hfound
    exact ⟨hq, hm, ⟨hl.1, fun c hc => by simpa using hl.2 c hc⟩⟩
  · exact absurd hread (by simp)

/-! ## Reading a frame back -/

theorem means_frameLocation : Means (frameLocation tables) (Language.sequence
    [Language.atLeastOne isSpace, Language.exactly (py "("),
      Language.group (Language.atLeastOne fun c => c ≠ colonChar ∧ c ≠ closeParen),
      Language.optional (Language.sequence [Language.exactly (py ":"),
        Language.group (Language.atLeastOne tables.isDecimal)]),
      Language.exactly (py ")")]) :=
  Means.sequence (.cons (.atLeastOne_one _) (.cons (.literally _)
    (.cons (.group (.atLeastOne_one _)) (.cons (.optional (.sequence (.cons (.literally _)
      (.cons (.group (.atLeastOne_one _)) .nil)))) (.cons (.literally _) .nil)))))

/-- A parenthesis with a file and perhaps a line in it, and what is read there. -/
inductive LocationReading (tables : WordTables) : PyStr → List PyStr → Prop
  | file {gap name : PyStr} (hgap : gap ≠ [] ∧ ∀ c ∈ gap, isSpace c = true)
      (hname : name ≠ [] ∧ ∀ c ∈ name, c ≠ colonChar ∧ c ≠ closeParen) :
      LocationReading tables (gap ++ openParen :: (name ++ [closeParen])) [name]
  | fileLine {gap name digits : PyStr} (hgap : gap ≠ [] ∧ ∀ c ∈ gap, isSpace c = true)
      (hname : name ≠ [] ∧ ∀ c ∈ name, c ≠ colonChar ∧ c ≠ closeParen)
      (hdigits : digits ≠ [] ∧ ∀ c ∈ digits, tables.isDecimal c = true) :
      LocationReading tables
        (gap ++ openParen :: (name ++ colonChar :: (digits ++ [closeParen]))) [name, digits]

theorem means_frameLocation' :
    Means (frameLocation tables) fun taken found _ => LocationReading tables taken found := by
  apply means_frameLocation.of_iff
  intro taken found rest
  constructor
  · rintro ⟨gap, _, _, _, rfl, rfl, ⟨rfl, hgap⟩, _, _, _, _, rfl, rfl, ⟨rfl, rfl⟩,
      name, _, _, _, rfl, rfl, ⟨_, rfl, rfl, hname⟩, _, _, _, _, rfl, rfl, hline,
      _, _, _, _, rfl, rfl, ⟨rfl, rfl⟩, rfl, rfl⟩
    have hchars : name ≠ [] ∧ ∀ c ∈ name, c ≠ colonChar ∧ c ≠ closeParen :=
      ⟨hname.1, fun c hc => of_decide_eq_true (hname.2 c hc)⟩
    obtain ⟨_, _, _, _, rfl, rfl, ⟨rfl, rfl⟩, digits, _, _, _, rfl, rfl,
      ⟨_, rfl, rfl, hdigits⟩, rfl, rfl⟩ | ⟨rfl, rfl⟩ := hline
    · have hreading := LocationReading.fileLine hgap hchars hdigits
      simpa [openParen, colonChar, closeParen, py] using hreading
    · have hreading : LocationReading tables _ _ := LocationReading.file hgap hchars
      simpa [openParen, closeParen, py] using hreading
  · intro hreading
    have hclass : ∀ {name : PyStr}, (∀ c ∈ name, c ≠ colonChar ∧ c ≠ closeParen) →
        ∀ c ∈ name, decide (c ≠ colonChar ∧ c ≠ closeParen) = true :=
      fun hname c hc => decide_eq_true (hname c hc)
    cases hreading with
    | @file gap name hgap hname =>
      exact ⟨gap, _, [], _, rfl, rfl, ⟨rfl, hgap⟩, [openParen], _, [], _, rfl, rfl, ⟨rfl, rfl⟩,
        name, _, [name], _, rfl, rfl, ⟨[], rfl, rfl, hname.1, hclass hname.2⟩,
        [], _, [], _, rfl, rfl, Or.inr ⟨rfl, rfl⟩, [closeParen], [], [], [], rfl, rfl,
        ⟨rfl, rfl⟩, rfl, rfl⟩
    | @fileLine gap name digits hgap hname hdigits =>
      have htext : colonChar :: (digits ++ [closeParen]) =
          (colonChar :: (digits ++ [])) ++ ([closeParen] ++ []) := by simp
      rw [htext]
      exact ⟨gap, _, [], _, rfl, rfl, ⟨rfl, hgap⟩, [openParen], _, [], _, rfl, rfl, ⟨rfl, rfl⟩,
        name, _, [name], _, rfl, rfl, ⟨[], rfl, rfl, hname.1, hclass hname.2⟩,
        _, _, [digits], _, rfl, rfl, Or.inl ⟨[colonChar], _, [], _, rfl, rfl, ⟨rfl, rfl⟩,
          digits, [], [digits], [], rfl, rfl, ⟨[], rfl, rfl, hdigits⟩, rfl, rfl⟩,
        [closeParen], [], [], [], rfl, rfl, ⟨rfl, rfl⟩, rfl, rfl⟩

/-- A class, a method and perhaps a location, as the pattern of a summary reads them. -/
inductive SummaryReading (tables : WordTables) : PyStr → List PyStr → Prop
  | bare {className method : PyStr}
      (hclass : className ≠ [] ∧ ∀ c ∈ className, isQualifiedChar tables c = true)
      (hmethod : method ≠ [] ∧ ∀ c ∈ method, isMethodChar tables c = true) :
      SummaryReading tables (className ++ dot :: method) [className, method]
  | located {className method location : PyStr} {found : List PyStr}
      (hclass : className ≠ [] ∧ ∀ c ∈ className, isQualifiedChar tables c = true)
      (hmethod : method ≠ [] ∧ ∀ c ∈ method, isMethodChar tables c = true)
      (hlocation : LocationReading tables location found) :
      SummaryReading tables (className ++ dot :: (method ++ location))
        (className :: method :: found)

theorem means_frameSummary : Means (frameSummary tables) fun taken found rest =>
    ∃ text blank, taken = text ++ blank ∧ SummaryReading tables text found ∧
      (∀ c ∈ blank, isSpace c = true) ∧ atEnd rest = true := by
  have hmeans : Means (frameSummary tables) (Language.sequence
      [Language.group (Language.atLeastOne (isQualifiedChar tables)), Language.exactly (py "."),
        Language.group (Language.atLeastOne (isMethodChar tables)),
        Language.optional fun taken found _ => LocationReading tables taken found,
        Language.many isSpace, Language.before atEnd]) :=
    Means.sequence (.cons (.group (.atLeastOne_one _)) (.cons (.literally _)
      (.cons (.group (.atLeastOne_one _)) (.cons (.optional means_frameLocation')
        (.cons (.many_one _) (.cons (.lookahead _) .nil))))))
  apply hmeans.of_iff
  intro taken found rest
  constructor
  · rintro ⟨className, _, _, _, rfl, rfl, ⟨_, rfl, rfl, hclass⟩, _, _, _, _, rfl, rfl,
      ⟨rfl, rfl⟩, method, _, _, _, rfl, rfl, ⟨_, rfl, rfl, hmethod⟩, location, _, _, _, rfl, rfl,
      hlocation, blank, _, _, _, rfl, rfl, ⟨rfl, hblank⟩, _, _, _, _, rfl, rfl, ⟨rfl, rfl, hend⟩,
      rfl, rfl⟩
    obtain hlocation | ⟨rfl, rfl⟩ := hlocation
    · refine ⟨className ++ dot :: (method ++ location), blank, ?_, ?_, hblank, by simpa using hend⟩
      · simp [dot, py]
      · simpa using SummaryReading.located hclass hmethod hlocation
    · refine ⟨className ++ dot :: method, blank, ?_, ?_, hblank, by simpa using hend⟩
      · simp [dot, py]
      · exact SummaryReading.bare hclass hmethod
  · rintro ⟨text, blank, rfl, hreading, hblank, hend⟩
    cases hreading with
    | @bare className method hclass hmethod =>
      have htext : className ++ dot :: method ++ blank =
          className ++ ([dot] ++ (method ++ ([] ++ (blank ++ ([] ++ []))))) := by simp
      rw [htext]
      exact ⟨className, _, [className], _, rfl, rfl, ⟨[], rfl, rfl, hclass⟩,
        [dot], _, [], _, rfl, rfl, ⟨rfl, rfl⟩, method, _, [method], _, rfl, rfl,
        ⟨[], rfl, rfl, hmethod⟩, [], _, [], _, rfl, rfl, Or.inr ⟨rfl, rfl⟩,
        blank, _, [], _, rfl, rfl, ⟨rfl, hblank⟩, [], [], [], [], rfl, rfl,
        ⟨rfl, rfl, hend⟩, rfl, rfl⟩
    | @located className method location found hclass hmethod hlocation =>
      have htext : className ++ dot :: (method ++ location) ++ blank =
          className ++ ([dot] ++ (method ++ (location ++ (blank ++ ([] ++ []))))) := by simp
      have hfound : found = found ++ ([] ++ ([] ++ [])) := by simp
      rw [htext, hfound]
      exact ⟨className, _, [className], _, rfl, rfl, ⟨[], rfl, rfl, hclass⟩,
        [dot], _, [], _, rfl, rfl, ⟨rfl, rfl⟩, method, _, [method], _, rfl, rfl,
        ⟨[], rfl, rfl, hmethod⟩, location, _, found, _, rfl, rfl, Or.inl hlocation,
        blank, _, [], _, rfl, rfl, ⟨rfl, hblank⟩, [], [], [], [], rfl, rfl,
        ⟨rfl, rfl, hend⟩, rfl, rfl⟩

/-- A text with a separator that does not occur behind it is cut in one way. -/
theorem append_inj_of_last {separator : CodePoint} {left right leftRest rightRest : PyStr}
    (hleft : separator ∉ leftRest) (hright : separator ∉ rightRest)
    (heq : left ++ separator :: leftRest = right ++ separator :: rightRest) :
    left = right ∧ leftRest = rightRest := by
  have hreverse := congrArg List.reverse heq
  simp only [List.reverse_append, List.reverse_cons, List.append_assoc,
    List.singleton_append] at hreverse
  have hclass : ∀ {text : PyStr}, separator ∉ text →
      ∀ c ∈ text.reverse, decide (c ≠ separator) = true := by
    intro text htext c hc
    exact decide_eq_true fun heq => htext (heq ▸ List.mem_reverse.mp hc)
  obtain ⟨hlater, hearlier⟩ := Framing.append_inj_of_class (hclass hleft) (hclass hright)
    (by simp) (by simp) hreverse
  exact ⟨List.reverse_injective (List.cons.inj hearlier).2, List.reverse_injective hlater⟩

/-- A text with a separator that does not occur before it is cut in one way. -/
theorem append_inj_of_first {separator : CodePoint} {left right leftRest rightRest : PyStr}
    (hleft : separator ∉ left) (hright : separator ∉ right)
    (heq : left ++ separator :: leftRest = right ++ separator :: rightRest) :
    left = right ∧ leftRest = rightRest := by
  have hclass : ∀ {text : PyStr}, separator ∉ text → ∀ c ∈ text, decide (c ≠ separator) = true :=
    fun htext c hc => decide_eq_true fun heq => htext (heq ▸ hc)
  obtain ⟨hsame, hrest⟩ := Framing.append_inj_of_class (hclass hleft) (hclass hright)
    (by simp) (by simp) heq
  exact ⟨hsame, (List.cons.inj hrest).2⟩

theorem dot_not_mem_method {method : PyStr}
    (hmethod : ∀ c ∈ method, isMethodChar tables c = true) : dot ∉ method :=
  fun hmem => ne_dot_of_isMethodChar tables (hmethod dot hmem) rfl

/-- A class and a method end where white space follows, and the last dot is between them. -/
theorem names_inj {className method other otherMethod tail otherTail : PyStr}
    (hclass : ∀ c ∈ className, isQualifiedChar tables c = true)
    (hmethod : ∀ c ∈ method, isMethodChar tables c = true)
    (hother : ∀ c ∈ other, isQualifiedChar tables c = true)
    (hotherMethod : ∀ c ∈ otherMethod, isMethodChar tables c = true)
    (htail : ∀ c ∈ tail.head?, isSpace c = true)
    (hotherTail : ∀ c ∈ otherTail.head?, isSpace c = true)
    (heq : className ++ dot :: (method ++ tail) = other ++ dot :: (otherMethod ++ otherTail)) :
    className = other ∧ method = otherMethod ∧ tail = otherTail := by
  have hname : ∀ {first second : PyStr}, (∀ c ∈ first, isQualifiedChar tables c = true) →
      (∀ c ∈ second, isMethodChar tables c = true) →
        ∀ c ∈ first ++ dot :: second, isNameChar tables c = true := by
    intro first second hfirst hsecond c hc
    rw [isNameChar, Bool.or_eq_true]
    obtain hmem | hmem := List.mem_append.mp hc
    · exact Or.inl (hfirst c hmem)
    · obtain rfl | hmem := List.mem_cons.mp hmem
      · exact Or.inl (by simp [isQualifiedChar])
      · exact Or.inr (hsecond c hmem)
  have hparts : (className ++ dot :: method) ++ tail = (other ++ dot :: otherMethod) ++ otherTail := by
    simpa using heq
  obtain ⟨hnames, htails⟩ := Framing.append_inj_of_class (hname hclass hmethod)
    (hname hother hotherMethod) (fun c hc => not_isNameChar_of_isSpace tables (htail c hc))
    (fun c hc => not_isNameChar_of_isSpace tables (hotherTail c hc)) hparts
  obtain ⟨hsame, hmethods⟩ := append_inj_of_last (dot_not_mem_method hmethod)
    (dot_not_mem_method hotherMethod) hnames
  exact ⟨hsame, hmethods, htails⟩

/-- The parenthesis as a summary prints it. -/
def printedLocation (location : PyStr) : PyStr :=
  spaceChar :: openParen :: (location ++ [closeParen])

/-- What can be read in the parenthesis of a summary. -/
theorem location_of_reading {location middle trail : PyStr} {found : List PyStr}
    (hlocation : ∀ c ∈ location, c ≠ closeParen) (hreading : LocationReading tables middle found)
    (heq : middle ++ trail = printedLocation location) :
    (found = [location] ∧ colonChar ∉ location) ∨
      ∃ name digits, found = [name, digits] ∧ location = name ++ colonChar :: digits ∧
        colonChar ∉ name := by
  have hclosing : ∀ {text : PyStr}, (∀ c ∈ text, c ≠ closeParen) → closeParen ∉ text :=
    fun htext hmem => htext _ hmem rfl
  have hopen : isSpace openParen = false := by decide
  have hgapOf : ∀ {gap inner : PyStr}, (gap ≠ [] ∧ ∀ c ∈ gap, isSpace c = true) →
      gap ++ openParen :: inner = printedLocation location → inner = location ++ [closeParen] := by
    intro gap inner hgap hinner
    have hsplit := @Framing.append_inj_of_class _ _ gap [spaceChar] (openParen :: inner)
      (openParen :: (location ++ [closeParen])) hgap.2 (by simpa using isSpace_spaceChar)
      (by simp [hopen]) (by simp [hopen]) hinner
    exact (List.cons.inj hsplit.2).2
  cases hreading with
  | @file gap name hgap hname =>
    have hinner := @hgapOf _ (name ++ closeParen :: trail) hgap (by simpa using heq)
    have hsame := append_inj_of_first (hclosing fun c hc => (hname.2 c hc).2)
      (hclosing hlocation) hinner
    refine Or.inl ⟨by rw [hsame.1], fun hmem => ?_⟩
    exact (hname.2 colonChar (hsame.1 ▸ hmem)).1 rfl
  | @fileLine gap name digits hgap hname hdigits =>
    have hinner := @hgapOf _ ((name ++ colonChar :: digits) ++ closeParen :: trail) hgap
      (by simpa using heq)
    have hdigit : closeParen ∉ name ++ colonChar :: digits := by
      rw [List.mem_append, List.mem_cons, not_or, not_or]
      exact ⟨hclosing fun c hc => (hname.2 c hc).2, by decide, fun hmem =>
        ne_of_isDecimal tables (hdigits.2 _ hmem) (by decide) (by decide) rfl⟩
    have hsame := append_inj_of_first hdigit (hclosing hlocation) hinner
    exact Or.inr ⟨name, digits, rfl, hsame.1.symm, fun hmem => (hname.2 _ hmem).1 rfl⟩

theorem readings_agree {location middle trail other otherTrail : PyStr} {found otherFound : List PyStr}
    (hlocation : ∀ c ∈ location, c ≠ closeParen) (hreading : LocationReading tables middle found)
    (heq : middle ++ trail = printedLocation location)
    (hother : LocationReading tables other otherFound)
    (hotherEq : other ++ otherTrail = printedLocation location) : otherFound = found := by
  obtain ⟨rfl, hcolon⟩ | ⟨name, digits, rfl, hcut, hname⟩ :=
    location_of_reading hlocation hreading heq
  · obtain ⟨rfl, _⟩ | ⟨_, _, _, hcut, _⟩ := location_of_reading hlocation hother hotherEq
    · rfl
    · exact absurd (hcut ▸ List.mem_append_right _ List.mem_cons_self) hcolon
  · obtain ⟨_, hcolon⟩ | ⟨_, _, rfl, hotherCut, hotherName⟩ :=
      location_of_reading hlocation hother hotherEq
    · exact absurd (hcut ▸ List.mem_append_right _ List.mem_cons_self) hcolon
    · obtain ⟨rfl, rfl⟩ := append_inj_of_first hotherName hname (hotherCut.symm.trans hcut)
      rfl

theorem PrintedFrame.summary_eq (frame : PrintedFrame) :
    frame.summary = shortClassName frame.qualified ++
      dot :: (frame.method ++ printedLocation frame.location) := by
  simp [PrintedFrame.summary, printedLocation, py, spaceChar, openParen, closeParen]

theorem isQualifiedChar_of_mem_short {frame : PrintedFrame} (hframe : frame.WellFormed tables) :
    ∀ c ∈ shortClassName frame.qualified, isQualifiedChar tables c = true :=
  fun c hc => hframe.qualified.2 c ((List.rtakeWhile_suffix _ _).subset hc)

/-- A reading of a summary gives its class, its method and a reading of its location. -/
theorem summary_of_reading {frame : PrintedFrame} (hframe : frame.WellFormed tables)
    {text blank : PyStr} {found : List PyStr} (hreading : SummaryReading tables text found)
    (hblank : ∀ c ∈ blank, isSpace c = true) (heq : text ++ blank = frame.summary) :
    shortClassName frame.qualified ≠ [] ∧ ∃ middle located,
      found = shortClassName frame.qualified :: frame.method :: located ∧
        LocationReading tables middle located ∧
          middle ++ blank = printedLocation frame.location := by
  have hspace : ∀ c ∈ (printedLocation frame.location).head?, isSpace c = true := by
    simpa [printedLocation] using isSpace_spaceChar
  rw [frame.summary_eq] at heq
  cases hreading with
  | @bare className method hclass hmethod =>
    have hparts := names_inj hclass.2 hmethod.2 (isQualifiedChar_of_mem_short hframe)
      hframe.method.2 (fun c hc => hblank c (List.mem_of_head? hc)) hspace (by simpa using heq)
    have hopen := hblank openParen (hparts.2.2 ▸ List.mem_cons_of_mem _ List.mem_cons_self)
    exact absurd hopen (by decide)
  | @located className method middle located hclass hmethod hlocation =>
    have hhead : ∀ c ∈ (middle ++ blank).head?, isSpace c = true := by
      cases hlocation with
      | @file gap _ hgap _ | @fileLine gap _ _ hgap _ _ =>
        cases gap with
        | nil => exact absurd rfl hgap.1
        | cons d gap =>
          intro c hc
          rw [← Option.some.inj hc]
          exact hgap.2 d List.mem_cons_self
    have hparts := names_inj hclass.2 hmethod.2 (isQualifiedChar_of_mem_short hframe)
      hframe.method.2 hhead hspace (by simpa using heq)
    refine ⟨hparts.1 ▸ hclass.1, middle, located, ?_, hlocation, hparts.2.2⟩
    rw [hparts.1, hparts.2.1]

theorem blank_of_atEnd {rest : PyStr} (hend : atEnd rest = true) : ∀ c ∈ rest, isSpace c = true := by
  simp only [atEnd, Bool.or_eq_true, decide_eq_true_eq] at hend
  cases hend with
  | inl hnil => exact fun c hc => absurd (hnil ▸ hc) List.not_mem_nil
  | inr hfeed =>
    rw [hfeed, List.forall_mem_singleton]
    decide

/-- Readings that the matcher may find in a summary. -/
theorem exists_reading {frame : PrintedFrame} (hframe : frame.WellFormed tables)
    {taken rest : PyStr} {found : List PyStr} (htext : frame.summary = taken ++ rest)
    (hlanguage : ∃ text blank, taken = text ++ blank ∧ SummaryReading tables text found ∧
      (∀ c ∈ blank, isSpace c = true) ∧ atEnd rest = true) :
    shortClassName frame.qualified ≠ [] ∧ ∃ middle trail located,
      found = shortClassName frame.qualified :: frame.method :: located ∧
        LocationReading tables middle located ∧
          middle ++ trail = printedLocation frame.location := by
  obtain ⟨text, blank, rfl, hreading, hblank, hend⟩ := hlanguage
  have htrail : ∀ c ∈ blank ++ rest, isSpace c = true := fun c hc =>
    (List.mem_append.mp hc).elim (hblank c) (blank_of_atEnd hend c)
  obtain ⟨hshort, middle, located, hfound, hlocation, heq⟩ :=
    summary_of_reading hframe hreading htrail (by rw [htext, List.append_assoc])
  exact ⟨hshort, middle, blank ++ rest, located, hfound, hlocation, heq⟩

theorem matchStart_summary {frame : PrintedFrame} (hframe : frame.WellFormed tables)
    (hshort : shortClassName frame.qualified ≠ []) {located : List PyStr}
    (hlocation : LocationReading tables (printedLocation frame.location) located) :
    matchStart (frameSummary tables) frame.summary =
      some (shortClassName frame.qualified :: frame.method :: located) := by
  apply @matchStart_eq_some _ _ _ means_frameSummary _ frame.summary [] _ (by simp)
  · refine ⟨frame.summary, [], by simp, ?_, by simp, by simp [atEnd]⟩
    rw [frame.summary_eq]
    exact SummaryReading.located ⟨hshort, isQualifiedChar_of_mem_short hframe⟩ hframe.method
      hlocation
  · intro other otherRest found htext hlanguage
    obtain ⟨_, middle, trail, otherLocated, rfl, hother, hotherEq⟩ :=
      exists_reading hframe htext hlanguage
    rw [readings_agree hframe.location.2 hlocation (List.append_nil _) hother hotherEq]

/-- A frame without a class name is not accepted. -/
theorem matchStart_summary_of_nil {frame : PrintedFrame} (hframe : frame.WellFormed tables)
    (hshort : shortClassName frame.qualified = []) :
    matchStart (frameSummary tables) frame.summary = none := by
  apply matchStart_eq_none means_frameSummary
  intro taken rest found htext hlanguage
  exact (exists_reading hframe htext hlanguage).1 hshort

theorem strip_summary {frame : PrintedFrame} (hframe : frame.WellFormed tables) :
    strip frame.summary = frame.summary := by
  apply stripBy_eq_self
  · have hname : ∀ c ∈ shortClassName frame.qualified, isSpace c = false := by
      intro c hc
      rw [Bool.eq_false_iff]
      intro hspace
      have hnot := not_isNameChar_of_isSpace tables hspace
      rw [isNameChar, isQualifiedChar_of_mem_short hframe c hc] at hnot
      exact absurd hnot (by simp)
    intro c hc
    rw [frame.summary_eq] at hc
    cases hshort : shortClassName frame.qualified with
    | nil =>
      rw [hshort] at hc
      rw [← Option.some.inj hc]
      decide
    | cons d rest =>
      rw [hshort] at hc
      rw [← Option.some.inj hc]
      exact hname d (hshort ▸ List.mem_cons_self)
  · intro c hc
    have hlast : frame.summary = (shortClassName frame.qualified ++
        dot :: (frame.method ++ spaceChar :: openParen :: frame.location)) ++ [closeParen] := by
      rw [frame.summary_eq, printedLocation]
      simp
    rw [hlast, List.getLast?_concat] at hc
    rw [← Option.some.inj hc]
    decide

theorem summary_ne_nil (frame : PrintedFrame) : frame.summary ≠ [] := by
  rw [frame.summary_eq]
  simp

theorem parse_summary {frame : PrintedFrame} (hframe : frame.WellFormed tables)
    (hshort : shortClassName frame.qualified ≠ []) {located : List PyStr}
    (hlocation : LocationReading tables (printedLocation frame.location) located) :
    parseCallChainFrame tables frame.summary =
      (parsedFrame tables frame.summary (shortClassName frame.qualified) frame.method
        located).map some := by
  rw [parseCallChainFrame, strip_summary hframe, if_neg (summary_ne_nil frame),
    matchStart_summary hframe hshort hlocation]

theorem parse_summary_of_nil {frame : PrintedFrame} (hframe : frame.WellFormed tables)
    (hshort : shortClassName frame.qualified = []) :
    parseCallChainFrame tables frame.summary = .ok none := by
  rw [parseCallChainFrame, strip_summary hframe, if_neg (summary_ne_nil frame),
    matchStart_summary_of_nil hframe hshort]

/-! ## What is handed over -/

def nativeMethodText : PyStr := py "Native Method"
def unknownSourceText : PyStr := py "Unknown Source"

/-- A file name as a frame prints it. -/
structure IsFileName (name : PyStr) : Prop where
  ne_nil : name ≠ []
  stripped : strip name = name
  plain : ∀ c ∈ name, c ≠ colonChar ∧ c ≠ closeParen
  not_native : name ≠ nativeMethodText
  not_unknown : name ≠ unknownSourceText

/-- The locations that a Java stack trace prints. -/
inductive Location where
  | file (name : PyStr)
  | fileLine (name digits : PyStr)
  | nativeMethod
  | unknownSource

namespace Location

def text : Location → PyStr
  | file name => name
  | fileLine name digits => name ++ colonChar :: digits
  | nativeMethod => nativeMethodText
  | unknownSource => unknownSourceText

def Valid (tables : WordTables) : Location → Prop
  | file name => IsFileName name
  | fileLine name digits => IsFileName name ∧ digits ≠ [] ∧ ∀ c ∈ digits, tables.isDecimal c = true
  | _ => True

/-- The line, where zero stands for none. -/
def line (tables : WordTables) : Location → ℕ
  | fileLine _ digits => digits.foldl (fun value c => value * 10 + tables.valueOf c) 0
  | _ => 0

/-- The printed file, or the file of the class. -/
def sourceFile (shortName : PyStr) : Location → PyStr
  | file name => name
  | fileLine name _ => name
  | _ => shortName ++ py ".java"

/-- The class has a name, the location names a file, and the interpreter can convert
the line. -/
def Survives (shortName : PyStr) : Location → Prop
  | file _ => shortName ≠ []
  | fileLine _ digits => shortName ≠ [] ∧ digits.length ≤ 4300
  | _ => False

end Location

/-- The frame is read back with its class, its method, its line and its file. -/
def HandedOver (tables : WordTables) (frame : PrintedFrame) (location : Location) : Prop :=
  ∃ parsed, parseCallChainFrame tables frame.summary = .ok (some parsed) ∧
    parsed.className = shortClassName frame.qualified ∧ parsed.methodName = frame.method ∧
    parsed.line = location.line tables ∧
    parsed.filePath = location.sourceFile (shortClassName frame.qualified)

theorem LocationReading.of_name {name : PyStr} (hne : name ≠ [])
    (hname : ∀ c ∈ name, c ≠ colonChar ∧ c ≠ closeParen) :
    LocationReading tables (printedLocation name) [name] :=
  @LocationReading.file _ [spaceChar] _ ⟨by simp, by simpa using isSpace_spaceChar⟩
    ⟨hne, hname⟩

/-- The location of a file, read back. -/
theorem parse_of_name {frame : PrintedFrame} (hframe : frame.WellFormed tables)
    (hshort : shortClassName frame.qualified ≠ []) (hne : frame.location ≠ [])
    (hstripped : strip frame.location = frame.location)
    (hname : ∀ c ∈ frame.location, c ≠ colonChar ∧ c ≠ closeParen) :
    parseCallChainFrame tables frame.summary =
      .ok (some ⟨shortClassName frame.qualified, frame.method, frame.location, 0,
        frame.summary⟩) := by
  rw [parse_summary hframe hshort (LocationReading.of_name hne hname), parsedFrame, hstripped]
  simp only [if_neg hne]
  rfl

/-- Native methods and unknown sources name no file, and what is read is their text. -/
theorem not_handedOver_of_text {frame : PrintedFrame} (hframe : frame.WellFormed tables)
    {location : Location} (htext : frame.location = location.text)
    (hunnamed : location = .nativeMethod ∨ location = .unknownSource) :
    ¬HandedOver tables frame location := by
  rintro ⟨parsed, hparse, _, _, _, hfile⟩
  by_cases hshort : shortClassName frame.qualified = []
  · rw [parse_summary_of_nil hframe hshort] at hparse
    exact absurd hparse (by simp)
  · have hsource : location.sourceFile (shortClassName frame.qualified) =
        shortClassName frame.qualified ++ py ".java" := by
      obtain rfl | rfl := hunnamed <;> rfl
    have hplain : frame.location ≠ [] ∧ strip frame.location = frame.location ∧
        (frame.location.all fun c => c ≠ colonChar ∧ c ≠ closeParen) = true ∧
          frame.location.getLast? ≠ (py ".java").getLast? := by
      obtain rfl | rfl := hunnamed <;> rw [htext] <;> decide
    rw [parse_of_name hframe hshort hplain.1 hplain.2.1
      fun c hc => of_decide_eq_true (List.all_eq_true.mp hplain.2.2.1 c hc)] at hparse
    rw [← Option.some.inj (Except.ok.inj hparse), hsource] at hfile
    apply hplain.2.2.2
    change frame.location = _ at hfile
    rw [hfile, List.getLast?_append_of_ne_nil _ (by decide)]

theorem handedOver_iff {frame : PrintedFrame} (hframe : frame.WellFormed tables)
    {location : Location} (hvalid : location.Valid tables) (htext : frame.location = location.text) :
    HandedOver tables frame location ↔ location.Survives (shortClassName frame.qualified) := by
  have hnamed : HandedOver tables frame location → shortClassName frame.qualified ≠ [] := by
    rintro ⟨parsed, hparse, _⟩ hshort
    rw [parse_summary_of_nil hframe hshort] at hparse
    exact absurd hparse (by simp)
  cases location with
  | file name =>
    constructor
    · exact hnamed
    · intro hshort
      have hname : frame.location = name := htext
      refine ⟨_, parse_of_name hframe hshort (hname ▸ hvalid.ne_nil) (hname ▸ hvalid.stripped)
        (hname ▸ hvalid.plain), rfl, rfl, rfl, hname⟩
  | fileLine name digits =>
    have hreading : LocationReading tables (printedLocation frame.location) [name, digits] := by
      have hreading := @LocationReading.fileLine _ [spaceChar] _ _
        ⟨by simp, by simpa using isSpace_spaceChar⟩ ⟨hvalid.1.ne_nil, hvalid.1.plain⟩ hvalid.2
      rw [htext]
      simpa [printedLocation, Location.text] using hreading
    have hparsed : ∀ hshort : shortClassName frame.qualified ≠ [],
        parseCallChainFrame tables frame.summary =
          (intOfDigits tables digits).map fun line =>
            some ⟨shortClassName frame.qualified, frame.method, name, line, frame.summary⟩ := by
      intro hshort
      rw [parse_summary hframe hshort hreading, parsedFrame, hvalid.1.stripped]
      simp only [if_neg hvalid.1.ne_nil, List.head?_cons]
      cases intOfDigits tables digits <;> rfl
    constructor
    · intro hhanded
      have hshort := hnamed hhanded
      refine ⟨hshort, ?_⟩
      obtain ⟨parsed, hparse, _⟩ := hhanded
      rw [hparsed hshort, intOfDigits] at hparse
      by_contra hlong
      rw [if_neg hlong] at hparse
      exact absurd hparse (by simp [Except.map])
    · rintro ⟨hshort, hfits⟩
      refine ⟨⟨shortClassName frame.qualified, frame.method, name,
        Location.line tables (.fileLine name digits), frame.summary⟩, ?_, rfl, rfl, rfl, rfl⟩
      rw [hparsed hshort, intOfDigits, if_pos hfits]
      rfl
  | nativeMethod => exact iff_of_false (not_handedOver_of_text hframe htext (Or.inl rfl)) id
  | unknownSource => exact iff_of_false (not_handedOver_of_text hframe htext (Or.inr rfl)) id

end Reading

/-! ## Which frames are returned -/

theorem collectFrames_eq {maxFrames : ℤ} {frames : List PyStr}
    (hroom : frames = [] ∨ frames.length < maxFrames) (later : List PyStr) :
    collectFrames maxFrames frames later =
      (later.foldl Dict.addKey frames).take (max 1 maxFrames).toNat := by
  induction later generalizing frames with
  | nil =>
    rw [collectFrames, List.foldl_nil, List.take_of_length_le]
    cases hroom with
    | inl hnil => simp [hnil]
    | inr hless => omega
  | cons frame later ih =>
    rw [collectFrames, List.foldl_cons, Dict.addKey]
    by_cases hmem : frame ∈ frames
    · rw [if_pos hmem, if_pos hmem, ih hroom]
    · rw [if_neg hmem, if_neg hmem]
      split
      · next hfull =>
        obtain ⟨added, hadded⟩ := Dict.exists_foldl_addKey (frames ++ [frame]) later
        have hlength : (max 1 maxFrames).toNat = (frames ++ [frame]).length := by
          rw [List.length_append, List.length_singleton] at hfull ⊢
          cases hroom with
          | inl hnil =>
            rw [hnil, List.length_nil] at hfull ⊢
            omega
          | inr hless => omega
        rw [hadded, hlength, List.take_left]
      · next hmore => exact ih (Or.inr (not_le.mp hmore))

section Returned

variable (tables : WordTables)

/-- The application frames of a log text, those of the innermost cause first. -/
def orderedFrames (text : PyStr) : List PrintedFrame :=
  (causeBlocks text).reverse.flatMap (applicationFrames tables)

/-- The first summaries without repetitions, at least one. -/
def firstSummaries (maxFrames : ℤ) (frames : List PrintedFrame) : List PyStr :=
  ((frames.map PrintedFrame.summary).foldl Dict.addKey []).take (max 1 maxFrames).toNat

theorem orderedBlocks_eq (text : PyStr) : orderedBlocks text = (causeBlocks text).reverse := by
  unfold orderedBlocks
  split
  · rfl
  · next hfew =>
    cases hblocks : causeBlocks text with
    | nil => rfl
    | cons block rest =>
      rw [hblocks, List.length_cons] at hfew
      have hrest : rest = [] := List.length_eq_zero_iff.mp (by omega)
      rw [hrest]
      rfl

theorem foldl_addKey_blocks (frames : List PyStr) (blocks : List PyStr) :
    (blocks.flatMap (framesFromText tables)).foldl Dict.addKey frames =
      ((blocks.flatMap (applicationFrames tables)).map PrintedFrame.summary).foldl
        Dict.addKey frames := by
  induction blocks generalizing frames with
  | nil => rfl
  | cons block blocks ih =>
    rw [List.flatMap_cons, List.flatMap_cons, List.map_append, List.foldl_append,
      List.foldl_append, ih, framesFromText, Dict.foldl_addKey_firsts]

/-- What `extract_call_chain_summary` returns. -/
theorem extractCallChainSummary_eq (std : Stdlib) (text : PyStr) (maxFrames : ℤ) :
    extractCallChainSummary tables std text maxFrames =
      firstSummaries maxFrames (orderedFrames tables (unwrapEmbeddedLogText std (.str text))) := by
  have hcollect : ∀ unwrapped : PyStr,
      collectFrames maxFrames [] ((orderedBlocks unwrapped).flatMap (framesFromText tables)) =
        firstSummaries maxFrames (orderedFrames tables unwrapped) := by
    intro unwrapped
    rw [collectFrames_eq (Or.inl rfl), orderedBlocks_eq, foldl_addKey_blocks]
    rfl
  rw [extractCallChainSummary]
  by_cases hempty : unwrapEmbeddedLogText std (.str text) = []
  · rw [hempty, ← hcollect, if_pos rfl]
    rfl
  · simp only [if_neg hempty, hcollect]

variable {tables}

theorem mem_firstSummaries {maxFrames : ℤ} {frames : List PrintedFrame} {summary : PyStr}
    (hmem : summary ∈ firstSummaries maxFrames frames) :
    ∃ frame ∈ frames, frame.summary = summary := by
  have hall := List.mem_of_mem_take hmem
  exact List.mem_map.mp ((Dict.mem_foldl_addKey.mp hall).resolve_left List.not_mem_nil)

theorem nodup_firstSummaries (maxFrames : ℤ) (frames : List PrintedFrame) :
    (firstSummaries maxFrames frames).Nodup :=
  (List.take_sublist _ _).nodup (Dict.nodup_foldl_addKey List.nodup_nil _)

/-- There is room for the frames, but one is returned in any case. -/
theorem length_firstSummaries_le_iff {maxFrames : ℤ} {frames : List PrintedFrame} :
    ((firstSummaries maxFrames frames).length : ℤ) ≤ maxFrames ↔
      1 ≤ maxFrames ∨ maxFrames = 0 ∧ frames = [] := by
  constructor
  · intro hle
    cases frames with
    | nil => rcases Int.lt_or_le maxFrames 1 with hless | hmore
             · exact Or.inr ⟨by simp [firstSummaries] at hle; omega, rfl⟩
             · exact Or.inl hmore
    | cons frame frames =>
      obtain ⟨added, hadded⟩ := Dict.exists_foldl_addKey [frame.summary]
        (frames.map PrintedFrame.summary)
      have hfirst : ((frame :: frames).map PrintedFrame.summary).foldl Dict.addKey [] =
          [frame.summary] ++ added := hadded
      rw [firstSummaries, hfirst, List.length_take, List.length_append,
        List.length_singleton] at hle
      omega
  · rintro (hmore | ⟨rfl, rfl⟩)
    · have hlength := List.length_take_le (max 1 maxFrames).toNat
        ((frames.map PrintedFrame.summary).foldl Dict.addKey [])
      rw [firstSummaries]
      omega
    · simp [firstSummaries]

end Returned

/-! ## Where the frames are printed -/

theorem infix_of_mem_splitBefore {marker current text block : PyStr}
    (hblock : block ∈ splitBefore marker current text) : block <:+: current ++ text := by
  induction text generalizing current with
  | nil => rw [List.mem_singleton.mp hblock, List.append_nil]
  | cons c rest ih =>
    rw [splitBefore] at hblock
    split at hblock
    · cases List.mem_cons.mp hblock with
      | inl hfirst => exact ⟨[], c :: rest, by rw [hfirst]; rfl⟩
      | inr hlater => exact (ih hlater).trans ⟨current, [], by simp⟩
    · exact (ih hblock).trans ⟨[], [], by simp⟩

theorem infix_of_mem_splitBreaks {line text part : PyStr} (hpart : part ∈ splitBreaks line text) :
    part <:+: line ++ text := by
  induction text generalizing line with
  | nil =>
    rw [splitBreaks] at hpart
    split at hpart
    · exact absurd hpart List.not_mem_nil
    · rw [List.mem_singleton.mp hpart, List.append_nil]
  | cons c rest ih =>
    rw [splitBreaks] at hpart
    split at hpart
    · cases List.mem_cons.mp hpart with
      | inl hfirst => exact ⟨[], c :: rest, by rw [hfirst]; rfl⟩
      | inr hlater => exact (ih hlater).trans ⟨line ++ [c], [], by simp⟩
    · exact (ih hpart).trans ⟨[], [], by simp⟩

/-- Joining breaks changes nothing between them. -/
theorem prefix_of_joinBreaks {line text : PyStr} (hline : OnOneLine line)
    (hstart : line <+: joinBreaks text) : line <+: text := by
  induction text generalizing line with
  | nil => exact hstart
  | cons c rest ih =>
    cases line with
    | nil => exact List.nil_prefix
    | cons d line =>
      rw [joinBreaks] at hstart
      split at hstart
      · next hpair =>
        have hfeed := ih hline hstart
        cases rest with
        | nil => exact absurd hpair.2 (by simp)
        | cons e rest =>
          have hd : d = CodePoint.ofChar '\n' :=
            (List.cons_prefix_cons.mp hfeed).1.trans (Option.some.inj hpair.2)
          have hbreak := hline d List.mem_cons_self
          rw [hd] at hbreak
          exact absurd hbreak (by decide)
      · obtain ⟨hd, hrest⟩ := List.cons_prefix_cons.mp hstart
        exact List.cons_prefix_cons.mpr
          ⟨hd, ih (fun e he => hline e (List.mem_cons_of_mem d he)) hrest⟩

theorem infix_of_joinBreaks {line text : PyStr} (hline : OnOneLine line)
    (hwithin : line <:+: joinBreaks text) : line <:+: text := by
  induction text with
  | nil => exact hwithin
  | cons c rest ih =>
    rw [joinBreaks] at hwithin
    split at hwithin
    · exact (ih hwithin).trans ⟨[c], [], by simp⟩
    · next hpair =>
      cases List.infix_cons_iff.mp hwithin with
      | inl hstart =>
        have hwhole : line <+: joinBreaks (c :: rest) := by
          rw [joinBreaks, if_neg hpair]
          exact hstart
        exact (prefix_of_joinBreaks hline hwhole).isInfix
      | inr hlater => exact (ih hlater).trans ⟨[c], [], by simp⟩

theorem infix_of_mem_splitLines {text line : PyStr} (hline : line ∈ splitLines text) :
    line <:+: text :=
  infix_of_joinBreaks (onOneLine_of_mem_splitLines hline) (infix_of_mem_splitBreaks hline)

theorem exists_line_of_mem {tables : WordTables} {text : PyStr} {frame : PrintedFrame}
    (hframe : frame ∈ orderedFrames tables text) :
    ∃ line, line <:+: text ∧ readFrameLine tables line = some frame := by
  obtain ⟨block, hblock, hmem⟩ := List.mem_flatMap.mp hframe
  obtain ⟨line, hline, hread⟩ := List.mem_filterMap.mp (List.mem_of_mem_filter hmem)
  have hpiece := List.mem_of_mem_filter (List.mem_reverse.mp hblock)
  exact ⟨line, (infix_of_mem_splitLines hline).trans (infix_of_mem_splitBefore hpiece), hread⟩

/-! ## The hand-over -/

/-- What the readers of a call chain rely on. -/
structure CallChainContract (tables : WordTables) (text : PyStr) (maxFrames : ℤ)
    (chain : List PyStr) : Prop where
  accepted : ∀ frame ∈ orderedFrames tables text, frame.summary ∈ chain → ∀ location : Location,
    location.Valid tables → frame.location = location.text → HandedOver tables frame location
  distinct : chain.Nodup
  bounded : (chain.length : ℤ) ≤ maxFrames
  printed : ∀ summary ∈ chain, ∃ line frame, line <:+: text ∧
    readFrameLine tables line = some frame ∧ frame.summary = summary
  innermost : ∀ block ∈ (causeBlocks text).getLast?, ∃ others,
    chain = (framesFromText tables block ++ others).take (max 1 maxFrames).toNat

theorem exists_innermost (tables : WordTables) {text block : PyStr} (maxFrames : ℤ)
    (hblock : (causeBlocks text).getLast? = some block) :
    ∃ others, firstSummaries maxFrames (orderedFrames tables text) =
      (framesFromText tables block ++ others).take (max 1 maxFrames).toNat := by
  obtain ⟨before, hbefore⟩ := List.getLast?_eq_some_iff.mp hblock
  have hframes : orderedFrames tables text = applicationFrames tables block ++
      before.reverse.flatMap (applicationFrames tables) := by
    rw [orderedFrames, hbefore, List.reverse_append]
    rfl
  obtain ⟨others, hothers⟩ := Dict.exists_foldl_addKey (framesFromText tables block)
    ((before.reverse.flatMap (applicationFrames tables)).map PrintedFrame.summary)
  refine ⟨others, ?_⟩
  rw [firstSummaries, hframes, List.map_append, List.foldl_append, ← hothers]
  rfl

/-- The contract holds exactly if there is room for a frame and every frame returned
has a named class, a location that names a file and a line that can be converted. -/
theorem callChainContract_iff (tables : WordTables) (std : Stdlib) (log : PyStr) (maxFrames : ℤ) :
    CallChainContract tables (unwrapEmbeddedLogText std (.str log)) maxFrames
        (extractCallChainSummary tables std log maxFrames) ↔
      (1 ≤ maxFrames ∨
        maxFrames = 0 ∧ orderedFrames tables (unwrapEmbeddedLogText std (.str log)) = []) ∧
      ∀ frame ∈ orderedFrames tables (unwrapEmbeddedLogText std (.str log)),
        frame.summary ∈ firstSummaries maxFrames
            (orderedFrames tables (unwrapEmbeddedLogText std (.str log))) →
          ∀ location : Location, location.Valid tables → frame.location = location.text →
            location.Survives (shortClassName frame.qualified) := by
  have hwell : ∀ {text : PyStr}, ∀ frame ∈ orderedFrames tables text, frame.WellFormed tables := by
    intro text frame hframe
    obtain ⟨_, _, hread⟩ := exists_line_of_mem hframe
    exact wellFormed_of_readFrameLine hread
  rw [extractCallChainSummary_eq]
  constructor
  · intro hcontract
    refine ⟨length_firstSummaries_le_iff.mp hcontract.bounded, ?_⟩
    intro frame hframe hchosen location hvalid htext
    exact (handedOver_iff (hwell frame hframe) hvalid htext).mp
      (hcontract.accepted frame hframe hchosen location hvalid htext)
  · rintro ⟨hroom, hgood⟩
    refine ⟨?_, nodup_firstSummaries _ _, length_firstSummaries_le_iff.mpr hroom, ?_, ?_⟩
    · intro frame hframe hchosen location hvalid htext
      exact (handedOver_iff (hwell frame hframe) hvalid htext).mpr
        (hgood frame hframe hchosen location hvalid htext)
    · intro summary hsummary
      obtain ⟨frame, hframe, heq⟩ := mem_firstSummaries hsummary
      obtain ⟨line, hline, hread⟩ := exists_line_of_mem hframe
      exact ⟨line, frame, hline, hread, heq⟩
    · intro block hblock
      exact exists_innermost tables maxFrames hblock

/-- Tables under which only ASCII has word characters and digits. -/
def asciiTables : WordTables where
  wordChar _ := false
  digitValue _ := none
  not_space _ _ hword := absurd hword (by simp)

/-- A native method is handed over with its location as its file. -/
theorem native_method_is_a_file :
    ¬CallChainContract asciiTables
      (unwrapEmbeddedLogText asciiStdlib (.str (py "at a.B.c(Native Method)"))) 12
      (extractCallChainSummary asciiTables asciiStdlib (py "at a.B.c(Native Method)") 12) := by
  intro hcontract
  have hread : readFrameLine asciiTables (py "at a.B.c(Native Method)") =
      some ⟨py "a.B", py "c", nativeMethodText⟩ := by decide +kernel
  exact not_handedOver_of_text (wellFormed_of_readFrameLine hread) rfl (Or.inl rfl)
    (hcontract.accepted _ (by decide +kernel) (by decide +kernel) .nativeMethod trivial rfl)

end RootSeeker.Analysis
