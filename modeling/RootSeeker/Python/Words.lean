import RootSeeker.Core.Framing
import RootSeeker.Python.Text

/-!
# Words of a text

`text.split()`, the runs of a class of characters that `re.findall` finds, and
how often a text occurs in words that are joined with spaces.
-/

namespace RootSeeker.Python

def spaceChar : CodePoint := CodePoint.ofChar ' '

/-- The longest stretches of characters of a class. -/
def runs (inside : CodePoint → Bool) (text : PyStr) : List PyStr :=
  (text.splitOnP (!inside ·)).filter fun run => run ≠ []

/-- `text.split()`. -/
def splitSpaces (text : PyStr) : List PyStr :=
  (text.splitOnP isSpace).filter fun word => word ≠ []

/-- `" ".join(text.split())`. -/
def squeeze (text : PyStr) : PyStr :=
  join [spaceChar] (splitSpaces text)

/-- A text that is not empty and has no white space. -/
def IsWord (word : PyStr) : Prop :=
  word ≠ [] ∧ ∀ c ∈ word, isSpace c = false

/-- Words with single spaces between them. -/
def IsSqueezed (text : PyStr) : Prop :=
  ∃ words, text = join [spaceChar] words ∧ ∀ word ∈ words, IsWord word

/-! ## Cutting at the characters of a class -/

section Pieces

variable {cut : CodePoint → Bool}

theorem exists_splitOnP_eq (cut : CodePoint → Bool) (text : PyStr) :
    ∃ head tail, text.splitOnP cut = head :: tail := by
  cases hsplit : text.splitOnP cut with
  | nil => exact absurd hsplit (List.splitOnP_ne_nil cut text)
  | cons head tail => exact ⟨head, tail, rfl⟩

theorem splitOnP_append_of_forall {front : PyStr} (hfront : ∀ c ∈ front, cut c = false)
    {text head : PyStr} {tail : List PyStr} (hsplit : text.splitOnP cut = head :: tail) :
    (front ++ text).splitOnP cut = (front ++ head) :: tail := by
  induction front with
  | nil => exact hsplit
  | cons c front ih =>
    have hrest := ih fun d hd => hfront d (List.mem_cons_of_mem c hd)
    rw [List.cons_append, List.splitOnP_cons_eq_if_modifyHead,
      if_neg (by rw [hfront c List.mem_cons_self]; decide), hrest]
    rfl

/-- A text inside without such characters lies in one piece. -/
theorem exists_piece_around {inner text : PyStr} (hinner : ∀ c ∈ inner, cut c = false)
    (hwithin : inner <:+: text) : ∃ piece ∈ text.splitOnP cut, inner <:+: piece := by
  obtain ⟨front, back, rfl⟩ := hwithin
  rw [List.append_assoc]
  induction front with
  | nil =>
    obtain ⟨head, tail, hsplit⟩ := exists_splitOnP_eq cut back
    rw [List.nil_append, splitOnP_append_of_forall hinner hsplit]
    exact ⟨inner ++ head, List.mem_cons_self, [], head, rfl⟩
  | cons c front ih =>
    obtain ⟨piece, hpiece, hwithin⟩ := ih
    rw [List.cons_append, List.splitOnP_cons_eq_if_modifyHead]
    split
    · exact ⟨piece, List.mem_cons_of_mem _ hpiece, hwithin⟩
    · obtain ⟨head, tail, hsplit⟩ := exists_splitOnP_eq cut (front ++ (inner ++ back))
      rw [hsplit] at hpiece ⊢
      cases List.mem_cons.mp hpiece with
      | inl heq =>
        exact ⟨c :: head, List.mem_cons_self, heq ▸ hwithin.trans (List.suffix_cons c _).isInfix⟩
      | inr hlater => exact ⟨piece, List.mem_cons_of_mem _ hlater, hwithin⟩

theorem pieces_of_splitOnP {text head : PyStr} {tail : List PyStr}
    (hsplit : text.splitOnP cut = head :: tail) :
    head <+: text ∧ (∀ c ∈ head, cut c = false) ∧
      ∀ piece ∈ tail, piece <:+: text ∧ ∀ c ∈ piece, cut c = false := by
  induction text generalizing head tail with
  | nil =>
    rw [List.splitOnP_nil] at hsplit
    obtain ⟨rfl, rfl⟩ := List.cons.inj hsplit
    exact ⟨List.nil_prefix, fun _ hc => absurd hc List.not_mem_nil,
      fun _ hpiece => absurd hpiece List.not_mem_nil⟩
  | cons c rest ih =>
    obtain ⟨first, others, hrest⟩ := exists_splitOnP_eq cut rest
    obtain ⟨hbegins, hfirst, hothers⟩ := ih hrest
    have hlater : ∀ piece ∈ others, piece <:+: c :: rest ∧ ∀ d ∈ piece, cut d = false :=
      fun piece hpiece =>
        ⟨(hothers piece hpiece).1.trans (List.suffix_cons c rest).isInfix, (hothers piece hpiece).2⟩
    rw [List.splitOnP_cons_eq_if_modifyHead, hrest] at hsplit
    split at hsplit
    · obtain ⟨rfl, rfl⟩ := List.cons.inj hsplit
      refine ⟨List.nil_prefix, fun _ hd => absurd hd List.not_mem_nil, ?_⟩
      rw [List.forall_mem_cons]
      exact ⟨⟨hbegins.isInfix.trans (List.suffix_cons c rest).isInfix, hfirst⟩, hlater⟩
    · next hkept =>
      obtain ⟨rfl, rfl⟩ := List.cons.inj hsplit
      refine ⟨List.cons_prefix_cons.mpr ⟨rfl, hbegins⟩, ?_, hlater⟩
      rw [List.forall_mem_cons]
      exact ⟨Bool.eq_false_of_not_eq_true hkept, hfirst⟩

theorem infix_of_mem_splitOnP {text piece : PyStr} (hpiece : piece ∈ text.splitOnP cut) :
    piece <:+: text ∧ ∀ c ∈ piece, cut c = false := by
  obtain ⟨head, tail, hsplit⟩ := exists_splitOnP_eq cut text
  obtain ⟨hbegins, hhead, htail⟩ := pieces_of_splitOnP hsplit
  rw [hsplit] at hpiece
  cases List.mem_cons.mp hpiece with
  | inl heq => exact heq ▸ ⟨hbegins.isInfix, hhead⟩
  | inr hlater => exact htail piece hlater

end Pieces

theorem infix_of_mem_runs {inside : CodePoint → Bool} {text run : PyStr}
    (hrun : run ∈ runs inside text) : run ≠ [] ∧ run <:+: text ∧ ∀ c ∈ run, inside c = true := by
  obtain ⟨hmem, hne⟩ := List.mem_filter.mp hrun
  obtain ⟨hwithin, hinside⟩ := infix_of_mem_splitOnP hmem
  exact ⟨of_decide_eq_true hne, hwithin, fun c hc => by simpa using hinside c hc⟩

/-- A text inside of such characters lies in one run. -/
theorem exists_run_of_infix {inside : CodePoint → Bool} {inner text : PyStr} (hne : inner ≠ [])
    (hinner : ∀ c ∈ inner, inside c = true) (hwithin : inner <:+: text) :
    ∃ run ∈ runs inside text, inner <:+: run := by
  obtain ⟨piece, hpiece, hmem⟩ := @exists_piece_around (!inside ·) _ _
    (fun c hc => by rw [hinner c hc]; rfl) hwithin
  refine ⟨piece, List.mem_filter.mpr ⟨hpiece, decide_eq_true ?_⟩, hmem⟩
  rintro rfl
  exact hne (List.infix_nil.mp hmem)

/-! ## Words with single spaces -/

theorem isWord_of_mem_splitSpaces {text word : PyStr} (hword : word ∈ splitSpaces text) :
    IsWord word ∧ word <:+: text := by
  obtain ⟨hmem, hne⟩ := List.mem_filter.mp hword
  obtain ⟨hwithin, hword⟩ := infix_of_mem_splitOnP hmem
  exact ⟨⟨of_decide_eq_true hne, hword⟩, hwithin⟩

theorem isSqueezed_squeeze (text : PyStr) : IsSqueezed (squeeze text) :=
  ⟨splitSpaces text, rfl, fun _ hword => (isWord_of_mem_splitSpaces hword).1⟩

theorem join_cons_cons (separator first second : PyStr) (rest : List PyStr) :
    join separator (first :: second :: rest) =
      first ++ (separator ++ join separator (second :: rest)) := by
  simp [join, List.intercalate]

theorem join_singleton (separator only : PyStr) : join separator [only] = only := by
  simp [join, List.intercalate]

theorem mem_of_mem_join {separator : PyStr} {parts : List PyStr} {c : CodePoint}
    (hc : c ∈ join separator parts) : c ∈ separator ∨ ∃ part ∈ parts, c ∈ part := by
  induction parts with
  | nil => exact absurd hc List.not_mem_nil
  | cons first rest ih =>
    cases rest with
    | nil =>
      rw [join_singleton] at hc
      exact .inr ⟨first, List.mem_cons_self, hc⟩
    | cons second rest =>
      rw [join_cons_cons, List.mem_append, List.mem_append] at hc
      rcases hc with hfirst | hseparator | hlater
      · exact .inr ⟨first, List.mem_cons_self, hfirst⟩
      · exact .inl hseparator
      · rcases ih hlater with hseparator | ⟨part, hpart, hc⟩
        · exact .inl hseparator
        · exact .inr ⟨part, List.mem_cons_of_mem _ hpart, hc⟩

theorem isSpace_spaceChar : isSpace spaceChar = true := by decide

theorem splitSpaces_join {words : List PyStr} (hwords : ∀ word ∈ words, IsWord word) :
    splitSpaces (join [spaceChar] words) = words := by
  induction words with
  | nil => rfl
  | cons first rest ih =>
    obtain ⟨⟨hne, hfirst⟩, hrest⟩ := List.forall_mem_cons.mp hwords
    have hkept (words : List PyStr) : (first :: words).filter (fun word => word ≠ []) =
        first :: words.filter fun word => word ≠ [] :=
      List.filter_cons_of_pos (decide_eq_true hne)
    cases rest with
    | nil =>
      rw [join_singleton, splitSpaces, List.splitOnP_eq_singleton hfirst, hkept, List.filter_nil]
    | cons second rest =>
      have hlater := ih hrest
      rw [splitSpaces] at hlater
      rw [join_cons_cons, splitSpaces, List.singleton_append,
        List.splitOnP_append_cons_of_forall_mem hfirst spaceChar isSpace_spaceChar, hkept,
        hlater]

theorem splitSpaces_append {space : CodePoint} (hspace : isSpace space = true) (left right : PyStr) :
    splitSpaces (left ++ space :: right) = splitSpaces left ++ splitSpaces right := by
  rw [splitSpaces, List.splitOnP_append_cons left right hspace, List.filter_append]
  rfl

theorem splitSpaces_of_isWord {word : PyStr} (hword : IsWord word) : splitSpaces word = [word] := by
  have hjoin := @splitSpaces_join [word] (by simpa using hword)
  rwa [join_singleton] at hjoin

theorem squeeze_of_isSqueezed {text : PyStr} (htext : IsSqueezed text) : squeeze text = text := by
  obtain ⟨words, rfl, hwords⟩ := htext
  rw [squeeze, splitSpaces_join hwords]

theorem isSqueezed_of_isWord {word : PyStr} (hword : IsWord word) : IsSqueezed word :=
  ⟨[word], (join_singleton _ _).symm, fun _ hother => List.mem_singleton.mp hother ▸ hword⟩

theorem join_append {separator : PyStr} {left right : List PyStr} (hleft : left ≠ [])
    (hright : right ≠ []) :
    join separator (left ++ right) = join separator left ++ (separator ++ join separator right) := by
  induction left with
  | nil => exact absurd rfl hleft
  | cons first rest ih =>
    cases rest with
    | nil =>
      obtain ⟨second, rest, rfl⟩ := List.exists_cons_of_ne_nil hright
      rw [List.singleton_append, join_cons_cons, join_singleton]
    | cons second rest =>
      have hrest := ih (List.cons_ne_nil second rest)
      rw [List.cons_append, List.cons_append, join_cons_cons, ← List.cons_append, hrest,
        join_cons_cons, List.append_assoc, List.append_assoc]

/-- Two texts of words with a space between them. -/
theorem IsSqueezed.append {left right : PyStr} (hleft : IsSqueezed left) (hleftNe : left ≠ [])
    (hright : IsSqueezed right) (hrightNe : right ≠ []) :
    IsSqueezed (left ++ spaceChar :: right) := by
  obtain ⟨leftWords, rfl, hleftWords⟩ := hleft
  obtain ⟨rightWords, rfl, hrightWords⟩ := hright
  have hne : ∀ {words : List PyStr}, join [spaceChar] words ≠ [] → words ≠ [] := by
    rintro words hjoin rfl
    exact hjoin rfl
  refine ⟨leftWords ++ rightWords, (join_append (hne hleftNe) (hne hrightNe)).symm, ?_⟩
  rw [List.forall_mem_append]
  exact ⟨hleftWords, hrightWords⟩

/-- Characters that are no white space can be put around a text of words. -/
theorem IsSqueezed.surround {text : PyStr} (htext : IsSqueezed text) (hne : text ≠ [])
    {first last : CodePoint} (hfirst : isSpace first = false) (hlast : isSpace last = false) :
    IsSqueezed (first :: (text ++ [last])) := by
  obtain ⟨words, rfl, hwords⟩ := htext
  have hback : IsSqueezed (join [spaceChar] words ++ [last]) ∧
      join [spaceChar] words ++ [last] ≠ [] := by
    refine ⟨?_, by simp⟩
    clear hne
    induction words with
    | nil => exact isSqueezed_of_isWord ⟨by simp [join], by simpa [join] using hlast⟩
    | cons word rest ih =>
      obtain ⟨hword, hrest⟩ := List.forall_mem_cons.mp hwords
      cases rest with
      | nil =>
        rw [join_singleton]
        apply isSqueezed_of_isWord
        refine ⟨by simp, ?_⟩
        rw [List.forall_mem_append]
        exact ⟨hword.2, by simpa using hlast⟩
      | cons second rest =>
        rw [join_cons_cons, List.append_assoc, List.append_assoc]
        exact (isSqueezed_of_isWord hword).append hword.1 (ih hrest) (by simp)
  obtain ⟨⟨others, heq, hothers⟩, hnonempty⟩ := hback
  rw [heq] at hnonempty ⊢
  cases others with
  | nil => exact absurd rfl hnonempty
  | cons word rest =>
    obtain ⟨hword, hrest⟩ := List.forall_mem_cons.mp hothers
    refine ⟨(first :: word) :: rest, ?_, ?_⟩
    · cases rest with
      | nil => rw [join_singleton, join_singleton]
      | cons second rest =>
        rw [join_cons_cons, join_cons_cons]
        rfl
    · rw [List.forall_mem_cons]
      refine ⟨⟨List.cons_ne_nil _ _, ?_⟩, hrest⟩
      rw [List.forall_mem_cons]
      exact ⟨hfirst, hword.2⟩

theorem plain_of_join {words : List PyStr} (hwords : ∀ word ∈ words, IsWord word) :
    (∀ c ∈ (join [spaceChar] words).head?, isSpace c = false) ∧
      ∀ c ∈ (join [spaceChar] words).getLast?, isSpace c = false := by
  induction words with
  | nil => simp [join]
  | cons first rest ih =>
    obtain ⟨⟨hne, hfirst⟩, hrest⟩ := List.forall_mem_cons.mp hwords
    cases rest with
    | nil =>
      rw [join_singleton]
      exact ⟨fun c hc => hfirst c (List.mem_of_head? hc),
        fun c hc => hfirst c (List.mem_of_getLast? hc)⟩
    | cons second rest =>
      obtain ⟨hsecond, -⟩ := List.forall_mem_cons.mp hrest
      have hlater : join [spaceChar] (second :: rest) ≠ [] := by
        rw [join, Framing.intercalate_cons]
        simp [hsecond.1]
      rw [join_cons_cons, List.head?_append_of_ne_nil _ hne, List.getLast?_append_of_ne_nil _
        (by simp), List.getLast?_append_of_ne_nil _ hlater]
      exact ⟨fun c hc => hfirst c (List.mem_of_head? hc), (ih hrest).2⟩

theorem strip_of_isSqueezed {text : PyStr} (htext : IsSqueezed text) : strip text = text := by
  obtain ⟨words, rfl, hwords⟩ := htext
  exact stripBy_eq_self (plain_of_join hwords).1 (plain_of_join hwords).2

theorem exists_join_append (words : List PyStr) (last : PyStr) :
    ∃ front, join [spaceChar] (words ++ [last]) = front ++ last := by
  cases words with
  | nil => exact ⟨[], join_singleton _ _⟩
  | cons first rest =>
    refine ⟨join [spaceChar] (first :: rest) ++ [spaceChar], ?_⟩
    rw [join_append (List.cons_ne_nil _ _) (List.cons_ne_nil _ _), join_singleton,
      List.append_assoc]

/-- A last character that is no white space stays the last one. -/
theorem exists_squeeze_concat (front : PyStr) {last : CodePoint} (hlast : isSpace last = false) :
    ∃ kept, squeeze (front ++ [last]) = kept ++ [last] := by
  have hword : IsWord (front.rtakeWhile (!isSpace ·) ++ [last]) := by
    refine ⟨by simp, ?_⟩
    intro c hc
    rcases List.mem_append.mp hc with hinside | hc
    · simpa using List.mem_rtakeWhile_imp hinside
    · exact List.mem_singleton.mp hc ▸ hlast
  have hwhole : front.rdropWhile (!isSpace ·) ++ (front.rtakeWhile (!isSpace ·) ++ [last]) =
      front ++ [last] := by
    rw [← List.append_assoc, List.rdropWhile_append_rtakeWhile]
  have hshape : ∃ words, splitSpaces (front ++ [last]) =
      words ++ [front.rtakeWhile (!isSpace ·) ++ [last]] := by
    by_cases hempty : front.rdropWhile (!isSpace ·) = []
    · refine ⟨[], ?_⟩
      rw [← hwhole, hempty, List.nil_append, splitSpaces_of_isWord hword, List.nil_append]
    · have hspace := List.rdropWhile_last_not (!isSpace ·) front hempty
      rw [Bool.not_eq_true', Bool.not_eq_false] at hspace
      refine ⟨splitSpaces (front.rdropWhile (!isSpace ·)).dropLast, ?_⟩
      rw [← hwhole]
      nth_rewrite 1 [← List.dropLast_append_getLast hempty]
      rw [List.append_assoc, List.singleton_append, splitSpaces_append hspace,
        splitSpaces_of_isWord hword]
  obtain ⟨words, hwords⟩ := hshape
  obtain ⟨kept, hkept⟩ := exists_join_append words (front.rtakeWhile (!isSpace ·) ++ [last])
  exact ⟨kept ++ front.rtakeWhile (!isSpace ·), by
    rw [squeeze, hwords, hkept, List.append_assoc]⟩

/-! ## Occurrences -/

/-- At how many places a text occurs in another one. -/
def occurrences (inner : PyStr) : PyStr → ℕ
  | [] => 0
  | c :: rest => (if inner <+: c :: rest then 1 else 0) + occurrences inner rest

theorem occurrences_eq_zero_iff {inner : PyStr} (hne : inner ≠ []) (text : PyStr) :
    occurrences inner text = 0 ↔ ¬inner <:+: text := by
  induction text with
  | nil => exact iff_of_true rfl fun hwithin => hne (List.infix_nil.mp hwithin)
  | cons c rest ih =>
    rw [occurrences, Nat.add_eq_zero_iff, ih, List.infix_cons_iff, not_or]
    apply and_congr_left'
    split <;> simp_all

/-- A text without the separator occurs on one side of it. -/
theorem occurrences_append {inner : PyStr} (hne : inner ≠ []) {separator : CodePoint}
    (hseparator : separator ∉ inner) (left right : PyStr) :
    occurrences inner (left ++ separator :: right) =
      occurrences inner left + occurrences inner right := by
  induction left with
  | nil =>
    have hstart : ¬inner <+: separator :: right := by
      obtain ⟨c, rest, rfl⟩ := List.exists_cons_of_ne_nil hne
      intro hstart
      exact hseparator ((List.cons_prefix_cons.mp hstart).1 ▸ List.mem_cons_self)
    exact congrArg (· + occurrences inner right) (if_neg hstart)
  | cons c rest ih =>
    have hsame : inner <+: c :: (rest ++ separator :: right) ↔ inner <+: c :: rest := by
      rw [← List.cons_append]
      constructor
      · intro hstart
        obtain ⟨back, hback⟩ := hstart
        rcases List.append_eq_append_iff.mp hback with ⟨more, hmore, -⟩ | ⟨more, hmore, hrest⟩
        · exact ⟨more, hmore.symm⟩
        · cases more with
          | nil => exact ⟨[], by rw [hmore, List.append_nil, List.append_nil]⟩
          | cons d more =>
            obtain ⟨rfl, -⟩ := List.cons.inj hrest
            exact absurd (hmore ▸ by simp) hseparator
      · exact fun hstart => hstart.trans (List.prefix_append _ _)
    simp only [List.cons_append, occurrences, hsame, ih, Nat.add_assoc]

theorem occurrences_join {inner : PyStr} (hne : inner ≠ []) {separator : CodePoint}
    (hseparator : separator ∉ inner) (words : List PyStr) :
    occurrences inner (join [separator] words) = (words.map (occurrences inner)).sum := by
  induction words with
  | nil => rfl
  | cons first rest ih =>
    cases rest with
    | nil => rw [join_singleton, List.map_singleton, List.sum_singleton]
    | cons second rest =>
      rw [join_cons_cons, List.singleton_append, occurrences_append hne hseparator, ih]
      exact List.sum_cons.symm

end RootSeeker.Python
