import RootSeeker.CodeIndex.SearchQuery

/-!
# Prepared queries

A query is squeezed, and the noise filters that are missing are added, before it
is sent.  Zoekt reads it as terms between spaces: quoted phrases, and regular
expressions, one of which spoils the whole query if it is malformed.
-/

namespace RootSeeker.External

open Python CodeIndex

def openParenthesis : CodePoint := CodePoint.ofChar '('

/-- `build_caller_search_query`. -/
def buildCallerSearchQuery (className : Option PyStr) (methodName : PyStr)
    (repo : Option PyStr) : PyStr :=
  let method := strip methodName
  if method = [] then []
  else
    let repoPart := (repo.filter (· ≠ [])).map (py "repo:" ++ ·)
    let classPart := className.filter (· ≠ [])
    join [spaceChar] (repoPart.toList ++ classPart.toList ++ [method ++ [openParenthesis]])

/-- `_prepare_zoekt_query`. -/
def prepareZoektQuery (query : PyStr) : PyStr :=
  let cleaned := squeeze query
  if cleaned = [] then cleaned
  else
    let missing := noiseFilters.filter fun filter => ¬filter <:+: cleaned
    if missing = [] then cleaned else cleaned ++ spaceChar :: join [spaceChar] missing

/-! ## Well-formed queries -/

/-- Parentheses and brackets are closed in the reverse of the order in which they open. -/
def closes : List CodePoint → PyStr → Bool
  | opened, [] => opened.isEmpty
  | opened, c :: rest =>
    if c = openParenthesis then closes (CodePoint.ofChar ')' :: opened) rest
    else if c = CodePoint.ofChar '[' then closes (CodePoint.ofChar ']' :: opened) rest
    else if c = CodePoint.ofChar ')' ∨ c = CodePoint.ofChar ']' then
      match opened with
      | expected :: opened => c = expected && closes opened rest
      | [] => false
    else closes opened rest

/-- An unquoted term. -/
structure IsPlainTerm (term : PyStr) : Prop where
  ne_nil : term ≠ []
  noSpace : spaceChar ∉ term
  noQuote : doubleQuote ∉ term
  balanced : closes [] term = true

def IsTerm (term : PyStr) : Prop :=
  (∃ phrase, term = quotedPhrase phrase ∧ doubleQuote ∉ phrase) ∨ IsPlainTerm term

/-- Terms with single spaces between them. -/
def IsQuery (query : PyStr) : Prop :=
  ∃ terms, terms ≠ [] ∧ query = join [spaceChar] terms ∧ ∀ term ∈ terms, IsTerm term

/-- The query is empty, or it is well formed and has every filter once; and preparing it again
changes nothing. -/
def GoodQuery (query : PyStr) : Prop :=
  (query = [] ∨ IsQuery query ∧ ∀ filter ∈ noiseFilters, occurrences filter query = 1) ∧
    prepareZoektQuery query = query

/-- Plain terms with a space after each. -/
def ArePlainTerms (text : PyStr) : Prop :=
  ∃ terms : List PyStr,
    text = terms.flatMap (· ++ [spaceChar]) ∧ ∀ term ∈ terms, IsPlainTerm term

/-- Quotes inside a phrase end it and, after a space and plain terms, start the next one. -/
inductive QuotesPair : PyStr → Prop where
  | last {phrase : PyStr} (hphrase : doubleQuote ∉ phrase) : QuotesPair phrase
  | more {phrase gap rest : PyStr} (hphrase : doubleQuote ∉ phrase) (hgap : ArePlainTerms gap)
      (hrest : QuotesPair rest) :
      QuotesPair (phrase ++ doubleQuote :: spaceChar :: (gap ++ doubleQuote :: rest))

/-- The whole first line becomes a phrase. -/
def QuotesWholeLine (tables : CharTables) (std : Stdlib) (symptom : PyStr) : Prop :=
  strip symptom ≠ [] ∧ pathIn tables symptom = none ∧
    extractCodeIdentifiers tables std (headLine symptom) = [] ∧
    contentWords std (headLine symptom) = []

/-! ## Taking terms off a query -/

theorem join_spaces (first second : PyStr) (rest : List PyStr) :
    join [spaceChar] (first :: second :: rest) =
      first ++ spaceChar :: join [spaceChar] (second :: rest) :=
  join_cons_cons _ _ _ _

theorem isQuery_cons_iff {query : PyStr} : IsQuery query ↔
    ∃ term, IsTerm term ∧
      (query = term ∨ ∃ rest, query = term ++ spaceChar :: rest ∧ IsQuery rest) := by
  constructor
  · rintro ⟨terms, hne, rfl, hterms⟩
    cases terms with
    | nil => exact absurd rfl hne
    | cons term rest =>
      obtain ⟨hterm, hrest⟩ := List.forall_mem_cons.mp hterms
      refine ⟨term, hterm, ?_⟩
      cases rest with
      | nil => exact .inl (join_singleton _ _)
      | cons second rest =>
        exact .inr ⟨_, join_spaces _ _ _, second :: rest, List.cons_ne_nil _ _, rfl, hrest⟩
  · rintro ⟨term, hterm, rfl | ⟨_, rfl, terms, hne, rfl, hterms⟩⟩
    · exact ⟨[query], List.cons_ne_nil _ _, (join_singleton _ _).symm, by simpa using hterm⟩
    · obtain ⟨second, rest, rfl⟩ := List.exists_cons_of_ne_nil hne
      exact ⟨term :: second :: rest, List.cons_ne_nil _ _, (join_spaces _ _ _).symm,
        List.forall_mem_cons.mpr ⟨hterm, hterms⟩⟩

/-- Cutting at the first place of a character is unambiguous. -/
theorem cut_inj {separator : CodePoint} {left right leftRest rightRest : PyStr}
    (hleft : separator ∉ left) (hright : separator ∉ right)
    (heq : left ++ separator :: leftRest = right ++ separator :: rightRest) :
    left = right ∧ leftRest = rightRest := by
  have hclass : ∀ {text : PyStr}, separator ∉ text → ∀ c ∈ text, decide (c ≠ separator) = true := by
    intro text htext c hc
    rw [decide_eq_true_eq]
    exact fun hsame => htext (hsame ▸ hc)
  obtain ⟨hsame, hrest⟩ := Framing.append_inj_of_class (hclass hleft) (hclass hright)
    (by simp) (by simp) heq
  exact ⟨hsame, (List.cons.inj hrest).2⟩

/-- A query that starts with a phrase ends there or goes on after a space. -/
theorem isQuery_phrase_iff {phrase rest : PyStr} (hphrase : doubleQuote ∉ phrase) :
    IsQuery (doubleQuote :: (phrase ++ doubleQuote :: rest)) ↔
      rest = [] ∨ ∃ later, rest = spaceChar :: later ∧ IsQuery later := by
  have hsplit (tail : PyStr) : quotedPhrase phrase ++ tail =
      doubleQuote :: (phrase ++ doubleQuote :: tail) := by
    rw [quotedPhrase, List.cons_append, List.append_assoc, List.singleton_append]
  rw [isQuery_cons_iff]
  constructor
  · rintro ⟨term, hterm, hquery⟩
    obtain ⟨tail, htail, hlater⟩ : ∃ tail, doubleQuote :: (phrase ++ doubleQuote :: rest) =
        term ++ tail ∧ (tail = [] ∨ ∃ later, tail = spaceChar :: later ∧ IsQuery later) := by
      rcases hquery with heq | ⟨later, heq, hlater⟩
      · exact ⟨[], heq.trans (List.append_nil _).symm, .inl rfl⟩
      · exact ⟨spaceChar :: later, heq, .inr ⟨later, rfl, hlater⟩⟩
    rcases hterm with ⟨other, rfl, hother⟩ | hplain
    · rw [quotedPhrase, List.cons_append, List.append_assoc, List.singleton_append] at htail
      obtain ⟨-, rfl⟩ := cut_inj hphrase hother (List.cons.inj htail).2
      exact hlater
    · obtain ⟨c, term, rfl⟩ := List.exists_cons_of_ne_nil hplain.ne_nil
      exact absurd ((List.cons.inj htail).1 ▸ List.mem_cons_self) hplain.noQuote
  · intro hrest
    refine ⟨quotedPhrase phrase, .inl ⟨phrase, rfl, hphrase⟩, ?_⟩
    rcases hrest with rfl | ⟨later, rfl, hlater⟩
    · exact .inl (by rw [← List.append_nil (quotedPhrase phrase), hsplit])
    · exact .inr ⟨later, (hsplit _).symm, hlater⟩

/-- A phrase that is not closed is no query. -/
theorem not_isQuery_open {phrase : PyStr} (hphrase : doubleQuote ∉ phrase) :
    ¬IsQuery (doubleQuote :: phrase) := by
  rw [isQuery_cons_iff]
  rintro ⟨term, hterm, hquery⟩
  obtain ⟨tail, htail⟩ : ∃ tail, doubleQuote :: phrase = term ++ tail := by
    rcases hquery with heq | ⟨later, heq, -⟩
    · exact ⟨[], heq.trans (List.append_nil _).symm⟩
    · exact ⟨spaceChar :: later, heq⟩
  rcases hterm with ⟨other, rfl, -⟩ | hplain
  · rw [quotedPhrase, List.cons_append, List.append_assoc, List.singleton_append] at htail
    exact hphrase ((List.cons.inj htail).2 ▸ List.mem_append_right _ List.mem_cons_self)
  · obtain ⟨c, term, rfl⟩ := List.exists_cons_of_ne_nil hplain.ne_nil
    exact absurd ((List.cons.inj htail).1 ▸ List.mem_cons_self) hplain.noQuote

theorem isTerm_head {term : PyStr} (hterm : IsTerm term) :
    ∃ c rest, term = c :: rest ∧ (c = doubleQuote ∨ IsPlainTerm term) := by
  rcases hterm with ⟨phrase, rfl, -⟩ | hplain
  · exact ⟨doubleQuote, _, rfl, .inl rfl⟩
  · obtain ⟨c, rest, rfl⟩ := List.exists_cons_of_ne_nil hplain.ne_nil
    exact ⟨c, rest, rfl, .inr hplain⟩

/-- Taking a word without quotes off a query. -/
theorem isQuery_word_iff {word rest : PyStr} (hne : word ≠ []) (hspace : spaceChar ∉ word)
    (hquote : doubleQuote ∉ word) :
    IsQuery (word ++ spaceChar :: rest) ↔ IsPlainTerm word ∧ IsQuery rest := by
  rw [isQuery_cons_iff]
  constructor
  · rintro ⟨term, hterm, hquery⟩
    obtain ⟨d, word, rfl⟩ := List.exists_cons_of_ne_nil hne
    obtain ⟨c, tail, rfl, hkind⟩ := isTerm_head hterm
    have hplain : IsPlainTerm (c :: tail) := by
      refine hkind.resolve_left ?_
      rintro rfl
      rcases hquery with heq | ⟨later, heq, -⟩
      · exact hquote ((List.cons.inj heq).1 ▸ List.mem_cons_self)
      · exact hquote ((List.cons.inj heq).1 ▸ List.mem_cons_self)
    rcases hquery with heq | ⟨later, heq, hlater⟩
    · exact absurd (heq ▸ List.mem_append_right _ List.mem_cons_self) hplain.noSpace
    · obtain ⟨hsame, rfl⟩ := cut_inj hspace hplain.noSpace heq
      exact ⟨hsame ▸ hplain, hlater⟩
  · rintro ⟨hplain, hrest⟩
    exact ⟨word, .inr hplain, .inr ⟨rest, rfl, hrest⟩⟩

theorem not_isQuery_space (rest : PyStr) : ¬IsQuery (spaceChar :: rest) := by
  rw [isQuery_cons_iff]
  rintro ⟨term, hterm, hquery⟩
  obtain ⟨c, tail, rfl, hkind⟩ := isTerm_head hterm
  have hc : c = spaceChar := by
    rcases hquery with heq | ⟨later, heq, -⟩ <;> exact (List.cons.inj heq).1.symm
  subst hc
  exact hkind.elim (by decide) fun hplain => hplain.noSpace List.mem_cons_self

theorem arePlainTerms_word_iff {word front : PyStr} (hspace : spaceChar ∉ word) :
    ArePlainTerms (word ++ spaceChar :: front) ↔ IsPlainTerm word ∧ ArePlainTerms front := by
  constructor
  · rintro ⟨terms, heq, hterms⟩
    cases terms with
    | nil => exact absurd heq (by simp)
    | cons term rest =>
      obtain ⟨hterm, hrest⟩ := List.forall_mem_cons.mp hterms
      rw [List.flatMap_cons, List.append_assoc, List.singleton_append] at heq
      obtain ⟨rfl, rfl⟩ := cut_inj hspace hterm.noSpace heq
      exact ⟨hterm, rest, rfl, hrest⟩
  · rintro ⟨hword, terms, rfl, hterms⟩
    exact ⟨word :: terms, by simp, List.forall_mem_cons.mpr ⟨hword, hterms⟩⟩

theorem exists_cut {separator : CodePoint} {text : PyStr} (hmem : separator ∈ text) :
    ∃ left right, text = left ++ separator :: right ∧ separator ∉ left := by
  obtain ⟨left, right, heq, hleft⟩ := List.eq_append_cons_of_mem hmem
  exact ⟨left, right, heq, hleft⟩

theorem isPlain_of_not_mem {text : PyStr} (hspace : spaceChar ∉ text) (hquote : doubleQuote ∉ text) :
    ∀ c ∈ text, decide (c ≠ spaceChar ∧ c ≠ doubleQuote) = true := by
  intro c hc
  rw [decide_eq_true_eq]
  exact ⟨fun heq => hspace (heq ▸ hc), fun heq => hquote (heq ▸ hc)⟩

/-- What stands before the next quote has to consist of plain terms. -/
theorem isQuery_before_quote_iff {front rest : PyStr} (hfront : doubleQuote ∉ front) :
    IsQuery (front ++ doubleQuote :: rest) ↔
      ArePlainTerms front ∧ IsQuery (doubleQuote :: rest) := by
  induction hlength : front.length using Nat.strong_induction_on generalizing front with
  | _ n ih =>
    subst hlength
    by_cases hempty : front = []
    · subst hempty
      exact (and_iff_right ⟨[], rfl, fun _ hterm => absurd hterm List.not_mem_nil⟩).symm
    by_cases hspace : spaceChar ∈ front
    · obtain ⟨word, later, rfl, hword⟩ := exists_cut hspace
      by_cases hne : word = []
      · subst hne
        refine iff_of_false (not_isQuery_space _) ?_
        rintro ⟨⟨terms, heq, hterms⟩, -⟩
        cases terms with
        | nil => exact absurd heq (by simp)
        | cons term terms =>
          have hterm := hterms term List.mem_cons_self
          obtain ⟨c, tail, rfl⟩ := List.exists_cons_of_ne_nil hterm.ne_nil
          exact hterm.noSpace ((List.cons.inj heq).1 ▸ List.mem_cons_self)
      · have hquotes : doubleQuote ∉ word ∧ doubleQuote ∉ later := by
          constructor
          · exact fun hmem => hfront (List.mem_append_left _ hmem)
          · exact fun hmem => hfront (List.mem_append_right _ (List.mem_cons_of_mem _ hmem))
        rw [List.append_assoc, List.cons_append, isQuery_word_iff hne hword hquotes.1,
          ih later.length (by simp; omega) hquotes.2 rfl, arePlainTerms_word_iff hword,
          and_assoc]
    · refine iff_of_false ?_ ?_
      · rw [isQuery_cons_iff]
        rintro ⟨term, hterm, hquery⟩
        obtain ⟨d, front, rfl⟩ := List.exists_cons_of_ne_nil hempty
        obtain ⟨c, tail, rfl, hkind⟩ := isTerm_head hterm
        have hplain : IsPlainTerm (c :: tail) := by
          refine hkind.resolve_left ?_
          rintro rfl
          rcases hquery with heq | ⟨later, heq, -⟩
          · exact hfront ((List.cons.inj heq).1 ▸ List.mem_cons_self)
          · exact hfront ((List.cons.inj heq).1 ▸ List.mem_cons_self)
        rcases hquery with heq | ⟨later, heq, -⟩
        · exact hplain.noQuote (heq ▸ List.mem_append_right _ List.mem_cons_self)
        · obtain ⟨-, hrest⟩ := @Framing.append_inj_of_class _
            (fun e => e ≠ spaceChar ∧ e ≠ doubleQuote) _ _ _ _
            (isPlain_of_not_mem hspace hfront)
            (isPlain_of_not_mem hplain.noSpace hplain.noQuote) (by simp) (by simp) heq
          exact absurd (List.cons.inj hrest).1 (by decide)
      · rintro ⟨⟨terms, rfl, -⟩, -⟩
        cases terms with
        | nil => exact hempty rfl
        | cons term terms => exact hspace (by simp)

theorem noQuote_of_arePlainTerms {gap : PyStr} (hgap : ArePlainTerms gap) : doubleQuote ∉ gap := by
  obtain ⟨terms, rfl, hterms⟩ := hgap
  intro hmem
  obtain ⟨term, hterm, hc⟩ := List.mem_flatMap.mp hmem
  rcases List.mem_append.mp hc with hc | hc
  · exact (hterms term hterm).noQuote hc
  · exact absurd (List.mem_singleton.mp hc) (by decide)

/-- A quoted line in front of terms without quotes is a query if its own quotes pair up. -/
theorem isQuery_quotedPhrase_iff {line rest : PyStr} (hquote : doubleQuote ∉ rest)
    (hrest : IsQuery rest) :
    IsQuery (quotedPhrase line ++ spaceChar :: rest) ↔ QuotesPair line := by
  have hopen (text : PyStr) : quotedPhrase text ++ spaceChar :: rest =
      doubleQuote :: (text ++ doubleQuote :: spaceChar :: rest) := by
    rw [quotedPhrase, List.cons_append, List.append_assoc, List.singleton_append]
  constructor
  · intro hquery
    induction hlength : line.length using Nat.strong_induction_on generalizing line with
    | _ n ih =>
      subst hlength
      rw [hopen] at hquery
      by_cases hmem : doubleQuote ∈ line
      · obtain ⟨phrase, after, rfl, hphrase⟩ := exists_cut hmem
        rw [List.append_assoc, List.cons_append, isQuery_phrase_iff hphrase] at hquery
        obtain ⟨later, heq, hlater⟩ := hquery.resolve_left (by simp)
        cases after with
        | nil => exact absurd (List.cons.inj heq).1 (by decide)
        | cons c after =>
          rw [List.cons_append] at heq
          obtain ⟨rfl, rfl⟩ := List.cons.inj heq
          by_cases hagain : doubleQuote ∈ after
          · obtain ⟨gap, inner, rfl, hgap⟩ := exists_cut hagain
            rw [List.append_assoc, List.cons_append, isQuery_before_quote_iff hgap] at hlater
            refine .more hphrase hlater.1 (ih inner.length ?_ ?_ rfl)
            · simp only [List.length_append, List.length_cons]
              omega
            · rw [hopen]
              exact hlater.2
          · rw [isQuery_before_quote_iff hagain] at hlater
            refine absurd hlater.2 (not_isQuery_open ?_)
            rw [List.mem_cons]
            exact fun h => h.elim (by decide) hquote
      · exact .last hmem
  · intro hpair
    induction hpair with
    | last hphrase =>
      rw [hopen, isQuery_phrase_iff hphrase]
      exact .inr ⟨rest, rfl, hrest⟩
    | more hphrase hgap _ ih =>
      rw [hopen] at ih ⊢
      rw [List.append_assoc, List.cons_append, isQuery_phrase_iff hphrase, List.cons_append]
      refine .inr ⟨_, rfl, ?_⟩
      rw [List.append_assoc, List.cons_append,
        isQuery_before_quote_iff (noQuote_of_arePlainTerms hgap)]
      exact ⟨hgap, ih⟩

/-! ## A term that is not closed -/

theorem closes_append_open (opened : List CodePoint) (front : PyStr) :
    closes opened (front ++ [openParenthesis]) = false := by
  induction front generalizing opened with
  | nil => rfl
  | cons c front ih =>
    rw [List.cons_append]
    unfold closes
    split
    · exact ih _
    · split
      · exact ih _
      · split
        · cases opened with
          | nil => rfl
          | cons expected opened => simp only [ih, Bool.and_false]
        · exact ih _

/-- A term that ends in an opening parenthesis spoils the query, if no quote follows. -/
theorem not_isQuery_openParenthesis {front rest : PyStr} (hquote : doubleQuote ∉ rest)
    (hrest : ∀ c ∈ rest.head?, c = spaceChar) : ¬IsQuery (front ++ openParenthesis :: rest) := by
  rintro ⟨terms, hne, heq, hterms⟩
  induction terms generalizing front with
  | nil => exact hne rfl
  | cons term later ih =>
    obtain ⟨hterm, hlater⟩ := List.forall_mem_cons.mp hterms
    have hsplit : ∃ tail, front ++ openParenthesis :: rest = term ++ tail ∧
        (tail = [] ∨ ∃ text, tail = spaceChar :: text ∧
          later ≠ [] ∧ text = join [spaceChar] later) := by
      cases later with
      | nil => exact ⟨[], heq.trans ((join_singleton _ _).trans (List.append_nil _).symm), .inl rfl⟩
      | cons second later =>
        exact ⟨_, heq.trans (join_spaces _ _ _), .inr ⟨_, rfl, List.cons_ne_nil _ _, rfl⟩⟩
    obtain ⟨tail, htail, hkind⟩ := hsplit
    have hbeyond : ∀ {back : PyStr}, tail = back ++ openParenthesis :: rest → False := by
      rintro back rfl
      rcases hkind with hnil | ⟨text, hspace, hlaterNe, htext⟩
      · exact absurd hnil (by simp)
      · cases back with
        | nil => exact absurd (List.cons.inj hspace).1 (by decide)
        | cons c back =>
          obtain ⟨-, hback⟩ := List.cons.inj hspace
          exact ih hlaterNe (hback.trans htext) hlater
    rcases List.append_eq_append_iff.mp htail with ⟨more, hterm', hmore⟩ | ⟨back, -, hback⟩
    · cases more with
      | nil => exact @hbeyond [] hmore.symm
      | cons c inside =>
        rw [List.cons_append] at hmore
        obtain ⟨rfl, hinside⟩ := List.cons.inj hmore
        rcases hterm with ⟨phrase, hphrase, -⟩ | hplain
        · have hlast : doubleQuote ∈ (openParenthesis :: inside).getLast? := by
            have hwhole := congrArg List.getLast? (hterm'.symm.trans hphrase)
            rw [quotedPhrase, ← List.cons_append, List.getLast?_concat,
              List.getLast?_append_of_ne_nil _ (List.cons_ne_nil _ _)] at hwhole
            exact hwhole
          rcases List.mem_cons.mp (List.mem_of_getLast? hlast) with heq | hmem
          · exact absurd heq (by decide)
          · exact hquote (hinside ▸ List.mem_append_left _ hmem)
        · cases inside with
          | nil => exact absurd hplain.balanced (by rw [hterm', closes_append_open]; decide)
          | cons d inside =>
            have hd : d = spaceChar := hrest d (by rw [hinside]; rfl)
            exact hplain.noSpace (by rw [hterm', hd]; simp)
    · exact hbeyond hback

/-! ## The filters -/

def allFilters : PyStr := join [spaceChar] noiseFilters

theorem isPlainTerm_of_mem_noiseFilters :
    ∀ filter ∈ noiseFilters, IsPlainTerm filter ∧ IsWord filter ∧ colonChar ∈ filter ∧
      py "file" <:+: filter ∧ py "-file:" <+: filter := by
  have hall : (noiseFilters.all fun filter =>
      filter ≠ [] && !filter.contains spaceChar && !filter.contains doubleQuote &&
        closes [] filter && filter.all (!isSpace ·) && filter.contains colonChar &&
        decide (py "file" <:+: filter) && decide (py "-file:" <+: filter)) = true := by
    decide +kernel
  intro filter hfilter
  have hone := List.all_eq_true.mp hall filter hfilter
  simp only [Bool.and_eq_true, decide_eq_true_eq, Bool.not_eq_true', List.all_eq_true,
    List.contains_eq_mem, decide_eq_false_iff_not] at hone
  obtain ⟨⟨⟨⟨⟨⟨⟨hne, hspace⟩, hquote⟩, hcloses⟩, hword⟩, hcolon⟩, hfile⟩, hdash⟩ := hone
  exact ⟨⟨hne, hspace, hquote, hcloses⟩, ⟨hne, hword⟩, hcolon, hfile, hdash⟩

theorem isQuery_allFilters : IsQuery allFilters :=
  ⟨noiseFilters, List.cons_ne_nil _ _, rfl, fun filter hfilter =>
    .inr (isPlainTerm_of_mem_noiseFilters filter hfilter).1⟩

theorem isSqueezed_allFilters : IsSqueezed allFilters :=
  ⟨noiseFilters, rfl, fun filter hfilter => (isPlainTerm_of_mem_noiseFilters filter hfilter).2.1⟩

theorem noQuote_allFilters : doubleQuote ∉ allFilters := by
  intro hmem
  rcases mem_of_mem_join hmem with hspace | ⟨filter, hfilter, hc⟩
  · exact absurd (List.mem_singleton.mp hspace) (by decide)
  · exact (isPlainTerm_of_mem_noiseFilters filter hfilter).1.noQuote hc

theorem occurrences_allFilters : ∀ filter ∈ noiseFilters, occurrences filter allFilters = 1 := by
  have hall : (noiseFilters.all fun filter =>
      (noiseFilters.map (occurrences filter)).sum = 1) = true := by decide +kernel
  intro filter hfilter
  have hplain := (isPlainTerm_of_mem_noiseFilters filter hfilter).1
  rw [allFilters, occurrences_join hplain.ne_nil hplain.noSpace]
  exact of_decide_eq_true (List.all_eq_true.mp hall filter hfilter)

theorem allFilters_ne_nil : allFilters ≠ [] := by decide +kernel

/-! ## The query for a symptom -/

section Body

variable {body : PyStr} (hbody : IsSqueezed body) (hne : body ≠ [])
include hbody hne

theorem withFilters_eq : withFilters body true = body ++ spaceChar :: allFilters := by
  rw [withFilters, if_pos rfl]
  exact strip_of_isSqueezed (hbody.append hne isSqueezed_allFilters allFilters_ne_nil)

variable (hnone : ∀ filter ∈ noiseFilters, ¬filter <:+: body)
include hnone

theorem occurrences_withFilters {filter : PyStr} (hfilter : filter ∈ noiseFilters) :
    occurrences filter (withFilters body true) = 1 := by
  have hplain := (isPlainTerm_of_mem_noiseFilters filter hfilter).1
  rw [withFilters_eq hbody hne, occurrences_append hplain.ne_nil hplain.noSpace,
    (occurrences_eq_zero_iff hplain.ne_nil body).mpr (hnone filter hfilter),
    occurrences_allFilters filter hfilter]

theorem prepare_withFilters (includeNoiseFilters : Bool) :
    prepareZoektQuery (withFilters body includeNoiseFilters) = withFilters body true := by
  cases includeNoiseFilters with
  | true =>
    have hsqueezed : squeeze (withFilters body true) = withFilters body true := by
      rw [withFilters_eq hbody hne]
      exact squeeze_of_isSqueezed (hbody.append hne isSqueezed_allFilters allFilters_ne_nil)
    have hmissing : (noiseFilters.filter fun filter =>
        ¬filter <:+: withFilters body true) = [] := by
      rw [List.filter_eq_nil_iff]
      intro filter hfilter
      rw [decide_eq_true_eq, not_not]
      by_contra habsent
      have hzero := (occurrences_eq_zero_iff
        (isPlainTerm_of_mem_noiseFilters filter hfilter).1.ne_nil _).mpr habsent
      rw [occurrences_withFilters hbody hne hnone hfilter] at hzero
      exact absurd hzero (by decide)
    rw [prepareZoektQuery, hsqueezed]
    simp only [hmissing, if_true, ite_self]
  | false =>
    have hmissing : (noiseFilters.filter fun filter => ¬filter <:+: body) = noiseFilters := by
      rw [List.filter_eq_self]
      exact fun filter hfilter => decide_eq_true (hnone filter hfilter)
    have hbare : withFilters body false = body := by
      rw [withFilters, if_neg (by decide)]
    rw [hbare, prepareZoektQuery, squeeze_of_isSqueezed hbody, withFilters_eq hbody hne]
    simp only [if_neg hne, hmissing, if_neg (by decide : noiseFilters ≠ [])]
    rfl

/-- With the filters a query is good if its own terms are. -/
theorem goodQuery_withFilters_iff (includeNoiseFilters : Bool) :
    GoodQuery (prepareZoektQuery (withFilters body includeNoiseFilters)) ↔
      IsQuery (body ++ spaceChar :: allFilters) := by
  have hprepared := prepare_withFilters hbody hne hnone
  have hquery := withFilters_eq hbody hne
  rw [hprepared, GoodQuery, and_iff_left (hprepared true)]
  constructor
  · intro hgood
    rw [← hquery]
    refine (hgood.resolve_left ?_).1
    rw [hquery]
    simp
  · intro hgood
    exact .inr ⟨hquery ▸ hgood, fun filter hfilter =>
      occurrences_withFilters hbody hne hnone hfilter⟩

end Body

theorem isQuery_plainTerms {terms : List PyStr} (hne : terms ≠ [])
    (hterms : ∀ term ∈ terms, IsPlainTerm term) :
    IsQuery (join [spaceChar] terms ++ spaceChar :: allFilters) := by
  obtain ⟨filters, hfiltersNe, hfilters, hall⟩ := isQuery_allFilters
  refine ⟨terms ++ filters, by simp [hne], ?_, ?_⟩
  · rw [hfilters, join_append hne hfiltersNe]
    rfl
  · rw [List.forall_mem_append]
    exact ⟨fun term hterm => .inr (hterms term hterm), hall⟩

/-- Without a colon no filter is in the query. -/
theorem noFilter_of_noColon {body : PyStr} (hcolon : colonChar ∉ body) :
    ∀ filter ∈ noiseFilters, ¬filter <:+: body :=
  fun filter hfilter hwithin =>
    hcolon (hwithin.subset (isPlainTerm_of_mem_noiseFilters filter hfilter).2.2.1)

theorem closes_of_plain {term : PyStr}
    (hterm : ∀ c ∈ term, c ∉ py "()[]") : closes [] term = true := by
  induction term with
  | nil => rfl
  | cons c rest ih =>
    obtain ⟨hc, hrest⟩ := List.forall_mem_cons.mp hterm
    have hother : c ≠ openParenthesis ∧ c ≠ CodePoint.ofChar '[' ∧
        ¬(c = CodePoint.ofChar ')' ∨ c = CodePoint.ofChar ']') := by
      refine ⟨?_, ?_, ?_⟩
      · rintro rfl
        exact hc (by decide)
      · rintro rfl
        exact hc (by decide)
      · rintro (rfl | rfl) <;> exact hc (by decide)
    unfold closes
    rw [if_neg hother.1, if_neg hother.2.1, if_neg hother.2.2]
    exact ih hrest

theorem ne_of_isPathChar {c d : CodePoint} (hc : isPathChar c = true)
    (hd : isPathChar d = false) : c ≠ d := by
  rintro rfl
  exact absurd (hc.symm.trans hd) (by decide)

theorem isSpace_of_isPathChar {c : CodePoint} (hc : isPathChar c = true) : isSpace c = false := by
  have hrange : 0x2D ≤ c.val ∧ c.val < 0x7B := by
    simp only [isPathChar, isPlainWordChar, isAlnum, isUpper, isLower, isDigit, Bool.or_eq_true,
      Bool.and_eq_true, decide_eq_true_eq] at hc
    rcases hc with (((hupper | hlower) | hdigit) | rfl) | hmark
    · omega
    · omega
    · omega
    · decide
    · have hall : ((py "-./").all fun d => 0x2D ≤ d.val && d.val < 0x7B) = true := by decide
      simpa using List.all_eq_true.mp hall c hmark
  simp only [isSpace, Bool.or_eq_false_iff, Bool.and_eq_false_iff, decide_eq_false_iff_not]
  omega

/-- A text of path characters, or with a colon as well, is a plain term. -/
theorem isPlainTerm_of_path {term : PyStr} (hne : term ≠ [])
    (hterm : ∀ c ∈ term, isPathChar c = true ∨ c = colonChar) : IsPlainTerm term ∧ IsWord term := by
  have hdiffers : ∀ d, isPathChar d = false → d ≠ colonChar → d ∉ term := by
    intro d hd hcolon hmem
    exact (hterm d hmem).elim (fun hc => ne_of_isPathChar hc hd rfl) hcolon
  refine ⟨⟨hne, hdiffers _ (by decide) (by decide), hdiffers _ (by decide) (by decide),
    closes_of_plain ?_⟩, hne, ?_⟩
  · intro c hc hmark
    have hmarks : ((py "()[]").all fun d => !isPathChar d && d ≠ colonChar) = true := by decide
    have hone := List.all_eq_true.mp hmarks c hmark
    simp only [Bool.and_eq_true, Bool.not_eq_true', decide_eq_true_eq] at hone
    exact hdiffers c hone.1 hone.2 hc
  · intro c hc
    rcases hterm c hc with hpath | rfl
    · exact isSpace_of_isPathChar hpath
    · decide

section Symptom

variable {tables : CharTables} {std : Stdlib} {includeNoiseFilters : Bool}

theorem goodQuery_nil : GoodQuery [] :=
  ⟨.inl rfl, rfl⟩

/-- Identifiers, or words that stand alone, make a good query. -/
theorem goodQuery_terms {terms : List PyStr} (hne : terms ≠ [])
    (hterms : ∀ term ∈ terms, term ≠ [] ∧ ∀ c ∈ term, isPathChar c = true) :
    GoodQuery (prepareZoektQuery (withFilters (join [spaceChar] terms) includeNoiseFilters)) := by
  have hplain := fun term hterm => isPlainTerm_of_path (hterms term hterm).1
    fun c hc => .inl ((hterms term hterm).2 c hc)
  have hjoin : join [spaceChar] terms ≠ [] := by
    obtain ⟨first, rest, rfl⟩ := List.exists_cons_of_ne_nil hne
    rw [join, Framing.intercalate_cons]
    simp [(hterms first List.mem_cons_self).1]
  rw [goodQuery_withFilters_iff ⟨terms, rfl, fun term hterm => (hplain term hterm).2⟩ hjoin]
  · exact isQuery_plainTerms hne fun term hterm => (hplain term hterm).1
  · apply noFilter_of_noColon
    intro hmem
    rcases mem_of_mem_join hmem with hspace | ⟨term, hterm, hc⟩
    · exact absurd (List.mem_singleton.mp hspace) (by decide)
    · exact ne_of_isPathChar ((hterms term hterm).2 _ hc) (by decide) rfl

theorem goodQuery_path {path : PyStr} (hpath : ∀ c ∈ path, isPathChar c = true) :
    GoodQuery (prepareZoektQuery (withFilters (py "file:" ++ path) includeNoiseFilters)) := by
  have hfile : py "file:" = py "file" ++ [colonChar] := by decide
  have hplain : IsPlainTerm (py "file:" ++ path) ∧ IsWord (py "file:" ++ path) := by
    apply isPlainTerm_of_path (by rw [hfile]; simp)
    have hletters : ((py "file:").all fun c => isPathChar c || c = colonChar) = true := by decide
    intro c hc
    rcases List.mem_append.mp hc with hletter | hc
    · simpa using List.all_eq_true.mp hletters c hletter
    · exact .inl (hpath c hc)
  rw [goodQuery_withFilters_iff (isSqueezed_of_isWord hplain.2) hplain.1.ne_nil]
  · have hterms := isQuery_plainTerms (List.cons_ne_nil (py "file:" ++ path) [])
      (by simpa using hplain.1)
    rwa [join_singleton] at hterms
  · intro filter hfilter hwithin
    -- The only colon of the query has no dash five places before it.
    have hdash : py "-file:" <:+: py "file:" ++ path :=
      (isPlainTerm_of_mem_noiseFilters filter hfilter).2.2.2.2.isInfix.trans hwithin
    obtain ⟨front, back, heq⟩ := hdash
    have hdashed : py "-file:" = py "-file" ++ [colonChar] := by decide
    have hcolon : colonChar ∉ path := fun hmem => ne_of_isPathChar (hpath _ hmem) (by decide) rfl
    have hfront : colonChar ∉ front := by
      intro hmem
      have hcount := congrArg (List.count colonChar) heq
      have hone : (py "-file:").count colonChar = 1 ∧ (py "file:").count colonChar = 1 := by decide
      have hpos : 0 < front.count colonChar := List.count_pos_iff.mpr hmem
      rw [List.count_append, List.count_append, List.count_append, hone.1, hone.2,
        List.count_eq_zero.mpr hcolon] at hcount
      omega
    have hcut : (front ++ py "-file") ++ colonChar :: back = py "file" ++ colonChar :: path := by
      rw [hdashed, hfile] at heq
      simpa using heq
    have hleft : colonChar ∉ front ++ py "-file" := by
      rw [List.mem_append]
      exact fun h => h.elim hfront (by decide)
    obtain ⟨hsame, -⟩ := cut_inj hleft (by decide) hcut
    have hlength := congrArg List.length hsame
    rw [List.length_append, show (py "-file").length = 5 by decide,
      show (py "file").length = 4 by decide] at hlength
    omega

theorem noQuote_of_path {terms : List PyStr}
    (hterms : ∀ term ∈ terms, ∀ c ∈ term, isPathChar c = true) :
    doubleQuote ∉ join [spaceChar] terms := by
  intro hmem
  rcases mem_of_mem_join hmem with hspace | ⟨term, hterm, hc⟩
  · exact absurd (List.mem_singleton.mp hspace) (by decide)
  · exact ne_of_isPathChar (hterms term hterm _ hc) (by decide) rfl

/-- A phrase is a good query if the quotes in it pair up, and no filter is in it. -/
theorem goodQuery_phrase_iff {phrase : PyStr} (hphrase : IsSqueezed phrase) (hne : phrase ≠ [])
    (hnone : ∀ filter ∈ noiseFilters, ¬filter <:+: quotedPhrase phrase) :
    GoodQuery (prepareZoektQuery (withFilters (quotedPhrase phrase) includeNoiseFilters)) ↔
      QuotesPair phrase := by
  have hsqueezed : IsSqueezed (quotedPhrase phrase) :=
    hphrase.surround hne (by decide) (by decide)
  rw [goodQuery_withFilters_iff hsqueezed (List.cons_ne_nil _ _) hnone]
  exact isQuery_quotedPhrase_iff noQuote_allFilters isQuery_allFilters

theorem mem_contentWords {line word : PyStr} (hword : word ∈ contentWords std line) :
    word ≠ [] ∧ ∀ c ∈ word, isPathChar c = true := by
  obtain ⟨hne, -, hinside⟩ := infix_of_mem_runs (List.mem_of_mem_filter hword)
  exact ⟨hne, fun c hc => isPathChar_of_isPlainWordChar (hinside c hc)⟩

theorem lower_append (left right : PyStr) :
    lower std (left ++ right) = lower std left ++ lower std right :=
  List.flatMap_append

/-- A line without words has no filter in it. -/
theorem noFilter_of_noWords {line : PyStr} (hwords : contentWords std line = []) :
    ∀ filter ∈ noiseFilters, ¬filter <:+: quotedPhrase (squeeze line) := by
  intro filter hfilter hwithin
  have hfile : py "file" ≠ [] ∧ doubleQuote ∉ py "file" ∧ spaceChar ∉ py "file" := by decide
  have hinside : py "file" <:+: quotedPhrase (squeeze line) :=
    (isPlainTerm_of_mem_noiseFilters filter hfilter).2.2.2.1.trans hwithin
  have hcompact : occurrences (py "file") (squeeze line) ≠ 0 := by
    intro hzero
    have hwhole : occurrences (py "file") (quotedPhrase (squeeze line)) = 0 := by
      rw [quotedPhrase, ← List.nil_append (doubleQuote :: (squeeze line ++ [doubleQuote])),
        occurrences_append hfile.1 hfile.2.1, occurrences_append hfile.1 hfile.2.1, hzero]
      rfl
    exact (occurrences_eq_zero_iff hfile.1 _).mp hwhole hinside
  rw [squeeze, occurrences_join hfile.1 hfile.2.2] at hcompact
  obtain ⟨word, hword, hoccurs⟩ : ∃ word ∈ splitSpaces line, occurrences (py "file") word ≠ 0 := by
    by_contra hnone
    push Not at hnone
    apply hcompact
    rw [List.sum_eq_zero]
    intro count hcount
    obtain ⟨word, hword, rfl⟩ := List.mem_map.mp hcount
    exact hnone word hword
  have hline : py "file" <:+: line := by
    by_contra habsent
    apply hoccurs
    rw [occurrences_eq_zero_iff hfile.1]
    exact fun hmem => habsent (hmem.trans (isWord_of_mem_splitSpaces hword).2)
  have hletters : (py "file").all isPlainWordChar = true := by decide
  obtain ⟨run, hrun, hmem⟩ := exists_run_of_infix hfile.1 (List.all_eq_true.mp hletters) hline
  have hkept : run ∈ contentWords std line := by
    refine List.mem_filter.mpr ⟨hrun, decide_eq_true ⟨?_, ?_⟩⟩
    · intro hstop
      obtain ⟨front, back, rfl⟩ := hmem
      have hlower : lower std (py "file") = py "file" := rfl
      have hstops : (searchStopwords.all fun word => ¬py "file" <:+: word) = true := by
        decide +kernel
      have hnot := of_decide_eq_true (List.all_eq_true.mp hstops _ hstop)
      rw [lower_append, lower_append, hlower] at hnot
      exact hnot ⟨_, _, rfl⟩
    · have hlength : (py "file").length = 4 := by decide
      have hle := hmem.length_le
      omega
  rw [hwords] at hkept
  exact List.not_mem_nil hkept

/-- The query for a symptom is good unless the whole line is quoted and its own quotes do not
pair up. -/
theorem goodQuery_symptom_iff (symptom : PyStr) :
    GoodQuery (prepareZoektQuery
        (buildZoektSearchQuery tables std symptom includeNoiseFilters)) ↔
      (QuotesWholeLine tables std symptom → QuotesPair (squeeze (headLine symptom))) := by
  rw [buildZoektSearchQuery]
  split
  · next hblank => exact iff_of_true goodQuery_nil fun hwhole => absurd hblank hwhole.1
  · next hsymptom =>
    cases hpath : pathIn tables symptom with
    | some path =>
      refine iff_of_true (goodQuery_path (isQueryChar_of_pathIn hpath)) ?_
      exact fun hwhole => absurd (hpath.symm.trans hwhole.2.1) (by simp)
    | none =>
      simp only
      split
      · next hidentifiers =>
        refine iff_of_true (goodQuery_terms ?_ ?_) fun hwhole =>
          absurd hwhole.2.2.1 hidentifiers
        · intro htake
          rw [List.take_eq_nil_iff] at htake
          refine hidentifiers (List.eq_nil_of_length_eq_zero ?_)
          rw [← List.length_insertionSort MoreSpecific, htake.resolve_left (by decide)]
          rfl
        · intro term hterm
          exact mem_extractCodeIdentifiers
            ((List.mem_insertionSort _).mp (List.mem_of_mem_take hterm))
      · next hidentifiers =>
        rw [not_not] at hidentifiers
        split
        · next hmany =>
          refine iff_of_true ?_ fun hwhole => absurd (hwhole.2.2.2 ▸ hmany) (by simp)
          have hwords : ∀ word ∈ (contentWords std (headLine symptom)).take 8,
              word ≠ [] ∧ ∀ c ∈ word, isPathChar c = true :=
            fun word hword => mem_contentWords (List.mem_of_mem_take hword)
          have hquote := noQuote_of_path fun word hword => (hwords word hword).2
          rw [goodQuery_phrase_iff]
          · exact .last hquote
          · exact ⟨_, rfl, fun word hword =>
              ⟨(hwords word hword).1, fun c hc =>
                isSpace_of_isPathChar ((hwords word hword).2 c hc)⟩⟩
          · intro hnil
            obtain ⟨first, rest, hfirst⟩ := List.exists_cons_of_length_pos
              (show 0 < ((contentWords std (headLine symptom)).take 8).length by
                rw [List.length_take]; omega)
            rw [hfirst, join, Framing.intercalate_cons] at hnil
            exact (hwords first (hfirst ▸ List.mem_cons_self)).1 (List.append_eq_nil_iff.mp hnil).1
          · apply noFilter_of_noColon
            intro hmem
            rw [quotedPhrase, List.mem_cons, List.mem_append] at hmem
            rcases hmem with hmark | hmem | hmark
            · exact absurd hmark (by decide)
            · rcases mem_of_mem_join hmem with hspace | ⟨word, hword, hc⟩
              · exact absurd (List.mem_singleton.mp hspace) (by decide)
              · exact ne_of_isPathChar ((hwords word hword).2 _ hc) (by decide) rfl
            · exact absurd (List.mem_singleton.mp hmark) (by decide)
        · cases hwords : contentWords std (headLine symptom) with
          | cons word rest =>
            simp only
            refine iff_of_true ?_ fun hwhole => absurd (hwords.symm.trans hwhole.2.2.2) (by simp)
            have hone := @goodQuery_terms includeNoiseFilters [word]
              (List.cons_ne_nil _ _)
              (by simpa using mem_contentWords (hwords ▸ List.mem_cons_self))
            rwa [join_singleton] at hone
          | nil =>
            simp only
            have hwhole : QuotesWholeLine tables std symptom :=
              ⟨hsymptom, hpath, hidentifiers, hwords⟩
            rw [imp_iff_right hwhole]
            split
            · next hnil =>
              rw [hnil]
              exact iff_of_true goodQuery_nil (.last List.not_mem_nil)
            · next hne =>
              exact goodQuery_phrase_iff (isSqueezed_squeeze _) hne (noFilter_of_noWords hwords)

end Symptom

/-! ## The query for callers -/

/-- A query for callers ends in a parenthesis that nothing closes. -/
theorem not_goodQuery_caller (className repo : Option PyStr) {methodName : PyStr}
    (hmethod : strip methodName ≠ []) :
    ¬GoodQuery (prepareZoektQuery (buildCallerSearchQuery className methodName repo)) := by
  obtain ⟨front, hfront⟩ : ∃ front,
      buildCallerSearchQuery className methodName repo = front ++ [openParenthesis] := by
    rw [buildCallerSearchQuery]
    simp only [if_neg hmethod]
    obtain ⟨front, hjoin⟩ := exists_join_append
      (((repo.filter (· ≠ [])).map (py "repo:" ++ ·)).toList ++
        (className.filter (· ≠ [])).toList) (strip methodName ++ [openParenthesis])
    exact ⟨front ++ strip methodName, by rw [hjoin, List.append_assoc]⟩
  obtain ⟨kept, hkept⟩ := exists_squeeze_concat front (by decide : isSpace openParenthesis = false)
  obtain ⟨rest, hprepared, hquote, hspace⟩ : ∃ rest,
      prepareZoektQuery (buildCallerSearchQuery className methodName repo) =
        kept ++ openParenthesis :: rest ∧
        doubleQuote ∉ rest ∧ ∀ c ∈ rest.head?, c = spaceChar := by
    rw [hfront, prepareZoektQuery, hkept]
    simp only
    rw [if_neg (by simp)]
    split
    · exact ⟨[], rfl, List.not_mem_nil, fun _ hc => absurd hc (by simp)⟩
    · refine ⟨_, List.append_assoc _ _ _, ?_, fun c hc => (Option.some.inj hc).symm⟩
      intro hmem
      rcases List.mem_cons.mp hmem with heq | hmem
      · exact absurd heq (by decide)
      · rcases mem_of_mem_join hmem with hspace | ⟨filter, hfilter, hc⟩
        · exact absurd (List.mem_singleton.mp hspace) (by decide)
        · exact (isPlainTerm_of_mem_noiseFilters filter (List.mem_of_mem_filter hfilter)).1.noQuote hc
  rw [hprepared]
  rintro ⟨hempty | ⟨hquery, -⟩, -⟩
  · exact absurd hempty (by simp)
  · exact not_isQuery_openParenthesis hquote hspace hquery

/-- A query for a symptom is good unless the whole line is quoted and its own quotes do not pair
up; a query for callers is good only if there is no method. -/
theorem preparedQueries_good_iff (tables : CharTables) (std : Stdlib) (symptom methodName : PyStr)
    (includeNoiseFilters : Bool) (className repo : Option PyStr) :
    (GoodQuery (prepareZoektQuery
        (buildZoektSearchQuery tables std symptom includeNoiseFilters)) ↔
      (QuotesWholeLine tables std symptom → QuotesPair (squeeze (headLine symptom)))) ∧
    (GoodQuery (prepareZoektQuery (buildCallerSearchQuery className methodName repo)) ↔
      strip methodName = []) := by
  refine ⟨goodQuery_symptom_iff symptom, fun hgood => ?_, fun hblank => ?_⟩
  · by_contra hmethod
    exact not_goodQuery_caller className repo hmethod hgood
  · rw [buildCallerSearchQuery]
    simp only [if_pos hblank]
    exact goodQuery_nil

/-- The callers of a method are looked up with a malformed term. -/
theorem caller_query_malformed :
    buildCallerSearchQuery none (py "decryptField") none = py "decryptField(" ∧
      ¬GoodQuery (prepareZoektQuery (buildCallerSearchQuery none (py "decryptField") none)) :=
  ⟨by decide, not_goodQuery_caller none none (by decide)⟩

end RootSeeker.External
