import RootSeeker.ChannelRouting.TemplateRendering

/-!
# Which templates render verbatim

Counting opening braces shows what the passes read.  A context that maps every
variable to its own tag shows the pairing of blocks; one that maps them to the tag
of a further variable shows which values are read again; one without braces shows
which tags come about between the blocks.
-/

namespace RootSeeker.ChannelRouting

open Python

def braces (text : PyStr) : ℕ :=
  text.count (CodePoint.ofChar '\x7b')

theorem braces_append (left right : PyStr) : braces (left ++ right) = braces left + braces right :=
  List.count_append

theorem braces_cons (c : CodePoint) (text : PyStr) :
    braces (c :: text) = braces [c] + braces text :=
  braces_append [c] text

/-- The context that gives the variables among `names` their values. -/
def contextOf (names : List PyStr) (value : PyStr → PyStr) : Dict PyStr PyStr :=
  names.map fun name => (name, value name)

theorem contextText_contextOf (names : List PyStr) (value : PyStr → PyStr) (name : PyStr) :
    contextText (contextOf names value) name = if name ∈ names then value name else [] := by
  induction names with
  | nil => rfl
  | cons other names ih =>
    rw [contextText, contextOf, List.map_cons, Dict.get?]
    by_cases hname : other = name
    · rw [if_pos hname, hname, if_pos List.mem_cons_self, Option.getD_some]
    · rw [if_neg hname]
      have hmem : name ∈ other :: names ↔ name ∈ names := by simp [Ne.symm hname]
      rw [if_congr hmem rfl rfl, ← ih]
      rfl

section Counting

variable {wordChar : CodePoint → Bool} {context : Dict PyStr PyStr}

variable {rest : List Token} {name : PyStr} {template : Template} {text body : PyStr}

theorem braces_tagText (hname : IsName wordChar name) (sigil : Sigil) :
    braces (tagText sigil name) = 2 := by
  obtain ⟨d, word, htext, hword⟩ := tagText_eq hname sigil
  have hfree : braces (d :: word) = 0 :=
    List.count_eq_zero.mpr fun hmem => hword _ hmem rfl
  rw [htext, braces_append, hfree]
  rfl

theorem strip_tagText_ne_nil (sigil : Sigil) (name : PyStr) : strip (tagText sigil name) ≠ [] := by
  apply stripBy_ne_nil_iff.mpr
  exact ⟨CodePoint.ofChar '\x7b', by cases sigil <;> exact List.mem_cons_self, by decide⟩

/-- Reading a variable tag trades its two braces for those of the value. -/
theorem braces_substituteVariables (hvalues : ∀ name, braces (contextText context name) ≤ 2)
    (text : PyStr) :
    braces (substituteVariables wordChar context text) +
        ((variableTags wordChar text).map fun name =>
          2 - braces (contextText context name)).sum = braces text := by
  induction text using substituteVariables.induct wordChar with
  | case1 =>
    rw [substituteVariables]
    rfl
  | case2 c rest name after htag ih =>
    obtain ⟨hname, htext⟩ := tagAt_eq_some_iff.mp htag
    have hvalue := hvalues name
    have htag' : c :: rest = tagText .value name ++ after :=
      htext.trans (tagText_append .value name after).symm
    rw [substituteVariables_of_tagAt htag, htag', variableTags_tagText hname, if_pos rfl,
      List.singleton_append, List.map_cons, List.sum_cons, braces_append, braces_append,
      braces_tagText hname, ← ih]
    omega
  | case3 c rest htag ih =>
    rw [substituteVariables_cons htag, variableTags_cons htag, braces_cons, braces_cons c rest,
      ← ih]
    omega

theorem braces_substituteVariables_le (hvalues : ∀ name, braces (contextText context name) ≤ 2)
    (text : PyStr) : braces (substituteVariables wordChar context text) ≤ braces text := by
  have hcount := @braces_substituteVariables wordChar context hvalues text
  omega

/-! ## Blocks in blocks of their name -/

def Token.isOpening : Token → Bool
  | .tag .opens _ => true
  | _ => false

/-- The number of opening tags. -/
def openings (tokens : List Token) : ℕ :=
  tokens.countP Token.isOpening

/-- The context keeps the variable tags of the body, and of all that is left of it. -/
def KeepsTags (context : Dict PyStr PyStr) (body : PyStr) : Prop :=
  ∀ name, name.Sublist body → contextText context name = tagText .value name

theorem substituteVariables_of_keepsTags (hkeeps : KeepsTags context body)
    (hsublist : text.Sublist body) : substituteVariables wordChar context text = text := by
  induction text using substituteVariables.induct wordChar with
  | case1 => rw [substituteVariables]
  | case2 c rest name after htag ih =>
    obtain ⟨_, htext⟩ := tagAt_eq_some_iff.mp htag
    replace htext := htext.trans (tagText_append .value name after).symm
    rw [htext] at hsublist
    have hname : name.Sublist body :=
      ((List.sublist_append_left name (py "\x7d\x7d")).trans
        (List.sublist_append_right _ _)).trans
          ((List.sublist_append_left _ after).trans hsublist)
    rw [substituteVariables_of_tagAt htag, htext, hkeeps name hname,
      ih ((List.sublist_append_right _ _).trans hsublist)]
  | case3 c rest htag ih =>
    rw [substituteVariables_cons htag, ih ((List.sublist_cons_self c rest).trans hsublist)]

/-- Each pair of tags that goes takes four braces and an opening tag; an opening tag
without a closing one never goes. -/
structure PairsOff (wordChar : CodePoint → Bool) (context : Dict PyStr PyStr)
    (tokens : List Token) : Prop where
  sublist : (substituteBlocks wordChar context (textOf tokens)).Sublist (textOf tokens)
  braces_le : braces (textOf tokens) ≤
    braces (substituteBlocks wordChar context (textOf tokens)) + 4 * openings tokens
  braces_lt : ∀ name, Token.tag .opens name ∈ tokens → Token.tag .closes name ∉ tokens →
    braces (textOf tokens) <
      braces (substituteBlocks wordChar context (textOf tokens)) + 4 * openings tokens

theorem PairsOff.cons_of_kept {token : Token}
    (hkept : substituteBlocks wordChar context (textOf (token :: rest)) =
      token.text ++ substituteBlocks wordChar context (textOf rest))
    (hrest : PairsOff wordChar context rest) : PairsOff wordChar context (token :: rest) := by
  have hle := hrest.braces_le
  have hopenings : openings (token :: rest) =
      openings rest + if token.isOpening = true then 1 else 0 := List.countP_cons
  constructor
  · rw [hkept, textOf_cons]
    exact hrest.sublist.append_left _
  · rw [hkept, textOf_cons, braces_append, braces_append, hopenings]
    omega
  · intro name hopens hcloses
    rw [hkept, textOf_cons, braces_append, braces_append, hopenings]
    by_cases hopening : token.isOpening = true
    · rw [if_pos hopening]
      omega
    · have hne : Token.tag .opens name ≠ token := by
        rintro rfl
        exact hopening rfl
      have hlt := hrest.braces_lt name (List.mem_of_ne_of_mem hne hopens)
        (mt (List.mem_cons_of_mem _) hcloses)
      rw [if_neg hopening]
      omega

theorem braces_block (hname : IsName wordChar name) (inner rest : List Token) :
    braces (textOf (.tag .opens name :: (inner ++ .tag .closes name :: rest))) =
      braces (textOf inner) + braces (textOf rest) + 4 := by
  rw [textOf_cons, textOf_append, textOf_cons, braces_append, braces_append, braces_append,
    Token.text, Token.text, braces_tagText hname, braces_tagText hname]
  omega

theorem openings_block (name : PyStr) (inner rest : List Token) :
    openings (.tag .opens name :: (inner ++ .tag .closes name :: rest)) =
      openings inner + openings rest + 1 := by
  rw [openings, List.countP_cons_of_pos rfl, List.countP_append,
    List.countP_cons_of_neg (by simp [Token.isOpening])]
  rfl

theorem PairsOff.block (hname : IsName wordChar name) {inner : List Token}
    (hblocks : substituteBlocks wordChar context
        (textOf (.tag .opens name :: (inner ++ .tag .closes name :: rest))) =
      substituteBlocks wordChar context (textOf inner) ++
        substituteBlocks wordChar context (textOf rest))
    (hinner : PairsOff wordChar context inner) (hrest : PairsOff wordChar context rest) :
    PairsOff wordChar context (.tag .opens name :: (inner ++ .tag .closes name :: rest)) := by
  have hle := hinner.braces_le
  have hleRest := hrest.braces_le
  constructor
  · rw [hblocks, textOf_cons, textOf_append, textOf_cons]
    exact ((hinner.sublist.append (hrest.sublist.trans (List.sublist_append_right _ _)))).trans
      (List.sublist_append_right _ _)
  · rw [hblocks, braces_block hname, openings_block, braces_append]
    omega
  · intro other hopens hcloses
    rw [hblocks, braces_block hname, openings_block, braces_append]
    have hne : Token.tag .opens other ≠ .tag .opens name := by
      rintro heq
      cases heq
      exact hcloses (by simp)
    have hmem := List.mem_of_ne_of_mem hne hopens
    cases List.mem_append.mp hmem with
    | inl hmemInner =>
      have hlt := hinner.braces_lt other hmemInner fun hclosed => hcloses (by simp [hclosed])
      omega
    | inr hmemRest =>
      have hlt := hrest.braces_lt other (by simpa using hmemRest)
        fun hclosed => hcloses (by simp [hclosed])
      omega

/-- The pass takes a block apart from what comes behind it. -/
theorem substituteBlocks_pair (hkeeps : KeepsTags context body) (hname : IsName wordChar name)
    {inner : List Token} (hinner : Token.tag .closes name ∉ inner)
    (hreadable : Readable wordChar (inner ++ .tag .closes name :: rest))
    (hsublist : (textOf (.tag .opens name :: (inner ++ .tag .closes name :: rest))).Sublist body)
    (hpairs : (substituteBlocks wordChar context (textOf inner)).Sublist (textOf inner)) :
    substituteBlocks wordChar context
        (textOf (.tag .opens name :: (inner ++ .tag .closes name :: rest))) =
      substituteBlocks wordChar context (textOf inner) ++
        substituteBlocks wordChar context (textOf rest) := by
  rw [textOf_cons, Token.text] at hsublist ⊢
  have htext : (textOf inner).Sublist body := by
    rw [textOf_append] at hsublist
    exact ((List.sublist_append_left _ _).trans (List.sublist_append_right _ _)).trans hsublist
  have hnameBody : name.Sublist body := by
    rw [tagText_append] at hsublist
    exact ((List.sublist_append_left _ _).trans (List.sublist_append_right _ _)).trans hsublist
  have hnonblank : strip (contextText context name) ≠ [] := by
    rw [hkeeps name hnameBody]
    exact strip_tagText_ne_nil _ _
  rw [substituteBlocks_block hname hinner hreadable, if_neg hnonblank,
    substituteVariables_of_keepsTags hkeeps (hpairs.trans htext)]

theorem pairsOff_of_keepsTags (hkeeps : KeepsTags context body) {tokens : List Token}
    (hreadable : Readable wordChar tokens) (hsublist : (textOf tokens).Sublist body) :
    PairsOff wordChar context tokens := by
  induction hlength : tokens.length using Nat.strong_induction_on generalizing tokens with
  | _ length ih =>
  have hlater : ∀ later : List Token, later.length < tokens.length →
      Readable wordChar later → (textOf later).Sublist body → PairsOff wordChar context later :=
    fun later hshorter hread htext => ih later.length (hlength ▸ hshorter) hread htext rfl
  cases hreadable with
  | nil =>
    have hempty : substituteBlocks wordChar context (textOf []) = [] := by
      rw [textOf, List.flatMap_nil, substituteBlocks]
    refine ⟨hempty ▸ List.Sublist.refl _, Nat.zero_le _, ?_⟩
    exact fun name hmem => absurd hmem List.not_mem_nil
  | @plain c rest hplain hrest =>
    refine PairsOff.cons_of_kept (substituteBlocks_plain hplain)
      (hlater rest (Nat.lt_succ_self _) hrest ?_)
    exact (List.sublist_cons_self _ _).trans hsublist
  | @tag sigil name rest hname hrest =>
    have htext : (textOf rest).Sublist body :=
      (List.sublist_append_right _ _).trans hsublist
    have hpairs := hlater rest (Nat.lt_succ_self _) hrest htext
    by_cases hsigil : sigil = .opens
    · subst hsigil
      by_cases hclosing : Token.tag .closes name ∈ rest
      · obtain ⟨inner, after, rfl, hinner⟩ := List.eq_append_cons_of_mem hclosing
        obtain ⟨hreadInner, hclosed⟩ := hrest.of_append
        rw [textOf_append, textOf_cons] at htext
        have hshorter : inner.length < (Token.tag .opens name ::
              (inner ++ .tag .closes name :: after)).length ∧
            after.length < (Token.tag .opens name ::
              (inner ++ .tag .closes name :: after)).length := by
          simp only [List.length_cons, List.length_append]
          omega
        have hinnerPairs := hlater inner hshorter.1 hreadInner
          ((List.sublist_append_left _ _).trans htext)
        have hafterPairs := hlater after hshorter.2
          (@Readable.of_append wordChar [.tag .closes name] after hclosed).2
          (((List.sublist_append_right _ _).trans (List.sublist_append_right _ _)).trans htext)
        exact PairsOff.block hname (substituteBlocks_pair hkeeps hname hinner hrest hsublist
          hinnerPairs.sublist) hinnerPairs hafterPairs
      · exact PairsOff.cons_of_kept (substituteBlocks_unclosed hname hclosing hrest) hpairs
    · exact PairsOff.cons_of_kept (substituteBlocks_of_ne_opens hsigil hname _) hpairs

/-- In the tokens of a template every closing tag has its opening one before it. -/
theorem Template.opens_before {before after : List Token}
    (htokens : template.tokens = before ++ .tag .closes name :: after) :
    Token.tag .opens name ∈ before := by
  induction template generalizing before after with
  | done => exact absurd htokens (by simp [Template.tokens])
  | plain c rest ih =>
    cases before with
    | nil => exact absurd htokens (by simp [Template.tokens])
    | cons token before => exact List.mem_cons_of_mem _ (ih (List.cons.inj htokens).2)
  | value other rest ih =>
    cases before with
    | nil => exact absurd htokens (by simp [Template.tokens])
    | cons token before => exact List.mem_cons_of_mem _ (ih (List.cons.inj htokens).2)
  | block other inner rest ihInner ihRest =>
    cases before with
    | nil => exact absurd htokens (by simp [Template.tokens])
    | cons token before =>
      obtain ⟨rfl, hlater⟩ := List.cons.inj htokens
      cases List.append_eq_append_iff.mp hlater with
      | inl hbehind =>
        obtain ⟨between, rfl, hrest⟩ := hbehind
        cases between with
        | nil =>
          obtain ⟨heq, _⟩ := List.cons.inj hrest
          cases heq
          exact List.mem_cons_self
        | cons first between =>
          have hmem := ihRest (List.cons.inj hrest).2
          simp [hmem]
      | inr hinside =>
        obtain ⟨between, hinner, hrest⟩ := hinside
        cases between with
        | nil =>
          obtain ⟨heq, _⟩ := List.cons.inj hrest
          cases heq
          exact List.mem_cons_self
        | cons first between =>
          obtain ⟨rfl, _⟩ := List.cons.inj hrest
          exact List.mem_cons_of_mem _ (ihInner hinner)

theorem Template.noBlockInItself_of_braces (hkeeps : KeepsTags context body)
    (hreadable : Readable wordChar template.tokens)
    (hsublist : (textOf template.tokens).Sublist body)
    (hbraces : braces (substituteBlocks wordChar context (textOf template.tokens)) +
      4 * openings template.tokens = braces (textOf template.tokens)) :
    template.NoBlockInItself := by
  induction template with
  | done => trivial
  | plain c rest ih =>
    cases hreadable with
    | plain hplain hrest =>
      rw [Template.tokens, textOf_cons, Token.text, List.singleton_append] at hbraces hsublist
      rw [substituteBlocks_plain hplain, braces_cons, braces_cons c (textOf _), openings,
        List.countP_cons_of_neg (by simp [Token.isOpening])] at hbraces
      refine ih hrest ((List.sublist_cons_self _ _).trans hsublist) ?_
      rw [openings]
      omega
  | value name rest ih =>
    cases hreadable with
    | tag hname hrest =>
      rw [Template.tokens, textOf_cons, Token.text] at hbraces hsublist
      rw [substituteBlocks_of_ne_opens (by decide) hname, braces_append, braces_append,
        openings, List.countP_cons_of_neg (by simp [Token.isOpening])] at hbraces
      refine ih hrest ((List.sublist_append_right _ _).trans hsublist) ?_
      rw [openings]
      omega
  | block name inner rest ihInner ihRest =>
    obtain ⟨hname, hinner, hrest, hlater⟩ := hreadable.of_block
    have htexts : (textOf inner.tokens).Sublist body ∧ (textOf rest.tokens).Sublist body := by
      rw [Template.tokens, textOf_cons, textOf_append, textOf_cons] at hsublist
      have hbehind := (List.sublist_append_right _ _).trans hsublist
      exact ⟨(List.sublist_append_left _ _).trans hbehind,
        ((List.sublist_append_right _ _).trans (List.sublist_append_right _ _)).trans hbehind⟩
    have hpairsInner := pairsOff_of_keepsTags hkeeps hinner htexts.1
    have hpairsRest := pairsOff_of_keepsTags hkeeps hrest htexts.2
    have hle := hpairsInner.braces_le
    have hleRest := hpairsRest.braces_le
    by_cases hfree : name ∈ inner.blockNames
    · -- the pair ends at the closing tag of the inner block and leaves its opening one
      have hcloses : Token.tag .closes name ∈ inner.tokens :=
        (Template.mem_tokens_iff (by decide) inner).mpr hfree
      obtain ⟨before, after, htokens, hbefore⟩ := List.eq_append_cons_of_mem hcloses
      have hopens := Template.opens_before htokens
      rw [Template.tokens, htokens, List.append_assoc, List.cons_append] at hbraces hsublist
      rw [htokens, List.append_assoc, List.cons_append] at hlater
      obtain ⟨hreadBefore, hreadClosed⟩ := hlater.of_append
      have hbehind : (textOf (before ++ .tag .closes name ::
          (after ++ .tag .closes name :: rest.tokens))).Sublist body :=
        (List.sublist_append_right _ _).trans hsublist
      rw [textOf_append, textOf_cons] at hbehind
      have hpairsBefore := pairsOff_of_keepsTags hkeeps hreadBefore
        ((List.sublist_append_left _ _).trans hbehind)
      have hpairsAfter :
          PairsOff wordChar context (after ++ .tag .closes name :: rest.tokens) :=
        pairsOff_of_keepsTags hkeeps
          (@Readable.of_append wordChar [.tag .closes name] _ hreadClosed).2
          (((List.sublist_append_right _ _).trans (List.sublist_append_right _ _)).trans hbehind)
      rw [substituteBlocks_pair hkeeps hname hbefore hlater hsublist hpairsBefore.sublist,
        braces_append, braces_block hname, openings_block] at hbraces
      have hlt := hpairsBefore.braces_lt name hopens hbefore
      have hleAfter := hpairsAfter.braces_le
      omega
    · have hclosing : Token.tag .closes name ∉ inner.tokens :=
        mt (Template.mem_tokens_iff (by decide) inner).mp hfree
      rw [Template.tokens, substituteBlocks_pair hkeeps hname hclosing hlater hsublist
        hpairsInner.sublist, braces_append, braces_block hname] at hbraces
      rw [openings_block] at hbraces
      exact ⟨hfree, ihInner hinner htexts.1 (by omega), ihRest hrest htexts.2 (by omega)⟩

/-- With every variable kept as its own tag, all blocks go and nothing else. -/
theorem Template.braces_evaluate_of_keepsTags (hkeeps : KeepsTags context body)
    (hreadable : Readable wordChar template.tokens)
    (hsublist : (textOf template.tokens).Sublist body) :
    braces (template.evaluate context) + 4 * openings template.tokens =
      braces (textOf template.tokens) := by
  induction template with
  | done => rfl
  | plain c rest ih =>
    cases hreadable with
    | plain hplain hrest =>
      have hcount := ih hrest ((List.sublist_cons_self _ _).trans hsublist)
      rw [Template.evaluate, Template.tokens, textOf_cons, Token.text, List.singleton_append,
        braces_cons, braces_cons c (textOf _), ← hcount, openings,
        List.countP_cons_of_neg (by simp [Token.isOpening]), openings]
      omega
  | value name rest ih =>
    cases hreadable with
    | tag hname hrest =>
      have hcount := ih hrest ((List.sublist_append_right _ _).trans hsublist)
      have hvalue : contextText context name = tagText .value name := by
        apply hkeeps
        rw [Template.tokens, textOf_cons, Token.text, tagText_append] at hsublist
        exact ((List.sublist_append_left _ _).trans (List.sublist_append_right _ _)).trans hsublist
      rw [Template.evaluate, Template.tokens, textOf_cons, Token.text, braces_append,
        braces_append, hvalue, ← hcount, openings,
        List.countP_cons_of_neg (by simp [Token.isOpening]), openings]
      omega
  | block name inner rest ihInner ihRest =>
    obtain ⟨hname, hinner, hrest, _⟩ := hreadable.of_block
    rw [Template.tokens, textOf_cons, textOf_append, textOf_cons] at hsublist
    have hvalue : contextText context name = tagText .value name := by
      apply hkeeps
      rw [Token.text, tagText_append] at hsublist
      exact ((List.sublist_append_left _ _).trans (List.sublist_append_right _ _)).trans hsublist
    have hbehind := (List.sublist_append_right _ _).trans hsublist
    have hcountInner := ihInner hinner ((List.sublist_append_left _ _).trans hbehind)
    have hcountRest := ihRest hrest
      (((List.sublist_append_right _ _).trans (List.sublist_append_right _ _)).trans hbehind)
    rw [Template.evaluate, hvalue, if_neg (strip_tagText_ne_nil _ _), Template.tokens,
      braces_block hname, openings_block, braces_append]
    omega

/-- A body that renders verbatim has no block in one of its own name. -/
theorem RendersVerbatim.noBlockInItself (htokens : tokenize wordChar body = template.tokens)
    (hverbatim : ∀ context,
      renderMessageTemplate wordChar context body = template.evaluate context) :
    template.NoBlockInItself := by
  have hreadable : Readable wordChar template.tokens := htokens ▸ readable_tokenize body
  obtain rfl : textOf template.tokens = body := htokens ▸ textOf_tokenize body
  have hkeeps : KeepsTags (contextOf (textOf template.tokens).sublists (tagText .value))
      (textOf template.tokens) := by
    intro name hname
    rw [contextText_contextOf, if_pos (List.mem_sublists.mpr hname)]
  have hsublist := List.Sublist.refl (textOf template.tokens)
  have hpairs := pairsOff_of_keepsTags hkeeps hreadable hsublist
  have hrender := hverbatim (contextOf (textOf template.tokens).sublists (tagText .value))
  rw [renderMessageTemplate, substituteVariables_of_keepsTags hkeeps hpairs.sublist] at hrender
  apply Template.noBlockInItself_of_braces hkeeps hreadable hsublist
  rw [hrender]
  exact Template.braces_evaluate_of_keepsTags hkeeps hreadable hsublist

/-! ## Variables in blocks -/

/-- The tags among the values are tags of the text the values are put into. -/
theorem variableTags_substituteVariables (text : PyStr) :
    ((variableTags wordChar text).flatMap fun name =>
      variableTags wordChar (contextText context name)).Sublist
        (variableTags wordChar (substituteVariables wordChar context text)) := by
  induction text using substituteVariables.induct wordChar with
  | case1 => exact List.nil_sublist _
  | case2 c rest name after htag ih =>
    obtain ⟨hname, htext⟩ := tagAt_eq_some_iff.mp htag
    have htag' : c :: rest = tagText .value name ++ after :=
      htext.trans (tagText_append .value name after).symm
    rw [substituteVariables_of_tagAt htag, htag', variableTags_tagText hname, if_pos rfl,
      List.singleton_append, List.flatMap_cons]
    exact ((List.Sublist.refl _).append ih).trans (variableTags_append _ _)
  | case3 c rest htag ih =>
    rw [substituteVariables_cons htag, variableTags_cons htag]
    exact ih.trans (List.sublist_append_right _ _)

/-- Every variable of the template has the tag of a further variable as its value. -/
structure PassesOn (wordChar : CodePoint → Bool) (context : Dict PyStr PyStr)
    (names : List PyStr) (fresh : PyStr) : Prop where
  isName : IsName wordChar fresh
  value : ∀ name ∈ names, contextText context name = tagText .value fresh
  other : ∀ name ∉ names, contextText context name = []
  fresh_not_mem : fresh ∉ names

section PassesOn

variable {names : List PyStr} {fresh : PyStr}

section

variable (hpasses : PassesOn wordChar context names fresh)

include hpasses

theorem PassesOn.braces_value_le (name : PyStr) : braces (contextText context name) ≤ 2 := by
  by_cases hname : name ∈ names
  · rw [hpasses.value name hname, braces_tagText hpasses.isName]
  · rw [hpasses.other name hname]
    exact Nat.zero_le 2

theorem PassesOn.not_blank (hname : name ∈ names) : strip (contextText context name) ≠ [] := by
  rw [hpasses.value name hname]
  exact strip_tagText_ne_nil _ _

/-- The further variable is read, and has no value. -/
theorem PassesOn.braces_lt (hfresh : fresh ∈ variableTags wordChar text) :
    braces (substituteVariables wordChar context text) < braces text := by
  have hcount := @braces_substituteVariables wordChar context hpasses.braces_value_le text
  have hvalue : contextText context fresh = [] := hpasses.other fresh hpasses.fresh_not_mem
  have hterm : 2 - braces (contextText context fresh) ∈
      (variableTags wordChar text).map fun name => 2 - braces (contextText context name) :=
    List.mem_map_of_mem (f := fun name => 2 - braces (contextText context name)) hfresh
  have hsum := List.single_le_sum (fun _ _ => Nat.zero_le _) _ hterm
  rw [hvalue] at hsum
  have htwo : 2 - braces [] = 2 := rfl
  omega

theorem PassesOn.fresh_mem (hname : name ∈ names) (htag : name ∈ variableTags wordChar text) :
    fresh ∈ variableTags wordChar (substituteVariables wordChar context text) := by
  apply (variableTags_substituteVariables text).subset
  refine List.mem_flatMap.mpr ⟨name, htag, ?_⟩
  rw [hpasses.value name hname, ← List.append_nil (tagText .value fresh),
    variableTags_tagText hpasses.isName, if_pos rfl]
  exact List.mem_cons_self

theorem PassesOn.braces_blocks_le (hnest : template.NoBlockInItself)
    (hreadable : Readable wordChar template.tokens) (hnames : template.names ⊆ names) :
    braces (substituteBlocks wordChar context (textOf template.tokens)) ≤
      braces (template.leftText fun _ => false) := by
  induction template with
  | done =>
    rw [Template.tokens, textOf, List.flatMap_nil, substituteBlocks]
    exact Nat.zero_le _
  | plain c rest ih =>
    cases hreadable with
    | plain hplain hrest =>
      have hle := ih hnest hrest hnames
      rw [Template.tokens, textOf_cons, Token.text, List.singleton_append,
        substituteBlocks_plain hplain, Template.leftText, braces_cons,
        braces_cons c (Template.leftText _ _)]
      omega
  | value name rest ih =>
    cases hreadable with
    | tag hname hrest =>
      have hle := ih hnest hrest (List.subset_of_cons_subset hnames)
      rw [Template.tokens, textOf_cons, Token.text,
        substituteBlocks_of_ne_opens (by decide) hname, Template.leftText, braces_append,
        braces_append]
      omega
  | block name inner rest ihInner ihRest =>
    obtain ⟨hname, hinner, hrest, _⟩ := hreadable.of_block
    have hlater := List.subset_of_cons_subset hnames
    have hleInner := ihInner hnest.2.1 hinner
      (List.Subset.trans (List.subset_append_left _ _) hlater)
    have hleRest := ihRest hnest.2.2 hrest (List.Subset.trans (List.subset_append_right _ _) hlater)
    have hread := @braces_substituteVariables_le wordChar context hpasses.braces_value_le
      (substituteBlocks wordChar context (textOf inner.tokens))
    rw [Template.block_passes hreadable hnest.1,
      if_neg (hpasses.not_blank (hnames List.mem_cons_self)), Template.leftText,
      if_neg Bool.false_ne_true, braces_append, braces_append]
    omega

/-- A variable in a block is read again, in the text around the block or before. -/
theorem PassesOn.reads_again (hnest : template.NoBlockInItself)
    (hreadable : Readable wordChar template.tokens) (hnames : template.names ⊆ names)
    (hinner : template.innerNames ≠ []) :
    braces (substituteBlocks wordChar context (textOf template.tokens)) <
        braces (template.leftText fun _ => false) ∨
      fresh ∈ variableTags wordChar
        (substituteBlocks wordChar context (textOf template.tokens)) := by
  induction template with
  | done => exact absurd rfl hinner
  | plain c rest ih =>
    cases hreadable with
    | plain hplain hrest =>
      rw [Template.tokens, textOf_cons, Token.text, List.singleton_append,
        substituteBlocks_plain hplain, Template.leftText, braces_cons,
        braces_cons c (Template.leftText _ _)]
      refine (ih hnest hrest hnames hinner).imp (fun hlt => by omega) fun hfresh => ?_
      exact (List.sublist_append_right _ _).subset hfresh
  | value name rest ih =>
    cases hreadable with
    | tag hname hrest =>
      rw [Template.tokens, textOf_cons, Token.text,
        substituteBlocks_of_ne_opens (by decide) hname, Template.leftText, braces_append,
        braces_append]
      refine (ih hnest hrest (List.subset_of_cons_subset hnames) hinner).imp
        (fun hlt => by omega) fun hfresh => ?_
      exact (variableTags_append _ _).subset (List.mem_append_right _ hfresh)
  | block name inner rest ihInner ihRest =>
    obtain ⟨hname, hreadInner, hrest, _⟩ := hreadable.of_block
    have hlater := List.subset_of_cons_subset hnames
    have hnamesInner := List.Subset.trans (List.subset_append_left _ _) hlater
    have hnamesRest := List.Subset.trans (List.subset_append_right _ _) hlater
    have hleInner := hpasses.braces_blocks_le hnest.2.1 hreadInner hnamesInner
    have hleRest := hpasses.braces_blocks_le hnest.2.2 hrest hnamesRest
    have hread := @braces_substituteVariables_le wordChar context hpasses.braces_value_le
      (substituteBlocks wordChar context (textOf inner.tokens))
    rw [Template.block_passes hreadable hnest.1,
      if_neg (hpasses.not_blank (hnames List.mem_cons_self)), Template.leftText,
      if_neg Bool.false_ne_true, braces_append, braces_append]
    by_cases hinnerRest : rest.innerNames = []
    · by_cases hinnerInner : inner.innerNames = []
      · -- a variable of this block: its value is a tag in the text around it
        have houter : inner.outerNames ≠ [] := by
          simpa [Template.innerNames, hinnerRest, hinnerInner] using hinner
        obtain ⟨other, hother⟩ := List.exists_mem_of_ne_nil _ houter
        have htag : other ∈ variableTags wordChar
            (substituteBlocks wordChar context (textOf inner.tokens)) :=
          (Template.outerNames_sublist_blocks hnest.2.1 hreadInner).subset hother
        have hfresh := hpasses.fresh_mem (hnamesInner (Template.outerNames_subset inner hother))
          htag
        exact Or.inr ((variableTags_append _ _).subset (List.mem_append_left _ hfresh))
      · -- a variable of a block inside this one
        cases ihInner hnest.2.1 hreadInner hnamesInner hinnerInner with
        | inl hlt => exact Or.inl (by omega)
        | inr hfresh =>
          have hlt := hpasses.braces_lt hfresh
          exact Or.inl (by omega)
    · refine (ihRest hnest.2.2 hrest hnamesRest hinnerRest).imp (fun hlt => by omega)
        fun hfresh => ?_
      exact (variableTags_append _ _).subset (List.mem_append_right _ hfresh)

/-- The meaning of the template has two braces for each variable. -/
theorem PassesOn.braces_evaluate (hreadable : Readable wordChar template.tokens)
    (hnames : template.names ⊆ names) :
    braces (template.evaluate context) = braces (template.leftText fun _ => false) := by
  induction template with
  | done => rfl
  | plain c rest ih =>
    cases hreadable with
    | plain _ hrest =>
      rw [Template.evaluate, Template.leftText, braces_cons, ih hrest hnames, ← braces_cons]
  | value name rest ih =>
    cases hreadable with
    | tag hname hrest =>
      rw [Template.evaluate, Template.leftText, braces_append, braces_append,
        ih hrest (List.subset_of_cons_subset hnames),
        hpasses.value name (hnames List.mem_cons_self), braces_tagText hpasses.isName,
        braces_tagText hname]
  | block name inner rest ihInner ihRest =>
    obtain ⟨_, hinner, hrest, _⟩ := hreadable.of_block
    have hlater := List.subset_of_cons_subset hnames
    rw [Template.evaluate, Template.leftText,
      if_neg (hpasses.not_blank (hnames List.mem_cons_self)), if_neg Bool.false_ne_true,
      braces_append, braces_append,
      ihInner hinner (List.Subset.trans (List.subset_append_left _ _) hlater),
      ihRest hrest (List.Subset.trans (List.subset_append_right _ _) hlater)]

end

end PassesOn

theorem exists_fresh (wordChar : CodePoint → Bool) (names : List PyStr) :
    ∃ fresh, IsName wordChar fresh ∧ fresh ∉ names := by
  refine ⟨List.replicate (names.flatten.length + 1) (CodePoint.ofChar 'v'),
    ⟨List.cons_ne_nil _ _, ?_⟩, ?_⟩
  · intro c hc
    rw [List.eq_of_mem_replicate hc]
    rfl
  · intro hmem
    have hle := (List.sublist_flatten_of_mem hmem).length_le
    rw [List.length_replicate] at hle
    omega

theorem exists_passesOn (wordChar : CodePoint → Bool) (names : List PyStr) :
    ∃ context fresh, PassesOn wordChar context names fresh := by
  obtain ⟨fresh, hfresh, hnot⟩ := exists_fresh wordChar names
  refine ⟨contextOf names fun _ => tagText .value fresh, fresh, hfresh, ?_, ?_, hnot⟩
  · intro name hname
    rw [contextText_contextOf, if_pos hname]
  · intro name hname
    rw [contextText_contextOf, if_neg hname]

/-- A body that renders verbatim has no variable in a block. -/
theorem RendersVerbatim.innerNames_eq_nil (htokens : tokenize wordChar body = template.tokens)
    (hnest : template.NoBlockInItself) (hverbatim : ∀ context,
      renderMessageTemplate wordChar context body = template.evaluate context) :
    template.innerNames = [] := by
  have hreadable : Readable wordChar template.tokens := htokens ▸ readable_tokenize body
  obtain rfl : textOf template.tokens = body := htokens ▸ textOf_tokenize body
  obtain ⟨context, fresh, hpasses⟩ := exists_passesOn wordChar template.names
  by_contra hinner
  have hrender := congrArg braces (hverbatim context)
  rw [renderMessageTemplate, hpasses.braces_evaluate hreadable (List.Subset.refl _)] at hrender
  have hle := hpasses.braces_blocks_le hnest hreadable (List.Subset.refl _)
  have hread := @braces_substituteVariables_le wordChar context hpasses.braces_value_le
    (substituteBlocks wordChar context (textOf template.tokens))
  cases hpasses.reads_again hnest hreadable (List.Subset.refl _) hinner with
  | inl hlt => omega
  | inr hmem =>
    have hlt := hpasses.braces_lt hmem
    omega

/-! ## Tags between the blocks -/

/-- No value has a brace, and the given variables are blank. -/
structure WithoutBraces (context : Dict PyStr PyStr) (names : List PyStr)
    (blank : PyStr → Bool) : Prop where
  value : ∀ name, braces (contextText context name) = 0
  blank_iff : ∀ name ∈ names, blank name = true ↔ strip (contextText context name) = []

theorem exists_withoutBraces (names : List PyStr) (blank : PyStr → Bool) :
    ∃ context, WithoutBraces context names blank := by
  refine ⟨contextOf (names.filter fun name => !blank name) fun _ => py "!", ?_, ?_⟩
  · intro name
    rw [contextText_contextOf]
    split <;> rfl
  · intro name hname
    rw [contextText_contextOf]
    cases hblank : blank name with
    | true => simp [hblank, strip, stripBy]
    | false =>
      rw [if_pos (List.mem_filter.mpr ⟨hname, by rw [hblank]; rfl⟩)]
      exact iff_of_false Bool.false_ne_true (by decide)

section WithoutBraces

variable {names : List PyStr} {blank : PyStr → Bool}

theorem WithoutBraces.braces_read (hfree : WithoutBraces context names blank) (text : PyStr) :
    braces (substituteVariables wordChar context text) +
      2 * (variableTags wordChar text).length = braces text := by
  rw [← @braces_substituteVariables wordChar context (fun name => by rw [hfree.value]; omega) text]
  have hterm : (fun name => 2 - braces (contextText context name)) = fun _ => 2 := by
    funext name
    rw [hfree.value]
  rw [hterm, List.map_const', List.sum_replicate, smul_eq_mul, Nat.mul_comm]

/-- What the block pass gives has at most the braces of the text that is left, and is
that text where it has all of them. -/
theorem WithoutBraces.blocks_eq (hfree : WithoutBraces context names blank)
    (hnest : template.NoBlockInItself) (hreadable : Readable wordChar template.tokens)
    (hnames : template.names ⊆ names) :
    braces (substituteBlocks wordChar context (textOf template.tokens)) ≤
        braces (template.leftText blank) ∧
      (braces (template.leftText blank) ≤
          braces (substituteBlocks wordChar context (textOf template.tokens)) →
        substituteBlocks wordChar context (textOf template.tokens) = template.leftText blank) := by
  induction template with
  | done =>
    rw [Template.tokens, textOf, List.flatMap_nil, substituteBlocks]
    exact ⟨le_rfl, fun _ => rfl⟩
  | plain c rest ih =>
    cases hreadable with
    | plain hplain hrest =>
      obtain ⟨hle, heq⟩ := ih hnest hrest hnames
      rw [Template.tokens, textOf_cons, Token.text, List.singleton_append,
        substituteBlocks_plain hplain, Template.leftText, braces_cons,
        braces_cons c (Template.leftText _ _)]
      exact ⟨by omega, fun hall => by rw [heq (by omega)]⟩
  | value name rest ih =>
    cases hreadable with
    | tag hname hrest =>
      obtain ⟨hle, heq⟩ := ih hnest hrest (List.subset_of_cons_subset hnames)
      rw [Template.tokens, textOf_cons, Token.text,
        substituteBlocks_of_ne_opens (by decide) hname, Template.leftText, braces_append,
        braces_append]
      exact ⟨by omega, fun hall => by rw [heq (by omega)]⟩
  | block name inner rest ihInner ihRest =>
    obtain ⟨hname, hinner, hrest, _⟩ := hreadable.of_block
    have hlater := List.subset_of_cons_subset hnames
    obtain ⟨hleInner, heqInner⟩ := ihInner hnest.2.1 hinner
      (List.Subset.trans (List.subset_append_left _ _) hlater)
    obtain ⟨hle, heq⟩ := ihRest hnest.2.2 hrest
      (List.Subset.trans (List.subset_append_right _ _) hlater)
    have hread := @WithoutBraces.braces_read wordChar context names blank hfree
      (substituteBlocks wordChar context (textOf inner.tokens))
    rw [Template.block_passes hreadable hnest.1, Template.leftText]
    have hblank := hfree.blank_iff name (hnames List.mem_cons_self)
    by_cases hkept : strip (contextText context name) = []
    · rw [if_pos hkept, if_pos (hblank.mpr hkept)]
      exact ⟨hle, fun hall => heq hall⟩
    · rw [if_neg hkept, if_neg (mt hblank.mp hkept), braces_append, braces_append]
      refine ⟨by omega, fun hall => ?_⟩
      rw [substituteVariables_of_tags_nil (by omega), heqInner (by omega), heq (by omega)]

theorem WithoutBraces.braces_evaluate (hfree : WithoutBraces context names blank)
    (hreadable : Readable wordChar template.tokens) (hnames : template.names ⊆ names)
    (hinner : template.innerNames = []) :
    braces (template.evaluate context) + 2 * template.outerNames.length =
      braces (template.leftText blank) := by
  induction template with
  | done => rfl
  | plain c rest ih =>
    cases hreadable with
    | plain _ hrest =>
      rw [Template.evaluate, Template.leftText, braces_cons, braces_cons c (rest.leftText _),
        ← ih hrest hnames hinner, Template.outerNames, Nat.add_assoc]
  | value name rest ih =>
    cases hreadable with
    | tag hname hrest =>
      rw [Template.evaluate, Template.leftText, Template.outerNames, braces_append,
        braces_append, hfree.value, braces_tagText hname,
        ← ih hrest (List.subset_of_cons_subset hnames) hinner, List.length_cons]
      omega
  | block name inner rest ihInner ihRest =>
    obtain ⟨_, hreadInner, hrest, _⟩ := hreadable.of_block
    have hlater := List.subset_of_cons_subset hnames
    rw [Template.innerNames, List.append_eq_nil_iff, List.append_eq_nil_iff] at hinner
    obtain ⟨⟨houter, hinnerInner⟩, hinnerRest⟩ := hinner
    have hcountInner := ihInner hreadInner
      (List.Subset.trans (List.subset_append_left _ _) hlater) hinnerInner
    have hcountRest := ihRest hrest
      (List.Subset.trans (List.subset_append_right _ _) hlater) hinnerRest
    have hblank := hfree.blank_iff name (hnames List.mem_cons_self)
    rw [houter, List.length_nil] at hcountInner
    rw [Template.evaluate, Template.leftText, Template.outerNames, braces_append, braces_append]
    by_cases hkept : strip (contextText context name) = []
    · rw [if_pos hkept, if_pos (hblank.mpr hkept)]
      omega
    · rw [if_neg hkept, if_neg (mt hblank.mp hkept)]
      omega

end WithoutBraces

/-- A body that renders verbatim leaves no tag but its outer variables. -/
theorem RendersVerbatim.variableTags_eq (htokens : tokenize wordChar body = template.tokens)
    (hnest : template.NoBlockInItself) (hinner : template.innerNames = []) (hverbatim : ∀ context,
      renderMessageTemplate wordChar context body = template.evaluate context)
    (blank : PyStr → Bool) :
    variableTags wordChar (template.leftText blank) = template.outerNames := by
  have hreadable : Readable wordChar template.tokens := htokens ▸ readable_tokenize body
  obtain rfl : textOf template.tokens = body := htokens ▸ textOf_tokenize body
  obtain ⟨context, hfree⟩ := exists_withoutBraces template.names blank
  have hrender := congrArg braces (hverbatim context)
  have hread := @WithoutBraces.braces_read wordChar context template.names blank hfree
    (substituteBlocks wordChar context (textOf template.tokens))
  have houter := (@Template.outerNames_sublist_blocks wordChar context template hnest
    hreadable).length_le
  have hcount := hfree.braces_evaluate hreadable (List.Subset.refl _) hinner
  obtain ⟨hle, heq⟩ := hfree.blocks_eq hnest hreadable (List.Subset.refl _)
  rw [renderMessageTemplate] at hrender
  have hblocks := heq (by omega)
  have hsublist := @Template.outerNames_sublist_blocks wordChar context template hnest hreadable
  rw [hblocks] at hsublist hread hrender
  exact (hsublist.eq_of_length (by omega)).symm

/-- A context that is read once renders verbatim.  A body does for every context exactly
when no block is in one of its own name and, whichever variables are blank, the text that
is left of it has no variable tag but its variables outside blocks. -/
theorem rendersVerbatim_iff {body : PyStr} {template : Template}
    (htokens : tokenize wordChar body = template.tokens) :
    (∀ context, template.Settled wordChar context →
        renderMessageTemplate wordChar context body = template.evaluate context) ∧
      (RendersVerbatim wordChar body template ↔
        template.NoBlockInItself ∧ ∀ blank : PyStr → Bool,
          variableTags wordChar (template.leftText blank) = template.outerNames) := by
  refine ⟨fun context hsettled => hsettled.render_eq htokens, ?_, ?_⟩
  · intro hrenders
    have hnest := RendersVerbatim.noBlockInItself htokens hrenders.verbatim
    have hinner := RendersVerbatim.innerNames_eq_nil htokens hnest hrenders.verbatim
    exact ⟨hnest, RendersVerbatim.variableTags_eq htokens hnest hinner hrenders.verbatim⟩
  · rintro ⟨hnest, htags⟩
    have hreadable : Readable wordChar template.tokens := htokens ▸ readable_tokenize body
    have hverbatim : ∀ context,
        renderMessageTemplate wordChar context body = template.evaluate context := by
      intro context
      obtain ⟨hblocks, hshown⟩ := @Template.settled_of_leftText wordChar context
        (fun name => decide (strip (contextText context name) = [])) template
        (fun name => decide_eq_true_iff) hnest hreadable (congrArg List.length (htags _))
      exact Template.Settled.render_eq htokens ⟨hblocks, hshown ▸ htags _⟩
    refine ⟨hverbatim, fun context other hagree => ?_⟩
    rw [hverbatim, hverbatim, template.evaluate_congr hagree]

end Counting

/-- A variable, and an exclamation mark where there is a cause. -/
def markedCase : Template :=
  .value (py "case_id") (.block (py "cause") (.plain (CodePoint.ofChar '!') .done) .done)

def markedBody : PyStr :=
  py "\x7b\x7bcase_id\x7d\x7d\x7b\x7b#cause\x7d\x7d!\x7b\x7b/cause\x7d\x7d"

theorem markedCase_rendersVerbatim : RendersVerbatim isDigit markedBody markedCase := by
  have htokens : tokenize isDigit markedBody = markedCase.tokens := by decide +kernel
  refine (rendersVerbatim_iff htokens).2.mpr ⟨⟨List.not_mem_nil, trivial, trivial⟩, ?_⟩
  intro blank
  simp only [markedCase, Template.leftText]
  cases blank (py "cause") <;> decide +kernel

/-- The problem of a case, where there is one. -/
def problemLine : Template :=
  .block (py "problem") (.value (py "problem") .done) .done

def problemBody : PyStr :=
  py "\x7b\x7b#problem\x7d\x7d\x7b\x7bproblem\x7d\x7d\x7b\x7b/problem\x7d\x7d"

def problemContext : Dict PyStr PyStr :=
  [(py "problem", py "\x7b\x7bcase_id\x7d\x7d"), (py "case_id", py "7")]

/-- The problem quotes a variable tag, which the outer variable pass replaces. -/
theorem problemLine_reads_value :
    tokenize isDigit problemBody = problemLine.tokens ∧
      renderMessageTemplate isDigit problemContext problemBody = py "7" ∧
      problemLine.evaluate problemContext = py "\x7b\x7bcase_id\x7d\x7d" := by
  decide +kernel

end RootSeeker.ChannelRouting
