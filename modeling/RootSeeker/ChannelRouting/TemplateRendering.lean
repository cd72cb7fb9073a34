import RootSeeker.ChannelRouting.TemplatePasses

/-!
# The meaning of a template

The syntax tree of a template has a meaning of its own.  The two passes agree with
it where no block is inside one of its own name and no variable tag is left in or
between the blocks.
-/

namespace RootSeeker.ChannelRouting

open Python

inductive Template
  | done
  | plain (c : CodePoint) (rest : Template)
  | value (name : PyStr) (rest : Template)
  | block (name : PyStr) (inner rest : Template)

namespace Template

def tokens : Template → List Token
  | done => []
  | plain c rest => .plain c :: rest.tokens
  | value name rest => .tag .value name :: rest.tokens
  | block name inner rest => .tag .opens name :: (inner.tokens ++ .tag .closes name :: rest.tokens)

/-- The meaning of a template: blank blocks go, values stand for their variables. -/
def evaluate (context : Dict PyStr PyStr) : Template → PyStr
  | done => []
  | plain c rest => c :: rest.evaluate context
  | value name rest => contextText context name ++ rest.evaluate context
  | block name inner rest =>
    (if strip (contextText context name) = [] then [] else inner.evaluate context) ++
      rest.evaluate context

/-- The text that is left without the blank blocks and the tags of the other ones. -/
def leftText (blank : PyStr → Bool) : Template → PyStr
  | done => []
  | plain c rest => c :: rest.leftText blank
  | value name rest => tagText .value name ++ rest.leftText blank
  | block name inner rest =>
    (if blank name then [] else inner.leftText blank) ++ rest.leftText blank

/-- The variables outside blocks. -/
def outerNames : Template → List PyStr
  | done => []
  | plain _ rest => rest.outerNames
  | value name rest => name :: rest.outerNames
  | block _ _ rest => rest.outerNames

/-- The variables inside blocks. -/
def innerNames : Template → List PyStr
  | done => []
  | plain _ rest => rest.innerNames
  | value _ rest => rest.innerNames
  | block _ inner rest => inner.outerNames ++ inner.innerNames ++ rest.innerNames

def blockNames : Template → List PyStr
  | done => []
  | plain _ rest => rest.blockNames
  | value _ rest => rest.blockNames
  | block name inner rest => name :: (inner.blockNames ++ rest.blockNames)

/-- The names of all tags. -/
def names : Template → List PyStr
  | done => []
  | plain _ rest => rest.names
  | value name rest => name :: rest.names
  | block name inner rest => name :: (inner.names ++ rest.names)

def NoBlockInItself : Template → Prop
  | done => True
  | plain _ rest => rest.NoBlockInItself
  | value _ rest => rest.NoBlockInItself
  | block name inner rest => name ∉ inner.blockNames ∧ inner.NoBlockInItself ∧ rest.NoBlockInItself

/-- The text of a template with the given texts for its blocks. -/
def fill (inside : PyStr → Template → PyStr) : Template → PyStr
  | done => []
  | plain c rest => c :: rest.fill inside
  | value name rest => tagText .value name ++ rest.fill inside
  | block name inner rest => inside name inner ++ rest.fill inside

/-- The text that the variable pass should read: the blocks with their meaning. -/
def shownText (context : Dict PyStr PyStr) (template : Template) : PyStr :=
  template.fill fun name inner =>
    if strip (contextText context name) = [] then [] else inner.evaluate context

/-- Every block that is reached ends at its own tag, and no value or joined text in it
is read as a further variable. -/
def BlocksSettled (wordChar : CodePoint → Bool) (context : Dict PyStr PyStr) : Template → Prop
  | done => True
  | plain _ rest => rest.BlocksSettled wordChar context
  | value _ rest => rest.BlocksSettled wordChar context
  | block name inner rest =>
    name ∉ inner.blockNames ∧
      (strip (contextText context name) ≠ [] → inner.BlocksSettled wordChar context ∧
        variableTags wordChar (inner.shownText context) = inner.outerNames) ∧
      rest.BlocksSettled wordChar context

/-- The context is read once: at every level the variables of the template are the only
tags. -/
def Settled (wordChar : CodePoint → Bool) (context : Dict PyStr PyStr) (template : Template) :
    Prop :=
  template.BlocksSettled wordChar context ∧
    variableTags wordChar (template.shownText context) = template.outerNames

theorem outerNames_subset (template : Template) : template.outerNames ⊆ template.names := by
  induction template with
  | done => exact List.Subset.refl _
  | plain c rest ih => exact ih
  | value name rest ih => exact List.cons_subset_cons name ih
  | block name inner rest _ ih =>
    exact List.Subset.trans ih (List.Subset.trans (List.subset_append_right _ _)
      (List.subset_cons_self _ _))

theorem evaluate_congr {context other : Dict PyStr PyStr} {template : Template}
    (hagree : ∀ name ∈ template.names, context.get? name = other.get? name) :
    template.evaluate context = template.evaluate other := by
  induction template with
  | done => rfl
  | plain c rest ih => rw [evaluate, evaluate, ih hagree]
  | value name rest ih =>
    obtain ⟨hname, hrest⟩ := List.forall_mem_cons.mp hagree
    rw [evaluate, evaluate, contextText, contextText, hname, ih hrest]
  | block name inner rest ihInner ihRest =>
    obtain ⟨hname, hlater⟩ := List.forall_mem_cons.mp hagree
    obtain ⟨hinner, hrest⟩ := List.forall_mem_append.mp hlater
    rw [evaluate, evaluate, contextText, contextText, hname, ihInner hinner, ihRest hrest]

end Template

/-- The renderer does what the syntax tree of the body means, and looks at no other
variables. -/
structure RendersVerbatim (wordChar : CodePoint → Bool) (body : PyStr) (template : Template) :
    Prop where
  verbatim : ∀ context, renderMessageTemplate wordChar context body = template.evaluate context
  relevant : ∀ context other,
    (∀ name ∈ template.names, context.get? name = other.get? name) →
      renderMessageTemplate wordChar context body = renderMessageTemplate wordChar other body

section Rendering

variable {wordChar : CodePoint → Bool} {context : Dict PyStr PyStr} {blank : PyStr → Bool}

/-! ## The tokens of a block -/

theorem Template.mem_tokens_iff {name : PyStr} {sigil : Sigil} (hsigil : sigil ≠ .value)
    (template : Template) :
    Token.tag sigil name ∈ template.tokens ↔ name ∈ template.blockNames := by
  induction template with
  | done => exact iff_of_false List.not_mem_nil List.not_mem_nil
  | plain c rest ih => simpa [Template.tokens, Template.blockNames] using ih
  | value other rest ih => simpa [Template.tokens, Template.blockNames, hsigil] using ih
  | block other inner rest ihInner ihRest =>
    rw [Template.tokens, Template.blockNames, List.mem_cons, List.mem_append, List.mem_cons,
      List.mem_cons, List.mem_append, ihInner, ihRest]
    cases sigil with
    | value => exact absurd rfl hsigil
    | opens => simp
    | closes => simp; tauto

theorem Readable.of_block {name : PyStr} {inner rest : Template}
    (hreadable : Readable wordChar (Template.block name inner rest).tokens) :
    IsName wordChar name ∧ Readable wordChar inner.tokens ∧ Readable wordChar rest.tokens ∧
      Readable wordChar (inner.tokens ++ .tag .closes name :: rest.tokens) := by
  cases hreadable with
  | tag hname hlater =>
    obtain ⟨hinner, hclosed⟩ := hlater.of_append
    cases hclosed with
    | tag _ hrest => exact ⟨hname, hinner, hrest, hlater⟩

/-! ## Sufficiency -/

theorem Template.outerNames_sublist_fill {template : Template}
    (hreadable : Readable wordChar template.tokens) (inside : PyStr → Template → PyStr) :
    template.outerNames.Sublist (variableTags wordChar (template.fill inside)) := by
  induction template with
  | done => exact List.Sublist.refl _
  | plain c rest ih =>
    cases hreadable with
    | plain _ hrest => exact (ih hrest).trans (List.sublist_append_right _ _)
  | value name rest ih =>
    cases hreadable with
    | tag hname hrest =>
      rw [Template.fill, variableTags_tagText hname]
      exact (ih hrest).cons_cons name
  | block name inner rest ihInner ihRest =>
    have hrest := ihRest hreadable.of_block.2.2.1
    exact (hrest.trans (List.sublist_append_right _ _)).trans (variableTags_append _ _)

theorem Template.leftText_eq_fill (template : Template) :
    template.leftText blank =
      template.fill fun name inner => if blank name then [] else inner.leftText blank := by
  induction template with
  | done => rfl
  | plain c rest ih => rw [Template.leftText, Template.fill, ih]
  | value name rest ih => rw [Template.leftText, Template.fill, ih]
  | block name inner rest _ ih => rw [Template.leftText, Template.fill, ih]

/-- Where no block is in one of its own name, the blocks of the tree are those the pass
finds. -/
theorem Template.substituteBlocks_eq_fill {template : Template}
    (hnest : template.NoBlockInItself) (hreadable : Readable wordChar template.tokens) :
    substituteBlocks wordChar context (textOf template.tokens) =
      template.fill fun name inner =>
        if strip (contextText context name) = [] then []
        else substituteVariables wordChar context
          (substituteBlocks wordChar context (textOf inner.tokens)) := by
  induction template with
  | done => rw [Template.tokens, textOf, List.flatMap_nil, substituteBlocks, Template.fill]
  | plain c rest ih =>
    cases hreadable with
    | plain hplain hrest =>
      rw [Template.tokens, textOf_cons, Token.text, List.singleton_append,
        substituteBlocks_plain hplain, ih hnest hrest, Template.fill]
  | value name rest ih =>
    cases hreadable with
    | tag hname hrest =>
      rw [Template.tokens, textOf_cons, Token.text,
        substituteBlocks_of_ne_opens (by decide) hname, ih hnest hrest, Template.fill]
  | block name inner rest _ ih =>
    obtain ⟨hfree, _, hnestRest⟩ := hnest
    obtain ⟨hname, _, hrest, hlater⟩ := hreadable.of_block
    have hclosing : Token.tag .closes name ∉ inner.tokens :=
      mt (Template.mem_tokens_iff (by decide) inner).mp hfree
    rw [Template.tokens, textOf_cons, Token.text,
      substituteBlocks_block hname hclosing hlater, ih hnestRest hrest, Template.fill]

theorem Template.outerNames_sublist_blocks {template : Template}
    (hnest : template.NoBlockInItself) (hreadable : Readable wordChar template.tokens) :
    template.outerNames.Sublist
      (variableTags wordChar (substituteBlocks wordChar context (textOf template.tokens))) := by
  rw [substituteBlocks_eq_fill hnest hreadable]
  exact outerNames_sublist_fill hreadable _

/-- A text without variable tags stays. -/
theorem substituteVariables_of_tags_nil {text : PyStr}
    (htags : (variableTags wordChar text).length = 0) :
    substituteVariables wordChar context text = text := by
  have happend : substituteVariables wordChar context (text ++ []) =
      text ++ substituteVariables wordChar context [] :=
    substituteVariables_append (by rw [List.append_nil, htags]; rfl)
  rwa [substituteVariables, List.append_nil] at happend

theorem Template.outerNames_length_le {template : Template}
    (hreadable : Readable wordChar template.tokens) :
    template.outerNames.length ≤ (variableTags wordChar (template.leftText blank)).length := by
  rw [leftText_eq_fill]
  exact (outerNames_sublist_fill hreadable _).length_le

theorem length_variableTags_append (left right : PyStr) :
    (variableTags wordChar left).length + (variableTags wordChar right).length ≤
      (variableTags wordChar (left ++ right)).length := by
  rw [← List.length_append]
  exact (variableTags_append left right).length_le

/-- Where a block has no block of its name, the pass finds the whole block. -/
theorem Template.block_passes {name : PyStr} {inner rest : Template}
    (hreadable : Readable wordChar (Template.block name inner rest).tokens)
    (hfree : name ∉ inner.blockNames) :
    substituteBlocks wordChar context (textOf (Template.block name inner rest).tokens) =
      (if strip (contextText context name) = [] then []
        else substituteVariables wordChar context
          (substituteBlocks wordChar context (textOf inner.tokens))) ++
        substituteBlocks wordChar context (textOf rest.tokens) := by
  obtain ⟨hname, _, _, hlater⟩ := hreadable.of_block
  have hclosing : Token.tag .closes name ∉ inner.tokens :=
    mt (Template.mem_tokens_iff (by decide) inner).mp hfree
  rw [tokens, textOf_cons, Token.text, substituteBlocks_block hname hclosing hlater]

/-- With no tag but the outer variables, the variable pass does what the tree means. -/
theorem Template.substituteVariables_shownText {template : Template}
    (hreadable : Readable wordChar template.tokens)
    (htags : (variableTags wordChar (template.shownText context)).length =
      template.outerNames.length) :
    substituteVariables wordChar context (template.shownText context) =
      template.evaluate context := by
  have happend : ∀ (shown : PyStr) (rest : Template), Readable wordChar rest.tokens →
      (variableTags wordChar (shown ++ rest.shownText context)).length =
        rest.outerNames.length →
      (variableTags wordChar (rest.shownText context)).length = rest.outerNames.length ∧
        substituteVariables wordChar context (shown ++ rest.shownText context) =
          shown ++ substituteVariables wordChar context (rest.shownText context) := by
    intro shown rest hrest hlength
    have hbound := @length_variableTags_append wordChar shown (rest.shownText context)
    have houter := (@outerNames_sublist_fill wordChar rest hrest fun name inner =>
      if strip (contextText context name) = [] then [] else inner.evaluate context).length_le
    rw [← shownText] at houter
    exact ⟨by omega, substituteVariables_append (by omega)⟩
  induction template with
  | done => exact substituteVariables_of_tags_nil rfl
  | plain c rest ih =>
    cases hreadable with
    | plain _ hrest =>
      obtain ⟨hlength, hvariables⟩ := happend [c] rest hrest htags
      rw [evaluate, ← ih hrest hlength]
      exact hvariables
  | value name rest ih =>
    cases hreadable with
    | tag hname hrest =>
      rw [shownText, fill, outerNames, variableTags_tagText hname, if_pos rfl,
        List.singleton_append, List.length_cons, List.length_cons, Nat.succ_inj] at htags
      rw [shownText, fill, evaluate,
        substituteVariables_of_tagAt (tagAt_tagText hname .value _), ← ih hrest htags,
        shownText]
  | block name inner rest _ ih =>
    obtain ⟨hlength, hvariables⟩ := happend _ rest hreadable.of_block.2.2.1 htags
    rw [evaluate, ← ih hreadable.of_block.2.2.1 hlength]
    exact hvariables

/-- Where the context is read once, the block pass shows each block with its meaning. -/
theorem Template.substituteBlocks_of_blocksSettled {template : Template}
    (hreadable : Readable wordChar template.tokens)
    (hsettled : template.BlocksSettled wordChar context) :
    substituteBlocks wordChar context (textOf template.tokens) = template.shownText context := by
  induction template with
  | done =>
    rw [tokens, textOf, List.flatMap_nil, substituteBlocks]
    rfl
  | plain c rest ih =>
    cases hreadable with
    | plain hplain hrest =>
      rw [tokens, textOf_cons, Token.text, List.singleton_append,
        substituteBlocks_plain hplain, ih hrest hsettled]
      rfl
  | value name rest ih =>
    cases hreadable with
    | tag hname hrest =>
      rw [tokens, textOf_cons, Token.text, substituteBlocks_of_ne_opens (by decide) hname,
        ih hrest hsettled]
      rfl
  | block name inner rest ihInner ihRest =>
    obtain ⟨hfree, hinside, hsettledRest⟩ := hsettled
    obtain ⟨_, hinner, hrest, _⟩ := hreadable.of_block
    rw [block_passes hreadable hfree, ihRest hrest hsettledRest, shownText, shownText, fill]
    congr 1
    split
    · rfl
    · rename_i hkept
      obtain ⟨hsettledInner, htags⟩ := hinside hkept
      rw [ihInner hinner hsettledInner,
        substituteVariables_shownText hinner (congrArg List.length htags)]

/-- A context that is read once renders verbatim. -/
theorem Template.Settled.render_eq {body : PyStr} {template : Template}
    (htokens : tokenize wordChar body = template.tokens)
    (hsettled : template.Settled wordChar context) :
    renderMessageTemplate wordChar context body = template.evaluate context := by
  have hreadable : Readable wordChar template.tokens := htokens ▸ readable_tokenize body
  obtain rfl : textOf template.tokens = body := htokens ▸ textOf_tokenize body
  rw [renderMessageTemplate, substituteBlocks_of_blocksSettled hreadable hsettled.1,
    substituteVariables_shownText hreadable (congrArg List.length hsettled.2)]

/-- Where nothing but the outer variables is left to read, every context is read once. -/
theorem Template.settled_of_leftText {template : Template}
    (hblank : ∀ name, blank name = true ↔ strip (contextText context name) = [])
    (hnest : template.NoBlockInItself) (hreadable : Readable wordChar template.tokens)
    (htags : (variableTags wordChar (template.leftText blank)).length =
      template.outerNames.length) :
    template.BlocksSettled wordChar context ∧
      template.shownText context = template.leftText blank := by
  induction template with
  | done => exact ⟨trivial, rfl⟩
  | plain c rest ih =>
    cases hreadable with
    | plain _ hrest =>
      have hbound := @length_variableTags_append wordChar [c] (rest.leftText blank)
      have houter := @outerNames_length_le wordChar blank rest hrest
      rw [leftText, outerNames] at htags
      rw [List.singleton_append, htags] at hbound
      obtain ⟨hsettled, hshown⟩ := ih hnest hrest (by omega)
      exact ⟨hsettled, congrArg (List.cons c) hshown⟩
  | value name rest ih =>
    cases hreadable with
    | tag hname hrest =>
      rw [leftText, outerNames, variableTags_tagText hname, if_pos rfl,
        List.singleton_append, List.length_cons, List.length_cons, Nat.succ_inj] at htags
      obtain ⟨hsettled, hshown⟩ := ih hnest hrest htags
      exact ⟨hsettled, congrArg (tagText .value name ++ ·) hshown⟩
  | block name inner rest ihInner ihRest =>
    obtain ⟨_, hinner, hrest, _⟩ := hreadable.of_block
    obtain ⟨hfree, hnestInner, hnestRest⟩ := hnest
    have houter := @outerNames_length_le wordChar blank rest hrest
    have hbound := @length_variableTags_append wordChar
      (if blank name then [] else inner.leftText blank) (rest.leftText blank)
    rw [leftText, outerNames] at htags
    obtain ⟨hsettled, hshown⟩ := ihRest hnestRest hrest (by omega)
    have hunfold : (Template.block name inner rest).shownText context =
        (if strip (contextText context name) = [] then [] else inner.evaluate context) ++
          rest.shownText context := rfl
    rw [BlocksSettled, hunfold, hshown, leftText]
    by_cases hkept : strip (contextText context name) = []
    · rw [if_pos hkept, if_pos ((hblank name).mpr hkept)]
      exact ⟨⟨hfree, fun hne => absurd hkept hne, hsettled⟩, rfl⟩
    · rw [if_neg (mt (hblank name).mp hkept)] at htags hbound
      have hinnerOuter := @outerNames_length_le wordChar blank inner hinner
      have hnil : inner.outerNames = [] := List.eq_nil_of_length_eq_zero (by omega)
      obtain ⟨hsettledInner, hshownInner⟩ := ihInner hnestInner hinner (by omega)
      have hleft : (variableTags wordChar (inner.leftText blank)).length = 0 := by omega
      have hmeaning : inner.evaluate context = inner.leftText blank := by
        rw [← substituteVariables_shownText hinner (by rw [hshownInner]; omega), hshownInner,
          substituteVariables_of_tags_nil hleft]
      rw [if_neg hkept, if_neg (mt (hblank name).mp hkept), hmeaning]
      refine ⟨⟨hfree, fun _ => ⟨hsettledInner, ?_⟩, hsettled⟩, rfl⟩
      rw [hshownInner, hnil, List.eq_nil_of_length_eq_zero hleft]

end Rendering

end RootSeeker.ChannelRouting
