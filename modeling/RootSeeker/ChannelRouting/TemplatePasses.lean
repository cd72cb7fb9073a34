import RootSeeker.ChannelRouting.TemplateSyntax

/-!
# The two passes over a template

What the variable pass and the block pass do to the tokens of a text.
-/

namespace RootSeeker.ChannelRouting

open Python

section Passes

variable {wordChar : CodePoint → Bool} {context : Dict PyStr PyStr}

/-! ## Variables -/

variable {sigil : Sigil} {name text : PyStr} {c : CodePoint} {rest : PyStr}

theorem substituteVariables_cons (hnone : tagAt wordChar (Sigil.opening .value) (c :: rest) = none) :
    substituteVariables wordChar context (c :: rest) =
      c :: substituteVariables wordChar context rest := by
  rw [substituteVariables]
  split
  · rename_i hfound
    exact absurd (hnone.symm.trans hfound) (by simp)
  · rfl

theorem substituteVariables_of_tagAt
    (htag : tagAt wordChar (Sigil.opening .value) text = some (name, rest)) :
    substituteVariables wordChar context text =
      contextText context name ++ substituteVariables wordChar context rest := by
  cases text with
  | nil => exact absurd (length_tagAt htag (by decide)) (by simp)
  | cons c later =>
    rw [substituteVariables]
    split
    · rename_i found after hfound
      obtain ⟨rfl, rfl⟩ := Prod.mk.inj (Option.some.inj (hfound.symm.trans htag))
      rfl
    · rename_i hnone
      exact absurd (hnone.symm.trans htag) (by simp)

/-- The variable tags of a text, in their order. -/
def variableTags (wordChar : CodePoint → Bool) : PyStr → List PyStr
  | [] => []
  | c :: rest =>
    ((tagAt wordChar (Sigil.opening .value) (c :: rest)).map Prod.fst).toList ++
      variableTags wordChar rest

theorem variableTags_cons (hnone : tagAt wordChar (Sigil.opening .value) (c :: rest) = none) :
    variableTags wordChar (c :: rest) = variableTags wordChar rest := by
  rw [variableTags, hnone, Option.map_none, Option.toList_none, List.nil_append]

theorem variableTags_tagText (hname : IsName wordChar name) (sigil : Sigil) (rest : PyStr) :
    variableTags wordChar (tagText sigil name ++ rest) =
      (if sigil = .value then [name] else []) ++ variableTags wordChar rest := by
  obtain ⟨inside, htext, hinside⟩ := @pass_inside wordChar _ (variableTags wordChar)
    (fun _ tags => tags)
    (fun c later hbegin => variableTags_cons (tagAt_eq_none_of_not_mayBegin hbegin .value))
    sigil name hname rest
  have hskip : ∀ inside : PyStr,
      inside.foldr (fun _ tags => tags) (variableTags wordChar rest) =
        variableTags wordChar rest := by
    intro inside
    induction inside with
    | nil => rfl
    | cons c inside ih => exact ih
  have htag : tagAt wordChar (Sigil.opening .value)
      (CodePoint.ofChar '\x7b' :: (inside ++ rest)) =
        if sigil = .value then some (name, rest) else none := by
    rw [← List.cons_append, ← htext]
    split
    · rename_i hsigil
      rw [hsigil]
      exact tagAt_tagText hname .value rest
    · rename_i hsigil
      exact tagAt_eq_none_of_ne (Ne.symm hsigil) hname rest
  rw [htext, List.cons_append, variableTags, htag, hinside, hskip]
  split <;> rfl

/-- The tags of a text stay tags in front of another text. -/
theorem variableTags_append (left right : PyStr) :
    (variableTags wordChar left ++ variableTags wordChar right).Sublist
      (variableTags wordChar (left ++ right)) := by
  induction left with
  | nil => exact List.Sublist.refl _
  | cons c left ih =>
    rw [variableTags, List.cons_append, variableTags, List.append_assoc]
    apply List.Sublist.append _ ih
    cases htag : tagAt wordChar (Sigil.opening .value) (c :: left) with
    | none => exact List.nil_sublist _
    | some found =>
      obtain ⟨hname, htext⟩ := tagAt_eq_some_iff.mp htag
      have hlonger : tagAt wordChar (Sigil.opening .value) (c :: (left ++ right)) =
          some (found.1, found.2 ++ right) := by
        rw [← List.cons_append, htext, ← tagText_append, List.append_assoc]
        exact tagAt_tagText hname .value _
      rw [hlonger]
      exact List.Sublist.refl _

/-- Only a tag behind `left` is read: the text before it stays. -/
theorem substituteVariables_append {left right : PyStr}
    (htags : (variableTags wordChar (left ++ right)).length =
      (variableTags wordChar right).length) :
    substituteVariables wordChar context (left ++ right) =
      left ++ substituteVariables wordChar context right := by
  induction left with
  | nil => rfl
  | cons c left ih =>
    have hmore := (@variableTags_append wordChar left right).length_le
    rw [List.length_append] at hmore
    rw [List.cons_append, variableTags, List.length_append] at htags
    cases htag : tagAt wordChar (Sigil.opening .value) (c :: (left ++ right)) with
    | none =>
      rw [List.cons_append, substituteVariables_cons htag, ih (by omega)]
      rfl
    | some found =>
      rw [htag] at htags
      simp only [Option.map_some, Option.toList_some, List.length_singleton] at htags
      omega

/-! ## Blocks -/

theorem splitFirst_cons {needle : PyStr} (hnone : ¬needle <+: c :: rest) :
    splitFirst needle (c :: rest) =
      (splitFirst needle rest).map fun parts => (c :: parts.1, parts.2) := by
  rw [splitFirst, if_neg (mt List.isPrefixOf_iff_prefix.mp hnone)]

theorem splitFirst_append (needle rest : PyStr) :
    splitFirst needle (needle ++ rest) = some ([], rest) := by
  cases needle with
  | nil => cases rest <;> rfl
  | cons c needle =>
    have hprefix := List.isPrefixOf_iff_prefix.mpr (List.prefix_append (c :: needle) rest)
    rw [List.cons_append] at hprefix ⊢
    rw [splitFirst, if_pos hprefix, ← List.cons_append, List.drop_left]

/-- The tag of one token is found neither in another nor across one. -/
theorem splitFirst_tagText {other : Sigil} {otherName : PyStr} (hname : IsName wordChar name)
    (hother : IsName wordChar otherName) (hne : Token.tag sigil name ≠ .tag other otherName)
    (rest : PyStr) :
    splitFirst (tagText sigil name) (tagText other otherName ++ rest) =
      (splitFirst (tagText sigil name) rest).map fun parts =>
        (tagText other otherName ++ parts.1, parts.2) := by
  have hbegin : MayBegin (tagText sigil name) := by
    rw [← List.append_nil (tagText sigil name)]
    exact mayBegin_tagText sigil name []
  have hpass := @pass_tagText wordChar _ (splitFirst (tagText sigil name))
    (fun c found => found.map fun parts => (c :: parts.1, parts.2))
    (fun c later hnot => splitFirst_cons fun hprefix => hnot (hbegin.trans hprefix))
    other otherName hother rest
  rw [hpass]
  · generalize splitFirst (tagText sigil name) rest = found
    induction tagText other otherName with
    | nil => cases found <;> rfl
    | cons c text ih =>
      rw [List.foldr_cons, ih, Option.map_map]
      rfl
  · intro c later hlater
    apply splitFirst_cons
    rintro ⟨after, hafter⟩
    obtain ⟨rfl, rfl, _⟩ := tagText_inj hname hother (hafter.trans hlater.symm)
    exact hne rfl

/-- The first occurrence of a tag is its first token. -/
theorem splitFirst_textOf (hname : IsName wordChar name) {before : List Token}
    (hbefore : Token.tag sigil name ∉ before) {rest : List Token}
    (hreadable : Readable wordChar (before ++ rest)) :
    splitFirst (tagText sigil name) (textOf (before ++ rest)) =
      (splitFirst (tagText sigil name) (textOf rest)).map fun parts =>
        (textOf before ++ parts.1, parts.2) := by
  induction before with
  | nil => exact Option.map_id'.symm
  | cons token before ih =>
    have hne : Token.tag sigil name ≠ token := fun heq => hbefore (heq ▸ List.mem_cons_self)
    have hlater : Token.tag sigil name ∉ before := fun hmem =>
      hbefore (List.mem_cons_of_mem _ hmem)
    rw [List.cons_append] at hreadable ⊢
    cases hreadable with
    | plain hplain hrest =>
      rw [textOf_cons, Token.text, List.singleton_append, splitFirst_cons, ih hlater hrest,
        Option.map_map]
      · rfl
      · rintro ⟨after, hafter⟩
        have htoken : tokenAt wordChar (tagText sigil name ++ after) =
            some (.tag sigil name, after) :=
          tokenAt_eq_some_iff.mpr ⟨sigil, name, rfl, hname, rfl⟩
        rw [hafter, hplain] at htoken
        exact absurd htoken (by simp)
    | tag hother hrest =>
      rw [textOf_cons, Token.text, splitFirst_tagText hname hother hne, ih hlater hrest,
        Option.map_map]
      simp only [textOf_cons, Token.text, List.append_assoc]
      rfl

theorem splitFirst_of_not_mem (hname : IsName wordChar name) {tokens : List Token}
    (hnot : Token.tag sigil name ∉ tokens) (hreadable : Readable wordChar tokens) :
    splitFirst (tagText sigil name) (textOf tokens) = none := by
  obtain ⟨d, word, htext, _⟩ := tagText_eq hname sigil
  have hnil : splitFirst (tagText sigil name) (textOf []) = none := by
    rw [htext]
    rfl
  have hsplit := @splitFirst_textOf wordChar sigil name hname tokens hnot []
  rw [List.append_nil, hnil] at hsplit
  exact hsplit hreadable

theorem splitFirst_at (hname : IsName wordChar name) {before rest : List Token}
    (hbefore : Token.tag sigil name ∉ before)
    (hreadable : Readable wordChar (before ++ .tag sigil name :: rest)) :
    splitFirst (tagText sigil name) (textOf (before ++ .tag sigil name :: rest)) =
      some (textOf before, textOf rest) := by
  rw [splitFirst_textOf hname hbefore hreadable, textOf_cons, Token.text, splitFirst_append]
  simp

theorem blockAt_tagText (hname : IsName wordChar name) (rest : PyStr) :
    blockAt wordChar (tagText .opens name ++ rest) =
      (splitFirst (tagText .closes name) rest).map fun parts => (name, parts.1, parts.2) := by
  have htag : tagAt wordChar "\x7b\x7b#" (tagText .opens name ++ rest) = some (name, rest) :=
    tagAt_tagText hname .opens rest
  have hneedle : py "\x7b\x7b/" ++ name ++ py "\x7d\x7d" = tagText .closes name :=
    List.append_assoc _ _ _
  rw [blockAt, htag]
  dsimp only
  rw [hneedle]

theorem blockAt_eq_none (hnone : tagAt wordChar (Sigil.opening .opens) text = none) :
    blockAt wordChar text = none := by
  have htag : tagAt wordChar "\x7b\x7b#" text = none := hnone
  rw [blockAt, htag]

theorem substituteBlocks_cons (hnone : blockAt wordChar (c :: rest) = none) :
    substituteBlocks wordChar context (c :: rest) =
      c :: substituteBlocks wordChar context rest := by
  rw [substituteBlocks]
  split
  · rename_i hfound
    exact absurd (hnone.symm.trans hfound) (by simp)
  · rfl

theorem substituteBlocks_of_blockAt {inner : PyStr}
    (hblock : blockAt wordChar text = some (name, inner, rest)) :
    substituteBlocks wordChar context text =
      (if strip (contextText context name) = [] then []
        else substituteVariables wordChar context (substituteBlocks wordChar context inner)) ++
          substituteBlocks wordChar context rest := by
  cases text with
  | nil => exact absurd (length_blockAt hblock).1 (by simp)
  | cons c later =>
    rw [substituteBlocks]
    split
    · rename_i found innerFound after hfound
      obtain ⟨rfl, hparts⟩ := Prod.mk.inj (Option.some.inj (hfound.symm.trans hblock))
      obtain ⟨rfl, rfl⟩ := Prod.mk.inj hparts
      rfl
    · rename_i hnone
      exact absurd (hnone.symm.trans hblock) (by simp)

/-- A tag that opens no block is kept. -/
theorem substituteBlocks_tagText (hname : IsName wordChar name)
    (hnone : blockAt wordChar (tagText sigil name ++ rest) = none) :
    substituteBlocks wordChar context (tagText sigil name ++ rest) =
      tagText sigil name ++ substituteBlocks wordChar context rest := by
  refine (pass_tagText (fun c later hbegin => ?_) hname fun c later hlater => ?_).trans
    List.foldr_cons_eq_append'
  · exact substituteBlocks_cons (blockAt_eq_none (tagAt_eq_none_of_not_mayBegin hbegin .opens))
  · exact substituteBlocks_cons (hlater ▸ hnone)

theorem substituteBlocks_plain (hplain : tokenAt wordChar (c :: rest) = none) :
    substituteBlocks wordChar context (c :: rest) = c :: substituteBlocks wordChar context rest :=
  substituteBlocks_cons (blockAt_eq_none (tagAt_eq_none_of_plain hplain .opens))

theorem substituteBlocks_of_ne_opens (hsigil : sigil ≠ .opens) (hname : IsName wordChar name)
    (rest : PyStr) :
    substituteBlocks wordChar context (tagText sigil name ++ rest) =
      tagText sigil name ++ substituteBlocks wordChar context rest :=
  substituteBlocks_tagText hname
    (blockAt_eq_none (tagAt_eq_none_of_ne hsigil.symm hname rest))

/-- An opening tag without a closing one is kept. -/
theorem substituteBlocks_unclosed (hname : IsName wordChar name) {rest : List Token}
    (hnot : Token.tag .closes name ∉ rest) (hreadable : Readable wordChar rest) :
    substituteBlocks wordChar context (tagText .opens name ++ textOf rest) =
      tagText .opens name ++ substituteBlocks wordChar context (textOf rest) := by
  apply substituteBlocks_tagText hname
  rw [blockAt_tagText hname, splitFirst_of_not_mem hname hnot hreadable, Option.map_none]

/-- An opening tag is paired with the first closing one of its name. -/
theorem substituteBlocks_block (hname : IsName wordChar name) {inner rest : List Token}
    (hinner : Token.tag .closes name ∉ inner)
    (hreadable : Readable wordChar (inner ++ .tag .closes name :: rest)) :
    substituteBlocks wordChar context
        (tagText .opens name ++ textOf (inner ++ .tag .closes name :: rest)) =
      (if strip (contextText context name) = [] then []
        else substituteVariables wordChar context
          (substituteBlocks wordChar context (textOf inner))) ++
            substituteBlocks wordChar context (textOf rest) := by
  apply substituteBlocks_of_blockAt
  rw [blockAt_tagText hname, splitFirst_at hname hinner hreadable, Option.map_some]

end Passes

end RootSeeker.ChannelRouting
