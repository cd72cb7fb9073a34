import RootSeeker.ChannelRouting.NotifyDispatch
import RootSeeker.Core.Framing

/-!
# The syntax of message templates

A template is read as characters and tags, from left to right.  A tag has braces at
its ends only, so tags never overlap, and what stands between two tags can be read
on its own.
-/

namespace RootSeeker.ChannelRouting

open Python

inductive Sigil
  | value
  | opens
  | closes
  deriving DecidableEq

def Sigil.opening : Sigil → String
  | .value => "\x7b\x7b"
  | .opens => "\x7b\x7b#"
  | .closes => "\x7b\x7b/"

inductive Token
  | plain (c : CodePoint)
  | tag (sigil : Sigil) (name : PyStr)
  deriving DecidableEq

def tagText (sigil : Sigil) (name : PyStr) : PyStr :=
  py sigil.opening ++ (name ++ py "\x7d\x7d")

def Token.text : Token → PyStr
  | .plain c => [c]
  | .tag sigil name => tagText sigil name

def textOf (tokens : List Token) : PyStr :=
  tokens.flatMap Token.text

section Reading

variable (wordChar : CodePoint → Bool)

def IsName (name : PyStr) : Prop :=
  name ≠ [] ∧ ∀ c ∈ name, isWordChar wordChar c = true

/-- The tag at the beginning of the text, and the rest. -/
def tokenAt (text : PyStr) : Option (Token × PyStr) :=
  [Sigil.value, .opens, .closes].findSome? fun sigil =>
    (tagAt wordChar sigil.opening text).map fun found => (.tag sigil found.1, found.2)

variable {wordChar}

/-- Braces and sigils are no part of a name. -/
theorem not_word_of_mem {c : CodePoint} (hc : c ∈ py "\x7b\x7d#/") :
    isWordChar wordChar c = false := by
  have hall : (py "\x7b\x7d#/").all (fun c => isAscii c && !isWordChar (fun _ => true) c) =
      true := by decide
  have hboth := List.all_eq_true.mp hall c hc
  rw [Bool.and_eq_true, Bool.not_eq_true'] at hboth
  obtain ⟨hascii, hword⟩ := hboth
  rw [isWordChar, if_pos hascii] at hword ⊢
  exact hword

theorem tagAt_eq_some_iff {opening : String} {text name rest : PyStr} :
    tagAt wordChar opening text = some (name, rest) ↔
      IsName wordChar name ∧ text = py opening ++ (name ++ (py "\x7d\x7d" ++ rest)) := by
  rw [tagAt]
  constructor
  · intro htag
    split at htag
    · rename_i hprefix
      obtain ⟨body, rfl⟩ := List.isPrefixOf_iff_prefix.mp hprefix
      rw [List.drop_left] at htag
      dsimp only at htag
      split at htag
      · rename_i hfound
        obtain ⟨hname, hclosed⟩ := hfound
        obtain ⟨rfl, rfl⟩ := Prod.mk.inj (Option.some.inj htag)
        obtain ⟨after, hafter⟩ := List.isPrefixOf_iff_prefix.mp hclosed
        refine ⟨⟨hname, fun c hc => List.mem_takeWhile_imp hc⟩, ?_⟩
        have hdrop : (body.dropWhile (isWordChar wordChar)).drop 2 = after := by
          rw [← hafter]
          rfl
        rw [hdrop, hafter, List.takeWhile_append_dropWhile]
      · exact absurd htag (by simp)
    · exact absurd htag (by simp)
  · rintro ⟨⟨hne, hword⟩, rfl⟩
    have hstop : ∀ c ∈ (py "\x7d\x7d" ++ rest).head?, isWordChar wordChar c = false := by
      intro c hc
      obtain rfl := Option.some.inj hc
      exact not_word_of_mem (by decide)
    have hname : (name ++ (py "\x7d\x7d" ++ rest)).takeWhile (isWordChar wordChar) = name :=
      Framing.takeWhile_append hword hstop
    have hclosed : (name ++ (py "\x7d\x7d" ++ rest)).dropWhile (isWordChar wordChar) =
        py "\x7d\x7d" ++ rest := by
      have hsplit := List.takeWhile_append_dropWhile (p := isWordChar wordChar)
        (l := name ++ (py "\x7d\x7d" ++ rest))
      rw [hname] at hsplit
      exact List.append_cancel_left hsplit
    rw [if_pos (List.isPrefixOf_iff_prefix.mpr (List.prefix_append _ _)), List.drop_left]
    dsimp only
    rw [hname, hclosed, if_pos ⟨hne, List.isPrefixOf_iff_prefix.mpr (List.prefix_append _ _)⟩]
    rfl

theorem tagText_append (sigil : Sigil) (name rest : PyStr) :
    tagText sigil name ++ rest = py sigil.opening ++ (name ++ (py "\x7d\x7d" ++ rest)) := by
  rw [tagText, List.append_assoc, List.append_assoc]

theorem tagAt_tagText {name : PyStr} (hname : IsName wordChar name) (sigil : Sigil) (rest : PyStr) :
    tagAt wordChar sigil.opening (tagText sigil name ++ rest) = some (name, rest) :=
  tagAt_eq_some_iff.mpr ⟨hname, tagText_append sigil name rest⟩

/-- A tag says what it is. -/
theorem tagText_inj {sigil other : Sigil} {name otherName rest otherRest : PyStr}
    (hname : IsName wordChar name) (hother : IsName wordChar otherName)
    (heq : tagText sigil name ++ rest = tagText other otherName ++ otherRest) :
    sigil = other ∧ name = otherName ∧ rest = otherRest := by
  have hsame : ∀ {sigil : Sigil},
      tagText sigil name ++ rest = tagText sigil otherName ++ otherRest →
        name = otherName ∧ rest = otherRest := by
    intro sigil heq
    have hread := tagAt_tagText hname sigil rest
    rw [heq, tagAt_tagText hother] at hread
    obtain ⟨hnames, hrests⟩ := Prod.mk.inj (Option.some.inj hread)
    exact ⟨hnames.symm, hrests.symm⟩
  obtain ⟨hne, hword⟩ := hname
  obtain ⟨hneOther, hwordOther⟩ := hother
  obtain ⟨c, name, rfl⟩ := List.exists_cons_of_ne_nil hne
  obtain ⟨d, otherName, rfl⟩ := List.exists_cons_of_ne_nil hneOther
  have hc := hword c List.mem_cons_self
  have hd := hwordOther d List.mem_cons_self
  have hnumber : ∀ c, isWordChar wordChar c = true → c ≠ CodePoint.ofChar '#' := by
    rintro _ hsharp rfl
    rw [not_word_of_mem (by decide)] at hsharp
    exact absurd hsharp (by simp)
  have hslash : ∀ c, isWordChar wordChar c = true → c ≠ CodePoint.ofChar '/' := by
    rintro _ hsharp rfl
    rw [not_word_of_mem (by decide)] at hsharp
    exact absurd hsharp (by simp)
  by_cases hsigil : sigil = other
  · subst hsigil
    exact ⟨rfl, hsame heq⟩
  · have hthird := congrArg (fun text => text[2]?) heq
    cases sigil <;> cases other <;> first
      | exact absurd rfl hsigil
      | exact absurd (Option.some.inj hthird) (hnumber c hc)
      | exact absurd (Option.some.inj hthird).symm (hnumber d hd)
      | exact absurd (Option.some.inj hthird) (hslash c hc)
      | exact absurd (Option.some.inj hthird).symm (hslash d hd)
      | exact absurd (Option.some.inj hthird) (by decide)

theorem tokenAt_eq_some_iff {text rest : PyStr} {token : Token} :
    tokenAt wordChar text = some (token, rest) ↔
      ∃ sigil name, token = .tag sigil name ∧ IsName wordChar name ∧
        text = tagText sigil name ++ rest := by
  have hsound : ∀ {sigil : Sigil} {found : Token × PyStr},
      (tagAt wordChar sigil.opening text).map (fun found => (Token.tag sigil found.1, found.2)) =
        some found → ∃ name, found.1 = .tag sigil name ∧ IsName wordChar name ∧
          text = tagText sigil name ++ found.2 := by
    intro sigil found hfound
    obtain ⟨⟨name, rest⟩, htag, rfl⟩ := Option.map_eq_some_iff.mp hfound
    obtain ⟨hname, htext⟩ := tagAt_eq_some_iff.mp htag
    exact ⟨name, rfl, hname, htext.trans (tagText_append sigil name rest).symm⟩
  constructor
  · intro htoken
    obtain ⟨sigil, _, hfound⟩ := List.exists_of_findSome?_eq_some htoken
    obtain ⟨name, htag⟩ := hsound hfound
    exact ⟨sigil, name, htag⟩
  · rintro ⟨sigil, name, rfl, hname, htext⟩
    have htag : (tagAt wordChar sigil.opening text).map
        (fun found => (Token.tag sigil found.1, found.2)) = some (.tag sigil name, rest) := by
      rw [htext, tagAt_tagText hname]
      rfl
    cases hread : tokenAt wordChar text with
    | none =>
      have hnone := List.findSome?_eq_none_iff.mp hread sigil (by cases sigil <;> simp)
      exact absurd (htag.symm.trans hnone) (by simp)
    | some found =>
      obtain ⟨other, _, hfound⟩ := List.exists_of_findSome?_eq_some hread
      obtain ⟨otherName, hother, hotherName, hotherText⟩ := hsound hfound
      obtain ⟨rfl, rfl, hrest⟩ := tagText_inj hname hotherName (htext.symm.trans hotherText)
      rw [hrest, ← hother]

theorem length_tokenAt {text rest : PyStr} {token : Token}
    (htoken : tokenAt wordChar text = some (token, rest)) : rest.length < text.length := by
  obtain ⟨sigil, name, _, _, rfl⟩ := tokenAt_eq_some_iff.mp htoken
  have hopening : 0 < (py sigil.opening).length := by cases sigil <;> decide
  rw [tagText, List.append_assoc, List.length_append, List.length_append]
  omega

theorem tokenAt_append {text rest : PyStr} {token : Token}
    (htoken : tokenAt wordChar text = some (token, rest)) (more : PyStr) :
    tokenAt wordChar (text ++ more) = some (token, rest ++ more) := by
  obtain ⟨sigil, name, rfl, hname, rfl⟩ := tokenAt_eq_some_iff.mp htoken
  exact tokenAt_eq_some_iff.mpr ⟨sigil, name, rfl, hname, List.append_assoc _ _ _⟩

variable (wordChar)

def tokenize (text : PyStr) : List Token :=
  match text with
  | [] => []
  | c :: rest =>
    match _ : tokenAt wordChar (c :: rest) with
    | some (token, after) => token :: tokenize after
    | none => .plain c :: tokenize rest
  termination_by text.length
  decreasing_by
    · exact length_tokenAt ‹_›
    · simp

/-- The tokens that are read in their own text: no character in it begins a tag. -/
inductive Readable : List Token → Prop
  | nil : Readable []
  | plain {c : CodePoint} {rest : List Token} :
      tokenAt wordChar (c :: textOf rest) = none → Readable rest → Readable (.plain c :: rest)
  | tag {sigil : Sigil} {name : PyStr} {rest : List Token} :
      IsName wordChar name → Readable rest → Readable (.tag sigil name :: rest)

variable {wordChar}

theorem textOf_cons (token : Token) (rest : List Token) :
    textOf (token :: rest) = token.text ++ textOf rest := rfl

theorem textOf_append (left right : List Token) :
    textOf (left ++ right) = textOf left ++ textOf right :=
  List.flatMap_append

theorem tokenize_tag {name : PyStr} (hname : IsName wordChar name) (sigil : Sigil) (rest : PyStr) :
    tokenize wordChar (tagText sigil name ++ rest) = .tag sigil name :: tokenize wordChar rest := by
  have htoken : tokenAt wordChar (tagText sigil name ++ rest) = some (.tag sigil name, rest) :=
    tokenAt_eq_some_iff.mpr ⟨sigil, name, rfl, hname, rfl⟩
  cases htext : tagText sigil name ++ rest with
  | nil =>
    rw [htext] at htoken
    exact absurd (length_tokenAt htoken) (by simp)
  | cons c later =>
    rw [htext] at htoken
    rw [tokenize]
    split
    · rename_i token after hfound
      obtain ⟨rfl, rfl⟩ := Prod.mk.inj (Option.some.inj (hfound.symm.trans htoken))
      rfl
    · rename_i hnone
      exact absurd (hnone.symm.trans htoken) (by simp)

theorem tokenize_plain {c : CodePoint} {rest : PyStr} (hplain : tokenAt wordChar (c :: rest) = none) :
    tokenize wordChar (c :: rest) = .plain c :: tokenize wordChar rest := by
  rw [tokenize]
  split
  · rename_i token after hfound
    exact absurd (hplain.symm.trans hfound) (by simp)
  · rfl

/-- Reading loses nothing. -/
theorem textOf_tokenize (text : PyStr) : textOf (tokenize wordChar text) = text := by
  induction text using tokenize.induct wordChar with
  | case1 => rw [tokenize, textOf, List.flatMap_nil]
  | case2 c rest token after htoken ih =>
    obtain ⟨sigil, name, rfl, hname, htext⟩ := tokenAt_eq_some_iff.mp htoken
    rw [htext, tokenize_tag hname, textOf_cons, ih, Token.text]
  | case3 c rest hplain ih =>
    rw [tokenize_plain hplain, textOf_cons, ih, Token.text, List.singleton_append]

theorem readable_tokenize (text : PyStr) : Readable wordChar (tokenize wordChar text) := by
  induction text using tokenize.induct wordChar with
  | case1 =>
    rw [tokenize]
    exact .nil
  | case2 c rest token after htoken ih =>
    obtain ⟨sigil, name, rfl, hname, htext⟩ := tokenAt_eq_some_iff.mp htoken
    rw [htext, tokenize_tag hname]
    exact .tag hname ih
  | case3 c rest hplain ih =>
    rw [tokenize_plain hplain]
    exact .plain (by rwa [textOf_tokenize]) ih

/-- Consecutive tokens are read in their own text. -/
theorem Readable.of_append {left right : List Token} (hreadable : Readable wordChar (left ++ right)) :
    Readable wordChar left ∧ Readable wordChar right := by
  induction left with
  | nil => exact ⟨.nil, hreadable⟩
  | cons token left ih =>
    cases hreadable with
    | plain hplain hrest =>
      obtain ⟨hleft, hright⟩ := ih hrest
      refine ⟨.plain (Option.eq_none_iff_forall_ne_some.mpr ?_) hleft, hright⟩
      rintro ⟨token, rest⟩ htoken
      have hlonger := tokenAt_append htoken (textOf right)
      rw [List.cons_append, ← textOf_append] at hlonger
      exact absurd (hplain.symm.trans hlonger) (by simp)
    | tag hname hrest =>
      obtain ⟨hleft, hright⟩ := ih hrest
      exact ⟨.tag hname hleft, hright⟩

theorem tagAt_eq_none_of_plain {text : PyStr} (hplain : tokenAt wordChar text = none)
    (sigil : Sigil) : tagAt wordChar sigil.opening text = none :=
  Option.map_eq_none_iff.mp
    (List.findSome?_eq_none_iff.mp hplain sigil (by cases sigil <;> simp))

theorem tagAt_eq_none_of_ne {sigil other : Sigil} (hne : sigil ≠ other) {name : PyStr}
    (hname : IsName wordChar name) (rest : PyStr) :
    tagAt wordChar sigil.opening (tagText other name ++ rest) = none := by
  rw [Option.eq_none_iff_forall_ne_some]
  rintro ⟨found, after⟩ htag
  obtain ⟨hfound, htext⟩ := tagAt_eq_some_iff.mp htag
  rw [← tagText_append] at htext
  exact hne (tagText_inj hname hfound htext).1.symm

/-! ## Passing over a tag -/

/-- Only at two opening braces can a tag begin. -/
def MayBegin (text : PyStr) : Prop :=
  py "\x7b\x7b" <+: text

theorem mayBegin_tagText (sigil : Sigil) (name rest : PyStr) :
    MayBegin (tagText sigil name ++ rest) := by
  have hopening : py "\x7b\x7b" <+: py sigil.opening := by cases sigil <;> decide
  rw [tagText_append]
  exact hopening.trans (List.prefix_append _ _)

theorem mayBegin_of_tagAt {sigil : Sigil} {text : PyStr} {found : PyStr × PyStr}
    (htag : tagAt wordChar sigil.opening text = some found) : MayBegin text := by
  obtain ⟨_, rfl⟩ := tagAt_eq_some_iff.mp htag
  rw [← tagText_append]
  exact mayBegin_tagText _ _ _

theorem tagAt_eq_none_of_not_mayBegin {text : PyStr} (hbegin : ¬MayBegin text) (sigil : Sigil) :
    tagAt wordChar sigil.opening text = none :=
  Option.eq_none_iff_forall_ne_some.mpr fun _ htag => hbegin (mayBegin_of_tagAt htag)

theorem not_mayBegin_of_ne {c : CodePoint} (hc : c ≠ CodePoint.ofChar '\x7b') (rest : PyStr) :
    ¬MayBegin (c :: rest) := by
  intro hbegin
  exact hc (List.cons_prefix_cons.mp hbegin).1.symm

/-- Behind its two opening braces a tag has no further one. -/
theorem tagText_eq {name : PyStr} (hname : IsName wordChar name) (sigil : Sigil) :
    ∃ d word, tagText sigil name = py "\x7b\x7b" ++ d :: word ∧
      ∀ c ∈ d :: word, c ≠ CodePoint.ofChar '\x7b' := by
  have hend : ∀ c ∈ name ++ py "\x7d\x7d", c ≠ CodePoint.ofChar '\x7b' := by
    intro c hc
    cases List.mem_append.mp hc with
    | inl hmem =>
      rintro rfl
      exact absurd ((hname.2 _ hmem).symm.trans (not_word_of_mem (by decide))) (by simp)
    | inr hmem =>
      rintro rfl
      exact absurd hmem (by decide)
  cases sigil with
  | value =>
    obtain ⟨d, later, rfl⟩ := List.exists_cons_of_ne_nil hname.1
    exact ⟨d, later ++ py "\x7d\x7d", rfl, hend⟩
  | opens => exact ⟨_, _, rfl, List.forall_mem_cons.mpr ⟨by decide, hend⟩⟩
  | closes => exact ⟨_, _, rfl, List.forall_mem_cons.mpr ⟨by decide, hend⟩⟩

/-- A function that goes on where no tag can begin passes over a tag once it has
passed its first brace. -/
theorem pass_inside {β : Type*} {f : PyStr → β} {add : CodePoint → β → β}
    (hpass : ∀ c rest, ¬MayBegin (c :: rest) → f (c :: rest) = add c (f rest))
    {sigil : Sigil} {name : PyStr} (hname : IsName wordChar name) (rest : PyStr) :
    ∃ inside, tagText sigil name = CodePoint.ofChar '\x7b' :: inside ∧
      f (inside ++ rest) = inside.foldr add (f rest) := by
  have hfree : ∀ (word : PyStr), (∀ c ∈ word, c ≠ CodePoint.ofChar '\x7b') →
      f (word ++ rest) = word.foldr add (f rest) := by
    intro word hword
    induction word with
    | nil => rfl
    | cons c word ih =>
      obtain ⟨hc, hrest⟩ := List.forall_mem_cons.mp hword
      rw [List.cons_append, hpass c _ (not_mayBegin_of_ne hc _), ih hrest, List.foldr_cons]
  obtain ⟨d, word, htext, hword⟩ := tagText_eq hname sigil
  have hsecond : ¬MayBegin (CodePoint.ofChar '\x7b' :: (d :: word ++ rest)) := by
    intro hbegin
    have hd := (List.cons_prefix_cons.mp (List.cons_prefix_cons.mp hbegin).2).1
    exact hword d List.mem_cons_self hd.symm
  refine ⟨CodePoint.ofChar '\x7b' :: d :: word, htext, ?_⟩
  rw [List.cons_append, hpass _ _ hsecond, hfree _ hword]
  rfl

theorem pass_tagText {β : Type*} {f : PyStr → β} {add : CodePoint → β → β}
    (hpass : ∀ c rest, ¬MayBegin (c :: rest) → f (c :: rest) = add c (f rest))
    {sigil : Sigil} {name : PyStr} (hname : IsName wordChar name) {rest : PyStr}
    (hfirst : ∀ c later, tagText sigil name ++ rest = c :: later →
      f (c :: later) = add c (f later)) :
    f (tagText sigil name ++ rest) = (tagText sigil name).foldr add (f rest) := by
  obtain ⟨inside, htext, hinside⟩ := @pass_inside wordChar β f add hpass sigil name hname rest
  rw [htext] at hfirst ⊢
  exact (hfirst _ _ rfl).trans (congrArg (add _) hinside)

end Reading

end RootSeeker.ChannelRouting
