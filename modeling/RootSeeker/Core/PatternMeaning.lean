import RootSeeker.Core.Patterns

/-!
# What a pattern means

A pattern that does not look at the symbol before it relates what it consumes to
the groups that it adds and to what is left.  Where a text can be read in one way
only, the groups of a match are the groups of that reading, however the matcher
backtracks.
-/

namespace RootSeeker.Patterns

variable {α : Type*}

/-- The consumed text, the groups added and the rest. -/
abbrev Language (α : Type*) := List α → List (List α) → List α → Prop

namespace Language

/-- One symbol of a class. -/
def one (accepts : α → Bool) : Language α := fun taken found _ =>
  found = [] ∧ ∃ c, taken = [c] ∧ accepts c = true

/-- Symbols of a class. -/
def many (accepts : α → Bool) : Language α := fun taken found _ =>
  found = [] ∧ ∀ c ∈ taken, accepts c = true

def atLeastOne (accepts : α → Bool) : Language α := fun taken found _ =>
  found = [] ∧ taken ≠ [] ∧ ∀ c ∈ taken, accepts c = true

def exactly (symbols : List α) : Language α := fun taken found _ =>
  found = [] ∧ taken = symbols

def follow (first second : Language α) : Language α := fun taken found rest =>
  ∃ left right leftFound rightFound, taken = left ++ right ∧ found = leftFound ++ rightFound ∧
    first left leftFound (right ++ rest) ∧ second right rightFound rest

def sequence (languages : List (Language α)) : Language α :=
  languages.foldr follow (exactly [])

def optional (language : Language α) : Language α := fun taken found rest =>
  language taken found rest ∨ taken = [] ∧ found = []

def group (language : Language α) : Language α := fun taken found rest =>
  ∃ inner, found = inner ++ [taken] ∧ language taken inner rest

/-- Nothing, where the rest is of some form. -/
def before (holds : List α → Bool) : Language α := fun taken found rest =>
  taken = [] ∧ found = [] ∧ holds rest = true

end Language

/-- Nothing, where the rest is of some form. -/
def lookahead (holds : List α → Bool) : Pattern α := fun cursor =>
  if holds cursor.rest then [cursor] else []

/-- The start of the text. -/
def startOfText : Pattern α := fun cursor =>
  if cursor.before.isNone then [cursor] else []

/-- The groups of the matches one after another, where the text follows a symbol and so many
symbols of it belong to the last match. -/
def findGroupsFrom (pattern : Pattern α) (before : Option α) : ℕ → List α → List (List (List α))
  | _, [] => []
  | skipped + 1, c :: rest => findGroupsFrom pattern (some c) skipped rest
  | 0, c :: rest =>
    match (pattern { before := before, rest := c :: rest, groups := [] }).head? with
    | some cursor =>
      cursor.groups ::
        findGroupsFrom pattern (some c) (rest.length - cursor.rest.length) rest
    | none => findGroupsFrom pattern (some c) 0 rest

/-- The groups of all matches, from left to right. -/
def findGroups (pattern : Pattern α) (text : List α) : List (List (List α)) :=
  findGroupsFrom pattern none 0 text

/-- The matches at any place are those of the language. -/
def Means (pattern : Pattern α) (language : Language α) : Prop :=
  ∀ cursor rest groups,
    (∃ next ∈ pattern cursor, next.rest = rest ∧ next.groups = groups) ↔
      ∃ taken found, cursor.rest = taken ++ rest ∧ groups = cursor.groups ++ found ∧
        language taken found rest

namespace Means

variable {pattern first second : Pattern α} {language left right : Language α}

theorem of_iff (hmeans : Means pattern left)
    (hiff : ∀ taken found rest, left taken found rest ↔ right taken found rest) :
    Means pattern right := by
  have hsame : left = right := by
    funext taken found rest
    exact propext (hiff taken found rest)
  exact hsame ▸ hmeans

theorem nothing : Means (nothing : Pattern α) fun taken found _ => taken = [] ∧ found = [] := by
  intro cursor rest groups
  constructor
  · rintro ⟨next, hnext, rfl, rfl⟩
    rw [List.mem_singleton.mp hnext]
    exact ⟨[], [], by simp, by simp, rfl, rfl⟩
  · rintro ⟨taken, found, hrest, rfl, rfl, rfl⟩
    exact ⟨cursor, List.mem_singleton.mpr rfl, hrest, by simp⟩

theorem one (accepts : α → Bool) : Means (one accepts) (Language.one accepts) := by
  intro cursor rest groups
  constructor
  · rintro ⟨next, hnext, rfl, rfl⟩
    rw [Patterns.one] at hnext
    cases hrest : cursor.rest with
    | nil => simp [hrest] at hnext
    | cons c after =>
      simp only [hrest] at hnext
      split at hnext
      · next haccepts =>
        rw [List.mem_singleton.mp hnext]
        exact ⟨[c], [], rfl, by simp, rfl, c, rfl, haccepts⟩
      · exact absurd hnext List.not_mem_nil
  · rintro ⟨taken, found, hrest, rfl, rfl, c, rfl, haccepts⟩
    refine ⟨{ cursor with before := some c, rest := rest }, ?_, rfl, by simp⟩
    rw [Patterns.one, hrest]
    simp [haccepts]

theorem follow (hfirst : Means first left) (hsecond : Means second right) :
    Means (follow first second) (Language.follow left right) := by
  intro cursor rest groups
  constructor
  · rintro ⟨next, hnext, hrest, hgroups⟩
    obtain ⟨middle, hmiddle, hlast⟩ := List.mem_flatMap.mp hnext
    obtain ⟨leftTaken, leftFound, hleftRest, hleftGroups, hleft⟩ :=
      (hfirst cursor middle.rest middle.groups).mp ⟨middle, hmiddle, rfl, rfl⟩
    obtain ⟨rightTaken, rightFound, hrightRest, hrightGroups, hright⟩ :=
      (hsecond middle rest groups).mp ⟨next, hlast, hrest, hgroups⟩
    refine ⟨leftTaken ++ rightTaken, leftFound ++ rightFound, ?_, ?_, leftTaken, rightTaken,
      leftFound, rightFound, rfl, rfl, hrightRest ▸ hleft, hright⟩
    · rw [hleftRest, hrightRest, List.append_assoc]
    · rw [hrightGroups, hleftGroups, List.append_assoc]
  · rintro ⟨_, _, hrest, hgroups, leftTaken, rightTaken, leftFound, rightFound, rfl, rfl, hleft,
      hright⟩
    rw [List.append_assoc] at hrest
    obtain ⟨middle, hmiddle, hmiddleRest, hmiddleGroups⟩ :=
      (hfirst cursor (rightTaken ++ rest) (cursor.groups ++ leftFound)).mpr
        ⟨leftTaken, leftFound, hrest, rfl, hleft⟩
    obtain ⟨next, hnext, hlast⟩ := (hsecond middle rest groups).mpr
      ⟨rightTaken, rightFound, hmiddleRest, by rw [hgroups, hmiddleGroups, List.append_assoc],
        hright⟩
    exact ⟨next, List.mem_flatMap.mpr ⟨middle, hmiddle, hnext⟩, hlast⟩

theorem sequence {patterns : List (Pattern α)} {languages : List (Language α)}
    (hall : List.Forall₂ Means patterns languages) :
    Means (sequence patterns) (Language.sequence languages) := by
  induction hall with
  | nil => exact nothing.of_iff fun _ _ _ => and_comm
  | cons hfirst _ ih => exact hfirst.follow ih

theorem optional (hpattern : Means pattern language) :
    Means (optional pattern) (Language.optional language) := by
  intro cursor rest groups
  have hmem : ∀ next, next ∈ Patterns.optional pattern cursor ↔
      next ∈ pattern cursor ∨ next = cursor := by
    intro next
    simp [Patterns.optional, choice, Patterns.nothing]
  constructor
  · rintro ⟨next, hnext, rfl, rfl⟩
    cases (hmem next).mp hnext with
    | inl hmatched =>
      obtain ⟨taken, found, hrest, hgroups, hlanguage⟩ :=
        (hpattern cursor next.rest next.groups).mp ⟨next, hmatched, rfl, rfl⟩
      exact ⟨taken, found, hrest, hgroups, Or.inl hlanguage⟩
    | inr hsame => exact ⟨[], [], by simp [hsame], by simp [hsame], Or.inr ⟨rfl, rfl⟩⟩
  · rintro ⟨taken, found, hrest, hgroups, hlanguage | ⟨rfl, rfl⟩⟩
    · obtain ⟨next, hnext, hlast⟩ :=
        (hpattern cursor rest groups).mpr ⟨taken, found, hrest, hgroups, hlanguage⟩
      exact ⟨next, (hmem next).mpr (Or.inl hnext), hlast⟩
    · exact ⟨cursor, (hmem cursor).mpr (Or.inr rfl), hrest, by simp [hgroups]⟩

theorem group (hpattern : Means pattern language) :
    Means (group pattern) (Language.group language) := by
  intro cursor rest groups
  have htaken : ∀ {taken : List α}, cursor.rest = taken ++ rest →
      cursor.rest.take (cursor.rest.length - rest.length) = taken := by
    intro taken hrest
    rw [hrest, List.length_append, Nat.add_sub_cancel, List.take_left]
  constructor
  · rintro ⟨_, hnext, rfl, rfl⟩
    obtain ⟨inner, hinner, rfl⟩ := List.mem_map.mp hnext
    obtain ⟨taken, found, hrest, hgroups, hlanguage⟩ :=
      (hpattern cursor inner.rest inner.groups).mp ⟨inner, hinner, rfl, rfl⟩
    refine ⟨taken, found ++ [taken], hrest, ?_, found, rfl, hlanguage⟩
    change inner.groups ++ [cursor.rest.take (cursor.rest.length - inner.rest.length)] = _
    rw [htaken hrest, hgroups, List.append_assoc]
  · rintro ⟨taken, _, hrest, hgroups, inner, rfl, hlanguage⟩
    obtain ⟨next, hnext, hnextRest, hnextGroups⟩ :=
      (hpattern cursor rest (cursor.groups ++ inner)).mpr ⟨taken, inner, hrest, rfl, hlanguage⟩
    refine ⟨_, List.mem_map.mpr ⟨next, hnext, rfl⟩, hnextRest, ?_⟩
    change next.groups ++ [cursor.rest.take (cursor.rest.length - next.rest.length)] = groups
    rw [hnextRest, htaken hrest, hnextGroups, hgroups, List.append_assoc]

theorem lookahead (holds : List α → Bool) : Means (lookahead holds) (Language.before holds) := by
  intro cursor rest groups
  have hmem : ∀ next, next ∈ Patterns.lookahead holds cursor ↔
      next = cursor ∧ holds cursor.rest = true := by
    intro next
    unfold Patterns.lookahead
    split
    · next hholds => simp [hholds]
    · next hfails => simp [hfails]
  constructor
  · rintro ⟨next, hnext, rfl, rfl⟩
    obtain ⟨rfl, hholds⟩ := (hmem next).mp hnext
    exact ⟨[], [], rfl, by simp, rfl, rfl, hholds⟩
  · rintro ⟨taken, found, hrest, hgroups, rfl, rfl, hholds⟩
    rw [List.nil_append] at hrest
    exact ⟨cursor, (hmem cursor).mpr ⟨rfl, hrest ▸ hholds⟩, hrest, by simp [hgroups]⟩

theorem upTo_one (accepts : α → Bool) (count : ℕ) :
    Means (upTo (Patterns.one accepts) count) fun taken found rest =>
      Language.many accepts taken found rest ∧ taken.length ≤ count := by
  induction count with
  | zero =>
    apply nothing.of_iff
    intro taken found rest
    constructor
    · rintro ⟨rfl, rfl⟩
      exact ⟨⟨rfl, fun _ hc => absurd hc List.not_mem_nil⟩, le_rfl⟩
    · rintro ⟨⟨rfl, _⟩, hlength⟩
      exact ⟨List.length_eq_zero_iff.mp (Nat.le_zero.mp hlength), rfl⟩
  | succ count ih =>
    have hstep : ∀ cursor next, next ∈ upTo (Patterns.one accepts) (count + 1) cursor ↔
        next ∈ Patterns.follow (Patterns.one accepts) (upTo (Patterns.one accepts) count) cursor ∨
          next = cursor := by
      intro cursor next
      have hall : ∀ middle ∈ Patterns.one accepts cursor,
          decide (middle.rest.length < cursor.rest.length) = true :=
        fun middle hmiddle => decide_eq_true (Advances.one accepts cursor middle hmiddle)
      rw [upTo]
      simp only [List.filter_eq_self.mpr hall, List.mem_append, List.mem_singleton]
      rfl
    intro cursor rest groups
    have hfollow := (one accepts).follow ih cursor rest groups
    constructor
    · rintro ⟨next, hnext, hrest, hgroups⟩
      cases (hstep cursor next).mp hnext with
      | inl hmore =>
        obtain ⟨_, _, hcursor, hfound, _, right, _, _, rfl, rfl, ⟨rfl, c, rfl, hc⟩,
          ⟨rfl, hright⟩, hlength⟩ := hfollow.mp ⟨next, hmore, hrest, hgroups⟩
        exact ⟨[c] ++ right, _, hcursor, hfound, ⟨rfl, List.forall_mem_cons.mpr ⟨hc, hright⟩⟩,
          Nat.succ_le_succ hlength⟩
      | inr hsame =>
        rw [hsame] at hrest hgroups
        exact ⟨[], [], hrest, by simp [hgroups],
          ⟨rfl, fun _ hc => absurd hc List.not_mem_nil⟩, Nat.zero_le _⟩
    · rintro ⟨taken, _, hcursor, hgroups, ⟨rfl, htaken⟩, hlength⟩
      cases taken with
      | nil => exact ⟨cursor, (hstep cursor cursor).mpr (Or.inr rfl), hcursor, by simp [hgroups]⟩
      | cons c taken =>
        obtain ⟨hc, hrest⟩ := List.forall_mem_cons.mp htaken
        obtain ⟨next, hnext, hlast⟩ := hfollow.mpr ⟨[c] ++ taken, [] ++ [], hcursor,
          hgroups, [c], taken, [], [], rfl, rfl, ⟨rfl, c, rfl, hc⟩, ⟨rfl, hrest⟩,
          Nat.le_of_succ_le_succ hlength⟩
        exact ⟨next, (hstep cursor next).mpr (Or.inl hnext), hlast⟩

theorem many_one (accepts : α → Bool) :
    Means (many (Patterns.one accepts)) (Language.many accepts) := by
  intro cursor rest groups
  rw [show many (Patterns.one accepts) cursor =
    upTo (Patterns.one accepts) cursor.rest.length cursor from rfl,
    upTo_one accepts cursor.rest.length cursor rest groups]
  constructor
  · rintro ⟨taken, found, hrest, hgroups, hmany, _⟩
    exact ⟨taken, found, hrest, hgroups, hmany⟩
  · rintro ⟨taken, found, hrest, hgroups, hmany⟩
    exact ⟨taken, found, hrest, hgroups, hmany, by rw [hrest, List.length_append]; omega⟩

theorem atLeastOne_one (accepts : α → Bool) :
    Means (atLeastOne (Patterns.one accepts)) (Language.atLeastOne accepts) := by
  apply ((one accepts).follow (many_one accepts)).of_iff
  intro taken found rest
  constructor
  · rintro ⟨_, right, _, _, rfl, rfl, ⟨rfl, c, rfl, hc⟩, rfl, hright⟩
    exact ⟨rfl, by simp, List.forall_mem_cons.mpr ⟨hc, hright⟩⟩
  · rintro ⟨rfl, hne, hall⟩
    cases taken with
    | nil => exact absurd rfl hne
    | cons c taken =>
      obtain ⟨hc, hrest⟩ := List.forall_mem_cons.mp hall
      exact ⟨[c], taken, [], [], rfl, rfl, ⟨rfl, c, rfl, hc⟩, rfl, hrest⟩

theorem literally [DecidableEq α] (symbols : List α) :
    Means (literally symbols) (Language.exactly symbols) := by
  induction symbols with
  | nil => exact nothing.of_iff fun _ _ _ => and_comm
  | cons symbol symbols ih =>
    apply ((one (· = symbol)).follow ih).of_iff
    intro taken found rest
    constructor
    · rintro ⟨_, _, _, _, rfl, rfl, ⟨rfl, c, rfl, hc⟩, rfl, rfl⟩
      exact ⟨rfl, by rw [of_decide_eq_true hc]; rfl⟩
    · rintro ⟨rfl, rfl⟩
      exact ⟨[symbol], symbols, [], [], rfl, rfl, ⟨rfl, symbol, rfl, by simp⟩, rfl, rfl⟩

end Means

/-! ## Texts with one reading -/

section Unique

variable {pattern : Pattern α} {language : Language α} (hmeans : Means pattern language)
  {text : List α}

include hmeans

theorem exists_of_matchStart {groups : List (List α)}
    (hmatch : matchStart pattern text = some groups) :
    ∃ taken rest, text = taken ++ rest ∧ language taken groups rest := by
  obtain ⟨next, hnext, rfl⟩ := Option.map_eq_some_iff.mp hmatch
  obtain ⟨taken, found, hrest, hgroups, hlanguage⟩ :=
    (hmeans { before := none, rest := text, groups := [] } next.rest next.groups).mp
      ⟨next, List.mem_of_head? hnext, rfl, rfl⟩
  rw [List.nil_append] at hgroups
  exact ⟨taken, next.rest, hrest, hgroups ▸ hlanguage⟩

/-- A reading whose groups every other reading shares is the match. -/
theorem matchStart_eq_some {taken rest : List α} {groups : List (List α)}
    (htext : text = taken ++ rest) (hreading : language taken groups rest)
    (hunique : ∀ other otherRest found, text = other ++ otherRest →
      language other found otherRest → found = groups) : matchStart pattern text = some groups := by
  obtain ⟨next, hnext, _⟩ :=
    (hmeans { before := none, rest := text, groups := [] } rest groups).mpr
      ⟨taken, groups, htext, rfl, hreading⟩
  cases hhead : (pattern { before := none, rest := text, groups := [] }).head? with
  | none => rw [List.head?_eq_none_iff.mp hhead] at hnext; exact absurd hnext List.not_mem_nil
  | some first =>
    have hmatch : matchStart pattern text = some first.groups := by
      rw [matchStart, hhead]
      rfl
    obtain ⟨other, otherRest, hother, hlanguage⟩ := exists_of_matchStart hmeans hmatch
    rw [hmatch, hunique other otherRest _ hother hlanguage]

theorem matchStart_eq_none (hnone : ∀ taken rest found, text = taken ++ rest →
    ¬language taken found rest) : matchStart pattern text = none := by
  cases hmatch : matchStart pattern text with
  | none => rfl
  | some groups =>
    obtain ⟨taken, rest, htext, hlanguage⟩ := exists_of_matchStart hmeans hmatch
    exact absurd hlanguage (hnone taken rest groups htext)

end Unique

end RootSeeker.Patterns
