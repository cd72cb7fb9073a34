import Mathlib

/-!
# Backtracking patterns

A pattern lists the ways in which it matches at a place of a text, the preferred
one first, as a backtracking matcher tries them.
-/

namespace RootSeeker.Patterns

variable {α : Type*}

/-- A place in a text, with the symbol before it and the groups matched so far. -/
structure Cursor (α : Type*) where
  before : Option α
  rest : List α
  groups : List (List α)

abbrev Pattern (α : Type*) := Cursor α → List (Cursor α)

def nothing : Pattern α := fun cursor => [cursor]

/-- One symbol of a class. -/
def one (accepts : α → Bool) : Pattern α := fun cursor =>
  match cursor.rest with
  | c :: rest => if accepts c then [{ cursor with before := some c, rest := rest }] else []
  | [] => []

def follow (first second : Pattern α) : Pattern α := fun cursor =>
  (first cursor).flatMap second

/-- The patterns one after another. -/
def sequence (patterns : List (Pattern α)) : Pattern α :=
  patterns.foldr follow nothing

/-- The first of the patterns that leads to a match. -/
def choice (patterns : List (Pattern α)) : Pattern α := fun cursor =>
  patterns.flatMap fun pattern => pattern cursor

def optional (pattern : Pattern α) : Pattern α :=
  choice [pattern, nothing]

/-- At most so many repetitions, as many as possible; one that consumes nothing ends them. -/
def upTo (pattern : Pattern α) : ℕ → Pattern α
  | 0 => nothing
  | count + 1 => fun cursor =>
    ((pattern cursor).filter fun next => next.rest.length < cursor.rest.length).flatMap
      (upTo pattern count) ++ [cursor]

def many (pattern : Pattern α) : Pattern α := fun cursor =>
  upTo pattern cursor.rest.length cursor

def atLeastOne (pattern : Pattern α) : Pattern α :=
  follow pattern (many pattern)

/-- The symbols themselves. -/
def literally [DecidableEq α] (symbols : List α) : Pattern α :=
  sequence (symbols.map fun symbol => one (· = symbol))

/-- Keep what the pattern consumes. -/
def group (pattern : Pattern α) : Pattern α := fun cursor =>
  (pattern cursor).map fun next =>
    { next with groups :=
        next.groups ++ [cursor.rest.take (cursor.rest.length - next.rest.length)] }

/-- The place between a symbol of the class and another one, or an end. -/
def boundary (inside : α → Bool) : Pattern α := fun cursor =>
  if cursor.before.any inside ≠ cursor.rest.head?.any inside then [cursor] else []

/-- The groups of a match at the start of the text. -/
def matchStart (pattern : Pattern α) (text : List α) : Option (List (List α)) :=
  (pattern { before := none, rest := text, groups := [] }).head?.map (·.groups)

/-- The groups of the leftmost match, where the text follows a symbol. -/
def searchFrom (pattern : Pattern α) (before : Option α) : List α → Option (List (List α))
  | [] => (pattern { before := before, rest := [], groups := [] }).head?.map (·.groups)
  | c :: rest =>
    match (pattern { before := before, rest := c :: rest, groups := [] }).head? with
    | some cursor => some cursor.groups
    | none => searchFrom pattern (some c) rest

/-- The texts of the matches one after another, where the text follows a symbol and so many
symbols of it belong to the last match. -/
def findAllFrom (pattern : Pattern α) (before : Option α) : ℕ → List α → List (List α)
  | _, [] => []
  | skipped + 1, c :: rest => findAllFrom pattern (some c) skipped rest
  | 0, c :: rest =>
    match (pattern { before := before, rest := c :: rest, groups := [] }).head? with
    | some cursor =>
      (c :: rest).take (rest.length + 1 - cursor.rest.length) ::
        findAllFrom pattern (some c) (rest.length - cursor.rest.length) rest
    | none => findAllFrom pattern (some c) 0 rest

/-- The texts of all matches, from left to right. -/
def findAll (pattern : Pattern α) (text : List α) : List (List α) :=
  findAllFrom pattern none 0 text

/-! ## The groups that a pattern adds -/

/-- Every group that a pattern adds consists of such symbols. -/
def GroupsOnly (good : α → Prop) (pattern : Pattern α) : Prop :=
  ∀ cursor next, next ∈ pattern cursor →
    ∀ found ∈ next.groups, found ∈ cursor.groups ∨ ∀ c ∈ found, good c

variable {second pattern : Pattern α} {patterns : List (Pattern α)} {before : Option α}
  {first : Pattern α} {text : List α}

namespace GroupsOnly

variable {good : α → Prop}

theorem nothing : GroupsOnly good (nothing : Pattern α) := by
  intro cursor next hnext found hfound
  exact .inl (List.mem_singleton.mp hnext ▸ hfound)

theorem one (accepts : α → Bool) : GroupsOnly good (one accepts) := by
  intro cursor next hnext found hfound
  rw [Patterns.one] at hnext
  cases hrest : cursor.rest with
  | nil => simp [hrest] at hnext
  | cons c rest =>
    simp only [hrest] at hnext
    split at hnext
    · rw [List.mem_singleton.mp hnext] at hfound
      exact .inl hfound
    · exact absurd hnext List.not_mem_nil

theorem follow (hfirst : GroupsOnly good first) (hsecond : GroupsOnly good second) :
    GroupsOnly good (follow first second) := by
  intro cursor next hnext found hfound
  obtain ⟨middle, hmiddle, hlast⟩ := List.mem_flatMap.mp hnext
  exact (hsecond middle next hlast found hfound).elim (hfirst cursor middle hmiddle found) .inr

theorem sequence (hall : ∀ pattern ∈ patterns, GroupsOnly good pattern) :
    GroupsOnly good (sequence patterns) := by
  induction patterns with
  | nil => exact nothing
  | cons first rest ih =>
    exact (hall first List.mem_cons_self).follow
      (ih fun pattern hpattern => hall pattern (List.mem_cons_of_mem _ hpattern))

theorem choice (hall : ∀ pattern ∈ patterns, GroupsOnly good pattern) :
    GroupsOnly good (choice patterns) := by
  intro cursor next hnext
  obtain ⟨pattern, hpattern, hmem⟩ := List.mem_flatMap.mp hnext
  exact hall pattern hpattern cursor next hmem

theorem optional (hpattern : GroupsOnly good pattern) : GroupsOnly good (optional pattern) := by
  apply choice
  simp only [List.forall_mem_cons]
  exact ⟨hpattern, nothing, fun _ hmem => absurd hmem List.not_mem_nil⟩

theorem literally [DecidableEq α] (symbols : List α) : GroupsOnly good (literally symbols) := by
  apply sequence
  intro pattern hpattern
  obtain ⟨symbol, -, rfl⟩ := List.mem_map.mp hpattern
  exact one _

theorem upTo (hpattern : GroupsOnly good pattern) (count : ℕ) :
    GroupsOnly good (upTo pattern count) := by
  induction count with
  | zero => exact nothing
  | succ count ih =>
    intro cursor next hnext
    cases List.mem_append.mp hnext with
    | inl hmore =>
      obtain ⟨middle, hmiddle, hlast⟩ := List.mem_flatMap.mp hmore
      exact (hpattern.follow ih) cursor next
        (List.mem_flatMap.mpr ⟨middle, List.mem_of_mem_filter hmiddle, hlast⟩)
    | inr hstop => exact nothing cursor next hstop

theorem atLeastOne (hpattern : GroupsOnly good pattern) : GroupsOnly good (atLeastOne pattern) :=
  hpattern.follow fun cursor => hpattern.upTo cursor.rest.length cursor

/-- Every group of the leftmost match consists of such symbols. -/
theorem groups_searchFrom (hpattern : GroupsOnly good pattern) {groups : List (List α)}
    (hfound : searchFrom pattern before text = some groups) :
    ∀ found ∈ groups, ∀ c ∈ found, good c := by
  have hhead : ∀ {cursor next : Cursor α}, cursor.groups = [] →
      (pattern cursor).head? = some next → ∀ found ∈ next.groups, ∀ c ∈ found, good c := by
    intro cursor next hnone hnext found hmem
    exact (hpattern cursor next (List.mem_of_head? hnext) found hmem).resolve_left
      (hnone ▸ List.not_mem_nil)
  induction text generalizing before with
  | nil =>
    obtain ⟨next, hnext, rfl⟩ := Option.map_eq_some_iff.mp hfound
    exact hhead rfl hnext
  | cons c rest ih =>
    rw [searchFrom] at hfound
    split at hfound
    · rename_i next hnext
      obtain rfl := Option.some.inj hfound
      exact hhead rfl hnext
    · exact ih hfound

end GroupsOnly

/-! ## The symbols that a pattern consumes -/

/-- What a pattern consumes consists of such symbols, and so does every group it adds. -/
structure ReadsOnly (good : α → Prop) (pattern : Pattern α) : Prop where
  reads : ∀ cursor next, next ∈ pattern cursor →
    ∃ taken, cursor.rest = taken ++ next.rest ∧ (∀ c ∈ taken, good c) ∧
      ∀ found ∈ next.groups, found ∈ cursor.groups ∨ ∀ c ∈ found, good c

namespace ReadsOnly

variable {good : α → Prop}

theorem groupsOnly (hpattern : ReadsOnly good pattern) : GroupsOnly good pattern := by
  intro cursor next hnext
  obtain ⟨_, _, _, hgroups⟩ := hpattern.reads cursor next hnext
  exact hgroups

theorem nothing : ReadsOnly good (nothing : Pattern α) := by
  constructor
  intro cursor next hnext
  obtain rfl := List.mem_singleton.mp hnext
  exact ⟨[], rfl, fun c hc => absurd hc List.not_mem_nil, fun found hfound => .inl hfound⟩

theorem one {accepts : α → Bool} (hgood : ∀ c, accepts c = true → good c) :
    ReadsOnly good (one accepts) := by
  constructor
  intro cursor next hnext
  rw [Patterns.one] at hnext
  cases hrest : cursor.rest with
  | nil => simp [hrest] at hnext
  | cons c rest =>
    simp only [hrest] at hnext
    by_cases haccepts : accepts c = true
    · rw [if_pos haccepts] at hnext
      obtain rfl := List.mem_singleton.mp hnext
      exact ⟨[c], rfl, fun other hother => List.mem_singleton.mp hother ▸ hgood c haccepts,
        fun found hfound => .inl hfound⟩
    · simp [haccepts] at hnext

theorem boundary (inside : α → Bool) : ReadsOnly good (boundary inside) := by
  constructor
  intro cursor next hnext
  rw [Patterns.boundary] at hnext
  split at hnext
  · exact nothing.reads cursor next hnext
  · exact absurd hnext List.not_mem_nil

theorem follow (hfirst : ReadsOnly good first) (hsecond : ReadsOnly good second) :
    ReadsOnly good (follow first second) := by
  constructor
  intro cursor next hnext
  obtain ⟨middle, hmiddle, hlast⟩ := List.mem_flatMap.mp hnext
  obtain ⟨left, hleft, hleftGood, hleftGroups⟩ := hfirst.reads cursor middle hmiddle
  obtain ⟨right, hright, hrightGood, hrightGroups⟩ := hsecond.reads middle next hlast
  refine ⟨left ++ right, ?_, ?_, ?_⟩
  · rw [hleft, hright, List.append_assoc]
  · intro c hc
    exact (List.mem_append.mp hc).elim (hleftGood c) (hrightGood c)
  · intro found hfound
    exact (hrightGroups found hfound).elim (hleftGroups found) .inr

theorem sequence (hall : ∀ pattern ∈ patterns, ReadsOnly good pattern) :
    ReadsOnly good (sequence patterns) := by
  induction patterns with
  | nil => exact nothing
  | cons first rest ih =>
    exact follow (hall first List.mem_cons_self)
      (ih fun pattern hpattern => hall pattern (List.mem_cons_of_mem _ hpattern))

section

variable (hpattern : ReadsOnly good pattern)

include hpattern

theorem upTo (count : ℕ) : ReadsOnly good (upTo pattern count) := by
  induction count with
  | zero => exact nothing
  | succ count ih =>
    constructor
    intro cursor next hnext
    cases List.mem_append.mp hnext with
    | inl hmore =>
      obtain ⟨middle, hmiddle, hlast⟩ := List.mem_flatMap.mp hmore
      exact (follow hpattern ih).reads cursor next
        (List.mem_flatMap.mpr ⟨middle, List.mem_of_mem_filter hmiddle, hlast⟩)
    | inr hstop => exact nothing.reads cursor next hstop

theorem many : ReadsOnly good (many pattern) :=
  ⟨fun cursor => (hpattern.upTo cursor.rest.length).reads cursor⟩

theorem atLeastOne : ReadsOnly good (atLeastOne pattern) :=
  hpattern.follow hpattern.many

theorem group : ReadsOnly good (group pattern) := by
  constructor
  intro cursor next hnext
  obtain ⟨inner, hinner, rfl⟩ := List.mem_map.mp hnext
  obtain ⟨taken, htaken, hgood, hgroups⟩ := hpattern.reads cursor inner hinner
  refine ⟨taken, htaken, hgood, fun found hfound => ?_⟩
  cases List.mem_append.mp hfound with
  | inl hinside => exact hgroups found hinside
  | inr hadded =>
    rw [List.mem_singleton.mp hadded, htaken, List.length_append, Nat.add_sub_cancel,
      List.take_left]
    exact .inr hgood

/-- Every group of the leftmost match consists of such symbols. -/
theorem groups_searchFrom {groups : List (List α)}
    (hfound : searchFrom pattern before text = some groups) :
    ∀ found ∈ groups, ∀ c ∈ found, good c :=
  hpattern.groupsOnly.groups_searchFrom hfound

end

theorem choice (hall : ∀ pattern ∈ patterns, ReadsOnly good pattern) :
    ReadsOnly good (choice patterns) := by
  constructor
  intro cursor next hnext
  obtain ⟨pattern, hpattern, hmem⟩ := List.mem_flatMap.mp hnext
  exact (hall pattern hpattern).reads cursor next hmem

theorem optional (hpattern : ReadsOnly good pattern) : ReadsOnly good (optional pattern) := by
  apply choice
  simp only [List.forall_mem_cons]
  exact ⟨hpattern, nothing, fun _ hmem => absurd hmem List.not_mem_nil⟩

theorem literally [DecidableEq α] {symbols : List α} (hall : ∀ c ∈ symbols, good c) :
    ReadsOnly good (literally symbols) := by
  apply sequence
  intro pattern hpattern
  obtain ⟨symbol, hsymbol, rfl⟩ := List.mem_map.mp hpattern
  apply one
  intro c hc
  exact of_decide_eq_true hc ▸ hall symbol hsymbol

/-- Every match consists of such symbols. -/
theorem mem_findAllFrom (hpattern : ReadsOnly good pattern) {skipped : ℕ} {found : List α}
    (hfound : found ∈ findAllFrom pattern before skipped text) : ∀ c ∈ found, good c := by
  induction text generalizing before skipped with
  | nil => exact absurd hfound (by simp [findAllFrom])
  | cons c rest ih =>
    cases skipped with
    | succ skipped => exact ih hfound
    | zero =>
      rw [findAllFrom] at hfound
      split at hfound
      · next cursor hcursor =>
        cases List.mem_cons.mp hfound with
        | inr hlater => exact ih hlater
        | inl heq =>
          obtain ⟨taken, htaken, hgood, -⟩ := hpattern.reads _ cursor (List.mem_of_head? hcursor)
          have hlength : rest.length + 1 - cursor.rest.length = taken.length := by
            have hsplit := congrArg List.length htaken
            rw [List.length_append, List.length_cons] at hsplit
            omega
          rw [heq, hlength]
          simp only at htaken
          rw [htaken, List.take_left]
          exact hgood
      · exact ih hfound

end ReadsOnly

/-! ## Patterns that consume something -/

/-- Less of the text is left after a match. -/
def Advances (pattern : Pattern α) : Prop :=
  ∀ cursor next, next ∈ pattern cursor → next.rest.length < cursor.rest.length

namespace Advances

theorem one (accepts : α → Bool) : Advances (one accepts) := by
  intro cursor next hnext
  rw [Patterns.one] at hnext
  cases hrest : cursor.rest with
  | nil => simp [hrest] at hnext
  | cons c rest =>
    simp only [hrest] at hnext
    split at hnext
    · obtain rfl := List.mem_singleton.mp hnext
      exact Nat.lt_succ_self _
    · exact absurd hnext List.not_mem_nil

theorem length_le {good : α → Prop} (hpattern : ReadsOnly good pattern) {cursor next : Cursor α}
    (hnext : next ∈ pattern cursor) : next.rest.length ≤ cursor.rest.length := by
  obtain ⟨taken, htaken, -⟩ := hpattern.reads cursor next hnext
  rw [htaken, List.length_append]
  exact Nat.le_add_left _ _

theorem follow_left {good : α → Prop} (hfirst : Advances first)
    (hsecond : ReadsOnly good second) : Advances (follow first second) := by
  intro cursor next hnext
  obtain ⟨middle, hmiddle, hlast⟩ := List.mem_flatMap.mp hnext
  exact (length_le hsecond hlast).trans_lt (hfirst cursor middle hmiddle)

theorem follow_right {good : α → Prop} (hfirst : ReadsOnly good first)
    (hsecond : Advances second) : Advances (follow first second) := by
  intro cursor next hnext
  obtain ⟨middle, hmiddle, hlast⟩ := List.mem_flatMap.mp hnext
  exact (hsecond middle next hlast).trans_le (length_le hfirst hmiddle)

theorem choice (hall : ∀ pattern ∈ patterns, Advances pattern) : Advances (choice patterns) := by
  intro cursor next hnext
  obtain ⟨pattern, hpattern, hmem⟩ := List.mem_flatMap.mp hnext
  exact hall pattern hpattern cursor next hmem

/-- No match is empty. -/
theorem ne_nil_of_mem_findAllFrom (hpattern : Advances pattern) {skipped : ℕ} {found : List α}
    (hfound : found ∈ findAllFrom pattern before skipped text) : found ≠ [] := by
  induction text generalizing before skipped with
  | nil => exact absurd hfound (by simp [findAllFrom])
  | cons c rest ih =>
    cases skipped with
    | succ skipped => exact ih hfound
    | zero =>
      rw [findAllFrom] at hfound
      split at hfound
      · next cursor hcursor =>
        cases List.mem_cons.mp hfound with
        | inr hlater => exact ih hlater
        | inl heq =>
          have hshorter := hpattern _ cursor (List.mem_of_head? hcursor)
          have hpos : rest.length + 1 - cursor.rest.length ≠ 0 :=
            Nat.sub_ne_zero_of_lt hshorter
          rw [heq]
          intro hnil
          rw [List.take_eq_nil_iff] at hnil
          exact hnil.elim hpos (List.cons_ne_nil c rest)
      · exact ih hfound

end Advances

end RootSeeker.Patterns
