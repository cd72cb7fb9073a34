import Mathlib.Data.List.Basic
import Mathlib.Data.List.Infix

/-!
# Replacing a pattern

The occurrences of a pattern are marked from left to right, none overlapping another, and
something else is put for the marks.
-/

namespace RootSeeker.Replacement

variable {α : Type*} [DecidableEq α]

/-- The text with `none` for each occurrence of a pattern. The count is that of the characters of
an occurrence which are still to be passed. -/
def markFrom (pattern : List α) : ℕ → List α → List (Option α)
  | _, [] => []
  | skip + 1, _ :: rest => markFrom pattern skip rest
  | 0, c :: rest =>
    if pattern <+: c :: rest then none :: markFrom pattern (pattern.length - 1) rest
    else some c :: markFrom pattern 0 rest

def mark (pattern text : List α) : List (Option α) :=
  markFrom pattern 0 text

omit [DecidableEq α] in
/-- Put a text for the marks. -/
def expand (value : List α) (marked : List (Option α)) : List α :=
  marked.flatMap fun place => place.elim value fun c => [c]

/-- `text.replace(pattern, value)` for a pattern that is not empty. -/
def replaceAll (pattern value text : List α) : List α :=
  expand value (mark pattern text)

section Expand

omit [DecidableEq α]

variable (value : List α)

@[simp]
theorem expand_nil : expand value ([] : List (Option α)) = [] := rfl

@[simp]
theorem expand_some (c : α) (marked : List (Option α)) :
    expand value (some c :: marked) = c :: expand value marked := rfl

@[simp]
theorem expand_none (marked : List (Option α)) :
    expand value (none :: marked) = value ++ expand value marked := rfl

@[simp]
theorem expand_append (first second : List (Option α)) :
    expand value (first ++ second) = expand value first ++ expand value second :=
  List.flatMap_append

@[simp]
theorem expand_map_some (text : List α) : expand value (text.map some) = text := by
  induction text with
  | nil => rfl
  | cons c rest ih => rw [List.map_cons, expand_some, ih]

theorem length_expand (marked : List (Option α)) :
    (expand value marked).length + marked.countP Option.isNone =
      marked.length + marked.countP Option.isNone * value.length := by
  induction marked with
  | nil => simp
  | cons place rest ih =>
    cases place with
    | some c =>
      rw [expand_some, List.countP_cons_of_neg (by simp), List.length_cons, List.length_cons]
      omega
    | none =>
      rw [expand_none, List.countP_cons_of_pos (by simp), List.length_append, List.length_cons,
        Nat.succ_mul]
      omega

end Expand

/-! ## Marking -/

variable {pattern : List α}

theorem markFrom_eq_drop (skip : ℕ) (text : List α) :
    markFrom pattern skip text = mark pattern (text.drop skip) := by
  induction text generalizing skip with
  | nil => rw [List.drop_nil]; cases skip <;> rfl
  | cons c rest ih =>
    cases skip with
    | zero => rfl
    | succ skip => rw [markFrom, ih, List.drop_succ_cons]

/-- A text that starts with the pattern. -/
theorem mark_append (hne : pattern ≠ []) (rest : List α) :
    mark pattern (pattern ++ rest) = none :: mark pattern rest := by
  cases pattern with
  | nil => exact absurd rfl hne
  | cons c tail =>
    have hbegins : c :: tail <+: c :: (tail ++ rest) := List.prefix_append (c :: tail) rest
    rw [List.cons_append, mark, markFrom, if_pos hbegins, markFrom_eq_drop, List.length_cons,
      Nat.add_sub_cancel, List.drop_left]

theorem mark_cons {c : α} {rest : List α} (hnot : ¬pattern <+: c :: rest) :
    mark pattern (c :: rest) = some c :: mark pattern rest := by
  rw [mark, markFrom, if_neg hnot]
  rfl

/-- The pattern put for its own marks. -/
theorem expand_mark (hne : pattern ≠ []) (text : List α) :
    expand pattern (mark pattern text) = text := by
  induction hlength : text.length using Nat.strongRecOn generalizing text with
  | ind size ih =>
    cases text with
    | nil => rfl
    | cons c rest =>
      by_cases hbegins : pattern <+: c :: rest
      · obtain ⟨tail, htail⟩ := hbegins
        have hshort : tail.length < size := by
          have hsum := congrArg List.length htail
          have hpos := List.length_pos_iff.mpr hne
          rw [List.length_append] at hsum
          omega
        rw [← htail, mark_append hne, expand_none, ih _ hshort tail rfl]
      · rw [mark_cons hbegins, expand_some, ih rest.length (by simp [← hlength]) rest rfl]

@[simp]
theorem replaceAll_self (hne : pattern ≠ []) (text : List α) :
    replaceAll pattern pattern text = text :=
  expand_mark hne text

/-! ## Patterns that do not overlap themselves -/

omit [DecidableEq α] in
/-- No proper part of the pattern is its beginning and its end. -/
def Unbordered (pattern : List α) : Prop :=
  ∀ border, border <+: pattern → border <:+ pattern → border = [] ∨ border = pattern

omit [DecidableEq α] in
/-- A character that only the first place of the pattern has. -/
theorem unbordered_of_head {c : α} {tail : List α} (hhead : c ∉ tail) : Unbordered (c :: tail) := by
  intro border hbegins hends
  cases border with
  | nil => exact Or.inl rfl
  | cons d border =>
    right
    obtain ⟨before, hbefore⟩ := hends
    obtain ⟨after, hafter⟩ := hbegins
    have hd : d = c := (List.cons.inj hafter).1
    cases before with
    | nil => exact hbefore
    | cons e before =>
      have htail := (List.cons.inj hbefore).2
      exact absurd (htail ▸ List.mem_append_right before (hd ▸ List.mem_cons_self)) hhead

omit [DecidableEq α] in
/-- A character that only the first two places have. -/
theorem unbordered_of_pair {c : α} {tail : List α} (htail : c ∉ tail) (hne : tail ≠ []) :
    Unbordered (c :: c :: tail) := by
  intro border hbegins hends
  obtain ⟨before, hbefore⟩ := hends
  obtain ⟨after, hafter⟩ := hbegins
  cases border with
  | nil => exact Or.inl rfl
  | cons d border =>
    right
    obtain ⟨rfl, hborder⟩ := List.cons.inj hafter
    cases before with
    | nil => exact hbefore
    | cons e before =>
      have hrest := (List.cons.inj hbefore).2
      cases before with
      | nil =>
        -- the border would be `c :: tail`, but the pattern goes on with `c`
        have hrest : border = tail := (List.cons.inj hrest).2
        cases tail with
        | nil => exact absurd rfl hne
        | cons f tail =>
          rw [hrest] at hborder
          have hhead : f = d := (List.cons.inj hborder).1
          exact absurd (hhead ▸ List.mem_cons_self) htail
      | cons f before =>
        have hinner := (List.cons.inj hrest).2
        exact absurd (hinner ▸ List.mem_append_right before List.mem_cons_self) htail

omit [DecidableEq α] in
/-- Two occurrences are the same or apart. -/
theorem le_of_occurrences (hunbordered : Unbordered pattern) {between after rest : List α}
    (hsame : pattern ++ rest = between ++ (pattern ++ after)) (hbetween : between ≠ []) :
    pattern.length ≤ between.length := by
  by_contra hshort
  rcases List.append_eq_append_iff.mp hsame with ⟨tail, htail, _⟩ | ⟨tail, htail, hrest⟩
  · rw [htail, List.length_append] at hshort
    omega
  · -- what is left of the first occurrence begins the second
    have hlength := congrArg List.length htail
    rw [List.length_append] at hlength
    have hpos := List.length_pos_iff.mpr hbetween
    have hbegins : tail <+: pattern := by
      apply List.prefix_of_prefix_length_le (List.prefix_append tail rest) _ (by omega)
      rw [← hrest]
      exact List.prefix_append pattern after
    rcases hunbordered tail hbegins ⟨between, htail.symm⟩ with hnil | hall
    · rw [hnil, List.length_nil] at hlength
      omega
    · rw [hall] at hlength
      omega

section Unbordered

variable (hunbordered : Unbordered pattern) (hne : pattern ≠ [])

include hunbordered hne

/-- An occurrence in the middle of a text is found, whatever is before it. -/
theorem mark_append_pattern (before after : List α) :
    mark pattern (before ++ (pattern ++ after)) =
      mark pattern before ++ none :: mark pattern after := by
  induction hlength : before.length using Nat.strongRecOn generalizing before with
  | ind size ih =>
    cases before with
    | nil => exact mark_append hne after
    | cons c before =>
      by_cases hbegins : pattern <+: c :: before
      · obtain ⟨tail, htail⟩ := hbegins
        have hshort : tail.length < size := by
          have hsum := congrArg List.length htail
          have hpos := List.length_pos_iff.mpr hne
          rw [List.length_append] at hsum
          omega
        rw [← htail, List.append_assoc, mark_append hne, mark_append hne, ih _ hshort tail rfl,
          List.cons_append]
      · have hnot : ¬pattern <+: c :: before ++ (pattern ++ after) := by
          rintro ⟨rest, hrest⟩
          have hle := le_of_occurrences hunbordered hrest (List.cons_ne_nil c before)
          exact hbegins (List.prefix_of_prefix_length_le ⟨rest, hrest⟩ (List.prefix_append _ _) hle)
        rw [List.cons_append] at hnot ⊢
        rw [mark_cons hnot, mark_cons hbegins,
          ih before.length (by simp [← hlength]) before rfl, List.cons_append]

end Unbordered

variable {marked : List (Option α)}

omit [DecidableEq α] in
theorem eq_map_some_of_countP (hcount : marked.countP Option.isNone = 0) (value : List α) :
    marked = (expand value marked).map some := by
  induction marked with
  | nil => rfl
  | cons place rest ih =>
    cases place with
    | none => simp at hcount
    | some c =>
      rw [List.countP_cons_of_neg (by simp)] at hcount
      rw [expand_some, List.map_cons, ← ih hcount]

omit [DecidableEq α] in
/-- Two texts of one length that expand the same marks to the same text. -/
theorem eq_of_expand_eq {first second : List α} (hlength : first.length = second.length)
    (hsame : expand first marked = expand second marked) :
    first = second ∨ marked.countP Option.isNone = 0 := by
  induction marked with
  | nil => exact Or.inr rfl
  | cons place rest ih =>
    cases place with
    | none => exact Or.inl (List.append_inj_left hsame hlength)
    | some c =>
      rw [List.countP_cons_of_neg (by simp)]
      exact ih (List.cons.inj hsame).2

omit [DecidableEq α] in
theorem length_expand_congr {first second : List α} (hlength : first.length = second.length)
    (marked : List (Option α)) : (expand first marked).length = (expand second marked).length := by
  have hfirst := length_expand first marked
  have hsecond := length_expand second marked
  rw [hlength] at hfirst
  omega

section Unbordered

variable (hunbordered : Unbordered pattern) (hne : pattern ≠ [])

include hunbordered hne

/-- At least the places where the pattern was put are found, and if no other is found the marks
come back. -/
theorem le_countP_mark (chars : List α) (marked : List (Option α)) :
    marked.countP Option.isNone ≤
        (mark pattern (chars ++ expand pattern marked)).countP Option.isNone ∧
      ((mark pattern (chars ++ expand pattern marked)).countP Option.isNone =
          marked.countP Option.isNone →
        mark pattern (chars ++ expand pattern marked) = chars.map some ++ marked) := by
  induction marked generalizing chars with
  | nil =>
    refine ⟨Nat.zero_le _, fun hcount => ?_⟩
    rw [expand_nil, List.append_nil] at hcount ⊢
    rw [eq_map_some_of_countP hcount pattern, expand_mark hne, List.append_nil]
  | cons place rest ih =>
    cases place with
    | some c =>
      rw [expand_some, List.countP_cons_of_neg (by simp),
        List.append_cons chars c (expand pattern rest), List.append_cons _ (some c) rest]
      have hrest := ih (chars ++ [c])
      rw [List.map_append] at hrest
      exact hrest
    | none =>
      have hrest := ih []
      rw [List.nil_append] at hrest
      rw [expand_none, List.countP_cons_of_pos (by simp),
        mark_append_pattern hunbordered hne, List.countP_append,
        List.countP_cons_of_pos (by simp)]
      refine ⟨by omega, fun hcount => ?_⟩
      have hnone : (mark pattern chars).countP Option.isNone = 0 := by omega
      have hchars := eq_map_some_of_countP hnone pattern
      rw [expand_mark hne] at hchars
      rw [hchars, hrest.2 (by omega)]
      rfl

/-- A value of the length of the pattern: what is put for another place shows. -/
theorem eq_of_replaceAll_eq {value : List α} (hlength : value.length = pattern.length)
    (chars : List α) (marked : List (Option α))
    (hsame : replaceAll pattern value (chars ++ expand pattern marked) =
      chars ++ expand value marked) :
    value = pattern ∨ mark pattern (chars ++ expand pattern marked) = chars.map some ++ marked := by
  induction marked generalizing chars with
  | nil =>
    simp only [expand_nil, List.append_nil] at hsame ⊢
    have hboth : expand value (mark pattern chars) = expand pattern (mark pattern chars) := by
      rw [expand_mark hne]
      exact hsame
    rcases eq_of_expand_eq hlength hboth with heq | hcount
    · exact Or.inl heq
    · right
      have hchars := eq_map_some_of_countP hcount pattern
      rwa [expand_mark hne] at hchars
  | cons place rest ih =>
    cases place with
    | some c =>
      rw [expand_some, expand_some, List.append_cons chars c (expand pattern rest),
        List.append_cons chars c (expand value rest)] at hsame
      rw [expand_some, List.append_cons chars c (expand pattern rest),
        List.append_cons _ (some c) rest]
      have hrest := ih (chars ++ [c]) hsame
      rw [List.map_append] at hrest
      exact hrest
    | none =>
      have hsplit := mark_append_pattern hunbordered hne chars (expand pattern rest)
      rw [expand_none, expand_none, replaceAll, hsplit, expand_append, expand_none] at hsame
      have hbefore : (expand value (mark pattern chars)).length = chars.length := by
        rw [length_expand_congr hlength, expand_mark hne]
      obtain ⟨hchars, hvalue⟩ := List.append_inj hsame hbefore
      have hafter := List.append_cancel_left hvalue
      rw [expand_none, hsplit]
      rcases ih [] hafter with heq | hrest
      · exact Or.inl heq
      · have hboth : expand value (mark pattern chars) = expand pattern (mark pattern chars) := by
          rw [hchars, expand_mark hne]
        rcases eq_of_expand_eq hlength hboth with heq | hcount
        · exact Or.inl heq
        · right
          have hkept := eq_map_some_of_countP hcount pattern
          rw [expand_mark hne] at hkept
          rw [List.nil_append] at hrest
          rw [hkept, hrest]
          rfl

/-- Replacing the pattern puts the value in the places of some marks exactly when the pattern is
found there and nowhere else, or the value is the pattern. -/
theorem replaceAll_expand_iff {value : List α} :
    replaceAll pattern value (expand pattern marked) = expand value marked ↔
      value = pattern ∨ mark pattern (expand pattern marked) = marked := by
  apply Iff.intro
  · intro hsame
    by_cases hlength : value.length = pattern.length
    · exact eq_of_replaceAll_eq hunbordered hne hlength [] marked hsame
    · right
      obtain ⟨hle, hback⟩ := le_countP_mark hunbordered hne [] marked
      rw [List.nil_append] at hle hback
      apply hback
      have hvalues := congrArg List.length hsame
      have hfound := length_expand value (mark pattern (expand pattern marked))
      have hgiven := length_expand value marked
      have hpatterns := congrArg List.length (expand_mark hne (expand pattern marked))
      have hfound' := length_expand pattern (mark pattern (expand pattern marked))
      have hgiven' := length_expand pattern marked
      rw [replaceAll] at hvalues
      obtain ⟨extra, hextra⟩ := Nat.exists_eq_add_of_le hle
      rw [hextra] at hfound hfound' ⊢
      rw [Nat.add_mul] at hfound hfound'
      have hsizes : extra * value.length = extra * pattern.length := by omega
      rcases Nat.eq_zero_or_pos extra with hzero | hpos
      · rw [hzero, Nat.add_zero]
      · exact absurd (Nat.eq_of_mul_eq_mul_left hpos hsizes) hlength
  · rintro (rfl | hmark)
    · exact replaceAll_self hne _
    · rw [replaceAll, hmark]

end Unbordered

end RootSeeker.Replacement
