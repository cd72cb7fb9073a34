import Mathlib

/-!
# Unique readings

When two concatenations agree, how much of them agrees piece by piece?  A
piece made of one class of characters ends where the class ends.  A list of
names, some given and some made up, is free of repetitions when the given ones
are and no made-up name is given elsewhere.
-/

namespace RootSeeker.Framing

variable {α : Type*}

variable {rest : List α}

theorem takeWhile_append {inside : α → Bool} {word : List α} (hword : ∀ c ∈ word, inside c = true)
    (hrest : ∀ c ∈ rest.head?, inside c = false) : (word ++ rest).takeWhile inside = word := by
  rw [List.takeWhile_append_of_pos hword]
  cases rest with
  | nil => simp
  | cons c rest =>
    have hc := hrest c rfl
    rw [List.takeWhile_cons_of_neg (by simp [hc]), List.append_nil]

/-- A word of one class of characters ends where the class ends. -/
theorem append_inj_of_class {inside : α → Bool} {left right leftRest rightRest : List α}
    (hleft : ∀ c ∈ left, inside c = true) (hright : ∀ c ∈ right, inside c = true)
    (hleftRest : ∀ c ∈ leftRest.head?, inside c = false)
    (hrightRest : ∀ c ∈ rightRest.head?, inside c = false)
    (heq : left ++ leftRest = right ++ rightRest) : left = right ∧ leftRest = rightRest := by
  have hwords : left = right := by
    rw [← takeWhile_append hleft hleftRest, heq, takeWhile_append hright hrightRest]
  rw [hwords] at heq
  exact ⟨hwords, List.append_cancel_left heq⟩

/-- The code of `value` can be told from every other where a character that may
`follow` a code comes next. -/
def ReadBefore {β : Type*} (follow : α → Prop) (encode : β → List α) (value : β) : Prop :=
  ∀ other rest otherRest, (∀ c ∈ rest.head?, follow c) →
    (∀ c ∈ otherRest.head?, follow c) →
    encode value ++ rest = encode other ++ otherRest → value = other ∧ rest = otherRest

theorem intercalate_cons (separator first : List α) (pieces : List (List α)) :
    separator.intercalate (first :: pieces) = first ++ pieces.flatMap (separator ++ ·) := by
  induction pieces generalizing first with
  | nil => simp [List.intercalate]
  | cons piece rest ih =>
    rw [List.flatMap_cons, List.append_assoc, ← ih piece]
    simp [List.intercalate]

section Separated

variable {β : Type*} {follow : α → Prop} {encode : β → List α} {comma close : α}
  {space : List α}

theorem follow_head_separated (hcomma : follow comma) (hclose : follow close)
    (values : List β) (rest : List α) :
    ∀ c ∈ (values.flatMap (fun value => comma :: space ++ encode value) ++
      close :: rest).head?, follow c := by
  intro c hc
  cases values with
  | nil => rwa [← Option.some.inj hc]
  | cons value values => rwa [← Option.some.inj hc]

theorem separated_inj (hcomma : follow comma) (hclose : follow close)
    (hdifferent : comma ≠ close) {values others : List β} {otherRest : List α}
    (hvalues : ∀ value ∈ values, ReadBefore follow encode value)
    (heq : values.flatMap (fun value => comma :: space ++ encode value) ++ close :: rest =
      others.flatMap (fun value => comma :: space ++ encode value) ++
        close :: otherRest) : values = others ∧ rest = otherRest := by
  induction values generalizing others with
  | nil =>
    cases others with
    | nil => exact ⟨rfl, (List.cons.inj heq).2⟩
    | cons other others => exact absurd (List.cons.inj heq).1.symm hdifferent
  | cons value values ih =>
    cases others with
    | nil => exact absurd (List.cons.inj heq).1 hdifferent
    | cons other others =>
      rw [List.flatMap_cons, List.flatMap_cons, List.append_assoc, List.append_assoc,
        List.append_assoc, List.append_assoc] at heq
      have hcodes := List.append_cancel_left heq
      obtain ⟨hsame, htails⟩ := hvalues value List.mem_cons_self other _ _
        (follow_head_separated hcomma hclose values rest)
        (follow_head_separated hcomma hclose others otherRest) hcodes
      obtain ⟨hothers, hrests⟩ :=
        ih (fun next hnext => hvalues next (List.mem_cons_of_mem _ hnext)) htails
      exact ⟨by rw [hsame, hothers], hrests⟩

/-- A separated list whose pieces can be told apart can be told apart itself. -/
theorem intercalate_inj (hcomma : follow comma) (hclose : follow close)
    (hdifferent : comma ≠ close) {values others : List β} {otherRest : List α}
    (hhead : ∀ value, ∃ c tail, encode value = c :: tail ∧ c ≠ close)
    (hvalues : ∀ value ∈ values, ReadBefore follow encode value)
    (heq : (comma :: space).intercalate (values.map encode) ++ close :: rest =
      (comma :: space).intercalate (others.map encode) ++ close :: otherRest) :
    values = others ∧ rest = otherRest := by
  cases values with
  | nil =>
    cases others with
    | nil => exact ⟨rfl, (List.cons.inj heq).2⟩
    | cons other others =>
      obtain ⟨c, tail, hcode, hc⟩ := hhead other
      rw [List.map_cons, intercalate_cons, hcode] at heq
      exact absurd (List.cons.inj heq).1.symm hc
  | cons value values =>
    cases others with
    | nil =>
      obtain ⟨c, tail, hcode, hc⟩ := hhead value
      rw [List.map_cons, intercalate_cons, hcode] at heq
      exact absurd (List.cons.inj heq).1 hc
    | cons other others =>
      rw [List.map_cons, List.map_cons, intercalate_cons, intercalate_cons,
        List.flatMap_map, List.flatMap_map, List.append_assoc,
        List.append_assoc] at heq
      obtain ⟨hsame, htails⟩ := hvalues value List.mem_cons_self other _ _
        (follow_head_separated hcomma hclose values rest)
        (follow_head_separated hcomma hclose others otherRest) heq
      obtain ⟨hothers, hrests⟩ := separated_inj hcomma hclose hdifferent
        (fun next hnext => hvalues next (List.mem_cons_of_mem _ hnext)) htails
      exact ⟨by rw [hsame, hothers], hrests⟩

end Separated

/-- `given` names some items, the others get the name `madeUp`. -/
theorem nodup_getD_iff {κ : Type*} {given : α → Option κ} {madeUp : α → κ}
    {items : List α} (hmadeUp : items.Pairwise fun a b => madeUp a ≠ madeUp b) :
    (items.map fun item => (given item).getD (madeUp item)).Nodup ↔
      (items.filterMap given).Nodup ∧
        ∀ a ∈ items, ∀ b ∈ items, given a = none → given b ≠ some (madeUp a) := by
  induction items with
  | nil => simp
  | cons item rest ih =>
    rw [List.pairwise_cons] at hmadeUp
    rw [List.map_cons, List.nodup_cons, ih hmadeUp.2]
    cases hgiven : given item with
    | some key =>
      rw [List.filterMap_cons_some hgiven, List.nodup_cons]
      have hfresh : key ∉ rest.map (fun other => (given other).getD (madeUp other)) ↔
          key ∉ rest.filterMap given ∧ ∀ other ∈ rest, given other = none → madeUp other ≠ key := by
        simp only [List.mem_map, List.mem_filterMap, not_exists, not_and]
        constructor
        · intro hfresh
          refine ⟨fun other hother hname => ?_, fun other hother hname hsame => ?_⟩
          · exact hfresh other hother (by simp [hname])
          · exact hfresh other hother (by simp [hname, hsame])
        · rintro ⟨hnotGiven, hnotMadeUp⟩ other hother hsame
          cases hname : given other with
          | none => exact hnotMadeUp other hother hname (by simpa [hname] using hsame)
          | some name =>
            rw [hname, Option.getD_some] at hsame
            exact hnotGiven other hother (hname.trans (congrArg some hsame))
      rw [Option.getD_some, hfresh]
      simp only [List.forall_mem_cons, hgiven, reduceCtorEq, false_implies,
        Option.some.injEq, ne_eq]
      constructor
      · rintro ⟨⟨hnotGiven, hnotMadeUp⟩, hrest, hapart⟩
        exact ⟨⟨hnotGiven, hrest⟩, ⟨trivial, fun _ _ => trivial⟩, fun other hother =>
          ⟨fun hname => Ne.symm (hnotMadeUp other hother hname), hapart other hother⟩⟩
      · rintro ⟨⟨hnotGiven, hrest⟩, _, hapart⟩
        exact ⟨⟨hnotGiven, fun other hother hname =>
          Ne.symm ((hapart other hother).1 hname)⟩, hrest,
          fun other hother => (hapart other hother).2⟩
    | none =>
      rw [List.filterMap_cons_none hgiven, Option.getD_none]
      have hfresh :
          madeUp item ∉ rest.map (fun other => (given other).getD (madeUp other)) ↔
            ∀ other ∈ rest, given other ≠ some (madeUp item) := by
        simp only [List.mem_map, not_exists, not_and]
        constructor
        · intro hfresh other hother hname
          exact hfresh other hother (by simp [hname])
        · intro hnotGiven other hother hsame
          cases hname : given other with
          | none =>
            rw [hname, Option.getD_none] at hsame
            exact hmadeUp.1 other hother hsame.symm
          | some name =>
            rw [hname, Option.getD_some] at hsame
            exact hnotGiven other hother (hname.trans (congrArg some hsame))
      rw [hfresh]
      simp only [List.forall_mem_cons, hgiven, ne_eq, reduceCtorEq, not_false_eq_true,
        implies_true, true_and, true_implies]
      constructor
      · rintro ⟨hnotGiven, hrest, hapart⟩
        exact ⟨hrest, hnotGiven, hapart⟩
      · rintro ⟨hrest, hnotGiven, hapart⟩
        exact ⟨hnotGiven, hrest, hapart⟩

/-! ## Splitting at a separator -/

theorem not_mem_of_mem_splitOn [DecidableEq α] {separator : α} {items piece : List α}
    (hpiece : piece ∈ items.splitOn separator) : separator ∉ piece := by
  induction items generalizing piece with
  | nil =>
    rw [List.splitOn_nil, List.mem_singleton] at hpiece
    rw [hpiece]
    exact List.not_mem_nil
  | cons item items ih =>
    rw [List.splitOn_cons_eq_if_modifyHead] at hpiece
    split at hpiece
    · cases List.mem_cons.mp hpiece with
      | inl hnil => exact hnil ▸ List.not_mem_nil
      | inr htail => exact ih htail
    · rename_i hitem
      have hne : separator ≠ item := fun heq => hitem (beq_iff_eq.mpr heq.symm)
      cases hpieces : items.splitOn separator with
      | nil => exact absurd hpieces (List.splitOn_ne_nil _ _)
      | cons head tail =>
        rw [hpieces, List.modifyHead_cons] at hpiece
        cases List.mem_cons.mp hpiece with
        | inl hhead =>
          have hold : separator ∉ head := ih (hpieces ▸ List.mem_cons_self)
          rw [hhead, List.mem_cons, not_or]
          exact ⟨hne, hold⟩
        | inr htail => exact ih (hpieces ▸ List.mem_cons_of_mem head htail)

/-- Which lists splitting gives back after joining. -/
theorem splitOn_intercalate_iff [DecidableEq α] (separator : α) (pieces : List (List α)) :
    ([separator].intercalate pieces).splitOn separator = pieces ↔
      pieces ≠ [] ∧ ∀ piece ∈ pieces, separator ∉ piece := by
  constructor
  · intro hsplit
    refine ⟨fun hnil => ?_, fun piece hpiece => ?_⟩
    · rw [hnil] at hsplit
      exact List.splitOn_ne_nil _ _ hsplit
    · exact not_mem_of_mem_splitOn (hsplit ▸ hpiece)
  · exact fun ⟨hne, hpieces⟩ => List.splitOn_intercalate separator hpieces hne

/-- Joining gives nothing for no pieces and for one empty piece. -/
theorem intercalate_eq_nil_iff (separator : α) (pieces : List (List α)) :
    [separator].intercalate pieces = [] ↔ pieces = [] ∨ pieces = [[]] := by
  match pieces with
  | [] => simp
  | [piece] => simp
  | piece :: next :: rest => simp [intercalate_cons]

end RootSeeker.Framing
