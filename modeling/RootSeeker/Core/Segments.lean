import Mathlib

/-!
# Cutting a range of positions

A range is cut into windows of a size, each starting a step after the one
before, up to the first window that reaches the end.  The positions that given
ranges leave out form gaps.
-/

namespace RootSeeker.Segments

/-! ## Windows -/

/-- The windows of the positions below `length`, each from its first position to
the one after its last. -/
def windows (length size step offset : ℕ) : List (ℕ × ℕ) :=
  if offset < length then
    (offset, min length (offset + size)) ::
      if length ≤ offset + size then [] else windows length size step (offset + max 1 step)
  else []
termination_by length - offset

/-- A window starts at a multiple of the step, and no earlier one reaches the end. -/
def IsWindow (length size step offset : ℕ) (window : ℕ × ℕ) : Prop :=
  ∃ count, window = (offset + count * step, min length (offset + count * step + size)) ∧
    offset + count * step < length ∧
      ∀ earlier < count, offset + earlier * step + size < length

section Windows

variable {length size step offset : ℕ} {window : ℕ × ℕ}

theorem windows_of_lt (hlt : offset < length) :
    windows length size step offset = (offset, min length (offset + size)) ::
      if length ≤ offset + size then [] else windows length size step (offset + max 1 step) := by
  rw [windows, if_pos hlt]

theorem windows_of_le (hle : length ≤ offset) : windows length size step offset = [] := by
  rw [windows, if_neg (not_lt.mpr hle)]

/-- A window is the first one, or one of those after it. -/
theorem isWindow_iff (hlt : offset < length) :
    IsWindow length size step offset window ↔
      window = (offset, min length (offset + size)) ∨
        offset + size < length ∧ IsWindow length size step (offset + step) window := by
  have hshift : ∀ count, offset + (count + 1) * step = offset + step + count * step :=
    fun count => by ring
  have hzero : offset + 0 * step = offset := by rw [Nat.zero_mul, Nat.add_zero]
  constructor
  · rintro ⟨count, rfl, hstart, hreach⟩
    cases count with
    | zero => exact Or.inl (by rw [hzero])
    | succ count =>
      have hfirst := hreach 0 (Nat.succ_pos count)
      rw [hzero] at hfirst
      refine Or.inr ⟨hfirst, count, by rw [hshift], hshift count ▸ hstart, ?_⟩
      intro earlier hearlier
      rw [← hshift]
      exact hreach (earlier + 1) (Nat.succ_lt_succ hearlier)
  · rintro (rfl | ⟨hfirst, count, rfl, hstart, hreach⟩)
    · exact ⟨0, by rw [hzero], by rwa [hzero], fun earlier hearlier => absurd hearlier (by omega)⟩
    · refine ⟨count + 1, by rw [hshift], (hshift count).symm ▸ hstart, ?_⟩
      intro earlier hearlier
      cases earlier with
      | zero => rwa [hzero]
      | succ earlier =>
        rw [hshift]
        exact hreach earlier (Nat.lt_of_succ_lt_succ hearlier)

theorem mem_windows_iff (hstep : 1 ≤ step) :
    window ∈ windows length size step offset ↔ IsWindow length size step offset window := by
  have hmax : max 1 step = step := max_eq_right hstep
  induction offset using windows.induct length size step with
  | case1 offset hlt ih =>
    rw [windows_of_lt hlt, isWindow_iff hlt, List.mem_cons, hmax]
    apply or_congr_right
    by_cases hreach : length ≤ offset + size
    · rw [if_pos hreach]
      exact iff_of_false List.not_mem_nil fun hlater => hreach.not_gt hlater.1
    · rw [if_neg hreach, and_iff_right (not_le.mp hreach), ← hmax]
      rw [hmax] at ih ⊢
      exact ih
  | case2 offset hlt =>
    rw [windows_of_le (not_lt.mp hlt)]
    refine iff_of_false List.not_mem_nil ?_
    rintro ⟨count, _, hstart, _⟩
    exact hlt ((Nat.le_add_right _ _).trans_lt hstart)

theorem bounds_of_mem_windows (hstep : 1 ≤ step) (hsize : 1 ≤ size)
    (hwindow : window ∈ windows length size step offset) :
    offset ≤ window.1 ∧ window.1 < window.2 ∧ window.2 ≤ length ∧ window.2 ≤ window.1 + size := by
  obtain ⟨count, rfl, hstart, _⟩ := (mem_windows_iff hstep).mp hwindow
  exact ⟨Nat.le_add_right _ _, lt_min hstart (by omega), min_le_left _ _, min_le_right _ _⟩

/-- Windows start after one another. -/
theorem windows_pairwise (hstep : 1 ≤ step) (hsize : 1 ≤ size) :
    (windows length size step offset).Pairwise fun left right => left.1 < right.1 := by
  induction offset using windows.induct length size step with
  | case1 offset hlt ih =>
    rw [windows_of_lt hlt]
    split
    · exact List.pairwise_singleton _ _
    · refine List.pairwise_cons.mpr ⟨fun window hwindow => ?_, ih⟩
      have hlater := (bounds_of_mem_windows hstep hsize hwindow).1
      have hpos : 1 ≤ max 1 step := le_max_left 1 step
      change offset < window.1
      omega
  | case2 offset hlt =>
    rw [windows_of_le (not_lt.mp hlt)]
    exact List.Pairwise.nil

/-- Windows that start no further apart than they are long leave nothing out. -/
theorem exists_window (hstep : 1 ≤ step) (hsize : step ≤ size) {position : ℕ}
    (hoffset : offset ≤ position) (hposition : position < length) :
    ∃ window ∈ windows length size step offset,
      window.1 ≤ position ∧ position < window.2 := by
  induction offset using windows.induct length size step with
  | case1 offset hlt ih =>
    rw [windows_of_lt hlt]
    by_cases hinside : position < offset + size
    · exact ⟨_, List.mem_cons_self, hoffset, lt_min hposition hinside⟩
    · rw [if_neg (by omega)]
      have hmax : max 1 step = step := max_eq_right hstep
      obtain ⟨window, hwindow, hin⟩ := ih (by omega)
      exact ⟨window, List.mem_cons_of_mem _ hwindow, hin⟩
  | case2 offset hlt => exact absurd (hoffset.trans_lt hposition) hlt

end Windows

/-! ## Gaps -/

/-- The maximal ranges that are not covered among the next `count` positions from
`position` on, after an open gap. -/
def gapsFrom (covered : ℕ → Bool) : Option ℕ → ℕ → ℕ → List (ℕ × ℕ)
  | gapStart, position, 0 => gapStart.toList.map fun start => (start, position - 1)
  | gapStart, position, count + 1 =>
    if covered position then
      (gapStart.toList.map fun start => (start, position - 1)) ++
        gapsFrom covered none (position + 1) count
    else gapsFrom covered (some (gapStart.getD position)) (position + 1) count

section Gaps

variable {covered : ℕ → Bool} {gapStart : Option ℕ} {position count : ℕ}

/-- A gap that is still open has started before and is not covered. -/
def OpenGap (covered : ℕ → Bool) (gapStart : Option ℕ) (position : ℕ) : Prop :=
  ∀ start ∈ gapStart, start < position ∧
    ∀ between, start ≤ between → between < position → covered between = false

theorem OpenGap.extend (hopen : OpenGap covered gapStart position)
    (huncovered : covered position = false) :
    OpenGap covered (some (gapStart.getD position)) (position + 1) := by
  intro start hstart
  obtain rfl := Option.some.inj hstart
  cases gapStart with
  | none =>
    refine ⟨Nat.lt_succ_self position, fun between hfrom hto => ?_⟩
    rwa [show between = position from le_antisymm (Nat.lt_succ_iff.mp hto) hfrom]
  | some start =>
    obtain ⟨hbefore, hgap⟩ := hopen start rfl
    refine ⟨Nat.lt_succ_of_lt hbefore, fun between hfrom hto => ?_⟩
    cases Nat.lt_succ_iff_lt_or_eq.mp hto with
    | inl hold => exact hgap between hfrom hold
    | inr hlast => rwa [hlast]

theorem openGap_none : OpenGap covered none position :=
  fun _ hstart => nomatch hstart

/-- The gap that is closed before a position. -/
theorem closed_gap (hopen : OpenGap covered gapStart position) {gap : ℕ × ℕ}
    (hgap : gap ∈ gapStart.toList.map fun start => (start, position - 1)) :
    gapStart.getD position ≤ gap.1 ∧ gap.1 ≤ gap.2 ∧ gap.2 < position ∧
      ∀ between, gap.1 ≤ between → between ≤ gap.2 → covered between = false := by
  cases gapStart with
  | none => exact absurd hgap List.not_mem_nil
  | some start =>
    obtain rfl := List.mem_singleton.mp hgap
    obtain ⟨hbefore, huncovered⟩ := hopen start rfl
    have hlast : position - 1 < position := by omega
    exact ⟨le_rfl, Nat.le_sub_one_of_lt hbefore, hlast, fun between hfrom hto =>
      huncovered between hfrom (hto.trans_lt hlast)⟩

theorem OpenGap.getD_le (hopen : OpenGap covered gapStart position) :
    gapStart.getD position ≤ position := by
  cases gapStart with
  | none => exact le_rfl
  | some start => exact (hopen start rfl).1.le

/-- A gap lies among the positions, and nothing in it is covered. -/
theorem gap_of_mem (hopen : OpenGap covered gapStart position) {gap : ℕ × ℕ}
    (hgap : gap ∈ gapsFrom covered gapStart position count) :
    gapStart.getD position ≤ gap.1 ∧ gap.1 ≤ gap.2 ∧ gap.2 < position + count ∧
      ∀ between, gap.1 ≤ between → between ≤ gap.2 → covered between = false := by
  induction count generalizing gapStart position with
  | zero => exact closed_gap hopen hgap
  | succ count ih =>
    rw [gapsFrom] at hgap
    split at hgap
    · cases List.mem_append.mp hgap with
      | inl hold =>
        obtain ⟨hfrom, hle, hto, huncovered⟩ := closed_gap hopen hold
        exact ⟨hfrom, hle, by omega, huncovered⟩
      | inr hlater =>
        obtain ⟨hfrom, hle, hto, huncovered⟩ := ih openGap_none hlater
        have hstart : gapStart.getD position ≤ position := hopen.getD_le
        exact ⟨hstart.trans ((Nat.le_succ position).trans hfrom), hle, by omega, huncovered⟩
    · rename_i hcovered
      obtain ⟨hfrom, hle, hto, huncovered⟩ := ih (hopen.extend (Bool.not_eq_true _ ▸ hcovered)) hgap
      exact ⟨hfrom, hle, by omega, huncovered⟩

/-- Every position that is not covered lies in a gap. -/
theorem exists_gap {uncovered : ℕ} (hfrom : gapStart.getD position ≤ uncovered)
    (hto : uncovered < position + count) (huncovered : covered uncovered = false) :
    ∃ gap ∈ gapsFrom covered gapStart position count,
      gap.1 ≤ uncovered ∧ uncovered ≤ gap.2 := by
  induction count generalizing gapStart position with
  | zero =>
    cases gapStart with
    | none => exact absurd hto (not_lt.mpr hfrom)
    | some start => exact ⟨_, List.mem_singleton_self _, hfrom, Nat.le_sub_one_of_lt hto⟩
  | succ count ih =>
    rw [gapsFrom]
    split
    · rename_i hcovered
      by_cases hbefore : uncovered < position
      · cases gapStart with
        | none => exact absurd hbefore (not_lt.mpr hfrom)
        | some start =>
          exact ⟨_, List.mem_append_left _ (List.mem_singleton_self _), hfrom,
            Nat.le_sub_one_of_lt hbefore⟩
      · have hother : uncovered ≠ position := by
          rintro rfl
          exact absurd (hcovered.symm.trans huncovered) (by simp)
        have hlater : (none : Option ℕ).getD (position + 1) ≤ uncovered := by
          rw [Option.getD_none]
          omega
        obtain ⟨gap, hgap, hin⟩ := ih hlater (by omega)
        exact ⟨gap, List.mem_append_right _ hgap, hin⟩
    · exact ih hfrom (by omega)

/-- Gaps follow one another. -/
theorem gaps_pairwise (hopen : OpenGap covered gapStart position) :
    (gapsFrom covered gapStart position count).Pairwise
      fun left right => left.2 < right.1 := by
  induction count generalizing gapStart position with
  | zero =>
    cases gapStart with
    | none => exact List.Pairwise.nil
    | some start => exact List.pairwise_singleton _ _
  | succ count ih =>
    rw [gapsFrom]
    split
    · rw [List.pairwise_append]
      refine ⟨?_, ih openGap_none, fun left hleft right hright => ?_⟩
      · cases gapStart with
        | none => exact List.Pairwise.nil
        | some start => exact List.pairwise_singleton _ _
      · have hend := (closed_gap hopen hleft).2.2.1
        have hstart : position + 1 ≤ right.1 := (gap_of_mem openGap_none hright).1
        omega
    · rename_i hcovered
      exact ih (hopen.extend (Bool.not_eq_true _ ▸ hcovered))

/-- Where nothing is covered the rest is one gap. -/
theorem gapsFrom_of_uncovered (huncovered : ∀ position, covered position = false) (start : ℕ) :
    gapsFrom covered (some start) position count = [(start, position + count - 1)] := by
  induction count generalizing position with
  | zero => rfl
  | succ count ih =>
    rw [gapsFrom, huncovered position, if_neg Bool.false_ne_true, Option.getD_some, ih,
      Nat.add_right_comm, Nat.add_assoc]

end Gaps

end RootSeeker.Segments
