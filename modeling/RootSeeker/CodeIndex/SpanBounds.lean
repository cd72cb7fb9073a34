import RootSeeker.CodeIndex.SymbolSpans

/-!
# The scanners stay inside the file

The blocks and the indented bodies that the scanners find begin and end at lines of
the file.
-/

namespace RootSeeker.CodeIndex

open Python

/-- The lines of a span are lines of the file. -/
def SymbolSpan.Inside (count : ℕ) (span : SymbolSpan) : Prop :=
  1 ≤ span.startLine ∧ span.startLine ≤ span.endLine ∧ span.endLine ≤ count

variable {lines : List PyStr}

theorem matchBraceBlock_lt {state : ℤ × Bool} {length : ℕ}
    (hfound : matchBraceBlock state lines = some length) : length < lines.length := by
  induction lines generalizing state length with
  | nil => simp [matchBraceBlock] at hfound
  | cons line rest ih =>
    rw [matchBraceBlock] at hfound
    split at hfound
    · obtain rfl := Option.some.inj hfound
      exact Nat.succ_pos _
    · obtain ⟨later, hlater, rfl⟩ := Option.map_eq_some_iff.mp hfound
      exact Nat.succ_lt_succ (ih hlater)

theorem blockOf_lt {index opening length : ℕ}
    (hblock : blockOf lines index = some (opening, length)) :
    index + opening + length < lines.length := by
  obtain ⟨found, _, hmatch⟩ := Option.bind_eq_some_iff.mp hblock
  obtain ⟨closing, hclosing, heq⟩ := Option.map_eq_some_iff.mp hmatch
  obtain ⟨rfl, rfl⟩ := Prod.mk.inj heq
  have hlt := matchBraceBlock_lt hclosing
  rw [List.length_drop] at hlt
  omega

theorem braceSpansFrom_inside (header : PyStr → Option (PyStr × PyStr)) (nests : PyStr → Bool)
    (lines : List PyStr) (index : ℕ) :
    ∀ span ∈ braceSpansFrom header nests lines index, span.Inside lines.length := by
  induction index using braceSpansFrom.induct header nests lines with
  | case1 index hlt hheader ih =>
    rw [braceSpansFrom, if_pos hlt, hheader]
    exact ih
  | case2 index hlt kind name hheader hblock ih =>
    rw [braceSpansFrom, if_pos hlt, hheader]
    dsimp only
    rw [hblock]
    exact ih
  | case3 index hlt kind name hheader opening length hblock ih =>
    rw [braceSpansFrom, if_pos hlt, hheader]
    dsimp only
    rw [hblock]
    have hend := blockOf_lt hblock
    refine List.forall_mem_cons.mpr ⟨?_, ih⟩
    exact ⟨Nat.succ_le_succ (Nat.zero_le _), by dsimp only; omega, hend⟩
  | case4 index hlt =>
    rw [braceSpansFrom, if_neg hlt]
    exact fun span hspan => absurd hspan List.not_mem_nil

theorem dedupeSpans_subset (spans : List SymbolSpan) : dedupeSpans spans ⊆ spans := by
  have hkept : ∀ (ordered kept : List SymbolSpan), ordered.foldl
      (fun kept span => if kept.any (sameSpan · span) then kept else kept ++ [span]) kept ⊆
        kept ++ ordered := by
    intro ordered
    induction ordered with
    | nil => simp
    | cons span rest ih =>
      intro kept
      rw [List.foldl_cons]
      split
      · exact List.Subset.trans (ih kept) (by simp)
      · exact List.Subset.trans (ih (kept ++ [span])) (by simp)
  intro span hspan
  have hfold := hkept _ _ (List.mem_mergeSort.mp hspan)
  rwa [List.nil_append, List.mem_mergeSort] at hfold

theorem trimTrailingBlank_bounds {startLine endLine : ℕ} (hle : startLine ≤ endLine) :
    startLine ≤ trimTrailingBlank lines startLine endLine ∧
      trimTrailingBlank lines startLine endLine ≤ endLine := by
  induction endLine with
  | zero => exact ⟨hle, le_rfl⟩
  | succ endLine ih =>
    rw [trimTrailingBlank]
    split
    · rename_i hblank
      have hbounds := ih (Nat.lt_succ_iff.mp hblank.1)
      exact ⟨hbounds.1, hbounds.2.trans (Nat.le_succ _)⟩
    · exact ⟨hle, le_rfl⟩

theorem pythonSpansFrom_inside {starts : List PythonStart}
    (hbounds : ∀ start ∈ starts, 1 ≤ start.line ∧ start.line ≤ lines.length)
    (horder : starts.Pairwise fun left right => left.line < right.line) :
    ∀ span ∈ pythonSpansFrom lines starts, span.Inside lines.length := by
  induction starts with
  | nil => exact fun span hspan => absurd hspan List.not_mem_nil
  | cons start later ih =>
    obtain ⟨hstart, hlater⟩ := List.forall_mem_cons.mp hbounds
    obtain ⟨hfirst, horder⟩ := List.pairwise_cons.mp horder
    have hend : start.line ≤ ((later.find? (·.indent ≤ start.indent)).map (·.line - 1)).getD
          lines.length ∧
        ((later.find? (·.indent ≤ start.indent)).map (·.line - 1)).getD lines.length ≤
          lines.length := by
      cases hfind : later.find? (·.indent ≤ start.indent) with
      | none => exact ⟨hstart.2, le_rfl⟩
      | some next =>
        have hmem := List.mem_of_find?_eq_some hfind
        exact ⟨Nat.le_sub_one_of_lt (hfirst next hmem), (Nat.sub_le _ _).trans (hlater next hmem).2⟩
    rw [pythonSpansFrom]
    refine List.forall_mem_cons.mpr ⟨?_, ih hlater horder⟩
    have htrim := @trimTrailingBlank_bounds lines _ _ hend.1
    exact ⟨hstart.1, htrim.1, htrim.2.trans hend.2⟩

theorem pythonStart_line {wordChar : CodePoint → Bool} {entry : PyStr × ℕ} {start : PythonStart}
    (hstart : pythonStart wordChar entry = some start) : start.line = entry.2 + 1 := by
  rw [pythonStart] at hstart
  split at hstart
  · exact absurd hstart (by simp)
  · split at hstart
    · rw [← Option.some.inj hstart]
    · split at hstart
      · rw [← Option.some.inj hstart]
      · exact absurd hstart (by simp)

theorem extractPythonSpans_inside (wordChar : CodePoint → Bool) (lines : List PyStr) :
    ∀ span ∈ extractPythonSpans wordChar lines, span.Inside lines.length := by
  apply pythonSpansFrom_inside
  · intro start hstart
    obtain ⟨entry, hentry, hmatch⟩ := List.mem_filterMap.mp hstart
    have hlt := List.snd_lt_of_mem_zipIdx hentry
    rw [pythonStart_line hmatch]
    exact ⟨Nat.succ_le_succ (Nat.zero_le _), by omega⟩
  · rw [List.pairwise_filterMap]
    have hindices : (lines.zipIdx.map Prod.snd).Pairwise (· < ·) := by
      rw [List.zipIdx_map_snd]
      exact List.pairwise_lt_range'
    refine (List.pairwise_map.mp hindices).imp fun hlt left hleft right hright => ?_
    rw [pythonStart_line hleft, pythonStart_line hright]
    exact Nat.succ_lt_succ hlt

/-- The scanners of all languages find lines of the file. -/
theorem extractSymbolSpans_inside (std : Stdlib) (wordChar : CodePoint → Bool)
    (lines : List PyStr) (language : PyStr) :
    ∀ span ∈ extractSymbolSpans std wordChar lines language, span.Inside lines.length := by
  rw [extractSymbolSpans]
  split
  · exact fun span hspan => braceSpansFrom_inside _ _ _ _ span (dedupeSpans_subset _ hspan)
  · split
    · exact extractPythonSpans_inside wordChar lines
    · split
      · exact fun span hspan => braceSpansFrom_inside _ _ _ _ span (dedupeSpans_subset _ hspan)
      · split
        · exact braceSpansFrom_inside _ _ _ _
        · exact fun span hspan => absurd hspan List.not_mem_nil

end RootSeeker.CodeIndex
