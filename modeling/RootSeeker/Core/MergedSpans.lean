import Mathlib

/-!
# Merging spans

Spans of numbers that overlap or touch are merged.  Merging spans in the order of
their starts gives spans that lie apart, in order, and within the same bounds.
-/

namespace RootSeeker.MergedSpans

/-- Merge later spans, in the order of their starts, into the current one. -/
def mergeFrom : ℕ × ℕ → List (ℕ × ℕ) → List (ℕ × ℕ)
  | current, [] => [current]
  | current, span :: spans =>
    if span.1 ≤ current.2 + 1 then mergeFrom (current.1, max current.2 span.2) spans
    else current :: mergeFrom span spans

/-- By start, then by end. -/
def before (left right : ℕ × ℕ) : Prop :=
  left.1 < right.1 ∨ (left.1 = right.1 ∧ left.2 ≤ right.2)

instance : DecidableRel before := fun _ _ => inferInstanceAs (Decidable (_ ∨ _))

instance : Std.Total before := ⟨fun left right => by simp only [before]; omega⟩

instance : IsTrans (ℕ × ℕ) before := ⟨fun _ _ _ => by simp only [before]; omega⟩

def mergeSpans (spans : List (ℕ × ℕ)) : List (ℕ × ℕ) :=
  match spans.insertionSort before with
  | [] => []
  | first :: rest => mergeFrom first rest

/-- A span of numbers from one up to a bound. -/
def Within (bound : ℕ) (span : ℕ × ℕ) : Prop :=
  1 ≤ span.1 ∧ span.1 ≤ span.2 ∧ span.2 ≤ bound

/-- One ends before the other starts. -/
def Apart (left right : ℕ × ℕ) : Prop :=
  left.2 < right.1

variable {bound : ℕ} {current : ℕ × ℕ} {spans : List (ℕ × ℕ)}

theorem within_of_mem_mergeFrom (hcurrent : Within bound current)
    (hspans : ∀ span ∈ spans, Within bound span) :
    ∀ span ∈ mergeFrom current spans, Within bound span := by
  induction spans generalizing current with
  | nil =>
    intro span hspan
    exact List.mem_singleton.mp hspan ▸ hcurrent
  | cons next spans ih =>
    obtain ⟨hnext, hrest⟩ := List.forall_mem_cons.mp hspans
    rw [mergeFrom]
    split
    · refine ih ⟨hcurrent.1, ?_, max_le hcurrent.2.2 hnext.2.2⟩ hrest
      exact hcurrent.2.1.trans (le_max_left _ _)
    · exact List.forall_mem_cons.mpr ⟨hcurrent, ih hnext hrest⟩

/-- No merged span starts before the current one. -/
theorem start_le_of_mem_mergeFrom (hcurrent : ∀ span ∈ spans, current.1 ≤ span.1)
    (hsorted : spans.Pairwise fun left right => left.1 ≤ right.1) :
    ∀ span ∈ mergeFrom current spans, current.1 ≤ span.1 := by
  induction spans generalizing current with
  | nil =>
    intro span hspan
    rw [List.mem_singleton.mp hspan]
  | cons next spans ih =>
    obtain ⟨hnext, hrest⟩ := List.forall_mem_cons.mp hcurrent
    obtain ⟨hfirst, hsorted⟩ := List.pairwise_cons.mp hsorted
    rw [mergeFrom]
    split
    · exact ih hrest hsorted
    · rw [List.forall_mem_cons]
      exact ⟨le_rfl, fun span hspan => hnext.trans (ih hfirst hsorted span hspan)⟩

theorem pairwise_mergeFrom (hsorted : spans.Pairwise fun left right => left.1 ≤ right.1) :
    (mergeFrom current spans).Pairwise Apart := by
  induction spans generalizing current with
  | nil => exact List.pairwise_singleton _ _
  | cons next spans ih =>
    obtain ⟨hfirst, hsorted⟩ := List.pairwise_cons.mp hsorted
    rw [mergeFrom]
    split
    · exact ih hsorted
    · next hapart =>
      refine List.pairwise_cons.mpr ⟨fun span hspan => ?_, ih hsorted⟩
      have hstart := start_le_of_mem_mergeFrom hfirst hsorted span hspan
      rw [Apart]
      omega

/-- Merged spans keep the bounds and lie apart, in order. -/
theorem mergeSpans_spec (hspans : ∀ span ∈ spans, Within bound span) :
    (∀ span ∈ mergeSpans spans, Within bound span) ∧ (mergeSpans spans).Pairwise Apart := by
  have hmem : ∀ span ∈ spans.insertionSort before, Within bound span :=
    fun span hspan => hspans span ((List.mem_insertionSort before).mp hspan)
  have hsorted : (spans.insertionSort before).Pairwise before :=
    List.pairwise_insertionSort before spans
  rw [mergeSpans]
  split
  · exact ⟨fun _ hspan => absurd hspan List.not_mem_nil, List.Pairwise.nil⟩
  · next first rest heq =>
    rw [heq] at hmem hsorted
    obtain ⟨hfirst, hrest⟩ := List.forall_mem_cons.mp hmem
    refine ⟨within_of_mem_mergeFrom hfirst hrest, pairwise_mergeFrom ?_⟩
    refine (List.pairwise_cons.mp hsorted).2.imp fun {left right} hbefore => ?_
    rcases hbefore with hless | hsame
    · exact hless.le
    · exact hsame.1.le

/-- Spans that lie apart, in order, start before they end. -/
theorem head_le_getLast (hspans : ∀ span ∈ spans, Within bound span) (hapart : spans.Pairwise Apart)
    (hne : spans ≠ []) : (spans.head hne).1 ≤ (spans.getLast hne).2 := by
  cases spans with
  | nil => exact absurd rfl hne
  | cons first rest =>
    have hfirst := (hspans first List.mem_cons_self).2.1
    cases List.mem_cons.mp (List.getLast_mem hne) with
    | inl hsame => rwa [hsame]
    | inr hrest =>
      have hlast := (hspans _ (List.mem_cons_of_mem _ hrest)).2.1
      have hless := (List.pairwise_cons.mp hapart).1 _ hrest
      rw [Apart] at hless
      rw [List.head_cons]
      omega

end RootSeeker.MergedSpans
