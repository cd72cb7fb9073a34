import Mathlib

/-!
# Lists of records with a key

A dictionary built from a list of records and their keys refers, for each key,
to the last record with that key.  Reading and changing a record through such
a dictionary is reading and changing that last record of the list.
-/

namespace RootSeeker.KeyedList

variable {α κ : Type*} [DecidableEq κ] (keyOf : α → κ)

/-- The last record with the key `key`. -/
def lookup (key : κ) : List α → Option α
  | [] => none
  | item :: rest => (lookup key rest).or (if keyOf item = key then some item else none)

/-- Change the last record with the key `key`. -/
def modify (key : κ) (change : α → α) : List α → List α
  | [] => []
  | item :: rest =>
    if (lookup keyOf key rest).isSome then item :: modify key change rest
    else if keyOf item = key then change item :: rest
    else item :: rest

variable {keyOf}

theorem lookup_isSome_iff (key : κ) (items : List α) :
    (lookup keyOf key items).isSome ↔ key ∈ items.map keyOf := by
  induction items with
  | nil => simp [lookup]
  | cons item rest ih =>
    rw [lookup, Option.isSome_or, Bool.or_eq_true, ih, List.map_cons, List.mem_cons, or_comm]
    refine or_congr_left ?_
    by_cases hkey : keyOf item = key
    · simp [hkey]
    · simp [hkey, Ne.symm hkey]

theorem lookup_eq_none_iff (key : κ) (items : List α) :
    lookup keyOf key items = none ↔ key ∉ items.map keyOf := by
  rw [← lookup_isSome_iff, Option.not_isSome_iff_eq_none]

variable {items : List α}

theorem lookup_of_mem {key : κ} (hkey : key ∈ items.map keyOf) :
    ∃ item, lookup keyOf key items = some item :=
  Option.isSome_iff_exists.mp ((lookup_isSome_iff key items).mpr hkey)

theorem mem_of_lookup {key : κ} {item : α} (hlookup : lookup keyOf key items = some item) :
    item ∈ items ∧ keyOf item = key := by
  induction items with
  | nil => exact absurd hlookup (by simp [lookup])
  | cons head rest ih =>
    rw [lookup, Option.or_eq_some_iff] at hlookup
    rcases hlookup with hrest | ⟨_, hhead⟩
    · exact ⟨List.mem_cons_of_mem _ (ih hrest).1, (ih hrest).2⟩
    · split at hhead
      · rename_i hkey
        obtain rfl := Option.some.inj hhead
        exact ⟨List.mem_cons_self, hkey⟩
      · exact absurd hhead (by simp)

/-- With distinct keys every record is the last one with its key. -/
theorem lookup_eq_some_iff (hnodup : (items.map keyOf).Nodup) (key : κ) (item : α) :
    lookup keyOf key items = some item ↔ item ∈ items ∧ keyOf item = key := by
  constructor
  · exact mem_of_lookup
  · rintro ⟨hmem, rfl⟩
    obtain ⟨found, hfound⟩ := lookup_of_mem (List.mem_map_of_mem (f := keyOf) hmem)
    obtain ⟨hfoundMem, hfoundKey⟩ := mem_of_lookup hfound
    rw [hfound, List.inj_on_of_nodup_map hnodup hfoundMem hmem hfoundKey]

/-- Where keys are distinct, one record has the key of a record. -/
theorem filter_key_eq_singleton (hnodup : (items.map keyOf).Nodup) {item : α}
    (hitem : item ∈ items) : items.filter (fun other => keyOf other = keyOf item) = [item] := by
  have hall : ∀ {others : List α}, keyOf item ∉ others.map keyOf →
      others.filter (fun other => keyOf other = keyOf item) = [] := by
    intro others hnone
    rw [List.filter_eq_nil_iff]
    intro other hother hkey
    exact hnone (of_decide_eq_true hkey ▸ List.mem_map_of_mem hother)
  induction items with
  | nil => exact absurd hitem List.not_mem_nil
  | cons head rest ih =>
    rw [List.map_cons, List.nodup_cons] at hnodup
    rcases List.mem_cons.mp hitem with rfl | hlater
    · rw [List.filter_cons_of_pos (by simp), hall hnodup.1]
    · have hne : keyOf head ≠ keyOf item := fun heq =>
        hnodup.1 (heq ▸ List.mem_map_of_mem hlater)
      rw [List.filter_cons_of_neg (by simpa using hne), ih hnodup.2 hlater]


/-- With distinct keys, looking for a key finds the record that has it. -/
theorem find?_eq_some_iff (hnodup : (items.map keyOf).Nodup) (key : κ) (item : α) :
    items.find? (fun other => keyOf other = key) = some item ↔ item ∈ items ∧ keyOf item = key := by
  constructor
  · intro hfind
    exact ⟨List.mem_of_find?_eq_some hfind, by simpa using List.find?_some hfind⟩
  · rintro ⟨hmem, hkey⟩
    cases hfind : items.find? (fun other => keyOf other = key) with
    | none =>
      have hnot := List.find?_eq_none.mp hfind item hmem
      exact absurd hkey (by simpa using hnot)
    | some found =>
      have hfound : keyOf found = key := by simpa using List.find?_some hfind
      rw [List.inj_on_of_nodup_map hnodup (List.mem_of_find?_eq_some hfind) hmem
        (hfound.trans hkey.symm)]

/-- With distinct keys it does not matter in which order one looks for a key. -/
theorem find?_eq_of_perm {others : List α} (hperm : items.Perm others)
    (hnodup : (items.map keyOf).Nodup) (key : κ) :
    items.find? (fun item => keyOf item = key) = others.find? (fun item => keyOf item = key) := by
  apply Option.ext
  intro item
  rw [find?_eq_some_iff hnodup, find?_eq_some_iff ((hperm.map keyOf).nodup_iff.mp hnodup),
    hperm.mem_iff]

omit [DecidableEq κ] in
/-- Sorting is stable: where the items that satisfy a property are in order already, the first
of them stays the first. -/
theorem find?_insertionSort {r : α → α → Prop} [DecidableRel r] {property : α → Bool}
    (hordered : (items.filter property).Pairwise r) :
    (items.insertionSort r).find? property = items.find? property := by
  have hsublist := (List.sublist_insertionSort hordered List.filter_sublist).filter property
  simp only [List.filter_filter, Bool.and_self] at hsublist
  have hsame : items.filter property = (items.insertionSort r).filter property := by
    apply hsublist.eq_of_length
    exact ((List.perm_insertionSort r items).filter property).length_eq.symm
  rw [← List.head?_filter, ← List.head?_filter, hsame]

section Modify

variable {change : α → α} (hchange : ∀ item, keyOf (change item) = keyOf item)

include hchange

theorem map_modify (key : κ) (items : List α) :
    (modify keyOf key change items).map keyOf = items.map keyOf := by
  induction items with
  | nil => rfl
  | cons item rest ih =>
    rw [modify]
    split
    · rw [List.map_cons, ih, List.map_cons]
    · split
      · rw [List.map_cons, hchange, List.map_cons]
      · rfl

theorem lookup_modify (key other : κ) (items : List α) :
    lookup keyOf other (modify keyOf key change items) =
      if other = key then (lookup keyOf key items).map change
      else lookup keyOf other items := by
  induction items with
  | nil => simp [modify, lookup]
  | cons item rest ih =>
    rw [modify]
    split
    · rename_i hrest
      rw [lookup, ih]
      split
      · rename_i hother
        obtain ⟨found, hfound⟩ := Option.isSome_iff_exists.mp hrest
        simp [lookup, hfound]
      · rw [lookup]
    · rename_i hrest
      rw [Option.not_isSome_iff_eq_none] at hrest
      split
      · rename_i hkey
        rw [lookup, hchange, lookup, lookup, hrest]
        by_cases hother : other = key
        · simp [hother, hkey, hrest]
        · simp [hother, hkey, Ne.symm hother]
      · rename_i hkey
        by_cases hother : other = key
        · subst hother
          simp [lookup, hrest, hkey]
        · rw [if_neg hother]

end Modify

end RootSeeker.KeyedList
