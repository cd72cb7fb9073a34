import Mathlib

/-!
# Insertion-ordered dictionaries

A dictionary lists its entries in the order in which the keys were first
inserted.  Overwriting a key keeps its place.  Lookups read the first entry of
a key, which is the only one in a dictionary built by `set`.
-/

namespace RootSeeker

abbrev Dict (κ ν : Type*) := List (κ × ν)

namespace Dict

variable {κ ν : Type*} [DecidableEq κ]

def get? : Dict κ ν → κ → Option ν
  | [], _ => none
  | (other, value) :: rest, key => if other = key then some value else get? rest key

def set : Dict κ ν → κ → ν → Dict κ ν
  | [], key, value => [(key, value)]
  | (other, old) :: rest, key, value =>
    if other = key then (key, value) :: rest else (other, old) :: set rest key value

/-- `{**entries, **updates}`. -/
def update (entries updates : Dict κ ν) : Dict κ ν :=
  updates.foldl (fun acc entry => acc.set entry.1 entry.2) entries

/-- `entries.setdefault(key, value)`. -/
def setDefault (entries : Dict κ ν) (key : κ) (value : ν) : Dict κ ν :=
  match entries.get? key with
  | some _ => entries
  | none => entries.set key value

def keys (entries : Dict κ ν) : List κ :=
  entries.map Prod.fst

/-- Keep the entries whose key satisfies `keep`. -/
def filterKeys (keep : κ → Bool) (entries : Dict κ ν) : Dict κ ν :=
  entries.filter fun entry => keep entry.1

/-- `entries.pop(key, None)`. -/
def erase (entries : Dict κ ν) (key : κ) : Dict κ ν :=
  entries.filterKeys fun other => other ≠ key

/-- `left == right`: the order of the entries does not matter. -/
def sameEntries [DecidableEq ν] (left right : Dict κ ν) : Bool :=
  left.length = right.length ∧ ∀ entry ∈ left, right.get? entry.1 = some entry.2

@[simp]
theorem get?_nil (key : κ) : get? ([] : Dict κ ν) key = none := rfl

@[simp]
theorem get?_set_self (entries : Dict κ ν) (key : κ) (value : ν) :
    (entries.set key value).get? key = some value := by
  induction entries with
  | nil => simp [set, get?]
  | cons entry rest ih =>
    obtain ⟨other, old⟩ := entry
    by_cases hkey : other = key
    · simp [set, get?, hkey]
    · simpa [set, get?, hkey] using ih

variable {value : ν} {entries : Dict κ ν} {key : κ}

@[simp]
theorem get?_set_of_ne (entries : Dict κ ν) {other : κ} (value : ν) (hne : other ≠ key) :
    (entries.set key value).get? other = entries.get? other := by
  induction entries with
  | nil => simp [set, get?, hne.symm]
  | cons entry rest ih =>
    obtain ⟨head, old⟩ := entry
    by_cases hhead : head = key
    · subst head
      simp [set, get?, hne.symm]
    · rw [set, if_neg hhead]
      by_cases hother : head = other
      · simp [get?, hother]
      · simpa [get?, hother] using ih

theorem mem_keys_iff (entries : Dict κ ν) (key : κ) :
    key ∈ entries.keys ↔ (entries.get? key).isSome := by
  induction entries with
  | nil => simp [keys]
  | cons entry rest ih =>
    obtain ⟨head, old⟩ := entry
    by_cases hhead : head = key
    · simp [keys, get?, hhead]
    · have hmem : key ∈ keys ((head, old) :: rest) ↔ key ∈ keys rest := by
        simp [keys, Ne.symm hhead]
      rw [hmem, ih, get?, if_neg hhead]

theorem mem_of_get? (hget : entries.get? key = some value) : (key, value) ∈ entries := by
  induction entries with
  | nil => simp at hget
  | cons entry rest ih =>
    obtain ⟨head, old⟩ := entry
    by_cases hhead : head = key
    · simp only [get?, hhead, if_true, Option.some.injEq] at hget
      simp [hhead, hget]
    · rw [get?, if_neg hhead] at hget
      exact List.mem_cons_of_mem _ (ih hget)

theorem forall_mem_set (good : κ × ν → Prop) (hgood : ∀ entry ∈ entries, good entry)
    (hnew : good (key, value)) : ∀ entry ∈ entries.set key value, good entry := by
  induction entries with
  | nil => simpa [set] using hnew
  | cons entry rest ih =>
    obtain ⟨head, old⟩ := entry
    rw [List.forall_mem_cons] at hgood
    by_cases hhead : head = key
    · rw [set, if_pos hhead, List.forall_mem_cons]
      exact ⟨hnew, hgood.2⟩
    · rw [set, if_neg hhead, List.forall_mem_cons]
      exact ⟨hgood.1, ih hgood.2⟩

/-- A new key goes to the end. -/
theorem set_eq_append (value : ν) (hfresh : entries.get? key = none) :
    entries.set key value = entries ++ [(key, value)] := by
  induction entries with
  | nil => rfl
  | cons entry rest ih =>
    obtain ⟨head, old⟩ := entry
    by_cases hhead : head = key
    · simp [get?, hhead] at hfresh
    · rw [get?, if_neg hhead] at hfresh
      rw [set, if_neg hhead, ih hfresh, List.cons_append]

theorem set_eq_self (hget : entries.get? key = some value) : entries.set key value = entries := by
  induction entries with
  | nil => simp at hget
  | cons entry rest ih =>
    obtain ⟨head, old⟩ := entry
    by_cases hhead : head = key
    · simp only [get?, hhead, if_true, Option.some.injEq] at hget
      rw [set, if_pos hhead, hhead, hget]
    · rw [get?, if_neg hhead] at hget
      rw [set, if_neg hhead, ih hget]

theorem mem_keys_set (entries : Dict κ ν) (key : κ) (value : ν) (other : κ) :
    other ∈ (entries.set key value).keys ↔ other = key ∨ other ∈ entries.keys := by
  by_cases hother : other = key
  · simp [hother, mem_keys_iff]
  · rw [mem_keys_iff, mem_keys_iff, get?_set_of_ne entries value hother]
    simp [hother]

theorem nodup_keys_set (hnodup : entries.keys.Nodup) (key : κ) (value : ν) :
    (entries.set key value).keys.Nodup := by
  induction entries with
  | nil => simp [set, keys]
  | cons entry rest ih =>
    obtain ⟨head, old⟩ := entry
    have hrest : head ∉ keys rest ∧ (keys rest).Nodup := List.nodup_cons.mp hnodup
    by_cases hhead : head = key
    · rw [set, if_pos hhead]
      exact List.nodup_cons.mpr ⟨hhead ▸ hrest.1, hrest.2⟩
    · rw [set, if_neg hhead]
      refine List.nodup_cons.mpr ⟨?_, ih hrest.2⟩
      intro hmem
      exact ((mem_keys_set rest key value head).mp hmem).elim hhead hrest.1

theorem filterKeys_eq_self (hfresh : key ∉ entries.keys) :
    entries.filterKeys (fun other => other ≠ key) = entries := by
  apply List.filter_eq_self.mpr
  intro entry hentry
  rw [decide_eq_true_eq]
  exact fun hkey => hfresh (hkey ▸ List.mem_map_of_mem hentry)

/-- Up to the order, setting a key drops its old entry and adds the new one. -/
theorem set_perm (hnodup : entries.keys.Nodup) (key : κ) (value : ν) :
    (entries.set key value).Perm
      (entries.filterKeys (fun other => other ≠ key) ++ [(key, value)]) := by
  induction entries with
  | nil => exact List.Perm.refl _
  | cons entry rest ih =>
    obtain ⟨head, old⟩ := entry
    have hrest : head ∉ keys rest ∧ (keys rest).Nodup := List.nodup_cons.mp hnodup
    by_cases hhead : head = key
    · subst hhead
      have hdropped : filterKeys (fun other => other ≠ head) ((head, old) :: rest) = rest := by
        rw [filterKeys, List.filter_cons_of_neg (by simp)]
        exact filterKeys_eq_self hrest.1
      rw [set, if_pos rfl, hdropped]
      exact (List.perm_append_singleton _ _).symm
    · have hkept : filterKeys (fun other => other ≠ key) ((head, old) :: rest) =
          (head, old) :: filterKeys (fun other => other ≠ key) rest :=
        List.filter_cons_of_pos (by simpa using hhead)
      rw [set, if_neg hhead, hkept, List.cons_append]
      exact (ih hrest.2).cons _

theorem get?_of_mem (hnodup : entries.keys.Nodup) (hmem : (key, value) ∈ entries) :
    entries.get? key = some value := by
  induction entries with
  | nil => exact absurd hmem List.not_mem_nil
  | cons entry rest ih =>
    obtain ⟨head, old⟩ := entry
    have hrest : head ∉ keys rest ∧ (keys rest).Nodup := List.nodup_cons.mp hnodup
    cases List.mem_cons.mp hmem with
    | inl hhead =>
      obtain ⟨rfl, rfl⟩ := Prod.mk.inj hhead
      rw [get?, if_pos rfl]
    | inr hlater =>
      have hne : head ≠ key := by
        intro hsame
        exact hrest.1 (hsame ▸ List.mem_map_of_mem (f := Prod.fst) hlater)
      rw [get?, if_neg hne, ih hrest.2 hlater]

theorem mem_keys_update (entries updates : Dict κ ν) (key : κ) :
    key ∈ (entries.update updates).keys ↔ key ∈ entries.keys ∨ key ∈ updates.keys := by
  induction updates generalizing entries with
  | nil => simp [update, keys]
  | cons entry rest ih =>
    have hkeys : key ∈ keys (entry :: rest) ↔ key = entry.1 ∨ key ∈ keys rest :=
      List.mem_cons
    have hstep := ih (entries.set entry.1 entry.2)
    rw [mem_keys_set] at hstep
    rw [hkeys, update, List.foldl_cons]
    exact hstep.trans (by tauto)

theorem nodup_keys_update (hnodup : entries.keys.Nodup) (updates : Dict κ ν) :
    (entries.update updates).keys.Nodup := by
  induction updates generalizing entries with
  | nil => exact hnodup
  | cons entry rest ih => exact ih (nodup_keys_set hnodup entry.1 entry.2)

/-- New keys go to the end, in order. -/
theorem update_eq_append {updates : Dict κ ν} (hnodup : (entries.keys ++ updates.keys).Nodup) :
    entries.update updates = entries ++ updates := by
  induction updates generalizing entries with
  | nil => exact (List.append_nil entries).symm
  | cons entry rest ih =>
    have hfresh : entries.get? entry.1 = none := by
      rw [← Option.not_isSome_iff_eq_none, ← mem_keys_iff]
      intro hmem
      exact (List.disjoint_of_nodup_append hnodup) hmem List.mem_cons_self
    have hset := set_eq_append entry.2 hfresh
    have hnext : ((entries.set entry.1 entry.2).keys ++ keys rest).Nodup := by
      rw [hset, keys, List.map_append, List.append_assoc]
      exact hnodup
    calc entries.update (entry :: rest)
        = (entries.set entry.1 entry.2).update rest := rfl
      _ = entries.set entry.1 entry.2 ++ rest := ih hnext
      _ = entries ++ entry :: rest := by rw [hset, List.append_assoc, List.singleton_append]

theorem update_nil_of_nodup (hnodup : entries.keys.Nodup) : update [] entries = entries :=
  update_eq_append (by simpa [keys] using hnodup)

@[simp]
theorem get?_setDefault_self (entries : Dict κ ν) (key : κ) (value : ν) :
    (entries.setDefault key value).get? key = some ((entries.get? key).getD value) := by
  unfold setDefault
  cases hget : entries.get? key with
  | none => simp
  | some old => simpa using hget

@[simp]
theorem get?_setDefault_of_ne (entries : Dict κ ν) {other : κ} (value : ν) (hne : other ≠ key) :
    (entries.setDefault key value).get? other = entries.get? other := by
  unfold setDefault
  cases entries.get? key with
  | none => exact get?_set_of_ne entries value hne
  | some old => rfl

theorem get?_mapValues {ν' : Type*} (f : ν → ν') (entries : Dict κ ν) (key : κ) :
    get? (entries.map fun entry => (entry.1, f entry.2)) key = (entries.get? key).map f := by
  induction entries with
  | nil => rfl
  | cons entry rest ih =>
    obtain ⟨head, old⟩ := entry
    by_cases hhead : head = key
    · simp [get?, hhead]
    · simpa [get?, hhead] using ih

theorem get?_filterKeys (keep : κ → Bool) (entries : Dict κ ν) (key : κ) :
    (entries.filterKeys keep).get? key = if keep key then entries.get? key else none := by
  induction entries with
  | nil => simp [filterKeys]
  | cons entry rest ih =>
    obtain ⟨head, old⟩ := entry
    rw [filterKeys] at ih
    by_cases hkeep : keep head = true
    · rw [filterKeys, List.filter_cons_of_pos (by simpa using hkeep)]
      by_cases hhead : head = key
      · subst head
        simp [get?, hkeep]
      · simp only [get?, if_neg hhead]
        exact ih
    · rw [filterKeys, List.filter_cons_of_neg (by simpa using hkeep), ih]
      by_cases hhead : head = key
      · subst head
        simp [hkeep]
      · simp only [get?, if_neg hhead]

@[simp]
theorem get?_erase_self (entries : Dict κ ν) (key : κ) : (entries.erase key).get? key = none := by
  simp [erase, get?_filterKeys]

theorem get?_erase_of_ne (entries : Dict κ ν) {other : κ} (hne : other ≠ key) :
    (entries.erase key).get? other = entries.get? other := by
  simp [erase, get?_filterKeys, hne]

theorem mem_of_mem_erase {entry : κ × ν} (hentry : entry ∈ entries.erase key) : entry ∈ entries :=
  (List.mem_filter.mp hentry).1

theorem nodup_keys_erase (hnodup : entries.keys.Nodup) (key : κ) : (entries.erase key).keys.Nodup :=
  List.Nodup.sublist (List.Sublist.map Prod.fst List.filter_sublist) hnodup

end Dict

end RootSeeker
