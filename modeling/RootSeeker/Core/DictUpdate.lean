import RootSeeker.Core.Dict

/-!
# What an update of a dictionary leaves

The last entry of a key gives its value, the first one its place.
-/

namespace RootSeeker.Dict

variable {κ ν : Type*} [DecidableEq κ]

/-! ## Values -/

theorem get?_append (left right : Dict κ ν) (key : κ) :
    get? (left ++ right) key = (get? left key).or (get? right key) := by
  induction left with
  | nil => rfl
  | cons entry left ih =>
    obtain ⟨other, value⟩ := entry
    rw [List.cons_append, get?, get?, ih]
    split <;> rfl

theorem get?_update (entries updates : Dict κ ν) (key : κ) :
    (entries.update updates).get? key = (get? updates.reverse key).or (entries.get? key) := by
  induction updates generalizing entries with
  | nil => rfl
  | cons entry updates ih =>
    obtain ⟨other, value⟩ := entry
    have hstep : entries.update ((other, value) :: updates) =
        (entries.set other value).update updates := rfl
    rw [hstep, ih, List.reverse_cons, get?_append]
    by_cases hkey : key = other
    · subst hkey
      rw [get?_set_self, get?, if_pos rfl]
      cases get? updates.reverse key <;> rfl
    · rw [get?_set_of_ne _ _ hkey, get?, if_neg (Ne.symm hkey), get?_nil, Option.or_none]

/-- Where every key is listed once, the last entry of a key is the first. -/
theorem get?_reverse {entries : Dict κ ν} (hnodup : entries.keys.Nodup) (key : κ) :
    get? entries.reverse key = get? entries key := by
  have hupdate := get?_update ([] : Dict κ ν) entries key
  rw [update_nil_of_nodup hnodup, get?_nil, Option.or_none] at hupdate
  exact hupdate.symm

/-! ## Erasing a key -/

theorem erase_set_self (entries : Dict κ ν) (key : κ) (value : ν) :
    (entries.set key value).erase key = entries.erase key := by
  induction entries with
  | nil => simp [set, erase, filterKeys]
  | cons entry entries ih =>
    obtain ⟨other, old⟩ := entry
    rw [set]
    by_cases hkey : other = key
    · simp [hkey, erase, filterKeys]
    · rw [if_neg hkey]
      simpa [erase, filterKeys, hkey] using ih

theorem erase_set_of_ne (entries : Dict κ ν) {key other : κ} (hne : other ≠ key) (value : ν) :
    (entries.set other value).erase key = (entries.erase key).set other value := by
  induction entries with
  | nil => simp [set, erase, filterKeys, hne]
  | cons entry entries ih =>
    obtain ⟨head, old⟩ := entry
    rw [set]
    by_cases hhead : head = other
    · simp [hhead, hne, erase, filterKeys, set]
    · rw [if_neg hhead]
      by_cases hkey : head = key
      · simpa [erase, filterKeys, hkey] using ih
      · simpa [erase, filterKeys, hkey, set, hhead] using ih

/-! ## Order -/

def addKey (keys : List κ) (key : κ) : List κ :=
  if key ∈ keys then keys else keys ++ [key]

theorem keys_set (entries : Dict κ ν) (key : κ) (value : ν) :
    (entries.set key value).keys = addKey entries.keys key := by
  induction entries with
  | nil => rfl
  | cons entry entries ih =>
    obtain ⟨other, old⟩ := entry
    rw [set]
    by_cases hkey : other = key
    · rw [if_pos hkey, addKey, if_pos (by simp [keys, hkey]), keys, List.map_cons, keys,
        List.map_cons, hkey]
    · have hmem : key ∈ keys ((other, old) :: entries) ↔ key ∈ keys entries := by
        simp [keys, Ne.symm hkey]
      rw [if_neg hkey, keys, List.map_cons]
      change other :: keys (set entries key value) = _
      rw [ih, addKey, addKey, apply_ite (List.cons other), if_congr hmem rfl rfl]
      rfl

theorem keys_update (entries updates : Dict κ ν) :
    (entries.update updates).keys = updates.keys.foldl addKey entries.keys := by
  induction updates generalizing entries with
  | nil => rfl
  | cons entry updates ih =>
    have hstep : entries.update (entry :: updates) =
        (entries.set entry.1 entry.2).update updates := rfl
    rw [hstep, ih, keys_set]
    rfl

theorem mem_addKey {keys : List κ} {key other : κ} :
    other ∈ addKey keys key ↔ other ∈ keys ∨ other = key := by
  rw [addKey]
  split
  · rename_i hmem
    exact ⟨Or.inl, fun hother => hother.elim id fun heq => heq ▸ hmem⟩
  · rw [List.mem_append, List.mem_singleton]

theorem mem_foldl_addKey {keys later : List κ} {other : κ} :
    other ∈ later.foldl addKey keys ↔ other ∈ keys ∨ other ∈ later := by
  induction later generalizing keys with
  | nil => simp
  | cons key later ih => rw [List.foldl_cons, ih, mem_addKey, List.mem_cons, or_assoc]

theorem addKey_of_mem {keys : List κ} {key : κ} (hmem : key ∈ keys) : addKey keys key = keys :=
  if_pos hmem

theorem nodup_foldl_addKey {keys : List κ} (hnodup : keys.Nodup) (later : List κ) :
    (later.foldl addKey keys).Nodup := by
  induction later generalizing keys with
  | nil => exact hnodup
  | cons key later ih =>
    apply ih
    rw [addKey]
    split
    · exact hnodup
    · next hfresh => exact List.nodup_append.mpr ⟨hnodup, List.nodup_singleton key,
        fun other hother last hlast heq =>
          hfresh (List.mem_singleton.mp hlast ▸ heq ▸ hother)⟩

/-- Keys are only added behind the ones that are there. -/
theorem exists_foldl_addKey (keys later : List κ) :
    ∃ added, later.foldl addKey keys = keys ++ added := by
  induction later generalizing keys with
  | nil => exact ⟨[], (List.append_nil keys).symm⟩
  | cons key later ih =>
    obtain ⟨added, hadded⟩ := ih (addKey keys key)
    rw [List.foldl_cons, hadded, addKey]
    split
    · exact ⟨added, rfl⟩
    · exact ⟨[key] ++ added, List.append_assoc _ _ _⟩

/-- Repetitions may be left out before the keys are added. -/
theorem foldl_addKey_firsts (keys later : List κ) :
    (later.foldl addKey []).foldl addKey keys = later.foldl addKey keys := by
  induction later using List.reverseRecOn with
  | nil => rfl
  | append_singleton later key ih =>
    rw [List.foldl_append, List.foldl_append]
    change (addKey (later.foldl addKey []) key).foldl addKey keys =
      addKey (later.foldl addKey keys) key
    by_cases hmem : key ∈ later.foldl addKey []
    · have hlater : key ∈ later := (mem_foldl_addKey.mp hmem).resolve_left List.not_mem_nil
      rw [addKey_of_mem hmem, ih, addKey_of_mem (mem_foldl_addKey.mpr (Or.inr hlater))]
    · rw [addKey, if_neg hmem, List.foldl_append, ih]
      rfl

/-- A further key in between does not change what is added behind it. -/
theorem addKey_between (before after : List κ) {key between : κ} (hne : key ≠ between) :
    ∃ later, addKey (before ++ after) key = before ++ later ∧
      addKey (before ++ between :: after) key = before ++ between :: later := by
  by_cases hmem : key ∈ before ++ after
  · have hmore : key ∈ before ++ between :: after := by
      rw [List.mem_append, List.mem_cons]
      rw [List.mem_append] at hmem
      exact hmem.imp_right Or.inr
    exact ⟨after, addKey_of_mem hmem, addKey_of_mem hmore⟩
  · have hless : key ∉ before ++ between :: after := by
      rw [List.mem_append, List.mem_cons]
      rw [List.mem_append] at hmem
      tauto
    refine ⟨after ++ [key], ?_, ?_⟩
    · rw [addKey, if_neg hmem, List.append_assoc]
    · rw [addKey, if_neg hless, List.append_assoc, List.cons_append]

/-- Dictionaries with the same keys in the same order and the same values are equal. -/
theorem ext_of_keys {left right : Dict κ ν} (hnodup : left.keys.Nodup)
    (hkeys : left.keys = right.keys) (hget : ∀ key, left.get? key = right.get? key) :
    left = right := by
  induction left generalizing right with
  | nil => exact (List.map_eq_nil_iff.mp hkeys.symm).symm
  | cons entry left ih =>
    obtain ⟨key, value⟩ := entry
    cases right with
    | nil => exact absurd hkeys (by simp [keys])
    | cons other right =>
      obtain ⟨otherKey, otherValue⟩ := other
      obtain ⟨rfl, hrest⟩ := List.cons.inj hkeys
      obtain ⟨hfresh, hnodup⟩ := List.nodup_cons.mp hnodup
      have hvalue := hget key
      rw [get?, get?, if_pos rfl, if_pos rfl] at hvalue
      have hlater : ∀ other, get? left other = get? right other := by
        intro other
        by_cases hother : key = other
        · subst hother
          have hleft : get? left key = none := by
            rwa [← Option.not_isSome_iff_eq_none, ← mem_keys_iff]
          have hright : get? right key = none := by
            rw [← Option.not_isSome_iff_eq_none, ← mem_keys_iff]
            exact fun hmem => hfresh (hrest ▸ hmem)
          rw [hleft, hright]
        · have hboth := hget other
          rwa [get?, get?, if_neg hother, if_neg hother] at hboth
      rw [Option.some.inj hvalue, ih hnodup hrest hlater]

theorem get?_foldl_setDefault (entries defaults : Dict κ ν) (key : κ) :
    (defaults.foldl (fun entries entry => entries.setDefault entry.1 entry.2) entries).get? key =
      (entries.get? key).or (get? defaults key) := by
  induction defaults generalizing entries with
  | nil => exact (Option.or_none).symm
  | cons entry defaults ih =>
    obtain ⟨other, value⟩ := entry
    rw [List.foldl_cons, ih, get?]
    by_cases hother : other = key
    · subst hother
      rw [get?_setDefault_self, if_pos rfl]
      cases entries.get? other <;> rfl
    · rw [get?_setDefault_of_ne _ _ (Ne.symm hother), if_neg hother]

/-- A value after an update is a new one or an old one. -/
theorem mem_or_get?_of_get?_update {entries updates : Dict κ ν} {key : κ} {value : ν}
    (hvalue : (entries.update updates).get? key = some value) :
    (key, value) ∈ updates ∨ entries.get? key = some value := by
  rw [get?_update, Option.or_eq_some_iff] at hvalue
  rcases hvalue with hnew | ⟨-, hold⟩
  · exact .inl (List.mem_reverse.mp (mem_of_get? hnew))
  · exact .inr hold

theorem get?_update_of_not_mem {entries updates : Dict κ ν} {key : κ}
    (hkey : key ∉ updates.keys) : (entries.update updates).get? key = entries.get? key := by
  have hnone : get? updates.reverse key = none := by
    rw [← Option.not_isSome_iff_eq_none, ← mem_keys_iff, keys, List.map_reverse, List.mem_reverse]
    exact hkey
  rw [get?_update, hnone, Option.none_or]

/-! ## Amendments -/

/-- A value for a key, set where the value that is there, or its absence, is refused. -/
structure Amendment (κ ν : Type*) where
  key : κ
  refuses : Option ν → Bool
  value : ν

/-- Apply an amendment, and note whether anything was set. -/
def amend (state : Dict κ ν × Bool) (amendment : Amendment κ ν) : Dict κ ν × Bool :=
  if amendment.refuses (state.1.get? amendment.key) then
    (state.1.set amendment.key amendment.value, true)
  else state

def amendAll (amendments : List (Amendment κ ν)) (entries : Dict κ ν) : Dict κ ν × Bool :=
  amendments.foldl amend (entries, false)

theorem foldl_amend_of_accepted {amendments : List (Amendment κ ν)} {state : Dict κ ν × Bool}
    (haccepted : ∀ amendment ∈ amendments,
      amendment.refuses (state.1.get? amendment.key) = false) :
    amendments.foldl amend state = state := by
  induction amendments with
  | nil => rfl
  | cons amendment amendments ih =>
    obtain ⟨hfirst, hrest⟩ := List.forall_mem_cons.mp haccepted
    rw [List.foldl_cons, amend, hfirst, if_neg Bool.false_ne_true, ih hrest]

/-- Where every value is accepted, nothing changes. -/
theorem amendAll_of_accepted {amendments : List (Amendment κ ν)} {entries : Dict κ ν}
    (haccepted : ∀ amendment ∈ amendments,
      amendment.refuses (entries.get? amendment.key) = false) :
    amendAll amendments entries = (entries, false) :=
  foldl_amend_of_accepted haccepted

theorem get?_amend_of_ne (state : Dict κ ν × Bool) {amendment : Amendment κ ν} {key : κ}
    (hne : key ≠ amendment.key) : (amend state amendment).1.get? key = state.1.get? key := by
  rw [amend]
  split
  · exact get?_set_of_ne _ _ hne
  · rfl

theorem get?_foldl_amend_of_not_mem {amendments : List (Amendment κ ν)} {key : κ}
    (hkey : key ∉ amendments.map Amendment.key) (state : Dict κ ν × Bool) :
    (amendments.foldl amend state).1.get? key = state.1.get? key := by
  induction amendments generalizing state with
  | nil => rfl
  | cons amendment amendments ih =>
    rw [List.map_cons, List.mem_cons, not_or] at hkey
    rw [List.foldl_cons, ih hkey.2, get?_amend_of_ne _ hkey.1]

theorem get?_amendAll_of_not_mem {amendments : List (Amendment κ ν)} {key : κ}
    (hkey : key ∉ amendments.map Amendment.key) (entries : Dict κ ν) :
    (amendAll amendments entries).1.get? key = entries.get? key :=
  get?_foldl_amend_of_not_mem hkey _

/-- Each key has its new value, or the old one if that is accepted. -/
theorem get?_amendAll {amendments : List (Amendment κ ν)}
    (hnodup : (amendments.map Amendment.key).Nodup) {amendment : Amendment κ ν}
    (hmem : amendment ∈ amendments) (entries : Dict κ ν) :
    (amendAll amendments entries).1.get? amendment.key =
      if amendment.refuses (entries.get? amendment.key) then some amendment.value
      else entries.get? amendment.key := by
  have hrun : ∀ state : Dict κ ν × Bool,
      (amendments.foldl amend state).1.get? amendment.key =
        if amendment.refuses (state.1.get? amendment.key) then some amendment.value
        else state.1.get? amendment.key := by
    induction amendments with
    | nil => exact absurd hmem List.not_mem_nil
    | cons first amendments ih =>
      intro state
      rw [List.map_cons, List.nodup_cons] at hnodup
      rw [List.foldl_cons]
      rcases List.mem_cons.mp hmem with rfl | hlater
      · rw [get?_foldl_amend_of_not_mem hnodup.1, amend]
        split
        · exact get?_set_self _ _ _
        · rfl
      · have hne : amendment.key ≠ first.key := fun heq =>
          hnodup.1 (heq ▸ List.mem_map_of_mem hlater)
        rw [ih hnodup.2 hlater, get?_amend_of_ne _ hne]
  exact hrun (entries, false)

/-- What holds of the old entries and of the new values holds after the amendments. -/
theorem forall_mem_amendAll (good : κ × ν → Prop) {amendments : List (Amendment κ ν)}
    {entries : Dict κ ν} (hentries : ∀ entry ∈ entries, good entry)
    (hvalues : ∀ amendment ∈ amendments, good (amendment.key, amendment.value)) :
    ∀ entry ∈ (amendAll amendments entries).1, good entry := by
  have hrun : ∀ state : Dict κ ν × Bool, (∀ entry ∈ state.1, good entry) →
      ∀ entry ∈ (amendments.foldl amend state).1, good entry := by
    induction amendments with
    | nil => exact fun _ hstate => hstate
    | cons amendment amendments ih =>
      obtain ⟨hfirst, hrest⟩ := List.forall_mem_cons.mp hvalues
      intro state hstate
      apply ih hrest
      rw [amend]
      split
      · exact forall_mem_set good hstate hfirst
      · exact hstate
  exact hrun (entries, false) hentries

end RootSeeker.Dict
