import RootSeeker.Core.Dict

/-!
# Dictionaries of sets

A dictionary of sets stores a relation: a key is related to the elements of its
set, and to none if it is missing.  Two such dictionaries store one relation in
both directions as long as they are updated together.
-/

namespace RootSeeker

/-- A set is listed by its elements. -/
abbrev SetDict (κ α : Type*) := Dict κ (List α)

namespace SetDict

variable {κ α : Type*} [DecidableEq κ] [DecidableEq α]

/-- `sets[key]` of a `defaultdict(set)`. -/
def members (sets : SetDict κ α) (key : κ) : List α :=
  (sets.get? key).getD []

/-- `sets[key].add(element)`. -/
def add (sets : SetDict κ α) (key : κ) (element : α) : SetDict κ α :=
  sets.set key ((sets.members key).insert element)

/-- `sets[key].discard(element)`. -/
def discard (sets : SetDict κ α) (key : κ) (element : α) : SetDict κ α :=
  sets.set key ((sets.members key).filter (· ≠ element))

/-- Discard one element under each of the keys. -/
def discardAll (sets : SetDict κ α) (keys : List κ) (element : α) : SetDict κ α :=
  keys.foldl (fun sets key => sets.discard key element) sets

/-- The relation that the dictionary stores. -/
def relation (sets : SetDict κ α) : Set (κ × α) :=
  {pair | pair.2 ∈ sets.members pair.1}

omit [DecidableEq α] in
@[simp]
theorem mem_relation (sets : SetDict κ α) (key : κ) (element : α) :
    (key, element) ∈ sets.relation ↔ element ∈ sets.members key := Iff.rfl

omit [DecidableEq α] in
@[simp]
theorem relation_nil : relation ([] : SetDict κ α) = ∅ := by
  ext pair
  simp [relation, members]

omit [DecidableEq α] in
theorem members_set (sets : SetDict κ α) (key : κ) (elements : List α) (other : κ) :
    members (sets.set key elements) other =
      if other = key then elements else sets.members other := by
  split
  · rename_i heq
    rw [heq, members, Dict.get?_set_self]
    rfl
  · rename_i hne
    rw [members, Dict.get?_set_of_ne _ _ hne]
    rfl

theorem relation_add (sets : SetDict κ α) (key : κ) (element : α) :
    (sets.add key element).relation = insert (key, element) sets.relation := by
  ext ⟨other, candidate⟩
  rw [add, mem_relation, members_set, Set.mem_insert_iff, mem_relation, Prod.mk.injEq]
  by_cases hkey : other = key
  · rw [if_pos hkey, hkey, List.mem_insert_iff]
    simp
  · simp [hkey]

theorem relation_discard (sets : SetDict κ α) (key : κ) (element : α) :
    (sets.discard key element).relation = sets.relation \ {(key, element)} := by
  ext ⟨other, candidate⟩
  rw [discard, mem_relation, members_set, Set.mem_sdiff, Set.mem_singleton_iff, mem_relation,
    Prod.mk.injEq]
  by_cases hkey : other = key
  · rw [if_pos hkey, hkey, List.mem_filter]
    simp
  · simp [hkey]

theorem relation_discardAll (sets : SetDict κ α) (keys : List κ) (element : α) :
    (sets.discardAll keys element).relation =
      sets.relation \ {pair | pair.1 ∈ keys ∧ pair.2 = element} := by
  induction keys generalizing sets with
  | nil =>
    ext pair
    simp [discardAll]
  | cons key rest ih =>
    rw [discardAll, List.foldl_cons, ← discardAll, ih, relation_discard]
    ext ⟨other, candidate⟩
    simp only [Set.mem_sdiff, Set.mem_singleton_iff, Set.mem_ofPred_eq, Prod.mk.injEq,
      List.mem_cons, or_and_right, not_or]
    exact and_assoc

omit [DecidableEq α] in
theorem relation_erase (sets : SetDict κ α) (key : κ) :
    relation (sets.erase key) = sets.relation \ {pair | pair.1 = key} := by
  ext ⟨other, candidate⟩
  rw [mem_relation, members, Set.mem_sdiff, mem_relation]
  by_cases hkey : other = key
  · rw [hkey, Dict.get?_erase_self]
    simp
  · rw [Dict.get?_erase_of_ne _ hkey]
    simp [members, hkey]

/-! ## Both directions -/

/-- The two dictionaries store the same relation. -/
def Inverse (left : SetDict κ α) (right : SetDict α κ) : Prop :=
  ∀ key element, (key, element) ∈ left.relation ↔ (element, key) ∈ right.relation

theorem inverse_nil : Inverse ([] : SetDict κ α) [] := by
  intro key element
  simp

variable {right : SetDict α κ} {left : SetDict κ α}

theorem Inverse.add (hinverse : left.Inverse right) (key : κ) (element : α) :
    (left.add key element).Inverse (right.add element key) := by
  intro other candidate
  rw [relation_add, relation_add, Set.mem_insert_iff, Set.mem_insert_iff, hinverse,
    Prod.mk.injEq, Prod.mk.injEq, and_comm]

theorem Inverse.discard (hinverse : left.Inverse right) (key : κ) (element : α) :
    (left.discard key element).Inverse (right.discard element key) := by
  intro other candidate
  rw [relation_discard, relation_discard, Set.mem_sdiff, Set.mem_sdiff, hinverse,
    Set.mem_singleton_iff, Set.mem_singleton_iff, Prod.mk.injEq, Prod.mk.injEq,
    and_comm (a := other = key)]

/-- An element leaves one side when its set leaves the other. -/
theorem Inverse.discardAll (hinverse : left.Inverse right) (element : α) :
    (left.discardAll (right.members element) element).Inverse (Dict.erase right element) := by
  intro other candidate
  rw [relation_discardAll, relation_erase, Set.mem_sdiff, Set.mem_sdiff, hinverse]
  apply and_congr_right
  intro hrelated
  rw [Set.mem_ofPred_eq, Set.mem_ofPred_eq, not_iff_not]
  constructor
  · exact fun hboth => hboth.2
  · intro heq
    dsimp only at heq
    rw [heq] at hrelated
    exact ⟨hrelated, heq⟩

end SetDict

end RootSeeker
