import RootSeeker.Core.FileTree

/-!
# Walking along a path

A path is followed step by step through a file tree without links, as the
operating system does it: every place that is left has to be a directory.  Where
the walk leads does not depend on the tree; a tree only decides whether it is
there.
-/

namespace RootSeeker

/-- One step of a path. -/
inductive PathStep (ν : Type*) where
  | up
  | into (name : ν)
  deriving DecidableEq

namespace PathStep

variable {ν : Type*}

/-- The place after a step; above the root is the root. -/
def next (place : Path ν) : PathStep ν → Path ν
  | up => place.dropLast
  | into name => place ++ [name]

/-- Where the steps lead. -/
def destination (place : Path ν) (steps : List (PathStep ν)) : Path ν :=
  steps.foldl next place

/-- The places that the steps leave. -/
def passed : Path ν → List (PathStep ν) → List (Path ν)
  | _, [] => []
  | place, step :: steps => place :: passed (next place step) steps

end PathStep

namespace FileTree

open PathStep

variable {ν β : Type*} [DecidableEq ν] {tree : FileTree ν β}

/-- The place the steps lead to, if every place on the way is a directory and the last is
there. -/
def walk (tree : FileTree ν β) : Path ν → List (PathStep ν) → Option (Path ν)
  | place, [] => if tree.exists? place then some place else none
  | place, step :: steps => if tree.isDir place then walk tree (next place step) steps else none

/-- The root is a directory, and so is what a place is in. -/
structure Grown (tree : FileTree ν β) : Prop where
  root : tree.isDir [] = true
  parent : ∀ place, tree.exists? place = true → place ≠ [] → tree.isDir place.dropLast = true

variable {steps : List (PathStep ν)} {place : Path ν}

theorem exists?_of_isDir (hdir : tree.isDir place = true) : tree.exists? place = true := by
  rw [isDir] at hdir
  rw [exists?]
  cases hget : tree.get? place with
  | none => simp [hget] at hdir
  | some entry => rfl

/-- Above a directory there are directories. -/
theorem Grown.isDir_prefix (hgrown : tree.Grown) {above : Path ν}
    (hdir : tree.isDir place = true) (habove : above <+: place) : tree.isDir above = true := by
  induction place using List.reverseRecOn with
  | nil => rwa [List.prefix_nil.mp habove]
  | append_singleton place name ih =>
    rcases List.prefix_concat_iff.mp habove with rfl | hshorter
    · exact hdir
    · have hparent := hgrown.parent _ (exists?_of_isDir hdir) (by simp)
      rw [List.dropLast_concat] at hparent
      exact ih hparent hshorter

theorem walk_eq_some_iff {found : Path ν} :
    tree.walk place steps = some found ↔
      found = destination place steps ∧ tree.exists? found = true ∧
        ∀ left ∈ passed place steps, tree.isDir left = true := by
  induction steps generalizing place with
  | nil =>
    rw [walk]
    split
    · next hexists =>
      constructor
      · rintro hfound
        obtain rfl := Option.some.inj hfound
        exact ⟨rfl, hexists, fun _ hleft => absurd hleft List.not_mem_nil⟩
      · rintro ⟨rfl, _⟩
        rfl
    · next hmissing =>
      constructor
      · exact fun hfound => absurd hfound (by simp)
      · rintro ⟨rfl, hexists, _⟩
        exact absurd hexists hmissing
  | cons step steps ih =>
    rw [walk, passed, List.forall_mem_cons]
    split
    · next hdir =>
      rw [ih]
      exact ⟨fun ⟨hfound, hexists, hpassed⟩ => ⟨hfound, hexists, hdir, hpassed⟩,
        fun ⟨hfound, hexists, _, hpassed⟩ => ⟨hfound, hexists, hpassed⟩⟩
    · next hfile =>
      constructor
      · exact fun hfound => absurd hfound (by simp)
      · rintro ⟨_, _, hdir, _⟩
        exact absurd hdir hfile

/-! ## The smallest tree in which a walk comes to a file -/

/-- The directories that are needed for these places. -/
def needed (places : List (Path ν)) (file : Path ν) : List (Path ν) :=
  [] :: (file.dropLast :: places).flatMap List.inits

/-- A file, and the directories around it and around these places. -/
def around (places : List (Path ν)) (file : Path ν) (content : β) : FileTree ν β :=
  (file, .file content) :: (needed places file).map fun place => (place, .dir)

section Around

variable {places : List (Path ν)} {file : Path ν} {content : β}

omit [DecidableEq ν] in
theorem mem_needed_iff :
    place ∈ needed places file ↔
      place = [] ∨ place <+: file.dropLast ∨ ∃ other ∈ places, place <+: other := by
  simp [needed, List.mem_inits]

theorem get?_dirs (places : List (Path ν)) (place : Path ν) :
    Dict.get? (places.map fun place => (place, (.dir : Entry β))) place =
      if place ∈ places then some .dir else none := by
  induction places with
  | nil => rfl
  | cons first places ih =>
    rw [List.map_cons, Dict.get?, ih]
    by_cases hfirst : first = place
    · rw [if_pos hfirst, if_pos (hfirst ▸ List.mem_cons_self)]
    · rw [if_neg hfirst]
      refine if_congr ?_ rfl rfl
      rw [List.mem_cons, or_iff_right (Ne.symm hfirst)]

theorem get?_around (place : Path ν) :
    (around places file content).get? place =
      if place = file then some (.file content)
      else if place ∈ needed places file then some .dir else none := by
  rw [around, Dict.get?, get?_dirs]
  exact if_congr eq_comm rfl rfl

theorem isDir_around (hfile : file ∉ needed places file) (hplace : place ∈ needed places file) :
    (around places file content).isDir place = true := by
  have hne : place ≠ file := by
    rintro rfl
    exact hfile hplace
  rw [isDir, get?_around, if_neg hne, if_pos hplace]

theorem grown_around (hfile : file ∉ needed places file) : (around places file content).Grown := by
  constructor
  · exact isDir_around hfile List.mem_cons_self
  · intro place hexists hne
    apply isDir_around hfile
    rw [exists?, get?_around] at hexists
    rw [mem_needed_iff]
    by_cases hplace : place = file
    · exact .inr (.inl (hplace ▸ List.prefix_refl _))
    · rw [if_neg hplace] at hexists
      split at hexists
      · next hneeded =>
        rcases mem_needed_iff.mp hneeded with hroot | habove | ⟨other, hother, habove⟩
        · exact absurd hroot hne
        · exact .inr (.inl ((List.dropLast_prefix place).trans habove))
        · exact .inr (.inr ⟨other, hother, (List.dropLast_prefix place).trans habove⟩)
      · exact absurd hexists (by simp)

end Around

/-- Whether some tree has a file where the steps lead: the place is not the root and not on
the way. -/
def CanEnd (place : Path ν) (steps : List (PathStep ν)) : Prop :=
  destination place steps ≠ [] ∧
    ∀ left ∈ passed place steps, ¬destination place steps <+: left

/-- In a grown tree the way to a file has no directory below it. -/
theorem canEnd_of_file (hgrown : tree.Grown) {found : Path ν}
    (hwalk : tree.walk place steps = some found) (hfile : tree.isDir found = false) :
    CanEnd place steps := by
  obtain ⟨rfl, _, hpassed⟩ := walk_eq_some_iff.mp hwalk
  constructor
  · intro hroot
    rw [hroot, hgrown.root] at hfile
    exact absurd hfile (by simp)
  · intro left hleft habove
    rw [hgrown.isDir_prefix (hpassed left hleft) habove] at hfile
    exact absurd hfile (by simp)

/-- Where a walk can end, there is a tree in which it ends at a file. -/
theorem exists_tree_of_canEnd (hends : CanEnd place steps) (content : β) :
    ∃ tree : FileTree ν β, tree.Grown ∧
      tree.walk place steps = some (destination place steps) ∧
      tree.get? (destination place steps) = some (.file content) := by
  have hfile : destination place steps ∉
      needed (passed place steps) (destination place steps) := by
    rw [mem_needed_iff]
    rintro (hroot | habove | ⟨left, hleft, habove⟩)
    · exact hends.1 hroot
    · have hlength := habove.length_le
      rw [List.length_dropLast] at hlength
      have hpositive := List.length_pos_iff.mpr hends.1
      omega
    · exact hends.2 left hleft habove
  refine ⟨around (passed place steps) (destination place steps) content, grown_around hfile,
    walk_eq_some_iff.mpr ⟨rfl, ?_, ?_⟩, ?_⟩
  · rw [exists?, get?_around, if_pos rfl]
    rfl
  · intro left hleft
    exact isDir_around hfile (mem_needed_iff.mpr (.inr (.inr ⟨left, hleft, List.prefix_refl _⟩)))
  · rw [get?_around, if_pos rfl]

end FileTree

end RootSeeker
