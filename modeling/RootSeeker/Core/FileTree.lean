import RootSeeker.Core.Dict

/-!
# File trees

A finite file system maps absolute paths to directories and files.  Whole
subtrees are read, removed and put in place.
-/

namespace RootSeeker

inductive Entry (β : Type*) where
  | dir
  | file (content : β)

abbrev Path (ν : Type*) := List ν

abbrev FileTree (ν β : Type*) := Dict (Path ν) (Entry β)

namespace FileTree

variable {ν β : Type*} [DecidableEq ν]

def isDir (tree : FileTree ν β) (path : Path ν) : Bool :=
  match tree.get? path with
  | some .dir => true
  | _ => false

def exists? (tree : FileTree ν β) (path : Path ν) : Bool :=
  (tree.get? path).isSome

/-- The tree below a path, with the paths relative to it. -/
def below (tree : FileTree ν β) (path : Path ν) : FileTree ν β :=
  tree.filterMap fun entry =>
    if path <+: entry.1 then some (entry.1.drop path.length, entry.2) else none

def remove (tree : FileTree ν β) (path : Path ν) : FileTree ν β :=
  tree.filterKeys fun other => ¬path <+: other

/-- Put a tree in place of what is at a path. -/
def graft (tree : FileTree ν β) (path : Path ν) (sub : FileTree ν β) : FileTree ν β :=
  tree.remove path ++ sub.map fun entry => (path ++ entry.1, entry.2)

theorem get?_append (first second : FileTree ν β) (path : Path ν) :
    Dict.get? (first ++ second) path = (first.get? path).or (second.get? path) := by
  induction first with
  | nil => rfl
  | cons entry rest ih =>
    obtain ⟨head, value⟩ := entry
    rw [List.cons_append, Dict.get?, Dict.get?]
    split
    · rfl
    · exact ih

theorem get?_below (tree : FileTree ν β) (path relative : Path ν) :
    (tree.below path).get? relative = tree.get? (path ++ relative) := by
  induction tree with
  | nil => rfl
  | cons entry rest ih =>
    obtain ⟨head, value⟩ := entry
    rw [below] at ih
    by_cases hhead : path <+: head
    · obtain ⟨tail, rfl⟩ := hhead
      simp only [below, List.filterMap_cons, List.prefix_append, if_true, Dict.get?]
      rw [ih]
      simp
    · have hne : head ≠ path ++ relative := by
        rintro rfl
        exact hhead (List.prefix_append path relative)
      simp only [below, List.filterMap_cons, hhead, if_false, Dict.get?]
      rw [ih, if_neg hne]

theorem get?_remove (tree : FileTree ν β) (path other : Path ν) :
    (tree.remove path).get? other = if path <+: other then none else tree.get? other := by
  rw [remove, Dict.get?_filterKeys]
  by_cases hbelow : path <+: other <;> simp [hbelow]

theorem get?_map_append (path relative : Path ν) (sub : FileTree ν β) :
    Dict.get? (sub.map fun entry => (path ++ entry.1, entry.2)) (path ++ relative) =
      sub.get? relative := by
  induction sub with
  | nil => rfl
  | cons entry rest ih =>
    rw [List.map_cons, Dict.get?, Dict.get?, ih]
    simp

variable {other path : Path ν}

theorem get?_map_of_not_prefix (hother : ¬path <+: other) (sub : FileTree ν β) :
    Dict.get? (sub.map fun entry => (path ++ entry.1, entry.2)) other = none := by
  induction sub with
  | nil => rfl
  | cons entry rest ih =>
    have hne : path ++ entry.1 ≠ other := by
      rintro rfl
      exact hother (List.prefix_append path entry.1)
    rw [List.map_cons, Dict.get?, if_neg hne, ih]

/-- At the path itself a graft shows the new tree. -/
@[simp]
theorem get?_graft_append (tree : FileTree ν β) (path relative : Path ν) (sub : FileTree ν β) :
    (tree.graft path sub).get? (path ++ relative) = sub.get? relative := by
  rw [graft, get?_append, get?_remove, if_pos (List.prefix_append path relative),
    Option.none_or, get?_map_append]

/-- Elsewhere a graft changes nothing. -/
theorem get?_graft_of_not_prefix (hother : ¬path <+: other) (tree sub : FileTree ν β) :
    (tree.graft path sub).get? other = tree.get? other := by
  rw [graft, get?_append, get?_remove, if_neg hother, get?_map_of_not_prefix hother, Option.or_none]

theorem get?_remove_of_not_prefix (hother : ¬path <+: other) (tree : FileTree ν β) :
    (tree.remove path).get? other = tree.get? other := by
  rw [get?_remove, if_neg hother]

end FileTree

end RootSeeker
