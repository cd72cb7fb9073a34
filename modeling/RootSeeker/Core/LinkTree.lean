import RootSeeker.Core.PathWalk

/-!
# File trees with links

Links are followed in two ways: when a file is opened every part of the path has
to be there, while a path is also resolved where parts are missing.  Where
opening comes to a place, resolving comes to the same.
-/

namespace RootSeeker

inductive Node (ν β : Type*) where
  | dir
  | file (content : β)
  | link (absolute : Bool) (steps : List (PathStep ν))
  deriving DecidableEq

abbrev LinkTree (ν β : Type*) := Dict (Path ν) (Node ν β)

namespace LinkTree

variable {ν β : Type*} [DecidableEq ν] (tree : LinkTree ν β)

/-- Where a link that is found in this place goes on. -/
def linkStart (absolute : Bool) (place : Path ν) : Path ν :=
  if absolute then [] else place

/-- The place after all links are followed; what is missing is taken as it is written.
The first number bounds the steps. -/
def realpath : ℕ → Path ν → List (PathStep ν) → Option (Path ν)
  | 0, _, _ => none
  | _ + 1, place, [] => some place
  | bound + 1, place, .up :: rest => realpath bound place.dropLast rest
  | bound + 1, place, .into name :: rest =>
    match tree.get? (place ++ [name]) with
    | some (.link absolute steps) => realpath bound (linkStart absolute place) (steps ++ rest)
    | _ => realpath bound (place ++ [name]) rest

/-- The place that is opened; nothing if a part of the path is missing or no directory. -/
def locate : ℕ → Path ν → List (PathStep ν) → Option (Path ν)
  | 0, _, _ => none
  | _ + 1, place, [] => if (tree.get? place).isSome then some place else none
  | bound + 1, place, .up :: rest =>
    match tree.get? place with
    | some .dir => locate bound place.dropLast rest
    | _ => none
  | bound + 1, place, .into name :: rest =>
    match tree.get? place, tree.get? (place ++ [name]) with
    | some .dir, some (.link absolute steps) =>
      locate bound (linkStart absolute place) (steps ++ rest)
    | some .dir, some _ => locate bound (place ++ [name]) rest
    | _, _ => none

variable {tree}

/-- What is opened is what the path resolves to. -/
theorem realpath_of_locate {bound : ℕ} {place found : Path ν} {steps : List (PathStep ν)}
    (hlocate : tree.locate bound place steps = some found) :
    tree.realpath bound place steps = some found := by
  induction bound generalizing place steps with
  | zero =>
    rw [locate] at hlocate
    exact absurd hlocate (by simp)
  | succ bound ih =>
    cases steps with
    | nil =>
      rw [locate] at hlocate
      split at hlocate
      · rw [realpath, Option.some.inj hlocate]
      · exact absurd hlocate (by simp)
    | cons step rest =>
      cases step with
      | up =>
        rw [locate] at hlocate
        split at hlocate
        · exact ih hlocate
        · exact absurd hlocate (by simp)
      | into name =>
        rw [locate] at hlocate
        rw [realpath]
        cases hplace : tree.get? place with
        | none => exact absurd hlocate (by simp [hplace])
        | some here =>
          cases here with
          | file content => exact absurd hlocate (by simp [hplace])
          | link absolute steps => exact absurd hlocate (by simp [hplace])
          | dir =>
            simp only [hplace] at hlocate
            cases hnode : tree.get? (place ++ [name]) with
            | none => exact absurd hlocate (by simp [hnode])
            | some node =>
              simp only [hnode] at hlocate
              cases node with
              | dir => exact ih hlocate
              | file content => exact ih hlocate
              | link absolute steps => exact ih hlocate

end LinkTree

end RootSeeker
