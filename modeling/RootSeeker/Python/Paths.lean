import RootSeeker.Core.Framing
import RootSeeker.Core.PathWalk
import RootSeeker.Python.Text

/-!
# Path texts

How `pathlib` reads the text of a path: parts between slashes, where empty parts
and dots do not count and two dots go up.
-/

namespace RootSeeker.Python

open PathStep

def pathSeparator : CodePoint := CodePoint.ofChar '/'

def nul : CodePoint := ⟨0, by decide⟩

/-- The steps of a path; empty parts and dots do not count. -/
def pathSteps (path : PyStr) : List (PathStep PyStr) :=
  ((path.splitOn pathSeparator).filter fun part => part ≠ [] ∧ part ≠ py ".").map fun part =>
    if part = py ".." then up else into part

/-- `as_posix` of a relative path. -/
def posixText (names : List PyStr) : PyStr :=
  join [pathSeparator] names

/-- What a file can be called. -/
def ValidName (name : PyStr) : Prop :=
  name ≠ [] ∧ name ≠ py "." ∧ name ≠ py ".." ∧ pathSeparator ∉ name

instance (name : PyStr) : Decidable (ValidName name) :=
  inferInstanceAs (Decidable (_ ∧ _))

/-- The text of a relative path leads to its names. -/
theorem pathSteps_posixText {names : List PyStr} (hnames : ∀ name ∈ names, ValidName name) :
    pathSteps (posixText names) = names.map into := by
  cases hempty : names with
  | nil => rfl
  | cons first rest =>
    rw [← hempty]
    have hsplit : (posixText names).splitOn pathSeparator = names :=
      (Framing.splitOn_intercalate_iff pathSeparator names).mpr
        ⟨by rw [hempty]; exact List.cons_ne_nil _ _, fun name hname => (hnames name hname).2.2.2⟩
    have hkept : names.filter (fun part => part ≠ [] ∧ part ≠ py ".") = names := by
      rw [List.filter_eq_self]
      intro name hname
      rw [decide_eq_true_eq]
      exact ⟨(hnames name hname).1, (hnames name hname).2.1⟩
    rw [pathSteps, hsplit, hkept]
    apply List.map_congr_left
    intro name hname
    exact if_neg (hnames name hname).2.2.1

end RootSeeker.Python
