import RootSeeker.Core.LinkTree
import RootSeeker.Python.Paths

/-!
# Reading the files of a repository

A requested file is read directly if its path resolves inside the repository.
Otherwise the tree is searched for a file of the same name whose path fits the
request.
-/

namespace RootSeeker.CodeIndex

open Python PathStep

/-- A file is what reading it as text gives. -/
abbrev Disk := LinkTree PyStr PyStr

/-- A disk, how many steps it follows, what a pattern of `rglob` matches, and the root of a
repository: where it is and what stands in front of the paths below it as text. -/
structure RepositoryRoot where
  disk : Disk
  /-- Files can be called what they are called. -/
  valid : ∀ entry ∈ disk, ∀ name ∈ entry.1, ValidName name
  /-- What is in a place is in a directory. -/
  grown : ∀ entry ∈ disk, ∀ above, above <+: entry.1 → above ≠ entry.1 →
    disk.get? above = some .dir
  bound : ℕ
  globMatches : PyStr → PyStr → Bool
  root : Path PyStr
  rootText : PyStr

/-- `_normalize_rel_path`. -/
def normalizeRelPath (relPath : PyStr) : PyStr :=
  (relPath.map fun c => if c = CodePoint.ofChar '\\' then pathSeparator else c).dropWhile
    (· = pathSeparator)

def pathIsSuffix (full needle : PyStr) : Bool :=
  let full := normalizeRelPath full
  let needle := normalizeRelPath needle
  needle ≠ [] ∧ (full = needle ∨ pathSeparator :: needle <:+ full)

/-- What follows the first occurrence of the marker. -/
def afterMarker (marker : PyStr) : PyStr → Option PyStr
  | [] => if marker = [] then some [] else none
  | c :: rest =>
    if marker <+: c :: rest then some ((c :: rest).drop marker.length)
    else afterMarker marker rest

def javaTypePath (path : PyStr) : PyStr :=
  (afterMarker (py "src/main/java/") (normalizeRelPath path)).getD (normalizeRelPath path)

def pathParts (path : PyStr) : List PyStr :=
  (path.splitOn pathSeparator).filter (· ≠ [])

/-- How many parts agree from the front. -/
def commonLength : List PyStr → List PyStr → ℕ
  | left :: lefts, right :: rights => if left = right then commonLength lefts rights + 1 else 0
  | _, _ => 0

def packageOverlapLen (full needle : PyStr) : ℕ :=
  commonLength (pathParts (javaTypePath full)).reverse (pathParts (javaTypePath needle)).reverse

def pathMatchesRequest (full needle : PyStr) : Bool :=
  if pathIsSuffix full needle then true
  else if ¬py ".java" <:+ javaTypePath full ∨ ¬py ".java" <:+ javaTypePath needle then false
  else 3 ≤ packageOverlapLen full needle

namespace RepositoryRoot

variable (repo : RepositoryRoot)

/-- `root.resolve()`. -/
def resolvedRoot : Option (Path PyStr) :=
  repo.disk.realpath repo.bound [] (repo.root.map into)

/-- The text of the file at a place. -/
def readText (place : Path PyStr) : Option PyStr :=
  match repo.disk.get? place with
  | some (.file text) => some text
  | _ => none

/-- `_safe_read_repo_file`; any exception is a missing text. -/
def safeReadRepoFile (relPath : PyStr) : Option PyStr :=
  if nul ∈ relPath then none
  else
    repo.resolvedRoot.bind fun root =>
      (repo.disk.realpath repo.bound root
        (pathSteps (relPath.dropWhile (· = pathSeparator)))).bind fun target =>
          if root <+: target then repo.readText target else none

/-- The paths below the root, relative to it, whose last part the pattern matches. -/
def rglob (root : Path PyStr) (pattern : PyStr) : List (Path PyStr) :=
  (repo.disk.map Prod.fst).filterMap fun place =>
    if root <+: place ∧ root ≠ place ∧ (place.getLast?.any (repo.globMatches pattern)) then
      some (place.drop root.length)
    else none

/-- Where a path below the root leads when it is opened. -/
def opened (root candidate : Path PyStr) : Option (Path PyStr) :=
  repo.disk.locate repo.bound root (candidate.map into)

/-- `is_file`, which follows links. -/
def isFile (root candidate : Path PyStr) : Bool :=
  ((repo.opened root candidate).bind repo.readText).isSome

/-- `as_posix` of a candidate. -/
def candidateText (candidate : Path PyStr) : PyStr :=
  repo.rootText ++ posixText candidate

def searchMatches (root : Path PyStr) (needle name : PyStr) : List (Path PyStr) :=
  (repo.rglob root name).filter fun candidate =>
    repo.isFile root candidate ∧ pathMatchesRequest (posixText candidate) needle

/-- The overlap counts first, the more the better, then the length of the path. -/
def preferenceKey (needle : PyStr) (candidate : Path PyStr) : ℤ ×ₗ ℕ :=
  toLex (-(packageOverlapLen (repo.candidateText candidate) needle : ℤ),
    (repo.candidateText candidate).length)

/-- A list, unless it is empty. -/
def orElse (first second : List (Path PyStr)) : List (Path PyStr) :=
  if first = [] then second else first

def containsText (marker text : PyStr) : Bool :=
  (afterMarker marker text).isSome

def preferSuffixMatch (found : List (Path PyStr)) (needle : PyStr) : Option (Path PyStr) :=
  match found with
  | [] => none
  | [only] => some only
  | found =>
    let needle := normalizeRelPath needle
    let pool := orElse
      (found.filter fun path => containsText (py "/src/main/java/") (repo.candidateText path))
      found
    let pool := orElse
      (pool.filter fun path => pathMatchesRequest (repo.candidateText path) needle) pool
    (pool.insertionSort fun left right =>
      repo.preferenceKey needle left ≤ repo.preferenceKey needle right).head?

/-- What the search for a file of the same name comes to. -/
def searched (root : Path PyStr) (needle : PyStr) : Option (Path PyStr) :=
  let name := needle.rtakeWhile (· ≠ pathSeparator)
  if name = [] ∨ repo.disk.get? root ≠ some .dir then none
  else repo.preferSuffixMatch (repo.searchMatches root needle name) needle

/-- The root as it is opened. -/
def openedRoot : Option (Path PyStr) :=
  repo.disk.locate repo.bound [] (repo.root.map into)

def readTextFromRoot (relPath : PyStr) : Option (PyStr × PyStr) :=
  let needle := normalizeRelPath relPath
  if needle = [] then none
  else
    match repo.safeReadRepoFile needle with
    | some text => some (text, needle)
    | none =>
      repo.openedRoot.bind fun root =>
        (repo.searched root needle).bind fun chosen =>
          ((repo.opened root chosen).bind repo.readText).map fun text => (text, posixText chosen)

/-- The text of a file below the resolved root. -/
def InsideText (text : PyStr) (place : Path PyStr) : Prop :=
  (∃ root ∈ repo.resolvedRoot, root <+: place) ∧ repo.readText place = some text

/-- The path, taken from the resolved root, resolves to the place. -/
def Names (path : PyStr) (place : Path PyStr) : Prop :=
  ∃ root ∈ repo.resolvedRoot, repo.disk.realpath repo.bound root (pathSteps path) = some place

/-- What is read is a file inside the repository, and the path reported with it names it. -/
def ReadsInside (relPath : PyStr) : Prop :=
  (∀ text, repo.safeReadRepoFile relPath = some text → ∃ place, repo.InsideText text place) ∧
    ∀ text path, repo.readTextFromRoot relPath = some (text, path) →
      ∃ place, repo.InsideText text place ∧ repo.Names path place

/-- The path can be read directly, or the file that the search prefers, if there is one,
resolves inside the repository. -/
def SearchStaysInside (relPath : PyStr) : Prop :=
  repo.safeReadRepoFile (normalizeRelPath relPath) = none →
    ∀ root ∈ repo.openedRoot, ∀ chosen ∈ repo.searched root (normalizeRelPath relPath),
      ∀ place ∈ repo.disk.realpath repo.bound root (chosen.map into), root <+: place

/-! ## The direct way -/

variable {repo} {relPath : PyStr}

theorem safeReadRepoFile_eq_some {text : PyStr} (htext : repo.safeReadRepoFile relPath = some text) :
    ∃ place, repo.InsideText text place ∧
      repo.Names (relPath.dropWhile (· = pathSeparator)) place := by
  rw [safeReadRepoFile] at htext
  split at htext
  · exact absurd htext (by simp)
  · obtain ⟨root, hroot, htext⟩ := Option.bind_eq_some_iff.mp htext
    obtain ⟨place, hplace, htext⟩ := Option.bind_eq_some_iff.mp htext
    split at htext
    · next hinside => exact ⟨place, ⟨⟨root, hroot, hinside⟩, htext⟩, root, hroot, hplace⟩
    · exact absurd htext (by simp)

theorem dropWhile_normalizeRelPath (relPath : PyStr) :
    (normalizeRelPath relPath).dropWhile (· = pathSeparator) = normalizeRelPath relPath :=
  List.dropWhile_idempotent _ _

/-! ## The search -/

theorem mem_orElse {first second : List (Path PyStr)} {path : Path PyStr}
    (hfirst : ∀ other ∈ first, other ∈ second) (hpath : path ∈ orElse first second) :
    path ∈ second := by
  rw [orElse] at hpath
  split at hpath
  · exact hpath
  · exact hfirst path hpath

variable {chosen root : Path PyStr} {needle : PyStr}

/-- The preferred match is one of the matches. -/
theorem mem_of_preferSuffixMatch {found : List (Path PyStr)}
    (hchosen : repo.preferSuffixMatch found needle = some chosen) : chosen ∈ found := by
  match found with
  | [] => exact absurd hchosen (by simp [preferSuffixMatch])
  | [only] => exact Option.some.inj hchosen ▸ List.mem_cons_self
  | first :: second :: rest =>
    rw [preferSuffixMatch] at hchosen
    · have hmem := List.mem_of_head? hchosen
      rw [List.mem_insertionSort] at hmem
      exact mem_orElse (fun _ hother => List.mem_of_mem_filter hother)
        (mem_orElse (fun _ hother => List.mem_of_mem_filter hother) hmem)
    · exact List.cons_ne_nil _ _
    · exact fun _ heq => absurd (List.cons.inj heq).2 (List.cons_ne_nil _ _)

/-- A match is a file, and the disk has its names. -/
theorem of_mem_searchMatches {name : PyStr} (hchosen : chosen ∈ repo.searchMatches root needle name) :
    repo.isFile root chosen = true ∧ ∀ part ∈ chosen, ValidName part := by
  rw [searchMatches, List.mem_filter, decide_eq_true_eq] at hchosen
  refine ⟨hchosen.2.1, ?_⟩
  obtain ⟨place, hplace, hdrop⟩ := List.mem_filterMap.mp hchosen.1
  obtain ⟨entry, hentry, rfl⟩ := List.mem_map.mp hplace
  split at hdrop
  · intro part hpart
    rw [← Option.some.inj hdrop] at hpart
    exact repo.valid entry hentry part (List.mem_of_mem_drop hpart)
  · exact absurd hdrop (by simp)

/-- What the search chooses can be opened, and its reported path names it. -/
theorem exists_text_of_searched (hchosen : repo.searched root needle = some chosen) :
    ∃ place text, repo.opened root chosen = some place ∧
      repo.disk.realpath repo.bound root (chosen.map into) = some place ∧
      repo.readText place = some text ∧ pathSteps (posixText chosen) = chosen.map into := by
  rw [searched] at hchosen
  split at hchosen
  · exact absurd hchosen (by simp)
  · obtain ⟨hfile, hvalid⟩ := of_mem_searchMatches (mem_of_preferSuffixMatch hchosen)
    obtain ⟨text, htext⟩ := Option.isSome_iff_exists.mp hfile
    obtain ⟨place, hplace, htext⟩ := Option.bind_eq_some_iff.mp htext
    exact ⟨place, text, hplace, LinkTree.realpath_of_locate hplace, htext,
      pathSteps_posixText hvalid⟩

theorem resolvedRoot_of_openedRoot (hroot : repo.openedRoot = some root) :
    repo.resolvedRoot = some root :=
  LinkTree.realpath_of_locate hroot

/-- Where nothing is read directly, the file that the search prefers is returned. -/
theorem readTextFromRoot_of_none (hnone : repo.safeReadRepoFile (normalizeRelPath relPath) = none)
    (result : PyStr × PyStr) :
    repo.readTextFromRoot relPath = some result ↔
      ∃ root chosen place, repo.openedRoot = some root ∧
        repo.searched root (normalizeRelPath relPath) = some chosen ∧
        repo.opened root chosen = some place ∧ repo.readText place = some result.1 ∧
        result.2 = posixText chosen := by
  obtain ⟨text, path⟩ := result
  rw [readTextFromRoot]
  simp only [hnone]
  split
  · next hempty =>
    refine iff_of_false (by simp) ?_
    rintro ⟨root, chosen, _, _, hchosen, _⟩
    rw [hempty, searched, if_pos (.inl rfl)] at hchosen
    exact absurd hchosen (by simp)
  · constructor
    · intro hread
      obtain ⟨root, hroot, hread⟩ := Option.bind_eq_some_iff.mp hread
      obtain ⟨chosen, hchosen, hread⟩ := Option.bind_eq_some_iff.mp hread
      obtain ⟨found, hfound, hread⟩ := Option.map_eq_some_iff.mp hread
      obtain ⟨place, hplace, htext⟩ := Option.bind_eq_some_iff.mp hfound
      obtain ⟨rfl, rfl⟩ := Prod.mk.inj hread
      exact ⟨root, chosen, place, hroot, hchosen, hplace, htext, rfl⟩
    · rintro ⟨root, chosen, place, hroot, hchosen, hplace, htext, rfl⟩
      rw [hroot, Option.bind_some, hchosen, Option.bind_some, hplace, Option.bind_some, htext]
      rfl

/-- A text that is read is a file inside the repository, and its path names it, exactly when the
path can be read directly or the file that the search prefers resolves inside. -/
theorem reads_inside_iff (repo : RepositoryRoot) (relPath : PyStr) :
    repo.ReadsInside relPath ↔ repo.SearchStaysInside relPath := by
  constructor
  · rintro ⟨_, hread⟩ hnone root hroot chosen hchosen place hplace
    obtain ⟨found, text, hopened, hresolved, htext, hsteps⟩ := exists_text_of_searched hchosen
    obtain ⟨other, ⟨⟨otherRoot, hotherRoot, hinside⟩, _⟩, again, hagain, hother⟩ :=
      hread text (posixText chosen) ((readTextFromRoot_of_none hnone _).mpr
        ⟨root, chosen, found, hroot, hchosen, hopened, htext, rfl⟩)
    rw [resolvedRoot_of_openedRoot hroot] at hotherRoot hagain
    obtain rfl := Option.some.inj hotherRoot
    obtain rfl := Option.some.inj hagain
    rw [hsteps, hplace] at hother
    exact Option.some.inj hother ▸ hinside
  · intro hstays
    refine ⟨fun text htext => ?_, fun text path hread => ?_⟩
    · obtain ⟨place, hinside, _⟩ := safeReadRepoFile_eq_some htext
      exact ⟨place, hinside⟩
    · cases hdirect : repo.safeReadRepoFile (normalizeRelPath relPath) with
      | some direct =>
        rw [readTextFromRoot] at hread
        simp only [hdirect] at hread
        split at hread
        · exact absurd hread (by simp)
        · obtain ⟨rfl, rfl⟩ := Prod.mk.inj (Option.some.inj hread)
          obtain ⟨place, hinside, hnames⟩ := safeReadRepoFile_eq_some hdirect
          rw [dropWhile_normalizeRelPath] at hnames
          exact ⟨place, hinside, hnames⟩
      | none =>
        obtain ⟨root, chosen, place, hroot, hchosen, hopened, htext, hpath⟩ :=
          (readTextFromRoot_of_none hdirect _).mp hread
        obtain ⟨found, _, hfound, hresolved, _, hsteps⟩ := exists_text_of_searched hchosen
        obtain rfl : found = place := Option.some.inj (hfound.symm.trans hopened)
        have hresolvedRoot := resolvedRoot_of_openedRoot hroot
        have hinside := hstays hdirect root hroot chosen hchosen found hresolved
        refine ⟨found, ⟨⟨root, hresolvedRoot, hinside⟩, htext⟩, root, hresolvedRoot, ?_⟩
        simp only at hpath
        rw [hpath, hsteps, hresolved]

def linkedDisk : Disk :=
  [([], .dir), ([py "repo"], .dir), ([py "etc"], .dir),
    ([py "etc", py "passwd"], .file (py "root")),
    ([py "repo", py "notes.md"], .link true [into (py "etc"), into (py "passwd")])]

theorem grown_linkedDisk : ∀ entry ∈ linkedDisk, ∀ above ∈ entry.1.inits, above ≠ entry.1 →
    linkedDisk.get? above = some .dir := by
  decide +kernel

/-- A repository whose only entry is a link to a file of the host. -/
def linkedRepository : RepositoryRoot where
  disk := linkedDisk
  valid := by decide +kernel
  grown := fun entry hentry above habove =>
    grown_linkedDisk entry hentry above ((List.mem_inits above entry.1).mpr habove)
  bound := 9
  globMatches pattern name := pattern = name
  root := [py "repo"]
  rootText := py "/repo/"

theorem link_is_read_outside :
    linkedRepository.readTextFromRoot (py "notes.md") = some (py "root", py "notes.md") ∧
      ¬linkedRepository.ReadsInside (py "notes.md") := by
  have hread : linkedRepository.readTextFromRoot (py "notes.md") =
      some (py "root", py "notes.md") := by decide +kernel
  refine ⟨hread, ?_⟩
  rintro ⟨_, hinside⟩
  obtain ⟨place, ⟨⟨root, hroot, hplace⟩, _⟩, other, hother, hnames⟩ := hinside _ _ hread
  have hresolved : linkedRepository.resolvedRoot = some [py "repo"] := by decide +kernel
  have htarget : linkedRepository.disk.realpath linkedRepository.bound [py "repo"]
      (pathSteps (py "notes.md")) = some [py "etc", py "passwd"] := by decide +kernel
  rw [hresolved] at hroot hother
  rw [← Option.some.inj hother, htarget] at hnames
  rw [← Option.some.inj hroot, ← Option.some.inj hnames] at hplace
  exact absurd hplace (by decide +kernel)

end RepositoryRoot

end RootSeeker.CodeIndex
