import RootSeeker.Analysis.LogText
import RootSeeker.Contracts.Common
import RootSeeker.Core.Loops
import RootSeeker.Python.Urls
import RootSeeker.Python.Words

/-!
# Paths for the sidecar

The arguments of a command go to a container in which the clones are mounted
elsewhere.  Every argument that begins with the host prefix, or that the process
resolves to something that does, gets the container's prefix instead.
-/

namespace RootSeeker.CodeIndex

open Python Contracts
open Analysis (replacePair)

/-- What `Path(text).resolve().as_posix()` gives in the process, or its exception. -/
inductive Resolved where
  | path (text : PyStr)
  | osError
  | raises (error : PyError)

/-- `text.replace("\\", "/")`. -/
def withForwardSlashes (text : PyStr) : PyStr :=
  text.map fun c => if c = backslash then slashChar else c

/-- `text.rstrip("/")`. -/
def dropSlashes (text : PyStr) : PyStr :=
  text.rdropWhile (· = slashChar)

/-- `text.replace("//", "/")`. -/
def replaceDoubleSlashes (text : PyStr) : PyStr :=
  replacePair slashChar slashChar slashChar text

/-- What is before the last `:/`, and what follows its colon. -/
def cutAtLastRoot : PyStr → Option (PyStr × PyStr)
  | [] => none
  | c :: rest =>
    match cutAtLastRoot rest with
    | some (front, back) => some (c :: front, back)
    | none => if c = colonChar ∧ rest.head? = some slashChar then some ([], rest) else none

/-- The two prefixes of a path map. -/
def readPathMap (pathMap : Option PyStr) : Option (PyStr × PyStr) :=
  let mapping := strip (pathMap.getD [])
  if colonChar ∉ mapping then none
  else
    match cutAtLastRoot mapping with
    | some prefixes => some prefixes
    | none => some (mapping.takeWhile (· ≠ colonChar), (mapping.dropWhile (· ≠ colonChar)).tail)

/-- What a candidate has behind the prefix, if it is the prefix or lies below it. -/
def suffixBelow (host candidate : PyStr) : Option PyStr :=
  if candidate = host ∨ (host ++ [slashChar]).isPrefixOf candidate then
    some (candidate.drop host.length)
  else none

def hostNorm (hostPrefix : PyStr) : PyStr :=
  dropSlashes (withForwardSlashes hostPrefix)

def containerNorm (containerPrefix : PyStr) : PyStr :=
  let container := dropSlashes (withForwardSlashes containerPrefix)
  if container = [] then [slashChar] else container

/-- The text for something below the prefix. -/
def sidecarText (containerPrefix suffix : PyStr) : PyStr :=
  let mapped := replaceDoubleSlashes (containerNorm containerPrefix ++ suffix)
  if mapped = [] then containerNorm containerPrefix else mapped

/-- `_rewrite_path_for_sidecar`. -/
def rewritePathForSidecar (resolve : PyStr → Resolved) (pathMap : Option PyStr) (value : PyStr) :
    Except PyError PyStr :=
  if value = [] then .ok value
  else
    match readPathMap pathMap with
    | none => .ok value
    | some (hostPrefix, containerPrefix) =>
      let rewrite (valueAbs : PyStr) : PyStr :=
        match [withForwardSlashes value, valueAbs].findSome? (suffixBelow (hostNorm hostPrefix)) with
        | some suffix => sidecarText containerPrefix suffix
        | none => value
      match resolve value with
      | .path text => .ok (rewrite text)
      | .osError => .ok (rewrite (withForwardSlashes value))
      | .raises error => .error error

/-- The arguments that `_run_http` sends. -/
def mappedArgs (resolve : PyStr → Resolved) (pathMap : Option PyStr) (args : List PyStr) :
    Except PyError (List PyStr) :=
  args.mapM (rewritePathForSidecar resolve pathMap)

/-! ## What a text names -/

/-- The system whose paths the arguments are. -/
inductive PathStyle where
  | posix
  | windows

def PathStyle.isSeparator : PathStyle → CodePoint → Bool
  | .posix, c => c = slashChar
  | .windows, c => c = slashChar || c = backslash

/-- Whether a path starts at the root, and its parts; empty parts and single dots do not count. -/
def namedPath (style : PathStyle) (text : PyStr) : Bool × List PyStr :=
  (text.head?.any style.isSeparator,
    (text.splitOnP style.isSeparator).filter fun part => part ≠ [] ∧ part ≠ py ".")

/-- A path starts at the root or with the letter of a drive. -/
def IsAbsolute (text : PyStr) : Prop :=
  text.head?.any (PathStyle.isSeparator .windows) = true ∨
    ∃ drive rest, text = drive :: colonChar :: rest ∧ isSpace drive = false ∧
      (rest = [] ∨ rest.head?.any (PathStyle.isSeparator .windows) = true)

/-- A path map.  The container's prefix has no `:/`, which would be read as the place where
the two prefixes meet. -/
structure PathMap where
  host : PyStr
  container : PyStr
  hostAbsolute : IsAbsolute host
  containerAbsolute : container.head? = some slashChar
  trimmed : strip container = container
  readable : ¬py ":/" <:+: container

def PathMap.text (map : PathMap) : PyStr :=
  map.host ++ colonChar :: map.container

/-- The argument names the host prefix or what has these parts below it.  The prefix may be
written with either slash. -/
def NamesBelow (style : PathStyle) (map : PathMap) (arg : PyStr) (rest : List PyStr) : Prop :=
  namedPath style arg =
    ((namedPath .windows map.host).1, (namedPath .windows map.host).2 ++ rest)

/-- The text names what has these parts below the container's prefix. -/
def InContainer (map : PathMap) (text : PyStr) (rest : List PyStr) : Prop :=
  namedPath .posix text = (true, (namedPath .windows map.container).2 ++ rest)

/-- What is below the prefix is sent as the same below the container's; all else as it is. -/
structure SentRight (style : PathStyle) (map : PathMap) (arg sent : PyStr) : Prop where
  below : ∀ rest, NamesBelow style map arg rest → InContainer map sent rest
  other : (∀ rest, ¬NamesBelow style map arg rest) → sent = arg

/-- What the process makes of an argument that does not begin with the prefix. -/
def ResolvesRight (style : PathStyle) (map : PathMap) (arg : PyStr) (suffix : Option PyStr) :
    Prop :=
  match suffix with
  | some suffix =>
    NamesBelow style map arg (namedPath .posix suffix).2 ∨
      (∀ rest, ¬NamesBelow style map arg rest) ∧ arg = sidecarText map.container suffix
  | none => ∀ rest, NamesBelow style map arg rest → InContainer map arg rest

/-- The argument begins with the host prefix, and has no backslash that is part of a name; or
it resolves to what it names. -/
def Fits (style : PathStyle) (map : PathMap) (resolve : PyStr → Resolved) (arg : PyStr) : Prop :=
  arg = [] ∨ (∀ error, resolve arg ≠ .raises error) ∧
    if (suffixBelow (hostNorm map.host) (withForwardSlashes arg)).isSome then
      backslash ∈ arg → style = .windows
    else
      ResolvesRight style map arg <| match resolve arg with
        | .path text => suffixBelow (hostNorm map.host) text
        | _ => none

/-! ## Parts -/

/-- The parts of a text. -/
def parts (style : PathStyle) (text : PyStr) : List PyStr :=
  (namedPath style text).2

variable {c : CodePoint} {text suffix : PyStr}

section Parts

variable {style : PathStyle}

theorem parts_eq (text : PyStr) : parts style text =
    (text.splitOnP style.isSeparator).filter fun part => part ≠ [] ∧ part ≠ py "." := rfl

theorem parts_cons_separator (hc : style.isSeparator c = true) (text : PyStr) :
    parts style (c :: text) = parts style text := by
  rw [parts_eq, List.splitOnP_cons_eq_if_modifyHead, if_pos hc, List.filter_cons_of_neg (by simp),
    parts_eq]

/-- Parts end where a separator follows. -/
theorem parts_append (left : PyStr) {right : PyStr}
    (hright : ∀ c ∈ right.head?, style.isSeparator c = true) :
    parts style (left ++ right) = parts style left ++ parts style right := by
  cases right with
  | nil =>
    have hnil : parts style [] = [] := rfl
    rw [List.append_nil, hnil, List.append_nil]
  | cons c rest =>
    rw [parts_cons_separator (hright c rfl), parts_eq,
      List.splitOnP_append_cons _ _ (hright c rfl), List.filter_append, ← parts_eq, ← parts_eq]

theorem parts_of_separators (htext : ∀ c ∈ text, style.isSeparator c = true) :
    parts style text = [] := by
  induction text with
  | nil => rfl
  | cons c rest ih =>
    obtain ⟨hc, hrest⟩ := List.forall_mem_cons.mp htext
    rw [parts_cons_separator hc, ih hrest]

/-- A part is inside the text and has no separator. -/
theorem infix_of_mem_parts {part : PyStr} (hpart : part ∈ parts style text) :
    part <:+: text ∧ ∀ c ∈ part, style.isSeparator c = false :=
  infix_of_mem_splitOnP (List.mem_filter.mp hpart).1

end Parts

theorem isSeparator_slashChar (style : PathStyle) : style.isSeparator slashChar = true := by
  cases style <;> rfl

theorem namedPath_eq (style : PathStyle) (text : PyStr) :
    namedPath style text = (text.head?.any style.isSeparator, parts style text) := rfl

theorem namedPath_forwardSlashes (text : PyStr) :
    namedPath .posix (withForwardSlashes text) = namedPath .windows text := by
  have hchar : ∀ c, PathStyle.posix.isSeparator (if c = backslash then slashChar else c) =
      PathStyle.windows.isSeparator c := by
    intro c
    by_cases hc : c = backslash
    · rw [if_pos hc, hc]
      rfl
    · rw [if_neg hc]
      simp [PathStyle.isSeparator, hc]
  have hsplit : (withForwardSlashes text).splitOnP PathStyle.posix.isSeparator =
      text.splitOnP PathStyle.windows.isSeparator := by
    induction text with
    | nil => rfl
    | cons c rest ih =>
      rw [withForwardSlashes, List.map_cons, List.splitOnP_cons_eq_if_modifyHead,
        List.splitOnP_cons_eq_if_modifyHead, hchar, ← withForwardSlashes, ih]
      by_cases hc : PathStyle.windows.isSeparator c = true
      · rw [if_pos hc, if_pos hc]
      · have hne : c ≠ backslash := by
          rintro rfl
          exact hc rfl
        rw [if_neg hc, if_neg hc, if_neg hne]
  rw [namedPath, namedPath, hsplit, withForwardSlashes, List.head?_map, Option.any_map]
  congr 2
  exact funext hchar

theorem backslash_not_mem_forwardSlashes (text : PyStr) : backslash ∉ withForwardSlashes text := by
  intro hmem
  obtain ⟨c, -, hc⟩ := List.mem_map.mp hmem
  split at hc
  · exact absurd hc (by decide)
  · next hne => exact hne hc

theorem forwardSlashes_of_not_mem (hnone : backslash ∉ text) : withForwardSlashes text = text := by
  have hsame : text.map (fun c => if c = backslash then slashChar else c) = text.map id :=
    List.map_congr_left fun c hc => if_neg fun heq : c = backslash => hnone (heq ▸ hc)
  rw [withForwardSlashes, hsame, List.map_id]

theorem prefix_dropSlashes (text : PyStr) : dropSlashes text <+: text :=
  List.rdropWhile_prefix _ _

theorem parts_dropSlashes (text : PyStr) : parts .posix (dropSlashes text) = parts .posix text := by
  have hwhole : dropSlashes text ++ text.rtakeWhile (· = slashChar) = text :=
    List.rdropWhile_append_rtakeWhile
  have hslashes : ∀ c ∈ text.rtakeWhile (· = slashChar),
      PathStyle.posix.isSeparator c = true := by
    intro c hc
    exact List.mem_rtakeWhile_imp hc
  conv_rhs => rw [← hwhole]
  rw [parts_append _ fun c hc => hslashes c (List.mem_of_head? hc),
    parts_of_separators hslashes, List.append_nil]

/-- The slashes that are taken out are next to others. -/
theorem splitOnP_collapseSlashes (text : PyStr) : ∃ head left right,
    (replaceDoubleSlashes text).splitOnP PathStyle.posix.isSeparator = head :: left ∧
      text.splitOnP PathStyle.posix.isSeparator = head :: right ∧
      (left.filter fun part => part ≠ [] ∧ part ≠ py ".") =
        right.filter fun part => part ≠ [] ∧ part ≠ py "." := by
  have hcons : ∀ (c : CodePoint) {short long : PyStr}, (∃ head left right,
      short.splitOnP PathStyle.posix.isSeparator = head :: left ∧
        long.splitOnP PathStyle.posix.isSeparator = head :: right ∧
        (left.filter fun part => part ≠ [] ∧ part ≠ py ".") =
          right.filter fun part => part ≠ [] ∧ part ≠ py ".") →
      ∃ head left right,
        (c :: short).splitOnP PathStyle.posix.isSeparator = head :: left ∧
          (c :: long).splitOnP PathStyle.posix.isSeparator = head :: right ∧
          (left.filter fun part => part ≠ [] ∧ part ≠ py ".") =
            right.filter fun part => part ≠ [] ∧ part ≠ py "." := by
    rintro c short long ⟨head, left, right, hshort, hlong, hsame⟩
    rw [List.splitOnP_cons_eq_if_modifyHead, List.splitOnP_cons_eq_if_modifyHead, hshort, hlong]
    split
    · refine ⟨[], head :: left, head :: right, rfl, rfl, ?_⟩
      rw [List.filter_cons, List.filter_cons, hsame]
    · exact ⟨c :: head, left, right, rfl, rfl, hsame⟩
  rw [replaceDoubleSlashes]
  induction text using Analysis.replacePair.induct slashChar slashChar with
  | case1 c d rest hslashes ih =>
    obtain ⟨rfl, rfl⟩ := hslashes
    obtain ⟨head, left, right, hshort, hlong, hsame⟩ := ih
    have hseparator : PathStyle.posix.isSeparator slashChar = true := rfl
    refine ⟨[], head :: left, [] :: head :: right, ?_, ?_, ?_⟩
    · rw [replacePair, if_pos ⟨rfl, rfl⟩, List.splitOnP_cons_eq_if_modifyHead,
        if_pos hseparator, hshort]
    · rw [List.splitOnP_cons_eq_if_modifyHead, if_pos hseparator,
        List.splitOnP_cons_eq_if_modifyHead, if_pos hseparator, hlong]
    · rw [List.filter_cons_of_neg (a := []) (by simp), List.filter_cons, List.filter_cons, hsame]
  | case2 c d rest hother ih =>
    rw [replacePair, if_neg hother]
    exact hcons c ih
  | case3 text hshort =>
    obtain ⟨head, tail, hsplit⟩ := exists_splitOnP_eq PathStyle.posix.isSeparator text
    rw [replacePair]
    · exact ⟨head, tail, tail, hsplit, hsplit, rfl⟩
    · exact hshort

theorem head?_collapseSlashes (text : PyStr) : (replaceDoubleSlashes text).head? = text.head? := by
  rw [replaceDoubleSlashes]
  cases text using Analysis.replacePair.fun_cases slashChar slashChar with
  | case1 c d rest hslashes =>
    rw [replacePair, if_pos hslashes, hslashes.1]
    rfl
  | case2 c d rest hother =>
    rw [replacePair, if_neg hother]
    rfl
  | case3 text hshort =>
    rw [replacePair]
    exact hshort

theorem namedPath_collapseSlashes (text : PyStr) :
    namedPath .posix (replaceDoubleSlashes text) = namedPath .posix text := by
  obtain ⟨head, left, right, hleft, hright, hsame⟩ := splitOnP_collapseSlashes text
  rw [namedPath, namedPath, head?_collapseSlashes, hleft, hright, List.filter_cons,
    List.filter_cons, hsame]

/-- Nothing but what was there is in the collapsed text. -/
theorem mem_of_mem_collapseSlashes (hc : c ∈ replaceDoubleSlashes text) : c ∈ text := by
  rw [replaceDoubleSlashes] at hc
  induction text using Analysis.replacePair.induct slashChar slashChar with
  | case1 d e rest hslashes ih =>
    rw [replacePair, if_pos hslashes] at hc
    rcases List.mem_cons.mp hc with rfl | hlater
    · rw [hslashes.1]
      exact List.mem_cons_self
    · exact List.mem_cons_of_mem _ (List.mem_cons_of_mem _ (ih hlater))
  | case2 d e rest hother ih =>
    rw [replacePair, if_neg hother] at hc
    rcases List.mem_cons.mp hc with rfl | hlater
    · exact List.mem_cons_self
    · exact List.mem_cons_of_mem _ (ih hlater)
  | case3 text hshort =>
    rwa [replacePair] at hc
    exact hshort

/-! ## Reading the map -/

theorem suffixBelow_eq_some {host candidate : PyStr}
    (hsuffix : suffixBelow host candidate = some suffix) :
    candidate = host ++ suffix ∧ ∀ c ∈ suffix.head?, c = slashChar := by
  rw [suffixBelow] at hsuffix
  split at hsuffix
  · next hbelow =>
    obtain rfl := Option.some.inj hsuffix
    rcases hbelow with rfl | hbelow
    · rw [List.drop_length, List.append_nil]
      exact ⟨rfl, fun c hc => absurd hc (by simp)⟩
    · obtain ⟨rest, rfl⟩ := List.isPrefixOf_iff_prefix.mp hbelow
      rw [List.append_assoc, List.drop_left]
      exact ⟨rfl, fun c hc => (Option.some.inj hc).symm⟩
  · exact absurd hsuffix (by simp)

theorem cutAtLastRoot_eq_none (htext : ¬py ":/" <:+: text) : cutAtLastRoot text = none := by
  induction text with
  | nil => rfl
  | cons c rest ih =>
    rw [cutAtLastRoot, ih fun hwithin => htext (hwithin.trans (List.suffix_cons c rest).isInfix)]
    refine if_neg fun hroot => htext ?_
    obtain ⟨tail, rfl⟩ := List.head?_eq_some_iff.mp hroot.2
    exact ⟨[], tail, by rw [hroot.1]; rfl⟩

theorem cutAtLastRoot_append (front : PyStr) {back : PyStr} (hrooted : back.head? = some slashChar)
    (hback : ¬py ":/" <:+: back) :
    cutAtLastRoot (front ++ colonChar :: back) = some (front, back) := by
  induction front with
  | nil =>
    rw [List.nil_append, cutAtLastRoot, cutAtLastRoot_eq_none hback]
    exact if_pos ⟨rfl, hrooted⟩
  | cons c rest ih => rw [List.cons_append, cutAtLastRoot, ih]

theorem isSpace_of_isSeparator (hc : PathStyle.windows.isSeparator c = true) :
    isSpace c = false := by
  simp only [PathStyle.isSeparator, Bool.or_eq_true, decide_eq_true_eq] at hc
  rcases hc with rfl | rfl <;> decide

section Map

variable (map : PathMap)

theorem strip_text : strip map.text = map.text := by
  apply stripBy_eq_self
  · intro c hc
    rw [PathMap.text] at hc
    rcases map.hostAbsolute with hroot | ⟨drive, rest, hhost, hdrive, -⟩
    · cases hhost : map.host with
      | nil =>
        rw [hhost] at hroot
        exact absurd hroot Bool.false_ne_true
      | cons d tail =>
        rw [hhost] at hroot hc
        obtain rfl := Option.some.inj hc
        exact isSpace_of_isSeparator hroot
    · rw [hhost] at hc
      obtain rfl := Option.some.inj hc
      exact hdrive
  · intro c hc
    have hne : map.container ≠ [] := by
      intro hnil
      have hroot := map.containerAbsolute
      rw [hnil] at hroot
      exact absurd hroot (by simp)
    rw [PathMap.text, List.getLast?_append, List.getLast?_cons_of_ne_nil hne] at hc
    rw [Option.or_of_isSome (by rw [List.getLast?_isSome]; exact hne)] at hc
    exact last_of_stripBy_eq_self map.trimmed c hc

theorem readPathMap_text : readPathMap (some map.text) = some (map.host, map.container) := by
  rw [readPathMap]
  simp only [Option.getD_some, strip_text]
  rw [if_neg (by simp [PathMap.text]), PathMap.text,
    cutAtLastRoot_append _ map.containerAbsolute map.readable]

theorem namedPath_containerNorm :
    namedPath .posix (containerNorm map.container) = (true, parts .windows map.container) := by
  have hforward : withForwardSlashes map.container ≠ [] := by
    intro hnil
    have hroot := map.containerAbsolute
    rw [List.map_eq_nil_iff.mp hnil] at hroot
    exact absurd hroot (by simp)
  have hhead : (withForwardSlashes map.container).head? = some slashChar := by
    rw [withForwardSlashes, List.head?_map, map.containerAbsolute]
    rfl
  have hparts : parts .posix (dropSlashes (withForwardSlashes map.container)) =
      parts .windows map.container := by
    rw [parts_dropSlashes, parts, namedPath_forwardSlashes]
    rfl
  rw [containerNorm]
  split
  · next hnil =>
    rw [← hparts, hnil]
    rfl
  · next hne =>
    rw [namedPath_eq, hparts]
    obtain ⟨c, rest, hcons⟩ := List.exists_cons_of_ne_nil hne
    obtain ⟨tail, htail⟩ := prefix_dropSlashes (withForwardSlashes map.container)
    rw [hcons] at htail ⊢
    rw [← htail] at hhead
    obtain rfl := Option.some.inj hhead
    rfl

theorem containerNorm_ne_nil (container : PyStr) : containerNorm container ≠ [] := by
  rw [containerNorm]
  split
  · exact List.cons_ne_nil _ _
  · next hne => exact hne

theorem sidecarText_eq (container suffix : PyStr) :
    sidecarText container suffix = replaceDoubleSlashes (containerNorm container ++ suffix) := by
  have hne : replaceDoubleSlashes (containerNorm container ++ suffix) ≠ [] := by
    intro hnil
    have hhead := head?_collapseSlashes (containerNorm container ++ suffix)
    rw [hnil, List.head?_append_of_ne_nil _ (containerNorm_ne_nil container)] at hhead
    exact containerNorm_ne_nil container (List.head?_eq_none_iff.mp hhead.symm)
  rw [sidecarText]
  exact if_neg hne

/-- What is sent for something below the prefix. -/
theorem inContainer_sidecarText (hsuffix : ∀ c ∈ suffix.head?, c = slashChar) :
    InContainer map (sidecarText map.container suffix) (parts .posix suffix) := by
  have hcontainer := Prod.ext_iff.mp (namedPath_containerNorm map)
  have hparts := @parts_append .posix (containerNorm map.container) _
    fun c hc => (hsuffix c hc).symm ▸ isSeparator_slashChar _
  rw [InContainer, sidecarText_eq, namedPath_collapseSlashes, namedPath_eq, hparts]
  refine Prod.ext ?_ (congrArg (· ++ parts .posix suffix) hcontainer.2)
  rw [List.head?_append_of_ne_nil _ (containerNorm_ne_nil map.container)]
  exact hcontainer.1

theorem backslash_not_mem_sidecarText (hsuffix : backslash ∉ suffix) :
    backslash ∉ sidecarText map.container suffix := by
  rw [sidecarText_eq]
  intro hmem
  rcases List.mem_append.mp (mem_of_mem_collapseSlashes hmem) with hcontainer | hmem
  · rw [containerNorm] at hcontainer
    split at hcontainer
    · exact absurd (List.mem_singleton.mp hcontainer) (by decide)
    · exact backslash_not_mem_forwardSlashes _ ((prefix_dropSlashes _).subset hcontainer)
  · exact hsuffix hmem

end Map

/-! ## One argument -/

section Argument

variable (style : PathStyle) (map : PathMap)

theorem namesBelow_inj {arg : PyStr} {rest others : List PyStr}
    (hrest : NamesBelow style map arg rest) (hothers : NamesBelow style map arg others) :
    rest = others :=
  List.append_cancel_left (Prod.ext_iff.mp (hrest.symm.trans hothers)).2

theorem inContainer_inj {rest others : List PyStr} (hrest : InContainer map text rest)
    (hothers : InContainer map text others) : rest = others :=
  List.append_cancel_left (Prod.ext_iff.mp (hrest.symm.trans hothers)).2

/-- Below the prefix as it is written means below what it names. -/
theorem namesBelow_of_spelled {arg : PyStr} (hne : arg ≠ [])
    (hsuffix : suffixBelow (hostNorm map.host) (withForwardSlashes arg) = some suffix) :
    NamesBelow .windows map arg (parts .posix suffix) := by
  obtain ⟨heq, hhead⟩ := suffixBelow_eq_some hsuffix
  have hhost : parts .posix (hostNorm map.host) = parts .windows map.host := by
    rw [hostNorm, parts_dropSlashes, parts, namedPath_forwardSlashes]
    rfl
  rw [NamesBelow, ← namedPath_forwardSlashes, heq, namedPath_eq, @parts_append .posix _ _
    fun c hc => (hhead c hc).symm ▸ isSeparator_slashChar _, hhost]
  refine Prod.ext ?_ rfl
  -- Only the root itself is empty without its slashes.
  have hrooted : (withForwardSlashes map.host).head?.any PathStyle.posix.isSeparator =
      (namedPath .windows map.host).1 := by
    rw [← namedPath_forwardSlashes]
    rfl
  rw [← hrooted]
  cases hnorm : hostNorm map.host with
  | nil =>
    have hall : ∀ c ∈ withForwardSlashes map.host, c = slashChar := by
      rw [hostNorm, dropSlashes, List.rdropWhile_eq_nil_iff] at hnorm
      exact fun c hc => of_decide_eq_true (hnorm c hc)
    cases hforward : withForwardSlashes map.host with
    | nil =>
      have hnil := List.map_eq_nil_iff.mp hforward
      rcases map.hostAbsolute with hroot | ⟨drive, rest, hdrive, -⟩
      · rw [hnil] at hroot
        exact absurd hroot Bool.false_ne_true
      · rw [hnil] at hdrive
        exact absurd hdrive (by simp)
    | cons d tail =>
      rw [hforward] at hall
      rw [hall d List.mem_cons_self]
      rw [hnorm, List.nil_append] at heq
      cases suffix with
      | nil => exact absurd (List.map_eq_nil_iff.mp heq) hne
      | cons c rest =>
        rw [hhead c rfl]
        rfl
  | cons d tail =>
    obtain ⟨rest, hrest⟩ := prefix_dropSlashes (withForwardSlashes map.host)
    rw [hostNorm] at hnorm
    rw [← hrest, hnorm]
    rfl

theorem not_namesBelow_nil (rest : List PyStr) : ¬NamesBelow style map [] rest := by
  intro hbelow
  obtain ⟨hrooted, hparts⟩ := Prod.ext_iff.mp hbelow
  have hroot : (namedPath .windows map.host).1 = false := hrooted.symm
  rcases map.hostAbsolute with habsolute | ⟨drive, tail, hhost, -, -⟩
  · exact absurd (hroot.symm.trans habsolute) Bool.false_ne_true
  · have hnone : parts .windows map.host = [] := (List.append_eq_nil_iff.mp hparts.symm).1
    have hletter : PathStyle.windows.isSeparator colonChar = false := rfl
    obtain ⟨piece, hpiece, hmem⟩ := @exists_piece_around PathStyle.windows.isSeparator
      [colonChar] _ (by simpa using hletter)
      (⟨[drive], tail, by rw [hhost]; rfl⟩ : [colonChar] <:+: map.host)
    have hcolon : colonChar ∈ piece := hmem.subset List.mem_cons_self
    have hkept : piece ∈ parts .windows map.host := by
      refine List.mem_filter.mpr ⟨hpiece, decide_eq_true ⟨?_, ?_⟩⟩
      · rintro rfl
        exact absurd hcolon List.not_mem_nil
      · rintro rfl
        exact absurd hcolon (by decide)
    rw [hnone] at hkept
    exact absurd hkept List.not_mem_nil

/-- A backslash that belongs to a name is lost. -/
theorem not_sentRight_of_backslash {arg : PyStr} (hbackslash : backslash ∈ arg)
    (hsuffix : ∀ c ∈ suffix.head?, c = slashChar) (hnone : backslash ∉ suffix) :
    ¬SentRight .posix map arg (sidecarText map.container suffix) := by
  intro hright
  by_cases hbelow : ∃ rest, NamesBelow .posix map arg rest
  · obtain ⟨rest, hrest⟩ := hbelow
    have hparts := inContainer_inj map (hright.below rest hrest)
      (inContainer_sidecarText map hsuffix)
    have hletter : PathStyle.posix.isSeparator backslash = false := rfl
    obtain ⟨front, back, harg⟩ := List.append_of_mem hbackslash
    obtain ⟨piece, hpiece, hmem⟩ := @exists_piece_around PathStyle.posix.isSeparator
      [backslash] _ (by simpa using hletter)
      (⟨front, back, by rw [harg]; simp⟩ : [backslash] <:+: arg)
    have hinside : backslash ∈ piece := hmem.subset List.mem_cons_self
    have hkept : piece ∈ parts .posix arg := by
      refine List.mem_filter.mpr ⟨hpiece, decide_eq_true ⟨?_, ?_⟩⟩
      · rintro rfl
        exact absurd hinside List.not_mem_nil
      · rintro rfl
        exact absurd hinside (by decide)
    have hsplit : parts .posix arg = parts .windows map.host ++ rest :=
      (Prod.ext_iff.mp hrest).2
    rw [hsplit] at hkept
    rcases List.mem_append.mp hkept with hhost | hlater
    · exact absurd ((infix_of_mem_parts hhost).2 backslash hinside) (by decide)
    · rw [hparts] at hlater
      exact hnone ((infix_of_mem_parts hlater).1.subset hinside)
  · have hsame := hright.other fun rest hrest => hbelow ⟨rest, hrest⟩
    exact backslash_not_mem_sidecarText map hnone (hsame ▸ hbackslash)

variable (resolve : PyStr → Resolved) (arg : PyStr)

/-- What is sent for an argument that has this below the prefix. -/
def sentFor : Option PyStr → PyStr
  | some suffix => sidecarText map.container suffix
  | none => arg

/-- What the rewriting makes of a non-empty argument. -/
def rewritten (valueAbs : PyStr) : PyStr :=
  sentFor map arg ((suffixBelow (hostNorm map.host) (withForwardSlashes arg)).or
    (suffixBelow (hostNorm map.host) valueAbs))

theorem rewritePathForSidecar_eq (hne : arg ≠ []) :
    rewritePathForSidecar resolve (some map.text) arg =
      match resolve arg with
      | .path text => .ok (rewritten map arg text)
      | .osError => .ok (rewritten map arg (withForwardSlashes arg))
      | .raises error => .error error := by
  have hrewrite : ∀ valueAbs, (match [withForwardSlashes arg, valueAbs].findSome?
      (suffixBelow (hostNorm map.host)) with
      | some suffix => sidecarText map.container suffix
      | none => arg) = rewritten map arg valueAbs := by
    intro valueAbs
    rw [rewritten, List.findSome?_cons, List.findSome?_cons, List.findSome?_nil]
    cases suffixBelow (hostNorm map.host) (withForwardSlashes arg) with
    | some suffix => rfl
    | none =>
      rw [Option.none_or]
      cases suffixBelow (hostNorm map.host) valueAbs <;> rfl
  rw [rewritePathForSidecar, if_neg hne, readPathMap_text]
  simp only [hrewrite]

/-- The result for an argument that does not begin with the prefix. -/
theorem sentRight_iff_resolvesRight (suffix : Option PyStr)
    (hsuffix : ∀ found, suffix = some found → ∀ c ∈ found.head?, c = slashChar) :
    SentRight style map arg (sentFor map arg suffix) ↔ ResolvesRight style map arg suffix := by
  cases suffix with
  | none => exact ⟨fun hright => hright.below, fun hbelow => ⟨hbelow, fun _ => rfl⟩⟩
  | some suffix =>
    have hcontainer := inContainer_sidecarText map (hsuffix suffix rfl)
    constructor
    · intro hright
      by_cases hbelow : ∃ rest, NamesBelow style map arg rest
      · obtain ⟨rest, hrest⟩ := hbelow
        have hsame := inContainer_inj map (hright.below rest hrest) hcontainer
        rw [hsame] at hrest
        exact .inl hrest
      · have hnone : ∀ rest, ¬NamesBelow style map arg rest := fun rest hrest =>
          hbelow ⟨rest, hrest⟩
        exact .inr ⟨hnone, (hright.other hnone).symm⟩
    · rintro (hbelow | ⟨hnone, hsame⟩)
      · refine ⟨fun rest hrest => ?_, fun hnone => absurd hbelow (hnone _)⟩
        rw [namesBelow_inj style map hrest hbelow]
        exact hcontainer
      · exact ⟨fun rest hrest => absurd hrest (hnone rest), fun _ => hsame.symm⟩

theorem rewritten_right_iff (hne : arg ≠ []) (valueAbs : PyStr) :
    SentRight style map arg (rewritten map arg valueAbs) ↔
      if (suffixBelow (hostNorm map.host) (withForwardSlashes arg)).isSome then
        backslash ∈ arg → style = .windows
      else ResolvesRight style map arg (suffixBelow (hostNorm map.host) valueAbs) := by
  rw [rewritten]
  cases hspelled : suffixBelow (hostNorm map.host) (withForwardSlashes arg) with
  | none =>
    rw [if_neg (by simp), Option.none_or]
    exact sentRight_iff_resolvesRight style map arg _ fun found hfound =>
      (suffixBelow_eq_some hfound).2
  | some suffix =>
    obtain ⟨heq, hhead⟩ := suffixBelow_eq_some hspelled
    have hwindows := namesBelow_of_spelled map hne hspelled
    rw [Option.some_or, sentFor, Option.isSome_some, if_pos rfl]
    constructor
    · intro hright hbackslash
      cases style with
      | windows => rfl
      | posix =>
        have hnone : backslash ∉ suffix := fun hmem =>
          backslash_not_mem_forwardSlashes arg (heq ▸ List.mem_append_right _ hmem)
        exact absurd hright (not_sentRight_of_backslash map hbackslash hhead hnone)
    · intro hstyle
      have hbelow : NamesBelow style map arg (parts .posix suffix) := by
        cases style with
        | windows => exact hwindows
        | posix =>
          have hplain : backslash ∉ arg := fun hmem => nomatch hstyle hmem
          rw [NamesBelow, ← hwindows, ← namedPath_forwardSlashes, forwardSlashes_of_not_mem hplain]
      refine ⟨fun rest hrest => ?_, fun hnone => absurd hbelow (hnone _)⟩
      rw [namesBelow_inj style map hrest hbelow]
      exact inContainer_sidecarText map hhead

/-- An argument is sent right exactly if it fits. -/
theorem sent_right_iff :
    (∃ sent, rewritePathForSidecar resolve (some map.text) arg = .ok sent ∧
      SentRight style map arg sent) ↔ Fits style map resolve arg := by
  by_cases hne : arg = []
  · rw [hne]
    refine iff_of_true ⟨[], rfl, fun rest hrest => ?_, fun _ => rfl⟩ (.inl rfl)
    exact absurd hrest (not_namesBelow_nil style map rest)
  · rw [rewritePathForSidecar_eq map resolve arg hne, Fits, or_iff_right hne]
    cases hresolve : resolve arg with
    | path text =>
      simp only [Except.ok.injEq, exists_eq_left', reduceCtorEq, not_false_eq_true, ne_eq,
        implies_true, true_and]
      exact rewritten_right_iff style map arg hne text
    | osError =>
      simp only [Except.ok.injEq, exists_eq_left', reduceCtorEq, not_false_eq_true, ne_eq,
        implies_true, true_and]
      refine (rewritten_right_iff style map arg hne _).trans ?_
      cases suffixBelow (hostNorm map.host) (withForwardSlashes arg) with
      | none => exact Iff.rfl
      | some suffix => exact Iff.rfl
    | raises error =>
      refine iff_of_false ?_ fun hfits => hfits.1 error rfl
      rintro ⟨sent, hsent, -⟩
      exact absurd hsent (by simp)

end Argument

/-! ## All arguments -/

/-- A loop gives related results exactly if each of its steps does. -/
theorem exists_mapM_forall₂_iff {α β ε : Type} {body : α → Except ε β} {related : α → β → Prop}
    (items : List α) :
    (∃ values, items.mapM body = .ok values ∧ List.Forall₂ related items values) ↔
      ∀ item ∈ items, ∃ value, body item = .ok value ∧ related item value := by
  induction items with
  | nil => exact iff_of_true ⟨[], rfl, .nil⟩ fun _ hitem => absurd hitem List.not_mem_nil
  | cons item rest ih =>
    rw [List.forall_mem_cons, ← ih, List.mapM_cons]
    constructor
    · rintro ⟨values, hvalues, hrelated⟩
      obtain ⟨value, hvalue, htail⟩ := Loops.exists_of_bind_eq_ok hvalues
      obtain ⟨others, hothers, hpure⟩ := Loops.exists_of_bind_eq_ok htail
      obtain rfl := Except.ok.inj hpure
      cases hrelated with
      | cons hhead hlater => exact ⟨⟨value, hvalue, hhead⟩, others, hothers, hlater⟩
    · rintro ⟨⟨value, hvalue, hhead⟩, others, hothers, hlater⟩
      exact ⟨value :: others, by rw [hvalue, hothers]; rfl, .cons hhead hlater⟩

/-- All arguments are sent right, and different paths as different texts, exactly if each
argument begins with the host prefix or resolves to what it names. -/
theorem mappedArgs_right_iff (style : PathStyle) (map : PathMap) (resolve : PyStr → Resolved)
    (args : List PyStr) :
    (∃ sent, mappedArgs resolve (some map.text) args = .ok sent ∧
      List.Forall₂ (SentRight style map) args sent ∧
      ∀ first ∈ args.zip sent, ∀ second ∈ args.zip sent, ∀ rest others,
        NamesBelow style map first.1 rest → NamesBelow style map second.1 others →
          rest ≠ others → first.2 ≠ second.2) ↔
      ∀ arg ∈ args, Fits style map resolve arg := by
  have hargs := @exists_mapM_forall₂_iff _ _ _ (rewritePathForSidecar resolve (some map.text))
    (SentRight style map) args
  simp only [sent_right_iff] at hargs
  rw [← hargs]
  constructor
  · rintro ⟨sent, hsent, hright, -⟩
    exact ⟨sent, hsent, hright⟩
  · rintro ⟨sent, hsent, hright⟩
    refine ⟨sent, hsent, hright, ?_⟩
    intro first hfirst second hsecond rest others hrest hothers hdiffer hsame
    obtain ⟨-, hzip⟩ := List.forall₂_iff_zip.mp hright
    have hbelow := (hzip hfirst).below rest hrest
    rw [hsame] at hbelow
    exact hdiffer (inContainer_inj map hbelow ((hzip hsecond).below others hothers))

/-- Clones under one directory of the host and another of the container. -/
def reposMap : PathMap where
  host := py "/srv/repos"
  container := py "/data/repos"
  hostAbsolute := .inl rfl
  containerAbsolute := rfl
  trimmed := by decide
  readable := by decide

/-- A process in a directory, without links and for names without dots. -/
def resolveIn (cwd text : PyStr) : Resolved :=
  .path (if text.head? = some slashChar then text else cwd ++ slashChar :: text)

/-- In a process that runs among the clones a subcommand becomes a path. -/
theorem subcommand_is_rewritten :
    mappedArgs (resolveIn (py "/srv/repos")) (some reposMap.text) [py "analyze"] =
      .ok [py "/data/repos/analyze"] ∧
    ¬∃ sent, mappedArgs (resolveIn (py "/srv/repos")) (some reposMap.text) [py "analyze"] =
        .ok sent ∧ List.Forall₂ (SentRight .posix reposMap) [py "analyze"] sent := by
  have hmapped : mappedArgs (resolveIn (py "/srv/repos")) (some reposMap.text) [py "analyze"] =
      .ok [py "/data/repos/analyze"] := by
    decide +kernel
  refine ⟨hmapped, ?_⟩
  rintro ⟨sent, hsent, hright⟩
  obtain rfl := Except.ok.inj (hmapped.symm.trans hsent)
  cases hright with
  | cons hhead _ =>
    have hother : ∀ rest, ¬NamesBelow .posix reposMap (py "analyze") rest := fun rest hbelow =>
      Bool.false_ne_true (Prod.ext_iff.mp hbelow).1
    exact absurd (hhead.other hother) (by decide)

end RootSeeker.CodeIndex
